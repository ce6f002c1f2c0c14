/-!
# Presence

Others can be told what is being played. The game publishes a snapshot whenever
it likes; a thread looks at the latest one from time to time and reports it if it
differs from the last one that was reported, though never before the intro is
over. Before each look it asks whether to go on, and once it is told to stop it
takes its report back. The game and the thread take turns in any order, and what
is done in one turn is done at once.
-/

namespace VisualNovel

/-- What the game publishes. -/
structure Snapshot where
  started : Bool
  introFinished : Bool
  scenario : Option String
  editing : Bool
deriving DecidableEq, Repr

/-- The snapshot before anything was published. -/
def Snapshot.blank : Snapshot := ⟨false, false, none, false⟩

/-- What others are told. -/
structure Activity where
  details : String
  state : Option String
  image : String
  startTime : Nat
deriving DecidableEq, Repr

/-- What others are told about a snapshot. -/
def Activity.ofSnapshot (s : Snapshot) (logoKey : String) (startTime : Nat) : Activity where
  details :=
    if s.started then if s.editing then "Editing scenario" else "Playing scenario"
    else "In main menu"
  state := if s.started then some (s.scenario.getD "Unknown scenario") else none
  image := logoKey
  startTime

/-- What the service behind the presence is asked to do. -/
inductive Report where
  | update (activity : Activity)
  | clear
deriving DecidableEq, Repr

/-- What the thread does next. -/
inductive Presence.Stage where
  | asking
  | looking
  | weighing (s : Snapshot)
  | leaving
  | gone
deriving DecidableEq, Repr

/-- The latest snapshot and the last one that was reported, whether to go on, and how far the
thread has come. -/
structure Presence where
  logoKey : String
  startTime : Nat
  published : Snapshot
  reported : Option Snapshot
  running : Bool
  stage : Presence.Stage
deriving DecidableEq, Repr

namespace Presence

/-- A presence that has nothing to report yet. -/
def start (logoKey : String) (startTime : Nat) : Presence :=
  ⟨logoKey, startTime, .blank, none, true, .asking⟩

/-- Puts a snapshot in the place of the latest one. -/
def publish (p : Presence) (s : Snapshot) : Presence := { p with published := s }

/-- Tells the thread not to go on. -/
def halt (p : Presence) : Presence := { p with running := false }

/-- Reports a snapshot that was seen, if it is due. -/
def weigh (p : Presence) (s : Snapshot) : Presence × List Report :=
  if !s.introFinished || p.reported == some s then (p, [])
  else ({ p with reported := some s }, [.update (.ofSnapshot s p.logoKey p.startTime)])

/-- The next step of the thread, and what the service is asked to do in it. -/
def step (p : Presence) : Presence × List Report :=
  match p.stage with
  | .asking => ({ p with stage := if p.running then .looking else .leaving }, [])
  | .looking => ({ p with stage := .weighing p.published }, [])
  | .weighing s => ({ p with stage := .asking } : Presence).weigh s
  | .leaving => ({ p with stage := .gone }, [.clear])
  | .gone => (p, [])

/-- What can be done in one turn, by the game or by the thread. -/
inductive Turn where
  | publish (s : Snapshot)
  | halt
  | step
deriving DecidableEq, Repr

/-- The presence after a turn, and what the service is asked to do in it. -/
def take (p : Presence) : Turn → Presence × List Report
  | .publish s => (p.publish s, [])
  | .halt => (p.halt, [])
  | .step => p.step

/-- The presence after some turns, and what the service is asked to do in them. -/
def run (p : Presence) : List Turn → Presence × List Report
  | [] => (p, [])
  | turn :: turns =>
    let (p, told) := p.take turn
    let (p, more) := p.run turns
    (p, told ++ more)

/-- A round of the thread that nothing comes between: it asks, looks and weighs. -/
def poll (p : Presence) : Presence × List Report := p.run [.step, .step, .step]

/-- Tells the thread to stop and waits for it. Wherever it is, it needs four more steps at
most. -/
def stop (p : Presence) : Presence × List Report := p.run [.halt, .step, .step, .step, .step]

end Presence

end VisualNovel
