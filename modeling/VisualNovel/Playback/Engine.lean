import VisualNovel.Dialogue
import VisualNovel.History
import VisualNovel.Playback.Refusal
import VisualNovel.Playback.Settings
import VisualNovel.Playback.State
import VisualNovel.Reveal

/-!
# The engine

The engine holds a game while it is played: the store of its scenarios, the
state, and what belongs to the visit of the current scene. This module has the
questions that can be asked of it and the moves that its inputs are made of.
-/

namespace VisualNovel

/-- A game while it is played. -/
structure Engine (τ : Type) where
  settings : Settings
  store : Store τ
  state : State
  active : Option Nat
  player : String
  paused : Bool
  reveal : Reveal
  history : History
  recorded : Bool
  serial : Nat
  status : Option String
  reports : List (String × LoadReport)
  catalog : List String

namespace Engine

variable {τ : Type}

/-- The engine before anything is played. -/
def startListed (settings : Settings) (ls : List Listing) : Engine τ where
  settings
  store := .ofListings ls
  state := .mainMenu
  active := none
  player := ""
  paused := false
  reveal := .start
  history := .empty
  recorded := false
  serial := 0
  status := none
  reports := []
  catalog := []

/-- The engine before anything is played or loaded. -/
def start (settings : Settings) (ds : List Descriptor) : Engine τ :=
  .startListed settings (ds.map .found)

/-- Names the tracks that an author can choose. -/
def setCatalog (e : Engine τ) (names : List String) : Engine τ := { e with catalog := names }

/-- The scenario that is being played. -/
def activeEntry (e : Engine τ) : Option (Entry τ) := e.active.bind e.store.get?

/-- The scenes of the scenario that is being played. -/
def activeScenes (e : Engine τ) : List Scene := (e.activeEntry.map (·.scenes)).getD []

/-- The scene that is being played. -/
def currentScene (e : Engine τ) : Option Scene := do
  let i ← e.state.scene?
  let entry ← e.activeEntry
  entry.scenes[i]?

/-- Whether the menu of choices is open. -/
def choicesOpen (e : Engine τ) : Bool := !e.paused && e.currentScene.any Scene.hasChoices

/-- What the current scene says. -/
def dialogue? (e : Engine τ) : Option Dialogue :=
  e.currentScene.map fun scene => Dialogue.ofScene scene e.player

/-- Whether the whole text of the scene is shown. -/
def textComplete (e : Engine τ) : Bool :=
  !e.settings.animated || e.dialogue?.all fun d => e.reveal.isComplete d.text

/-- The position that a save would record. -/
def position? (e : Engine τ) : Option Position :=
  match e.state with
  | .playing scenario scene => some ⟨scenario, e.player, scene⟩
  | _ => none

/-- The texture of a name. -/
def texture? (e : Engine τ) (name : Option String) : Option τ :=
  e.settings.lookup.texture? e.store e.active name

/-- The refusal of an input that belongs to another state. -/
def mismatch (e : Engine τ) (expected : String) : Refusal := .wrongState expected e.state.name

/-- Refuses unless a given state holds. -/
def expect (e : Engine τ) (expected : State) : Except Refusal Unit :=
  if e.state = expected then .ok () else .error (e.mismatch expected.name)

/-- Refuses unless a scenario is being played. -/
def expectPlaying (e : Engine τ) : Except Refusal Unit :=
  if e.state.isPlaying then .ok () else .error (e.mismatch "Playing")

/-- Leaves behind what belongs to the visit of a single scene. -/
def resetVisit (e : Engine τ) : Engine τ :=
  { e with reveal := .start, recorded := false, serial := e.serial + 1 }

/-- Goes from one menu to another. -/
def goToMenu (e : Engine τ) (state : State) : Engine τ := { e with state, status := none }

/-- Begins to play a scenario at a scene. -/
def enter (e : Engine τ) (index scene : Nat) : Engine τ :=
  let fileName := ((e.store.get? index).map (·.descriptor.fileName)).getD ""
  { e with
    active := some index
    state := .playing fileName scene
    paused := false
    status := none }.resetVisit

/-- Goes to another scene of the same scenario. -/
def moveTo (e : Engine τ) (scene : Nat) : Engine τ :=
  let state := match e.state with
    | .playing scenario _ => .playing scenario scene
    | state => state
  { e with state }.resetVisit

/-- Goes to the next scene; behind the last one nothing happens. -/
def stepForward (e : Engine τ) : Engine τ :=
  match e.state.scene? with
  | some i => if i + 1 < e.activeScenes.length then e.moveTo (i + 1) else e
  | none => e

/-- Leaves the game. -/
def exit (e : Engine τ) : Engine τ :=
  { e with
    state := .mainMenu
    active := none
    paused := false
    history := e.history.clear
    status := none }.resetVisit

/-- Makes sure that one scenario is loaded, and keeps the report of a load. -/
def loadOne {m : Type → Type} [Monad m] (source : Source m τ) (index : Nat) (e : Engine τ) :
    m (Engine τ) := do
  let (store, report) ← e.store.ensureLoaded e.settings.layout source index
  let fileName := (store.get? index).map (·.descriptor.fileName)
  let reports := match report, fileName with
    | some r, some name => if r.performed then [(name, r)] else []
    | _, _ => []
  return { e with store, reports := e.reports ++ reports }

/-- The scenarios that are needed to play one: itself and the one whose textures count. -/
def required (e : Engine τ) (index : Nat) : List Nat :=
  match e.settings.lookup.scenario? e.store (some index) with
  | some shared => if shared = index then [index] else [index, shared]
  | none => [index]

/-- Loads scenarios one after the other. -/
def loadEach {m : Type → Type} [Monad m] (source : Source m τ) : List Nat → Engine τ → m (Engine τ)
  | [], e => pure e
  | i :: is, e => do loadEach source is (← e.loadOne source i)

/-- Loads all that is needed to play a scenario. -/
def load {m : Type → Type} [Monad m] (source : Source m τ) (index : Nat) (e : Engine τ) :
    m (Engine τ) :=
  loadEach source (e.required index) e

/-- The reports of all loads since they were last taken. -/
def takeReports (e : Engine τ) : List (String × LoadReport) × Engine τ :=
  (e.reports, { e with reports := [] })

/-- Knows other scenarios from now on; not while one is being played. -/
def rescanListed (e : Engine τ) (ls : List Listing) : Except Refusal (Engine τ) :=
  if e.state.isPlaying then .error (e.mismatch "MainMenu")
  else .ok { e with store := .ofListings ls }

/-- Knows other scenarios from now on, none of which is loaded. -/
def rescan (e : Engine τ) (ds : List Descriptor) : Except Refusal (Engine τ) :=
  e.rescanListed (ds.map .found)

/-- Lets go of everything that was loaded and loads again what is being played. -/
def unloadAll {m : Type → Type} [Monad m] (source : Source m τ) (e : Engine τ) : m (Engine τ) :=
  let e := { e with store := e.store.unloadAll }
  match e.active with
  | some index => e.load source index
  | none => pure e

end Engine

end VisualNovel
