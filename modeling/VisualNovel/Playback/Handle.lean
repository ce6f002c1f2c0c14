import VisualNovel.Playback.Editor

/-!
# Handling inputs

An input is answered in three steps. First it is decided, without changing
anything, what it asks for; then a scenario is loaded if one is to be entered;
and last the scenario is entered. An input that is refused in any step leaves
the game as it was, apart from what has been loaded and from the status line that
says why.
-/

namespace VisualNovel.Engine

variable {τ : Type}

/-- A scenario to enter, and for which reason. -/
inductive Entrance where
  | newGame (index : Nat) (player : String)
  | savedGame (index : Nat) (position : Position)
  | choice (index : Nat) (target : String)
deriving DecidableEq, Repr

/-- The index of the scenario to enter. -/
def Entrance.index : Entrance → Nat
  | .newGame i _ => i
  | .savedGame i _ => i
  | .choice i _ => i

/-- What an accepted input comes to: a changed game, or a scenario to enter. -/
inductive Plan (τ : Type) where
  | done (e : Engine τ)
  | enter (entrance : Entrance)

/-- The entrance of a new game. -/
def planNewGame (e : Engine τ) (scenario : Option String) (player : String) :
    Except Refusal Entrance := do
  e.expect .scenarioSelect
  match Text.trimmedNonBlank player with
  | none => throw .blankPlayerName
  | some player =>
    let name ← match e.settings.lookup, scenario with
      | .shared, _ => pure sharedScenario
      | .perScenario, some name => pure name
      | .perScenario, none => throw .noScenarioSelected
    match e.store.findIndex? name with
    | none => throw (.scenarioNotFound name)
    | some index => return .newGame index player

/-- The entrance of a saved game. -/
def planSavedGame (e : Engine τ) (record : SaveRecord) : Except Refusal Entrance := do
  e.expect .saveSelect
  match record.toPosition with
  | .error reason => throw (.save reason)
  | .ok position =>
    match e.store.findIndex? position.scenario with
    | none => throw (.save (.unknownScenario position.scenario))
    | some index => return .savedGame index position

/-- The choice of the current scene that is offered at an index. -/
def offered? (e : Engine τ) (index : Nat) : Option Choice :=
  (e.currentScene.bind (·.choices.get? index)).filter Choice.isPresent

/-- What a choice leads to: another scenario, or else the next scene. -/
def planChoice (e : Engine τ) (index : Nat) : Except Refusal (Plan τ) := do
  e.expectPlaying
  if e.paused then throw (.wrongState "Playing" "PauseMenuOpen")
  match e.offered? index with
  | none => throw (.invalidChoice index)
  | some choice =>
    match choice.target with
    | none => return .done (if e.settings.editing then e else e.stepForward)
    | some target =>
      match e.store.findIndex? target with
      | none => throw (.scenarioNotFound target)
      | some index => return .enter (.choice index target)

/-- What a signal to go on does: nothing while editing, paused or choosing. -/
def advance (e : Engine τ) : Except Refusal (Engine τ) := do
  e.expectPlaying
  if e.settings.editing || e.paused || e.choicesOpen then return e
  return e.stepForward

/-- What an input asks for, decided without loading anything. -/
def plan (e : Engine τ) : Input → Except Refusal (Plan τ)
  | .openScenarioSelect => do
    e.expect .mainMenu
    return .done (e.goToMenu .scenarioSelect)
  | .openSaveSelect => do
    e.expect .mainMenu
    return .done (e.goToMenu .saveSelect)
  | .back =>
    match e.state with
    | .scenarioSelect | .saveSelect => .ok (.done (e.goToMenu .mainMenu))
    | _ => .error (e.mismatch "ScenarioSelect | SaveSelect")
  | .startNewGame scenario player => (e.planNewGame scenario player).map .enter
  | .loadSave record => (e.planSavedGame record).map .enter
  | .advance => e.advance.map .done
  | .activateChoice index => e.planChoice index
  | .togglePause => do
    e.expectPlaying
    return .done { e with paused := !e.paused }
  | .exitToMainMenu => .ok (.done e.exit)
  | .editor input => (e.edit input).map .done

/-- The number of scenes of a scenario that can be played. -/
def playable (e : Engine τ) (index : Nat) : Except Refusal Nat :=
  match e.store.get? index with
  | none => .error .noScenarioSelected
  | some entry =>
    if entry.scenes.isEmpty then .error (.emptyScenario entry.descriptor.fileName)
    else .ok entry.scenes.length

/-- Enters a scenario that has been loaded; the moment is that of a switch. -/
def enterLoaded (now : Nat) (e : Engine τ) (entrance : Entrance) : Except Refusal (Engine τ) := do
  let length ← e.playable entrance.index
  match entrance with
  | .newGame index player => return { e with player }.enter index 0
  | .savedGame index position =>
    unless position.scene < length do
      throw (.save (.sceneOutOfRange position.scene length))
    return { e with player := position.player }.enter index position.scene
  | .choice index target =>
    return { e with history := e.history.push (.scenarioSwitch target now) }.enter index 0

/-- Refuses an input: the status line says why. -/
def refuse (e : Engine τ) (reason : Refusal) : Engine τ × Except Refusal Unit :=
  ({ e with status := some reason.message }, .error reason)

/-- The engine after an input that was accepted, or refused for a reason. -/
def settle (e : Engine τ) : Except Refusal (Engine τ) → Engine τ × Except Refusal Unit
  | .ok e => (e, .ok ())
  | .error reason => e.refuse reason

/-- Handles an input at a moment. -/
def handle {m : Type → Type} [Monad m] (source : Source m τ) (now : Nat) (input : Input)
    (e : Engine τ) : m (Engine τ × Except Refusal Unit) :=
  match e.plan input with
  | .error reason => pure (e.refuse reason)
  | .ok (.done e) => pure (e, .ok ())
  | .ok (.enter entrance) => do
    let e ← e.load source entrance.index
    pure (e.settle (e.enterLoaded now entrance))

end VisualNovel.Engine
