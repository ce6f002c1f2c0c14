import VisualNovel.Proofs.Playback.Answer

/-!
# What plans overlook

What an input asks for is decided by the state of the engine, by the scene that is being
played and by the names of the scenarios. A change of the engine that leaves these alone, and
that can be made after every move as well as before it, is overlooked: whoever makes it first
and then decides gets the same as someone who decides first and then makes it.
-/

namespace VisualNovel.Engine

variable {τ : Type} {f : Engine τ → Engine τ} {e : Engine τ}

/-- A plan whose engine is changed. -/
def Plan.map (f : Engine τ → Engine τ) : Plan τ → Plan τ
  | .done e => .done (f e)
  | .enter entrance => .enter entrance

/-- A change that no plan of an engine looks at. -/
structure Overlooked (f : Engine τ → Engine τ) (e : Engine τ) : Prop where
  editing_eq : (f e).settings.editing = e.settings.editing
  lookup_eq : (f e).settings.lookup = e.settings.lookup
  state_eq : (f e).state = e.state
  paused_eq : (f e).paused = e.paused
  findIndex?_eq (fileName : String) : (f e).store.findIndex? fileName = e.store.findIndex? fileName
  currentScene_eq : (f e).currentScene = e.currentScene
  activeScenes_eq : (f e).activeScenes = e.activeScenes
  goToMenu (state : State) : (f e).goToMenu state = f (e.goToMenu state)
  moveTo (scene : Nat) : (f e).moveTo scene = f (e.moveTo scene)
  pause (paused : Bool) : { f e with paused } = f { e with paused }
  exit : (f e).exit = f e.exit
  edit (input : EditorInput) : (f e).edit input = (e.edit input).map f

namespace Overlooked

/-- An overlooked change leaves what is expected. -/
theorem expect (h : Overlooked f e) (state : State) : (f e).expect state = e.expect state := by
  simp only [Engine.expect, mismatch, h.state_eq]

/-- An overlooked change leaves whether play is expected. -/
theorem expectPlaying (h : Overlooked f e) : (f e).expectPlaying = e.expectPlaying := by
  simp only [Engine.expectPlaying, mismatch, h.state_eq]

/-- An overlooked change leaves whether a menu is open. -/
theorem choicesOpen (h : Overlooked f e) : (f e).choicesOpen = e.choicesOpen := by
  simp only [Engine.choicesOpen, h.paused_eq, h.currentScene_eq]

/-- An overlooked change leaves the choices. -/
theorem offered? (h : Overlooked f e) (index : Nat) : (f e).offered? index = e.offered? index := by
  simp only [Engine.offered?, h.currentScene_eq]

/-- An overlooked change can be made before or after a step. -/
theorem stepForward (h : Overlooked f e) : (f e).stepForward = f e.stepForward := by
  rw [Engine.stepForward, Engine.stepForward, h.state_eq, h.activeScenes_eq]
  cases e.state.scene? with
  | none => rfl
  | some i =>
    dsimp only
    split
    · exact h.moveTo (i + 1)
    · rfl

/-- An overlooked change leaves the plan for a new game. -/
theorem planNewGame (h : Overlooked f e) (scenario : Option String) (player : String) :
    (f e).planNewGame scenario player = e.planNewGame scenario player := by
  simp only [Engine.planNewGame, h.expect, h.lookup_eq, h.findIndex?_eq]

/-- An overlooked change leaves the plan for a saved game. -/
theorem planSavedGame (h : Overlooked f e) (record : SaveRecord) :
    (f e).planSavedGame record = e.planSavedGame record := by
  simp only [Engine.planSavedGame, h.expect, h.findIndex?_eq]

/-- An overlooked change can be made before or after a choice. -/
theorem planChoice (h : Overlooked f e) (index : Nat) :
    (f e).planChoice index = (e.planChoice index).map (Plan.map f) := by
  simp only [Engine.planChoice, h.expectPlaying, h.paused_eq, h.offered?, h.editing_eq,
    h.findIndex?_eq, h.stepForward]
  cases e.expectPlaying with
  | error reason => rfl
  | ok _ =>
    by_cases hpaused : e.paused = true
    · simp only [hpaused, if_true]
      rfl
    · simp only [hpaused]
      cases e.offered? index with
      | none => rfl
      | some c =>
        dsimp only
        cases c.target with
        | none => cases e.settings.editing <;> rfl
        | some target =>
          dsimp only
          cases e.store.findIndex? target <;> rfl

/-- An overlooked change can be made before or after a signal to go on. -/
theorem advance (h : Overlooked f e) : (f e).advance = e.advance.map f := by
  simp only [Engine.advance, h.expectPlaying, h.editing_eq, h.paused_eq, h.choicesOpen,
    h.stepForward]
  cases e.expectPlaying with
  | error reason => rfl
  | ok _ => cases e.settings.editing || e.paused || e.choicesOpen <;> rfl

/-- A change that is overlooked may as well be made after the decision. -/
theorem plan (h : Overlooked f e) (input : Input) :
    (f e).plan input = (e.plan input).map (Plan.map f) := by
  cases input with
  | openScenarioSelect =>
    simp only [Engine.plan, h.expect, h.goToMenu]
    cases e.expect .mainMenu <;> rfl
  | openSaveSelect =>
    simp only [Engine.plan, h.expect, h.goToMenu]
    cases e.expect .mainMenu <;> rfl
  | back =>
    simp only [Engine.plan, mismatch, h.state_eq, h.goToMenu]
    cases e.state <;> rfl
  | startNewGame scenario player =>
    simp only [Engine.plan, h.planNewGame]
    cases e.planNewGame scenario player <;> rfl
  | loadSave record =>
    simp only [Engine.plan, h.planSavedGame]
    cases e.planSavedGame record <;> rfl
  | advance =>
    simp only [Engine.plan, h.advance]
    cases e.advance <;> rfl
  | activateChoice index => exact h.planChoice index
  | togglePause =>
    simp only [Engine.plan, h.expectPlaying, h.paused_eq, h.pause]
    cases e.expectPlaying <;> rfl
  | exitToMainMenu =>
    simp only [Engine.plan, h.exit]
    rfl
  | editor input =>
    simp only [Engine.plan, h.edit]
    cases e.edit input <;> rfl

end Overlooked

end VisualNovel.Engine
