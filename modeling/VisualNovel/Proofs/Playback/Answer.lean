import VisualNovel.Playback.Handle
import VisualNovel.Proofs.Playback.Edit
import VisualNovel.Proofs.Playback.Loading

/-!
# Answers to inputs

What an input can come to. It is refused, or it changes the game at once, or it asks for a
scenario to be entered; then the scenario is loaded, and only a scenario that turns out to
be unplayable is still refused. Each way is said once here, with all that was checked.
-/

namespace VisualNovel.Engine

open MonadAttach LawfulMonadAttach

variable {τ : Type} {e e' : Engine τ}

/-- An engine that is as expected is in that state. -/
theorem eq_of_expect {s : State} (h : e.expect s = .ok ()) : e.state = s := by
  rw [expect] at h
  split at h
  · assumption
  · cases h

/-- The name of the scenario that a new game begins with. -/
def newGameName (lookup : TextureLookup) (scenario : Option String) : Option String :=
  match lookup with
  | .shared => some sharedScenario
  | .perScenario => scenario

/-- What an input asks for if it is not refused at once. -/
inductive Accepts (e : Engine τ) : Input → Plan τ → Prop where
  | openScenarioSelect (state : e.state = .mainMenu) :
      Accepts e .openScenarioSelect (.done (e.goToMenu .scenarioSelect))
  | openSaveSelect (state : e.state = .mainMenu) :
      Accepts e .openSaveSelect (.done (e.goToMenu .saveSelect))
  | back (state : e.state = .scenarioSelect ∨ e.state = .saveSelect) :
      Accepts e .back (.done (e.goToMenu .mainMenu))
  | startNewGame {scenario : Option String} {given player name : String} {index : Nat}
      (state : e.state = .scenarioSelect) (trimmed : Text.trimmedNonBlank given = some player)
      (chosen : newGameName e.settings.lookup scenario = some name)
      (listed : e.store.findIndex? name = some index) :
      Accepts e (.startNewGame scenario given) (.enter (.newGame index player))
  | loadSave {record : SaveRecord} {position : Position} {index : Nat}
      (state : e.state = .saveSelect) (complete : record.toPosition = .ok position)
      (listed : e.store.findIndex? position.scenario = some index) :
      Accepts e (.loadSave record) (.enter (.savedGame index position))
  | wait (playing : e.state.isPlaying = true)
      (held : (e.settings.editing || e.paused || e.choicesOpen) = true) :
      Accepts e .advance (.done e)
  | advance (playing : e.state.isPlaying = true)
      (free : (e.settings.editing || e.paused || e.choicesOpen) = false) :
      Accepts e .advance (.done e.stepForward)
  | choose {index : Nat} {c : Choice} (playing : e.state.isPlaying = true)
      (unpaused : e.paused = false) (offered : e.offered? index = some c)
      (untargeted : c.target = none) :
      Accepts e (.activateChoice index) (.done (if e.settings.editing then e else e.stepForward))
  | follow {index k : Nat} {c : Choice} {target : String} (playing : e.state.isPlaying = true)
      (unpaused : e.paused = false) (offered : e.offered? index = some c)
      (targeted : c.target = some target) (listed : e.store.findIndex? target = some k) :
      Accepts e (.activateChoice index) (.enter (.choice k target))
  | togglePause (playing : e.state.isPlaying = true) :
      Accepts e .togglePause (.done { e with paused := !e.paused })
  | exitToMainMenu : Accepts e .exitToMainMenu (.done e.exit)
  | editor {input : EditorInput} {e' : Engine τ} (edited : e.edit input = .ok e') :
      Accepts e (.editor input) (.done e')

/-- Where play is expected and nothing is refused, a scenario is being played. -/
theorem isPlaying_of_expectPlaying (h : e.expectPlaying = .ok ()) : e.state.isPlaying = true := by
  obtain ⟨scenario, scene, hs⟩ := eq_playing_of_expectPlaying h
  rw [hs]
  rfl

/-- What needs a scenario is accepted only if the scenario is found by its name. -/
theorem exists_of_find_eq_ok {α : Type} {name : String} {reason : Refusal} {a : α} (f : Nat → α)
    (h : (match e.store.findIndex? name with
      | none => throw reason
      | some index => pure (f index) : Except Refusal α) = .ok a) :
    ∃ index, e.store.findIndex? name = some index ∧ f index = a := by
  split at h
  · cases h
  · next index hindex => exact ⟨index, hindex, Except.ok.inj h⟩

/-- A new game that is planned is entered. -/
theorem accepts_startNewGame {scenario : Option String} {given : String} {entrance : Entrance}
    (h : e.planNewGame scenario given = .ok entrance) :
    Accepts e (.startNewGame scenario given) (.enter entrance) := by
  obtain ⟨_, hstate, h⟩ := exists_of_bind_eq_ok h
  replace hstate := eq_of_expect hstate
  split at h
  · cases h
  · next player hplayer =>
    cases hl : e.settings.lookup with
    | shared =>
      rw [hl] at h
      obtain ⟨index, hindex, rfl⟩ := exists_of_find_eq_ok (Entrance.newGame · player) h
      exact .startNewGame hstate hplayer (congrArg (newGameName · scenario) hl) hindex
    | perScenario =>
      rw [hl] at h
      cases scenario with
      | none => cases h
      | some name =>
        obtain ⟨index, hindex, rfl⟩ := exists_of_find_eq_ok (Entrance.newGame · player) h
        exact .startNewGame hstate hplayer (congrArg (newGameName · (some name)) hl) hindex

/-- A saved game that is planned is entered. -/
theorem accepts_loadSave {record : SaveRecord} {entrance : Entrance}
    (h : e.planSavedGame record = .ok entrance) :
    Accepts e (.loadSave record) (.enter entrance) := by
  obtain ⟨_, hstate, h⟩ := exists_of_bind_eq_ok h
  split at h
  · cases h
  · next position hposition =>
    obtain ⟨index, hindex, rfl⟩ := exists_of_find_eq_ok (Entrance.savedGame · position) h
    exact .loadSave (eq_of_expect hstate) hposition hindex

/-- A choice that is planned is what the input asks for. -/
theorem accepts_activateChoice {index : Nat} {p : Plan τ} (h : e.planChoice index = .ok p) :
    Accepts e (.activateChoice index) p := by
  obtain ⟨_, hplaying, h⟩ := exists_of_bind_eq_ok h
  replace hplaying := isPlaying_of_expectPlaying hplaying
  cases hpaused : e.paused with
  | true =>
    rw [hpaused] at h
    cases h
  | false =>
    simp only [hpaused, Bool.false_eq_true, if_false] at h
    split at h
    · cases h
    · next c hc =>
      split at h
      · next htarget =>
        cases h
        exact .choose hplaying hpaused hc htarget
      · next target htarget =>
        obtain ⟨k, hk, rfl⟩ := exists_of_find_eq_ok
          (fun k => Plan.enter (Entrance.choice k target)) h
        exact .follow hplaying hpaused hc htarget hk

/-- A signal to go on that is carried out is what the input asks for. -/
theorem accepts_advance (h : e.advance = .ok e') : Accepts e .advance (.done e') := by
  obtain ⟨_, hplaying, h⟩ := exists_of_bind_eq_ok h
  replace hplaying := isPlaying_of_expectPlaying hplaying
  split at h
  · next hheld =>
    cases h
    exact .wait hplaying hheld
  · next hfree =>
    cases h
    exact .advance hplaying (Bool.eq_false_iff.mpr hfree)

/-- Every input that is not refused at once asks for one of these. -/
theorem accepts_of_plan {input : Input} {p : Plan τ} (h : e.plan input = .ok p) :
    Accepts e input p := by
  cases input with
  | openScenarioSelect =>
    obtain ⟨_, hstate, h⟩ := exists_of_bind_eq_ok h
    cases h
    exact .openScenarioSelect (eq_of_expect hstate)
  | openSaveSelect =>
    obtain ⟨_, hstate, h⟩ := exists_of_bind_eq_ok h
    cases h
    exact .openSaveSelect (eq_of_expect hstate)
  | back =>
    simp only [plan] at h
    split at h
    · next hs =>
      cases h
      exact .back (Or.inl hs)
    · next hs =>
      cases h
      exact .back (Or.inr hs)
    · cases h
  | startNewGame scenario player =>
    obtain ⟨entrance, hentrance, rfl⟩ := exists_of_map_eq_ok h
    exact accepts_startNewGame hentrance
  | loadSave record =>
    obtain ⟨entrance, hentrance, rfl⟩ := exists_of_map_eq_ok h
    exact accepts_loadSave hentrance
  | advance =>
    obtain ⟨e', hadvance, rfl⟩ := exists_of_map_eq_ok h
    exact accepts_advance hadvance
  | activateChoice index => exact accepts_activateChoice h
  | togglePause =>
    obtain ⟨_, hplaying, h⟩ := exists_of_bind_eq_ok h
    cases h
    exact .togglePause (isPlaying_of_expectPlaying hplaying)
  | exitToMainMenu =>
    cases h
    exact .exitToMainMenu
  | editor input =>
    obtain ⟨e', hedit, rfl⟩ := exists_of_map_eq_ok h
    exact .editor hedit

namespace Entrance

/-- The scene that is entered. -/
def scene : Entrance → Nat
  | .savedGame _ position => position.scene
  | _ => 0

/-- Who plays after an entrance. -/
def player (e : Engine τ) : Entrance → String
  | .newGame _ player => player
  | .savedGame _ position => position.player
  | .choice _ _ => e.player

/-- The history after an entrance, of which only a switch tells. -/
def history (now : Nat) (h : History) : Entrance → History
  | .choice _ target => h.push (.scenarioSwitch target now)
  | _ => h

end Entrance

/-- Whether a scenario is entered at a scene, which its entry decides. -/
def grantEntry (entry : Option (Entry τ)) (scene : Nat) : Except Refusal Unit :=
  match entry with
  | none => .error .noScenarioSelected
  | some entry =>
    if entry.scenes.isEmpty then .error (.emptyScenario entry.descriptor.fileName)
    else if scene < entry.scenes.length then .ok ()
    else .error (.save (.sceneOutOfRange scene entry.scenes.length))

/-- A scenario is entered at a scene just if it has that scene. -/
theorem grantEntry_eq_ok_iff {entry : Entry τ} {scene : Nat} :
    grantEntry (some entry) scene = .ok () ↔ scene < entry.scenes.length := by
  rw [grantEntry]
  split
  · next hempty =>
    rw [List.isEmpty_iff] at hempty
    simp [hempty]
  · split
    · next hscene => exact iff_of_true rfl hscene
    · next hscene => exact iff_of_false nofun hscene

/-- An entrance that is granted changes the engine as the entrance says. -/
theorem enterLoaded_eq (e : Engine τ) (now : Nat) (entrance : Entrance) :
    e.enterLoaded now entrance =
      (grantEntry (e.store.get? entrance.index) entrance.scene).map fun _ =>
        ({ e with
          player := entrance.player e
          history := entrance.history now e.history } : Engine τ).enter entrance.index
            entrance.scene := by
  rw [enterLoaded, playable]
  cases e.store.get? entrance.index with
  | none => rfl
  | some entry =>
    by_cases hempty : entry.scenes.isEmpty = true
    · simp only [grantEntry, hempty, if_true]
      rfl
    · have hlength : 0 < entry.scenes.length := by
        rw [List.isEmpty_iff] at hempty
        exact List.length_pos_iff.mpr hempty
      simp only [grantEntry, hempty]
      cases entrance with
      | newGame index player =>
        simp only [Entrance.scene, hlength, if_true]
        rfl
      | savedGame index position =>
        by_cases hscene : position.scene < entry.scenes.length
        · simp only [Entrance.scene, hscene, if_true]
          exact if_pos hscene
        · simp only [Entrance.scene, hscene]
          exact if_neg hscene
      | choice index target =>
        simp only [Entrance.scene, hlength, if_true]
        rfl

/-- A scenario is entered only at a scene that it has. -/
theorem enterLoaded_eq_ok {now : Nat} {entrance : Entrance}
    (h : e.enterLoaded now entrance = .ok e') :
    ∃ entry, e.store.get? entrance.index = some entry ∧ entrance.scene < entry.scenes.length ∧
      e' = ({ e with
        player := entrance.player e
        history := entrance.history now e.history } : Engine τ).enter entrance.index
          entrance.scene := by
  rw [enterLoaded_eq] at h
  obtain ⟨_, hgranted, rfl⟩ := exists_of_map_eq_ok h
  cases hentry : e.store.get? entrance.index with
  | none =>
    rw [hentry] at hgranted
    cases hgranted
  | some entry =>
    rw [hentry] at hgranted
    exact ⟨entry, rfl, grantEntry_eq_ok_iff.mp hgranted, rfl⟩

/-- How an input is answered at a moment. -/
inductive Answers (e : Engine τ) (input : Input) (now : Nat) :
    Engine τ × Except Refusal Unit → Prop where
  | refused {reason : Refusal} (plan : e.plan input = .error reason) :
      Answers e input now (e.refuse reason)
  | done {e' : Engine τ} (accepted : Accepts e input (.done e')) :
      Answers e input now (e', .ok ())
  | unplayable {entrance : Entrance} {e₁ : Engine τ} {reason : Refusal}
      (accepted : Accepts e input (.enter entrance)) (loads : Loads e e₁)
      (entered : e₁.enterLoaded now entrance = .error reason) :
      Answers e input now (e₁.refuse reason)
  | entered {entrance : Entrance} {e₁ e' : Engine τ}
      (accepted : Accepts e input (.enter entrance)) (loads : Loads e e₁)
      (ready : e₁.store.Ready entrance.index)
      (shared : ∀ i ∈ e.settings.lookup.scenario? e.store (some entrance.index),
        e₁.store.Ready i)
      (entered : e₁.enterLoaded now entrance = .ok e') :
      Answers e input now (e', .ok ())

/-- A step forward goes to a scene of the same scenario, or does nothing. -/
theorem exists_stepForward (e : Engine τ) :
    e.stepForward = e ∨ ∃ scene, e.stepForward = e.moveTo scene := by
  rw [stepForward]
  split
  · split
    · exact Or.inr ⟨_, rfl⟩
    · exact Or.inl rfl
  · exact Or.inl rfl

/-- Going on leaves the settings. -/
theorem settings_stepForward (e : Engine τ) : e.stepForward.settings = e.settings := by
  rcases e.exists_stepForward with hstay | ⟨scene, hmove⟩
  · rw [hstay]
  · rw [hmove]
    rfl

/-- An accepted input leaves the settings. -/
theorem Accepts.settings_eq {input : Input} (h : Accepts e input (.done e')) :
    e'.settings = e.settings := by
  cases h with
  | advance _ _ => exact e.settings_stepForward
  | choose _ _ _ _ =>
    split
    · rfl
    · exact e.settings_stepForward
  | editor hedit =>
    obtain ⟨_, _, _, _, hedited⟩ := edited_of_edit hedit
    exact hedited.settings_eq
  | _ => rfl

/-- No input changes the settings. -/
theorem Answers.settings_eq {input : Input} {now : Nat} {result : Except Refusal Unit}
    (h : Answers e input now (e', result)) : e'.settings = e.settings := by
  cases h with
  | refused _ => rfl
  | done haccepts => exact haccepts.settings_eq
  | unplayable _ hloads _ => exact hloads.settings_eq
  | entered _ hloads _ _ hentered =>
    obtain ⟨_, _, _, rfl⟩ := enterLoaded_eq_ok hentered
    exact hloads.settings_eq

/-- Whatever the source says, an input is answered in one of these ways. -/
theorem answers_of_canReturn_handle {m : Type → Type} [Monad m] [LawfulMonad m] [MonadAttach m]
    [LawfulMonadAttach m] {source : Source m τ} {now : Nat} {input : Input}
    {answer : Engine τ × Except Refusal Unit}
    (h : CanReturn (e.handle source now input) answer) : Answers e input now answer := by
  rw [handle] at h
  split at h
  · next reason hplan =>
    obtain rfl := eq_of_canReturn_pure h
    exact .refused hplan
  · next e' hplan =>
    obtain rfl := eq_of_canReturn_pure h
    exact .done (accepts_of_plan hplan)
  · next entrance hplan =>
    obtain ⟨e₁, hload, h⟩ := canReturn_bind_imp' h
    obtain rfl := eq_of_canReturn_pure h
    obtain ⟨hloads, hready, hshared⟩ := loads_of_canReturn_load hload
    cases hentered : e₁.enterLoaded now entrance with
    | error reason => exact .unplayable (accepts_of_plan hplan) hloads hentered
    | ok e' => exact .entered (accepts_of_plan hplan) hloads hready hshared hentered

end VisualNovel.Engine
