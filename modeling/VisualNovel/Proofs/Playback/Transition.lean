import VisualNovel.Proofs.Playback.Coherence

/-!
# Transitions

Where an input can lead. A scenario is begun only from the menu that offers it and left only
for the main menu; another one is reached only by a choice that leads there; and apart from
that a scene gives way to the next one alone, and only to an input that asks for it. An
author jumps between scenes instead. While a game is paused, nothing but the pause itself
and leaving the game does anything.
-/

namespace VisualNovel.Engine

open MonadAttach LawfulMonadAttach

variable {τ : Type} {e e' : Engine τ} {input : Input}

/-- An offered choice is one of the current scene that has a label. -/
theorem offered?_eq_some_iff {index : Nat} {c : Choice} :
    e.offered? index = some c ↔
      ∃ scene, e.currentScene = some scene ∧ scene.choices.get? index = some c ∧
        c.isPresent = true := by
  rw [offered?, Option.filter_eq_some_iff, Option.bind_eq_some_iff]
  constructor
  · rintro ⟨⟨scene, hscene, hc⟩, hpresent⟩
    exact ⟨scene, hscene, hc, hpresent⟩
  · rintro ⟨scene, hscene, hc, hpresent⟩
    exact ⟨⟨scene, hscene, hc⟩, hpresent⟩

/-- A scenario is begun from a menu: at its first scene, or where a save says. -/
inductive Begins (e : Engine τ) : Input → Engine τ → Prop where
  | newGame {scenario : Option String} {given name : String} {e' : Engine τ}
      (menu : e.state = .scenarioSelect)
      (chosen : newGameName e.settings.lookup scenario = some name)
      (state : e'.state = .playing name 0) :
      Begins e (.startNewGame scenario given) e'
  | savedGame {record : SaveRecord} {position : Position} {e' : Engine τ}
      (menu : e.state = .saveSelect) (complete : record.toPosition = .ok position)
      (state : e'.state = .playing position.scenario position.scene) :
      Begins e (.loadSave record) e'

/-- A choice of the current scene leads to the first scene of a scenario. -/
inductive Switches (e : Engine τ) : Input → Engine τ → Prop where
  | follow {index k : Nat} {scene : Scene} {c : Choice} {target : String} {entry : Entry τ}
      {e' : Engine τ} (unpaused : e.paused = false) (current : e.currentScene = some scene)
      (given : scene.choices.get? index = some c) (present : c.isPresent = true)
      (targeted : c.target = some target) (listed : e.store.findIndex? target = some k)
      (loaded : e'.store.get? k = some entry) (playable : entry.scenes ≠ [])
      (state : e'.state = .playing target 0) :
      Switches e (.activateChoice index) e'

/-- An input that asks for the next scene: a signal to go on in a scene without choices, or a
choice that leads nowhere else. -/
inductive Proceeds (e : Engine τ) : Input → Prop where
  | advance (unchosen : ∀ scene ∈ e.currentScene, scene.hasChoices = false) :
      Proceeds e .advance
  | choose {index : Nat} {scene : Scene} {c : Choice} (current : e.currentScene = some scene)
      (given : scene.choices.get? index = some c) (present : c.isPresent = true)
      (untargeted : c.target = none) :
      Proceeds e (.activateChoice index)

/-- Where an input leads from a scene of a scenario. -/
inductive Course (e : Engine τ) (scenario : String) (scene : Nat) (input : Input)
    (e' : Engine τ) : Prop where
  | stays (state : e'.state = .playing scenario scene)
  | leaves (exits : input = .exitToMainMenu) (state : e'.state = .mainMenu)
  | switches (switches : Switches e input e')
  | proceeds (playing : e.settings.editing = false) (unpaused : e.paused = false)
      (more : scene + 1 < e.activeScenes.length) (proceeds : Proceeds e input)
      (state : e'.state = .playing scenario (scene + 1))
  | jumps {target : Nat} (editing : e.settings.editing = true)
      (jumps : input = .editor (.selectScene target))
      (state : e'.state = .playing scenario target)

section Moves

variable {scenario : String} {scene : Nat}

/-- A move leads to the scene it is to. -/
theorem state_moveTo (hs : e.state = .playing scenario scene) (target : Nat) :
    (e.moveTo target).state = .playing scenario target := by
  simp only [moveTo, hs]
  rfl

/-- A step forward goes to the next scene, or does nothing behind the last one. -/
theorem stepForward_eq (hs : e.state = .playing scenario scene) :
    e.stepForward = if scene + 1 < e.activeScenes.length then e.moveTo (scene + 1) else e := by
  simp only [stepForward, hs, State.scene?]

/-- A scenario that was found by its name is entered under this name. -/
theorem state_enter {k : Nat} (hlisted : e.store.findIndex? scenario = some k) :
    (e.enter k scene).state = .playing scenario scene := by
  obtain ⟨entry, hentry, rfl⟩ := Store.exists_of_findIndex?_eq hlisted
  simp only [enter, hentry]
  rfl

/-- What is known of an engine that has entered a scenario. -/
theorem state_of_enterLoaded {e₁ : Engine τ} {now : Nat} {entrance : Entrance}
    (hlisted : e.store.findIndex? scenario = some entrance.index) (hloads : Loads e e₁)
    (h : e₁.enterLoaded now entrance = .ok e') :
    e'.state = .playing scenario entrance.scene ∧
      ∃ entry, e'.store.get? entrance.index = some entry ∧
        entrance.scene < entry.scenes.length := by
  obtain ⟨entry, hentry, hscene, rfl⟩ := enterLoaded_eq_ok h
  have hlisted' : e₁.store.findIndex? scenario = some entrance.index :=
    (hloads.findIndex?_eq scenario).trans hlisted
  exact ⟨state_enter hlisted', entry, hentry, hscene⟩

/-- An edit stays in its scene, unless it is a jump. -/
theorem course_of_edited (hs : e.state = .playing scenario scene)
    (hediting : e.settings.editing = true) {op : EditorInput} (he : Edited e scene op e') :
    Course e scenario scene (.editor op) e' := by
  cases he with
  | jump _ => exact .jumps hediting rfl (state_moveTo hs _)
  | append _ _ => exact .stays hs
  | duplicate _ _ => exact .stays hs
  | @remove k _ _ _ _ =>
    exact .stays (state_moveTo (e := { e with store := e.store.modifyScenes k (·.eraseIdx scene) })
      hs scene)
  | change _ _ _ _ => exact .stays hs

/-- A step forward from a scene, for an input that asks for it. -/
theorem course_stepForward (hs : e.state = .playing scenario scene)
    (hediting : e.settings.editing = false) (hpaused : e.paused = false)
    (hproceeds : Proceeds e input) : Course e scenario scene input e.stepForward := by
  rw [stepForward_eq hs]
  split
  · next hmore => exact .proceeds hediting hpaused hmore hproceeds (state_moveTo hs _)
  · exact .stays hs

end Moves

section Answers

variable {scenario : String} {scene now : Nat} {result : Except Refusal Unit}

/-- Choices are open in an unpaused scene that has some. -/
theorem choicesOpen_eq_true : e.choicesOpen = true ↔
    e.paused = false ∧ ∃ scene ∈ e.currentScene, scene.hasChoices = true := by
  rw [choicesOpen, Bool.and_eq_true, Bool.not_eq_true', Option.any_eq_true]
  rfl

/-- No choices are open in an unpaused scene exactly if it has none. -/
theorem hasChoices_eq_false (hopen : e.choicesOpen = false) (hpaused : e.paused = false) :
    ∀ scene ∈ e.currentScene, scene.hasChoices = false := by
  intro s hs
  rw [Option.mem_def] at hs
  simpa [choicesOpen, hpaused, hs] using hopen

/-- An input that is answered at once while a scenario is being played. -/
theorem course_of_accepts (hs : e.state = .playing scenario scene)
    (ha : Accepts e input (.done e')) : Course e scenario scene input e' := by
  cases ha with
  | openScenarioSelect hmenu => rw [hs] at hmenu; cases hmenu
  | openSaveSelect hmenu => rw [hs] at hmenu; cases hmenu
  | back hmenu => rw [hs] at hmenu; rcases hmenu with hmenu | hmenu <;> cases hmenu
  | wait _ _ => exact .stays hs
  | advance _ hfree =>
    rw [Bool.or_eq_false_iff, Bool.or_eq_false_iff] at hfree
    obtain ⟨⟨hediting, hpaused⟩, hopen⟩ := hfree
    exact course_stepForward hs hediting hpaused (.advance (hasChoices_eq_false hopen hpaused))
  | choose _ hpaused hoffered huntargeted =>
    obtain ⟨s, hcurrent, hgiven, hpresent⟩ := offered?_eq_some_iff.mp hoffered
    split
    · exact .stays hs
    · next hediting =>
      exact course_stepForward hs (Bool.eq_false_iff.mpr hediting) hpaused
        (.choose hcurrent hgiven hpresent huntargeted)
  | togglePause _ => exact .stays hs
  | exitToMainMenu => exact .leaves rfl rfl
  | editor hedit =>
    obtain ⟨hediting, _, _, hs', hedited⟩ := edited_of_edit hedit
    rw [hs] at hs'
    cases hs'
    exact course_of_edited hs hediting hedited

/-- Where an input leads from a scene. -/
theorem course_of_answers (hs : e.state = .playing scenario scene)
    (ha : Answers e input now (e', result)) : Course e scenario scene input e' := by
  cases ha with
  | refused _ => exact .stays hs
  | done haccepts => exact course_of_accepts hs haccepts
  | unplayable _ hloads _ => exact .stays (hloads.state_eq.trans hs)
  | entered haccepts hloads _ _ hentered =>
    cases haccepts with
    | startNewGame hmenu _ _ _ => rw [hs] at hmenu; cases hmenu
    | loadSave hmenu _ _ => rw [hs] at hmenu; cases hmenu
    | follow _ hpaused hoffered htargeted hlisted =>
      obtain ⟨s, hcurrent, hgiven, hpresent⟩ := offered?_eq_some_iff.mp hoffered
      obtain ⟨hstate, entry, hentry, hpos⟩ := state_of_enterLoaded hlisted hloads hentered
      exact .switches (.follow hpaused hcurrent hgiven hpresent htargeted hlisted hentry
        (List.length_pos_iff.mp hpos) hstate)

/-- An input that is answered at once from a menu does not begin a scenario. -/
theorem not_isPlaying_of_accepts (hs : e.state.isPlaying = false)
    (ha : Accepts e input (.done e')) : e'.state.isPlaying = false := by
  have hno : e.state.isPlaying ≠ true := Bool.eq_false_iff.mp hs
  cases ha with
  | openScenarioSelect _ => rfl
  | openSaveSelect _ => rfl
  | back _ => rfl
  | wait hplaying _ => exact absurd hplaying hno
  | advance hplaying _ => exact absurd hplaying hno
  | choose hplaying _ _ _ => exact absurd hplaying hno
  | togglePause hplaying => exact absurd hplaying hno
  | exitToMainMenu => rfl
  | editor hedit =>
    obtain ⟨_, _, _, hs', _⟩ := edited_of_edit hedit
    rw [hs'] at hno
    exact absurd rfl hno

/-- A scenario is begun from a menu in two ways only. -/
theorem begins_of_answers (hs : e.state.isPlaying = false) (hs' : e'.state.isPlaying = true)
    (ha : Answers e input now (e', result)) : Begins e input e' := by
  cases ha with
  | refused _ =>
    change e.state.isPlaying = true at hs'
    rw [hs] at hs'
    cases hs'
  | done haccepts =>
    rw [not_isPlaying_of_accepts hs haccepts] at hs'
    cases hs'
  | unplayable _ hloads _ =>
    change State.isPlaying _ = true at hs'
    rw [hloads.state_eq, hs] at hs'
    cases hs'
  | entered haccepts hloads _ _ hentered =>
    cases haccepts with
    | startNewGame hmenu _ hchosen hlisted =>
      obtain ⟨hstate, _⟩ := state_of_enterLoaded hlisted hloads hentered
      exact .newGame hmenu hchosen hstate
    | loadSave hmenu hcomplete hlisted =>
      obtain ⟨hstate, _⟩ := state_of_enterLoaded hlisted hloads hentered
      exact .savedGame hmenu hcomplete hstate
    | follow hplaying _ _ _ _ =>
      rw [hs] at hplaying
      cases hplaying

/-- While a game is paused, no scenario is entered. -/
theorem not_accepts_enter (hplaying : e.state.isPlaying = true) (hpaused : e.paused = true)
    {entrance : Entrance} (ha : Accepts e input (.enter entrance)) : False := by
  cases ha with
  | startNewGame hmenu _ _ _ => simp [hmenu, State.isPlaying] at hplaying
  | loadSave hmenu _ _ => simp [hmenu, State.isPlaying] at hplaying
  | follow _ hunpaused _ _ _ => simp [hpaused] at hunpaused

/-- While a game is paused, an input that is not refused does nothing. -/
theorem eq_of_accepts_paused (hplaying : e.state.isPlaying = true)
    (hediting : e.settings.editing = false) (hpaused : e.paused = true)
    (htoggle : input ≠ .togglePause) (hexit : input ≠ .exitToMainMenu)
    (ha : Accepts e input (.done e')) : e' = e := by
  cases ha with
  | openScenarioSelect hmenu => simp [hmenu, State.isPlaying] at hplaying
  | openSaveSelect hmenu => simp [hmenu, State.isPlaying] at hplaying
  | back hmenu => rcases hmenu with hmenu | hmenu <;> simp [hmenu, State.isPlaying] at hplaying
  | wait _ _ => rfl
  | advance _ hfree => simp [hpaused] at hfree
  | choose _ hunpaused _ _ => simp [hpaused] at hunpaused
  | togglePause _ => exact absurd rfl htoggle
  | exitToMainMenu => exact absurd rfl hexit
  | editor hedit =>
    obtain ⟨hediting', _⟩ := edited_of_edit hedit
    simp [hediting] at hediting'

/-- While a game is paused, an input does nothing, or is refused and only its message is new. -/
theorem eq_or_refused_of_answers (hplaying : e.state.isPlaying = true)
    (hediting : e.settings.editing = false) (hpaused : e.paused = true)
    (htoggle : input ≠ .togglePause) (hexit : input ≠ .exitToMainMenu)
    (ha : Answers e input now (e', result)) :
    (result = .ok () ∧ e' = e) ∨
      ∃ reason : Refusal, result = .error reason ∧
        e' = { e with status := some reason.message } := by
  cases ha with
  | @refused reason _ => exact Or.inr ⟨reason, rfl, rfl⟩
  | done haccepts =>
    exact Or.inl ⟨rfl, eq_of_accepts_paused hplaying hediting hpaused htoggle hexit haccepts⟩
  | unplayable haccepts _ _ => exact (not_accepts_enter hplaying hpaused haccepts).elim
  | entered haccepts _ _ _ _ => exact (not_accepts_enter hplaying hpaused haccepts).elim

/-- A signal to go on does nothing while the game is paused or choices are open; if it is
refused, its message is new. -/
theorem eq_of_answers_advance (hheld : e.paused = true ∨ e.choicesOpen = true)
    (ha : Answers e .advance now (e', result)) : ∃ status, e' = { e with status } := by
  cases ha with
  | refused _ => exact ⟨_, rfl⟩
  | done haccepts =>
    cases haccepts with
    | wait _ _ => exact ⟨e.status, rfl⟩
    | advance _ hfree =>
      rw [Bool.or_eq_false_iff, Bool.or_eq_false_iff] at hfree
      rcases hheld with hpaused | hopen
      · rw [hpaused] at hfree
        cases hfree.1.2
      · rw [hopen] at hfree
        cases hfree.2
  | unplayable haccepts _ _ => cases haccepts
  | entered haccepts _ _ _ _ => cases haccepts

/-- A signal to go on stays before choices. -/
theorem state_of_answers_advance {s : Scene} (hs : s ∈ e.currentScene)
    (hchoices : s.hasChoices = true) (ha : Answers e .advance now (e', result)) :
    e'.state = e.state := by
  have hheld : e.paused = true ∨ e.choicesOpen = true := by
    cases hpaused : e.paused with
    | true => exact Or.inl rfl
    | false => exact Or.inr (choicesOpen_eq_true.mpr ⟨hpaused, s, hs, hchoices⟩)
  obtain ⟨status, rfl⟩ := eq_of_answers_advance hheld ha
  rfl

/-- An input that asks for the next scene is not refused while nothing holds the game. -/
theorem plan_of_proceeds (hplaying : e.state.isPlaying = true)
    (hediting : e.settings.editing = false) (hpaused : e.paused = false)
    (hp : Proceeds e input) : e.plan input = .ok (.done e.stepForward) := by
  have hexpect : e.expectPlaying = .ok () := if_pos hplaying
  cases hp with
  | advance hunchosen =>
    have hopen : e.choicesOpen = false := by
      rw [choicesOpen, hpaused]
      cases hscene : e.currentScene with
      | none => rfl
      | some s => simpa using hunchosen s hscene
    simp only [plan, advance, hexpect, hediting, hpaused, hopen]
    rfl
  | @choose index s c hcurrent hgiven hpresent huntargeted =>
    have hoffered : e.offered? index = some c :=
      offered?_eq_some_iff.mpr ⟨s, hcurrent, hgiven, hpresent⟩
    simp only [plan, planChoice, hexpect, hediting, hpaused, hoffered, huntargeted]
    rfl

end Answers

/-- What may become of the state of play by an input. -/
structure Orderly (e : Engine τ) (input : Input) (e' : Engine τ)
    (result : Except Refusal Unit) : Prop where
  /-- A scenario is begun only from its menu. -/
  begun : e.state.isPlaying = false → e'.state.isPlaying = true → Begins e input e'
  /-- It is left only for the main menu. -/
  left : e.state.isPlaying = true → e'.state.isPlaying = false → input = .exitToMainMenu
  /-- Another scenario is reached only by a choice that leads there. -/
  switched {scenario scenario' : String} {scene scene' : Nat} :
    e.state = .playing scenario scene → e'.state = .playing scenario' scene' →
      scenario' ≠ scenario → Switches e input e'
  /-- While playing, another scene is reached only from the one before it, by an input that
  asks for it. -/
  proceeded {scenario scenario' : String} {scene scene' : Nat} :
    e.settings.editing = false → e.state = .playing scenario scene →
      e'.state = .playing scenario' scene' → ¬ Switches e input e' → scene' ≠ scene →
        scene' = scene + 1 ∧ scene + 1 < e.activeScenes.length ∧ e.paused = false ∧
          Proceeds e input
  /-- And such an input reaches it. -/
  reached {scenario : String} {scene : Nat} :
    e.settings.editing = false → e.state = .playing scenario scene →
      scene + 1 < e.activeScenes.length → e.paused = false → Proceeds e input →
        e'.state = .playing scenario (scene + 1)
  /-- A signal to go on does not pass a scene with choices. -/
  waited : input = .advance → ∀ scene ∈ e.currentScene, scene.hasChoices = true →
    e'.state = e.state
  /-- While editing, another scene is reached only by a jump. -/
  jumped {scenario scenario' : String} {scene scene' : Nat} :
    e.settings.editing = true → e.state = .playing scenario scene →
      e'.state = .playing scenario' scene' → ¬ Switches e input e' → scene' ≠ scene →
        input = .editor (.selectScene scene')
  /-- While paused, an input does nothing, or is refused and only its message is new. -/
  suspended : e.settings.editing = false → e.paused = true → input ≠ .togglePause →
    input ≠ .exitToMainMenu →
      (result = .ok () ∧ e' = e) ∨
        ∃ reason : Refusal, result = .error reason ∧
          e' = { e with status := some reason.message }

section Course

variable {scenario scenario' : String} {scene scene' : Nat}

/-- Only the input to leave a game leaves one. -/
theorem Course.left (h : Course e scenario scene input e') (hs : e'.state.isPlaying = false) :
    input = .exitToMainMenu := by
  cases h with
  | stays hstate => simp [hstate, State.isPlaying] at hs
  | leaves hexits _ => exact hexits
  | switches hswitches =>
    cases hswitches with
    | follow _ _ _ _ _ _ _ _ hstate => simp [hstate, State.isPlaying] at hs
  | proceeds _ _ _ _ hstate => simp [hstate, State.isPlaying] at hs
  | jumps _ _ hstate => simp [hstate, State.isPlaying] at hs

/-- Only a choice leads to another scenario. -/
theorem Course.switched (h : Course e scenario scene input e')
    (hs : e'.state = .playing scenario' scene') (hne : scenario' ≠ scenario) :
    Switches e input e' := by
  cases h with
  | stays hstate => simp_all
  | leaves _ hstate => simp_all
  | switches hswitches => exact hswitches
  | proceeds _ _ _ _ hstate => simp_all
  | jumps _ _ hstate => simp_all

/-- Another scene is reached by a step forward or by a jump. -/
theorem Course.moved (h : Course e scenario scene input e')
    (hs : e'.state = .playing scenario' scene') (hstay : ¬ Switches e input e')
    (hne : scene' ≠ scene) :
    (e.settings.editing = false ∧ scene' = scene + 1 ∧ scene + 1 < e.activeScenes.length ∧
        e.paused = false ∧ Proceeds e input) ∨
      (e.settings.editing = true ∧ input = .editor (.selectScene scene')) := by
  cases h with
  | stays hstate =>
    rw [hstate] at hs
    cases hs
    exact absurd rfl hne
  | leaves _ hstate =>
    rw [hstate] at hs
    cases hs
  | switches hswitches => exact absurd hswitches hstay
  | proceeds hediting hpaused hmore hproceeds hstate =>
    rw [hstate] at hs
    cases hs
    exact Or.inl ⟨hediting, rfl, hmore, hpaused, hproceeds⟩
  | jumps hediting hjumps hstate =>
    rw [hstate] at hs
    cases hs
    exact Or.inr ⟨hediting, hjumps⟩

end Course

/-- Only a scene of a scenario can be paused. -/
theorem Coherent.isPlaying_of_paused (h : e.Coherent) (hpaused : e.paused = true) :
    e.state.isPlaying = true := by
  cases hplaying : e.state.isPlaying with
  | true => rfl
  | false =>
    have hunpaused := (h.idle hplaying).unpaused
    rw [hpaused] at hunpaused
    cases hunpaused

/-- An input that asks for the next scene steps forward while nothing holds the game. -/
theorem handle_of_proceeds {m : Type → Type} [Monad m] {source : Source m τ} {now : Nat}
    (hplaying : e.state.isPlaying = true) (hediting : e.settings.editing = false)
    (hpaused : e.paused = false) (hp : Proceeds e input) :
    e.handle source now input = pure (e.stepForward, .ok ()) := by
  rw [handle, plan_of_proceeds hplaying hediting hpaused hp]

/-- Whatever was asked of an engine before and whatever its source answers, an input leads only
where it may. -/
theorem orderly_handle {σ τ : Type} (source : Source (StateM σ) τ) (settings : Settings)
    (ls : List Listing) (calls : List Call) (s t : σ) (input : Input) (now : Nat) :
    let e := (((startListed settings ls).run source calls).run s).1
    let answer := ((e.handle source now input).run t).1
    Orderly e input answer.1 answer.2 := by
  intro e answer
  have hcoherent : e.Coherent := coherent_of_canReturn_run (canReturn_fst_run _ s)
  have hanswers : Answers e input now answer :=
    answers_of_canReturn_handle (canReturn_fst_run (e.handle source now input) t)
  have hcourse {scenario : String} {scene : Nat} (hs : e.state = .playing scenario scene) :
      Course e scenario scene input answer.1 := course_of_answers hs hanswers
  constructor
  case begun =>
    intro hs hs'
    exact begins_of_answers hs hs' hanswers
  case left =>
    intro hs hs'
    obtain ⟨scenario, scene, hs⟩ := exists_playing hs
    exact (hcourse hs).left hs'
  case switched =>
    intro scenario scenario' scene scene' hs hs' hne
    exact (hcourse hs).switched hs' hne
  case proceeded =>
    intro scenario scenario' scene scene' hediting hs hs' hstay hne
    rcases (hcourse hs).moved hs' hstay hne with ⟨_, hmoved⟩ | ⟨hediting', _⟩
    · exact hmoved
    · rw [hediting] at hediting'
      cases hediting'
  case reached =>
    intro scenario scene hediting hs hmore hpaused hp
    have hplaying : e.state.isPlaying = true := by
      rw [hs]
      rfl
    have hanswer : answer = (e.stepForward, .ok ()) := by
      simp only [answer, handle_of_proceeds hplaying hediting hpaused hp]
      rfl
    rw [hanswer, stepForward_eq hs, if_pos hmore, state_moveTo hs]
  case waited =>
    intro hinput scene hscene hchoices
    subst hinput
    exact state_of_answers_advance hscene hchoices hanswers
  case jumped =>
    intro scenario scenario' scene scene' hediting hs hs' hstay hne
    rcases (hcourse hs).moved hs' hstay hne with ⟨hediting', _⟩ | ⟨_, hjump⟩
    · rw [hediting] at hediting'
      cases hediting'
    · exact hjump
  case suspended =>
    intro hediting hpaused htoggle hexit
    have hplaying : e.state.isPlaying = true := hcoherent.isPlaying_of_paused hpaused
    exact eq_or_refused_of_answers hplaying hediting hpaused htoggle hexit hanswers

/-- A source whose every scenario is one blank scene. -/
def blankSource : Source (StateM Unit) Unit where
  text _ := return .ok "[scene_start]\n[scene_end]"
  textures _ := return .ok []

/-- A game that is paused in its first scene. -/
def pausedGame : Engine Unit :=
  (((startListed ⟨.simple, .perScenario, false, true, Settings.defaultSpeed⟩
    [.found ⟨"a.sc", "a.sc", "textures", "sounds"⟩]).run blankSource
      [.handle .openScenarioSelect 0, .handle (.startNewGame (some "a.sc") "Ann") 0,
        .handle .togglePause 0]).run ()).1

/-- A refused input is not without effect while a game is paused: its message is new. -/
theorem handle_back_pausedGame_ne :
    pausedGame.settings.editing = false ∧ pausedGame.paused = true ∧
      ((pausedGame.handle blankSource 0 .back).run ()).1.1 ≠ pausedGame := by
  refine ⟨rfl, rfl, ?_⟩
  intro h
  have hstatus := congrArg Engine.status h
  cases hstatus

end VisualNovel.Engine
