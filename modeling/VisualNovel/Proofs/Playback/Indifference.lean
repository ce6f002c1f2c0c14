import VisualNovel.Proofs.Playback.Overlooked
import VisualNovel.Proofs.Playback.Run

/-!
# What does not matter to the course of a game

How fast text appears, whether it does so at all, how much time passes and how the player is
called have no influence on where a game goes. Two engines that differ in such things alone
have the same core, and whatever is asked of them, they have the same core afterwards, give
the same answers and ask their source the same.
-/

namespace VisualNovel

/-- The settings without the way in which text appears. -/
def Settings.core (s : Settings) : Settings := { s with animated := false, textSpeed := 0 }

namespace Engine

variable {τ : Type} {e e₁ e₂ : Engine τ} {input input₁ input₂ : Input}

/-- The engine without the text that has appeared, without the player's name and without what
was said. -/
def core (e : Engine τ) : Engine τ :=
  { e with
    settings := e.settings.core
    player := ""
    reveal := .start
    history := .empty
    recorded := false }

/-- The core decides what becomes of the list of scenes. -/
theorem editScenes_core (e : Engine τ) (f : List Scene → List Scene) :
    e.core.editScenes f = (e.editScenes f).map core := by
  have hactive : e.core.active = e.active := rfl
  have hstore : e.core.store = e.store := rfl
  rw [editScenes, editScenes, hactive, hstore]
  cases e.active with
  | none => rfl
  | some i =>
    dsimp only
    split <;> rfl

/-- The core decides what becomes of a scene. -/
theorem editScene_core (e : Engine τ) (index : Nat) (f : Scene → Except Refusal Scene) :
    e.core.editScene index f = (e.editScene index f).map core := by
  have hentry : e.core.activeEntry = e.activeEntry := rfl
  rw [editScene, editScene, hentry]
  cases e.activeEntry with
  | none => rfl
  | some entry =>
    dsimp only
    cases entry.scenes[index]? with
    | none => rfl
    | some scene =>
      dsimp only
      cases f scene with
      | error reason => rfl
      | ok scene => exact e.editScenes_core _

/-- What follows a check that does not depend on what is left out does not depend on it either. -/
theorem bind_map_core {α : Type} (x : Except Refusal α) {f g : α → Except Refusal (Engine τ)}
    (h : ∀ a, g a = (f a).map core) : x >>= g = (x >>= f).map core := by
  cases x with
  | error reason => rfl
  | ok a => exact h a

/-- The core decides how an edit at an index is answered. -/
theorem editAt_core (e : Engine τ) (index : Nat) (input : EditorInput) :
    e.core.editAt index input = (e.editAt index input).map core := by
  have hchange (f : Scene → Except Refusal Scene) :
      e.core.editScene index f = (e.editScene index f).map core := e.editScene_core index f
  cases input with
  | selectScene target =>
    have hscenes : e.core.activeScenes = e.activeScenes := rfl
    simp only [editAt, hscenes]
    split <;> rfl
  | appendBlankScene => exact e.editScenes_core _
  | duplicateScene => exact e.editScenes_core _
  | removeScene =>
    have hscenes : e.core.activeScenes = e.activeScenes := rfl
    simp only [editAt, hscenes, editScenes_core]
    split
    · rfl
    · cases e.editScenes (·.eraseIdx index) <;> rfl
  | setSpeakerLine slot text => exact bind_map_core _ fun _ => hchange _
  | setSpeakerName slot name => exact bind_map_core _ fun _ => hchange _
  | setMainLine text => exact bind_map_core _ fun _ => hchange _
  | setChoice choice label target =>
    have hstore : e.core.store = e.store := rfl
    refine bind_map_core _ fun _ => bind_map_core _ fun _ => ?_
    dsimp only
    rw [hstore]
    cases Text.trimmedNonBlank target with
    | none => exact hchange _
    | some name =>
      dsimp only
      cases e.store.findIndex? name with
      | none => rfl
      | some k => exact hchange _
  | setBackground name => exact bind_map_core (e.checkTexture name) fun _ => hchange _
  | setBackgroundOverlay name =>
    exact bind_map_core e.expectAdvanced fun _ =>
      bind_map_core (e.checkTexture name) fun _ => hchange _
  | setOverlay name =>
    exact bind_map_core e.expectAdvanced fun _ =>
      bind_map_core (e.checkTexture name) fun _ => hchange _
  | setMusic name => exact bind_map_core (e.checkTrack name) fun _ => hchange _
  | setSound name => exact bind_map_core (e.checkTrack name) fun _ => hchange _
  | setSpeakerTexture slot part name =>
    simp only [editAt]
    split
    · exact bind_map_core e.expectAdvanced fun _ =>
        bind_map_core (e.checkTexture name) fun _ => hchange _
    · exact bind_map_core (e.checkTexture name) fun _ => hchange _

/-- The core decides how an edit is answered. -/
theorem edit_core (e : Engine τ) (input : EditorInput) :
    e.core.edit input = (e.edit input).map core := by
  have hediting : e.core.settings.editing = e.settings.editing := rfl
  simp only [edit, hediting]
  cases e.settings.editing with
  | false => rfl
  | true => exact bind_map_core e.expectPlaying fun _ => e.editAt_core _ input

/-- No plan looks at what is left out of the core. -/
theorem overlooked_core (e : Engine τ) : Overlooked core e where
  editing_eq := rfl
  lookup_eq := rfl
  state_eq := rfl
  paused_eq := rfl
  findIndex?_eq _ := rfl
  currentScene_eq := rfl
  activeScenes_eq := rfl
  goToMenu _ := rfl
  moveTo _ := rfl
  pause _ := rfl
  exit := rfl
  edit := e.edit_core

/-- Inputs that are the same but for the name of the player. Only a name that is missing is
distinguished from others. -/
inductive SameButName : Input → Input → Prop where
  | same (input : Input) : SameButName input input
  | startNewGame (scenario : Option String) {player₁ player₂ : String}
      (given : (Text.trimmedNonBlank player₁).isSome = (Text.trimmedNonBlank player₂).isSome) :
      SameButName (.startNewGame scenario player₁) (.startNewGame scenario player₂)
  | loadSave (record : SaveRecord) {player₁ player₂ : String}
      (given : player₁ = "" ↔ player₂ = "") :
      SameButName (.loadSave { record with player := player₁ })
        (.loadSave { record with player := player₂ })

/-- Plans that lead to the same place. -/
inductive SamePlan : Except Refusal (Plan τ) → Except Refusal (Plan τ) → Prop where
  | refused (reason : Refusal) : SamePlan (.error reason) (.error reason)
  | done {e₁ e₂ : Engine τ} (core : e₁.core = e₂.core) :
      SamePlan (.ok (.done e₁)) (.ok (.done e₂))
  | enter {entrance₁ entrance₂ : Entrance} (index : entrance₁.index = entrance₂.index)
      (scene : entrance₁.scene = entrance₂.scene) :
      SamePlan (.ok (.enter entrance₁)) (.ok (.enter entrance₂))

/-- Three plans lead to the same place if each leads where the next one does. -/
theorem SamePlan.trans {plan₁ plan₂ plan₃ : Except Refusal (Plan τ)} (h : SamePlan plan₁ plan₂)
    (h' : SamePlan plan₂ plan₃) : SamePlan plan₁ plan₃ := by
  cases h with
  | refused reason => exact h'
  | done hcore =>
    cases h' with
    | done hcore' => exact .done (hcore.trans hcore')
  | enter hindex hscene =>
    cases h' with
    | enter hindex' hscene' => exact .enter (hindex.trans hindex') (hscene.trans hscene')

/-- Engines with the same core decide alike. -/
theorem samePlan_of_core_eq (h : e₁.core = e₂.core) (input : Input) :
    SamePlan (e₁.plan input) (e₂.plan input) := by
  have hplan : (e₁.plan input).map (Plan.map core) = (e₂.plan input).map (Plan.map core) := by
    rw [← e₁.overlooked_core.plan input, ← e₂.overlooked_core.plan input, h]
  cases hplan₁ : e₁.plan input with
  | error reason =>
    cases hplan₂ : e₂.plan input with
    | error reason' =>
      rw [hplan₁, hplan₂] at hplan
      cases hplan
      exact .refused reason
    | ok p =>
      rw [hplan₁, hplan₂] at hplan
      cases hplan
  | ok p =>
    cases hplan₂ : e₂.plan input with
    | error reason =>
      rw [hplan₁, hplan₂] at hplan
      cases hplan
    | ok p' =>
      rw [hplan₁, hplan₂] at hplan
      have hsame : p.map core = p'.map core := Except.ok.inj hplan
      cases p with
      | done e =>
        cases p' with
        | done e' => exact .done (Plan.done.inj hsame)
        | enter entrance => cases hsame
      | enter entrance =>
        cases p' with
        | done e => cases hsame
        | enter entrance' =>
          cases hsame
          exact .enter rfl rfl

/-- Two names for a new player lead to the same place if both can be given or neither. -/
theorem samePlan_startNewGame (e : Engine τ) (scenario : Option String) {player₁ player₂ : String}
    (h : (Text.trimmedNonBlank player₁).isSome = (Text.trimmedNonBlank player₂).isSome) :
    SamePlan (e.plan (.startNewGame scenario player₁))
      (e.plan (.startNewGame scenario player₂)) := by
  simp only [plan, planNewGame]
  cases e.expect .scenarioSelect with
  | error reason => exact .refused reason
  | ok _ =>
    cases h₁ : Text.trimmedNonBlank player₁ with
    | none =>
      cases h₂ : Text.trimmedNonBlank player₂ with
      | none => exact .refused _
      | some name₂ =>
        rw [h₁, h₂] at h
        cases h
    | some name₁ =>
      cases h₂ : Text.trimmedNonBlank player₂ with
      | none =>
        rw [h₁, h₂] at h
        cases h
      | some name₂ =>
        cases e.settings.lookup with
        | shared =>
          simp only [bind, Except.bind, pure, Except.pure]
          cases e.store.findIndex? sharedScenario with
          | none => exact .refused _
          | some index => exact .enter rfl rfl
        | perScenario =>
          cases scenario with
          | none => exact .refused _
          | some name =>
            simp only [bind, Except.bind, pure, Except.pure]
            cases e.store.findIndex? name with
            | none => exact .refused _
            | some index => exact .enter rfl rfl

/-- Two names in a save lead to the same place if both are empty or neither. -/
theorem samePlan_loadSave (e : Engine τ) (record : SaveRecord) {player₁ player₂ : String}
    (h : player₁ = "" ↔ player₂ = "") :
    SamePlan (e.plan (.loadSave { record with player := player₁ }))
      (e.plan (.loadSave { record with player := player₂ })) := by
  simp only [plan, planSavedGame]
  cases e.expect .saveSelect with
  | error reason => exact .refused reason
  | ok _ =>
    simp only [SaveRecord.toPosition]
    by_cases hscenario : record.scenario = ""
    · simp only [hscenario, if_true]
      exact .refused _
    · by_cases hplayer : player₁ = ""
      · simp only [hscenario, hplayer, h.mp hplayer, if_true, if_false]
        exact .refused _
      · have hplayer' : player₂ ≠ "" := fun hempty => hplayer (h.mpr hempty)
        simp only [hscenario, hplayer, hplayer', if_false]
        cases record.scene with
        | none => exact .refused _
        | some scene =>
          dsimp only
          cases e.store.findIndex? record.scenario with
          | none => exact .refused _
          | some index => exact .enter rfl rfl

/-- How the player is called does not matter to a decision. -/
theorem samePlan_of_sameButName (e : Engine τ) (h : SameButName input₁ input₂) :
    SamePlan (e.plan input₁) (e.plan input₂) := by
  cases h with
  | same _ => exact samePlan_of_core_eq rfl _
  | startNewGame scenario hgiven => exact e.samePlan_startNewGame scenario hgiven
  | loadSave record hgiven => exact e.samePlan_loadSave record hgiven

/-- What becomes of the core of an engine that enters a scenario at a scene. -/
def enterCore (index scene : Nat) (e : Engine τ) : Engine τ × Except Refusal Unit :=
  e.settle ((grantEntry (e.store.get? index) scene).map fun _ => e.enter index scene)

/-- An entrance depends on the core alone, and it does not matter who enters and when. -/
theorem settle_enterLoaded_core (e : Engine τ) (now : Nat) (entrance : Entrance) :
    ((e.settle (e.enterLoaded now entrance)).1.core, (e.settle (e.enterLoaded now entrance)).2) =
      e.core.enterCore entrance.index entrance.scene := by
  have hstore : e.core.store = e.store := rfl
  rw [enterLoaded_eq, enterCore, hstore]
  cases grantEntry (e.store.get? entrance.index) entrance.scene <;> rfl

section Effects

variable {m : Type → Type} [Monad m] [LawfulMonad m] (source : Source m τ)

/-- The core decides what a load of one scenario leaves. -/
theorem loadOne_core (index : Nat) (e : Engine τ) :
    e.core.loadOne source index = core <$> e.loadOne source index := by
  have hstore : e.core.store = e.store := rfl
  rw [loadOne_eq, loadOne_eq, hstore]
  cases e.store.get? index with
  | none => exact (map_pure core e).symm
  | some entry =>
    dsimp only
    split
    · exact (map_pure core e).symm
    · simp only [map_bind, map_pure]
      rfl

/-- The core decides what loads leave. -/
theorem loadEach_core (is : List Nat) (e : Engine τ) :
    loadEach source is e.core = core <$> loadEach source is e := by
  induction is generalizing e with
  | nil => exact (map_pure core e).symm
  | cons i is ih => simp only [loadEach, loadOne_core, map_bind, bind_map_left, ih]

/-- A load asks for the same and gives the same, whatever is left out. -/
theorem load_core (index : Nat) (e : Engine τ) :
    e.core.load source index = core <$> e.load source index :=
  loadEach_core source _ e

/-- Engines with the same core handle an input alike, whatever the name of the player is and
whenever it comes. -/
theorem handle_core (h : e₁.core = e₂.core) (hinput : SameButName input₁ input₂)
    (now₁ now₂ : Nat) :
    (fun answer => (answer.1.core, answer.2)) <$> e₁.handle source now₁ input₁ =
      (fun answer => (answer.1.core, answer.2)) <$> e₂.handle source now₂ input₂ := by
  have hplan := (e₁.samePlan_of_sameButName hinput).trans (samePlan_of_core_eq h input₂)
  rw [handle, handle]
  generalize e₁.plan input₁ = plan₁ at hplan ⊢
  generalize e₂.plan input₂ = plan₂ at hplan ⊢
  cases hplan with
  | refused reason =>
    have hrefused : (e₁.refuse reason).1.core = (e₂.refuse reason).1.core :=
      congrArg (fun e : Engine τ => { e with status := some reason.message }) h
    simp only [map_pure, hrefused]
    rfl
  | done hcore => simp only [map_pure, hcore]
  | @enter entrance₁ entrance₂ hindex hscene =>
    have hload :
        core <$> e₁.load source entrance₁.index = core <$> e₂.load source entrance₂.index := by
      rw [← load_core, ← load_core, h, hindex]
    have hsettled (now : Nat) (entrance : Entrance) (e : Engine τ) :
        (fun answer : Engine τ × Except Refusal Unit => (answer.1.core, answer.2)) <$>
          (do
            let e ← e.load source entrance.index
            pure (e.settle (e.enterLoaded now entrance))) =
          enterCore entrance.index entrance.scene <$> core <$> e.load source entrance.index := by
      simp only [settle_enterLoaded_core, Functor.map_map, bind_pure_comp]
    refine (hsettled now₁ entrance₁ e₁).trans ?_
    rw [hload, hindex, hscene]
    exact (hsettled now₂ entrance₂ e₂).symm

/-- A tick leaves the core alone. -/
theorem core_tick (e : Engine τ) (dt : Float32) (now : Nat) : (e.tick dt now).1.core = e.core := by
  obtain ⟨reveal, history, recorded, htick⟩ := e.exists_fst_tick dt now
  rw [htick]
  rfl

/-- A call, with the answer to it if it is an input. -/
def answerCall (source : Source m τ) (e : Engine τ) :
    Call → m (Option (Except Refusal Unit) × Engine τ)
  | .handle input now => (fun answer => (some answer.2, answer.1)) <$> e.handle source now input
  | c => (none, ·) <$> e.call source c

/-- The answers to the inputs among some calls, and the engine after them. -/
def answers (source : Source m τ) (calls : List Call) (e : Engine τ) :
    m (List (Except Refusal Unit) × Engine τ) :=
  (fun told => (told.1.reduceOption, told.2)) <$> traced (answerCall source) calls e

end Effects

end Engine

namespace Call

/-- Calls that are the same but for the name of the player and for the time. -/
inductive Alike : Call → Call → Prop where
  | handle {input₁ input₂ : Input} (input : Engine.SameButName input₁ input₂) (now₁ now₂ : Nat) :
      Alike (.handle input₁ now₁) (.handle input₂ now₂)
  | rescan (ls : List Listing) : Alike (.rescan ls) (.rescan ls)
  | setCatalog (names : List String) : Alike (.setCatalog names) (.setCatalog names)
  | takeReports : Alike .takeReports .takeReports

/-- Calls that correspond to each other, apart from ticks. -/
inductive Corresponding : List Call → List Call → Prop where
  | nil : Corresponding [] []
  | tickLeft {calls₁ calls₂ : List Call} (dt : Float32) (now : Nat)
      (rest : Corresponding calls₁ calls₂) : Corresponding (.tick dt now :: calls₁) calls₂
  | tickRight {calls₁ calls₂ : List Call} (dt : Float32) (now : Nat)
      (rest : Corresponding calls₁ calls₂) : Corresponding calls₁ (.tick dt now :: calls₂)
  | cons {c₁ c₂ : Call} {calls₁ calls₂ : List Call} (alike : Alike c₁ c₂)
      (rest : Corresponding calls₁ calls₂) : Corresponding (c₁ :: calls₁) (c₂ :: calls₂)

end Call

namespace Engine

variable {τ : Type} {e e₁ e₂ : Engine τ} {m : Type → Type} [Monad m] [LawfulMonad m]
  {source : Source m τ}

/-- What is told, and the core of the engine. -/
def withCore {α : Type} (told : α × Engine τ) : α × Engine τ := (told.1, told.2.core)

/-- Calls that are alike have the same answer and leave the same core. -/
theorem answerCall_core (h : e₁.core = e₂.core) {c₁ c₂ : Call} (hc : Call.Alike c₁ c₂) :
    withCore <$> e₁.answerCall source c₁ = withCore <$> e₂.answerCall source c₂ := by
  cases hc with
  | handle hinput now₁ now₂ =>
    have hhandle := handle_core source h hinput now₁ now₂
    have hsome := congrArg (Functor.map fun answer => (some answer.2, answer.1)) hhandle
    simpa only [answerCall, withCore, Functor.map_map] using hsome
  | rescan ls =>
    have hplaying : e₁.state.isPlaying = e₂.state.isPlaying := congrArg (·.state.isPlaying) h
    have hlisted : ({ e₁ with store := .ofListings ls } : Engine τ).core =
        { e₂ with store := .ofListings ls }.core :=
      congrArg (fun e : Engine τ => ({ e with store := .ofListings ls } : Engine τ)) h
    simp only [answerCall, call, map_pure, withCore, rescanListed, hplaying]
    cases e₂.state.isPlaying with
    | true => exact congrArg (fun e => pure (none, e)) h
    | false => exact congrArg (fun e => pure (none, e)) hlisted
  | setCatalog names =>
    have hcore : (e₁.setCatalog names).core = (e₂.setCatalog names).core :=
      congrArg (·.setCatalog names) h
    simp only [answerCall, call, map_pure, withCore, hcore]
  | takeReports =>
    have hcore : e₁.takeReports.2.core = e₂.takeReports.2.core := congrArg (·.takeReports.2) h
    simp only [answerCall, call, map_pure, withCore, hcore]

theorem answers_nil (e : Engine τ) : e.answers source [] = pure ([], e) := by
  rw [answers, traced, map_pure]
  rfl

/-- The answer to the first call comes before the others. -/
theorem answers_cons (e : Engine τ) (c : Call) (calls : List Call) :
    e.answers source (c :: calls) = do
      let told ← e.answerCall source c
      let rest ← told.2.answers source calls
      return (told.1.toList ++ rest.1, rest.2) := by
  simp only [answers, traced, map_bind, map_pure, bind_map_left]
  refine bind_congr fun told => bind_congr fun rest => ?_
  cases told.1 <;> rfl

/-- A tick has no answer. -/
theorem answers_tick (e : Engine τ) (dt : Float32) (now : Nat) (calls : List Call) :
    e.answers source (.tick dt now :: calls) = (e.tick dt now).1.answers source calls := by
  simp only [answers_cons, answerCall, call, map_pure, pure_bind, Option.toList_none,
    List.nil_append]
  exact bind_pure _

/-- Corresponding calls have the same answers and leave the same core. -/
theorem answers_core {calls₁ calls₂ : List Call} (hcalls : Call.Corresponding calls₁ calls₂)
    (h : e₁.core = e₂.core) :
    withCore <$> e₁.answers source calls₁ = withCore <$> e₂.answers source calls₂ := by
  induction hcalls generalizing e₁ e₂ with
  | nil => simp only [answers_nil, map_pure, withCore, h]
  | tickLeft dt now _ ih =>
    rw [answers_tick]
    exact ih ((e₁.core_tick dt now).trans h)
  | tickRight dt now _ ih =>
    rw [answers_tick]
    exact ih (h.trans (e₂.core_tick dt now).symm)
  | @cons c₁ c₂ calls₁ calls₂ halike _ ih =>
    -- what the rest comes to depends on no more than the core which the first call leaves
    have hrest₁ (e : Engine τ) :
        withCore <$> e.answers source calls₁ = withCore <$> e.core.answers source calls₂ := ih rfl
    have hrest₂ (e : Engine τ) :
        withCore <$> e.answers source calls₂ = withCore <$> e.core.answers source calls₂ :=
      (ih rfl).symm.trans (hrest₁ e)
    have hcons (e : Engine τ) (c : Call) (calls : List Call)
        (hrest : ∀ e : Engine τ,
          withCore <$> e.answers source calls = withCore <$> e.core.answers source calls₂) :
        withCore <$> e.answers source (c :: calls) = (do
          let told ← withCore <$> e.answerCall source c
          let rest ← withCore <$> told.2.answers source calls₂
          return (told.1.toList ++ rest.1, rest.2)) := by
      rw [answers_cons, map_bind, bind_map_left]
      refine bind_congr fun told => ?_
      rw [withCore, ← hrest]
      simp only [map_bind, map_pure, bind_map_left, withCore]
    rw [hcons e₁ c₁ calls₁ hrest₁, hcons e₂ c₂ calls₂ hrest₂, answerCall_core h halike]

/-- Two games over the same scenarios and the same source may differ in the way in which text
appears, in the names of the players, as long as neither of them or both are missing, and in
all times and ticks of the clock. If apart from that the same is asked of both, their inputs
have the same results, they ask the source the same, and they are in the same place with the
same scenes loaded. -/
theorem answers_indifferent {σ τ : Type} (source : Source (StateM σ) τ) (settings : Settings)
    (animated : Bool) (textSpeed : UInt32) (ls : List Listing) (calls₁ calls₂ : List Call)
    (h : Call.Corresponding calls₁ calls₂) (s : σ) :
    let game₁ := ((startListed settings ls).answers source calls₁).run s
    let game₂ := ((startListed { settings with animated, textSpeed } ls).answers source calls₂).run s
    let e₁ := game₁.1.2
    let e₂ := game₂.1.2
    game₁.1.1 = game₂.1.1 ∧ game₁.2 = game₂.2 ∧ e₁.state = e₂.state ∧ e₁.active = e₂.active ∧
      e₁.paused = e₂.paused ∧ e₁.serial = e₂.serial ∧ e₁.status = e₂.status ∧
      e₁.choicesOpen = e₂.choicesOpen ∧ e₁.reports = e₂.reports ∧ e₁.store = e₂.store := by
  intro game₁ game₂ e₁ e₂
  have hstart : (startListed settings ls : Engine τ).core =
      (startListed { settings with animated, textSpeed } ls).core := rfl
  have hanswers : withCore <$> (startListed settings ls).answers source calls₁ =
      withCore <$> (startListed { settings with animated, textSpeed } ls).answers source calls₂ :=
    answers_core h hstart
  have hgames : ((game₁.1.1, e₁.core), game₁.2) = ((game₂.1.1, e₂.core), game₂.2) :=
    congrFun hanswers s
  have hresults : game₁.1.1 = game₂.1.1 := congrArg (·.1.1) hgames
  have hsource : game₁.2 = game₂.2 := congrArg (·.2) hgames
  have hcore : e₁.core = e₂.core := congrArg (·.1.2) hgames
  exact ⟨hresults, hsource, congrArg (·.state) hcore, congrArg (·.active) hcore,
    congrArg (·.paused) hcore, congrArg (·.serial) hcore, congrArg (·.status) hcore,
    congrArg (·.choicesOpen) hcore, congrArg (·.reports) hcore, congrArg (·.store) hcore⟩

/-- A source that counts how often it is asked for a text. -/
def countedSource : Source (StateM Nat) Unit where
  text _ := do
    modify (· + 1)
    return .ok "[scene_start]\n[scene_end]\n[scene_start]\na:b:c\nBo::Hi\n[scene_end]"
  textures _ := return .error "lost"

/-- A player who waits for the text, and whose first name is refused. -/
def patientCalls : List Call :=
  [.tick 1 0, .handle .openScenarioSelect 1, .handle (.startNewGame (some "a.sc") " ") 2,
    .handle (.startNewGame (some "a.sc") "Ann") 3, .tick 1 4, .tick 1 5, .handle .advance 6]

/-- A player with another name, who does not wait. -/
def hastyCalls : List Call :=
  [.handle .openScenarioSelect 0, .handle (.startNewGame (some "a.sc") "") 0,
    .handle (.startNewGame (some "a.sc") "Bo") 0, .handle .advance 0, .tick 0 1]

/-- Whoever waits and whoever does not make corresponding calls. -/
theorem corresponding_patient_hasty : Call.Corresponding patientCalls hastyCalls := by
  have hrefused : SameButName (.startNewGame (some "a.sc") " ") (.startNewGame (some "a.sc") "") :=
    .startNewGame _ (by decide +kernel)
  have haccepted : SameButName (.startNewGame (some "a.sc") "Ann")
      (.startNewGame (some "a.sc") "Bo") := .startNewGame _ (by decide +kernel)
  exact .tickLeft _ _ <| .cons (.handle (.same _) _ _) <| .cons (.handle hrefused _ _) <|
    .cons (.handle haccepted _ _) <| .tickLeft _ _ <| .tickLeft _ _ <|
    .cons (.handle (.same _) _ _) <| .tickRight _ _ .nil

/-- A game with one scenario that is asked some calls, with or without animation. -/
def countedGame (animated : Bool) (textSpeed : UInt32) (calls : List Call) :
    (List (Except Refusal Unit) × Engine Unit) × Nat :=
  ((startListed ⟨.simple, .perScenario, false, animated, textSpeed⟩
    [.found ⟨"a.sc", "a.sc", "textures", "sounds"⟩]).answers countedSource calls).run 0

/-- Both players are in the second scene, and the source was asked once in both games. -/
theorem answers_indifferent_patient_hasty :
    (countedGame true 1 patientCalls).1.1 = (countedGame false 100 hastyCalls).1.1 ∧
      (countedGame true 1 patientCalls).2 = 1 ∧
        (countedGame true 1 patientCalls).1.2.state = .playing "a.sc" 1 := by
  obtain ⟨hresults, hsource, hstate, _⟩ := answers_indifferent countedSource
    ⟨.simple, .perScenario, false, true, 1⟩ false 100
    [.found ⟨"a.sc", "a.sc", "textures", "sounds"⟩] patientCalls hastyCalls
    corresponding_patient_hasty 0
  have hcount : (countedGame false 100 hastyCalls).2 = 1 := by decide +kernel
  have hscene : (countedGame false 100 hastyCalls).1.2.state = .playing "a.sc" 1 := by
    decide +kernel
  exact ⟨hresults, hsource.trans hcount, hstate.trans hscene⟩

end Engine

end VisualNovel
