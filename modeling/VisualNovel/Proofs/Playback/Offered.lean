import VisualNovel.Proofs.Playback.Transition
import VisualNovel.Proofs.Quartet

/-!
# Offered choices

What is shown is what can be done. A frame lists the choices of the current scene that have
a label, unless the game is paused, and exactly these can be chosen: no other one is
accepted, and none of them is refused for want of a choice or of an open menu. While choices
are listed or the game is paused, a signal to go on does nothing. The frame and the answers
are computed apart from each other, so both are compared with the choices that the engine
offers.
-/

namespace VisualNovel

open MonadAttach LawfulMonadAttach

namespace Frame

variable {s : Scene}

/-- The choices that are shown of a scene are those that have a label. -/
theorem mem_choicesOf {index : Nat} {label : String} :
    ⟨index, label⟩ ∈ choicesOf s ↔ (s.choices.get? index).bind (·.label) = some label := by
  rw [choicesOf, List.mem_filterMap, Option.bind_eq_some_iff]
  constructor
  · rintro ⟨⟨c, i⟩, hc, hlabel⟩
    rw [Quartet.mem_zipIdx] at hc
    obtain ⟨given, hgiven, heq⟩ := Option.map_eq_some_iff.mp hlabel
    cases heq
    exact ⟨c, hc, hgiven⟩
  · rintro ⟨c, hc, hlabel⟩
    exact ⟨(c, index), Quartet.mem_zipIdx.mpr hc, Option.map_eq_some_iff.mpr ⟨label, hlabel, rfl⟩⟩

/-- They are shown in the order of their places. -/
theorem pairwise_choicesOf (s : Scene) : (choicesOf s).Pairwise (·.index < ·.index) := by
  refine s.choices.pairwise_zipIdx.filterMap _ ?_
  intro ⟨c, i⟩ ⟨d, j⟩ hij a ha b hb
  obtain ⟨_, _, rfl⟩ := Option.map_eq_some_iff.mp ha
  obtain ⟨_, _, rfl⟩ := Option.map_eq_some_iff.mp hb
  exact hij

/-- A scene that has choices is one of which some are shown. -/
theorem choicesOf_ne_nil : choicesOf s ≠ [] ↔ s.hasChoices = true := by
  rw [Scene.hasChoices, List.any_eq_true]
  constructor
  · intro h
    obtain ⟨⟨index, label⟩, hmem⟩ := List.exists_mem_of_ne_nil _ h
    obtain ⟨c, hc, hlabel⟩ := Option.bind_eq_some_iff.mp (mem_choicesOf.mp hmem)
    rw [← Quartet.getElem?_toList] at hc
    exact ⟨c, List.mem_of_getElem? hc, Option.isSome_of_eq_some hlabel⟩
  · rintro ⟨c, hc, hpresent⟩
    obtain ⟨index, hindex⟩ := List.mem_iff_getElem?.mp hc
    obtain ⟨label, hlabel⟩ := Option.isSome_iff_exists.mp hpresent
    rw [Quartet.getElem?_toList] at hindex
    have hmem : ⟨index, label⟩ ∈ choicesOf s :=
      mem_choicesOf.mpr (Option.bind_eq_some_iff.mpr ⟨c, hindex, hlabel⟩)
    exact List.ne_nil_of_mem hmem

end Frame

namespace Engine

variable {τ : Type} {e e' : Engine τ}

/-- The choices that an engine offers: those of the current scene, while its menu is open. -/
def offers (e : Engine τ) : List OfferedChoice :=
  if e.choicesOpen then e.currentScene.elim [] Frame.choicesOf else []

/-- Where no menu is open no choices are offered. -/
theorem offers_of_closed (h : e.choicesOpen = false) : e.offers = [] := by
  rw [offers, h]
  rfl

/-- Where a menu is open the choices of the current scene are offered. -/
theorem offers_of_open {s : Scene} (h : e.choicesOpen = true) (hs : e.currentScene = some s) :
    e.offers = Frame.choicesOf s := by
  rw [offers, if_pos h, hs]
  rfl

/-- Choices are offered just if a menu is open. -/
theorem offers_ne_nil : e.offers ≠ [] ↔ e.choicesOpen = true := by
  cases hopen : e.choicesOpen with
  | false => simp [offers_of_closed hopen]
  | true =>
    obtain ⟨_, s, hs, hchoices⟩ := choicesOpen_eq_true.mp hopen
    rw [offers_of_open hopen hs]
    exact iff_of_true (Frame.choicesOf_ne_nil.mpr hchoices) rfl

/-- A choice is offered just if it has a label in the current scene and no pause is on. -/
theorem mem_offers {index : Nat} {label : String} : ⟨index, label⟩ ∈ e.offers ↔
    e.paused = false ∧
      ∃ s ∈ e.currentScene, (s.choices.get? index).bind (·.label) = some label := by
  constructor
  · intro h
    have hopen : e.choicesOpen = true := offers_ne_nil.mp (List.ne_nil_of_mem h)
    obtain ⟨hpaused, s, hs, _⟩ := choicesOpen_eq_true.mp hopen
    rw [offers_of_open hopen hs] at h
    exact ⟨hpaused, s, hs, Frame.mem_choicesOf.mp h⟩
  · rintro ⟨hpaused, s, hs, hlabel⟩
    have hmem := Frame.mem_choicesOf.mpr hlabel
    have hchoices := Frame.choicesOf_ne_nil.mp (List.ne_nil_of_mem hmem)
    rw [offers_of_open (choicesOpen_eq_true.mpr ⟨hpaused, s, hs, hchoices⟩) hs]
    exact hmem

/-- Choices are offered in the order of their indexes. -/
theorem pairwise_offers (e : Engine τ) : e.offers.Pairwise (·.index < ·.index) := by
  cases hopen : e.choicesOpen with
  | false =>
    rw [offers_of_closed hopen]
    exact List.Pairwise.nil
  | true =>
    obtain ⟨_, s, hs, _⟩ := choicesOpen_eq_true.mp hopen
    rw [offers_of_open hopen hs]
    exact Frame.pairwise_choicesOf s

/-- A scene is there only while a scenario is being played. -/
theorem isPlaying_of_currentScene {s : Scene} (hs : e.currentScene = some s) :
    e.state.isPlaying = true := by
  cases hplaying : e.state.isPlaying with
  | true => rfl
  | false =>
    rw [currentScene_eq_none hplaying] at hs
    cases hs

/-- The menu is open exactly if an unpaused scene has a choice with a label. -/
theorem choicesOpen_iff : e.choicesOpen = true ↔ e.state.isPlaying = true ∧ e.paused = false ∧
    ∃ s ∈ e.currentScene, ∃ c ∈ s.choices.toList, c.label.isSome = true := by
  rw [choicesOpen_eq_true]
  constructor
  · rintro ⟨hpaused, s, hs, hchoices⟩
    exact ⟨isPlaying_of_currentScene hs, hpaused, s, hs, List.any_eq_true.mp hchoices⟩
  · rintro ⟨_, hpaused, s, hs, hlabelled⟩
    exact ⟨hpaused, s, hs, List.any_eq_true.mpr hlabelled⟩

/-- A choice is offered at a place exactly if the input handler finds one there. -/
theorem mem_map_index_offers {index : Nat} : index ∈ e.offers.map (·.index) ↔
    e.paused = false ∧ ∃ c, e.offered? index = some c := by
  constructor
  · intro h
    obtain ⟨⟨index, label⟩, hmem, rfl⟩ := List.mem_map.mp h
    obtain ⟨hpaused, s, hs, hlabel⟩ := mem_offers.mp hmem
    obtain ⟨c, hc, hlabel⟩ := Option.bind_eq_some_iff.mp hlabel
    exact ⟨hpaused, c, offered?_eq_some_iff.mpr ⟨s, hs, hc, Option.isSome_of_eq_some hlabel⟩⟩
  · rintro ⟨hpaused, c, hoffered⟩
    obtain ⟨s, hs, hc, hpresent⟩ := offered?_eq_some_iff.mp hoffered
    obtain ⟨label, hlabel⟩ := Option.isSome_iff_exists.mp hpresent
    have hmem : ⟨index, label⟩ ∈ e.offers :=
      mem_offers.mpr ⟨hpaused, s, hs, Option.bind_eq_some_iff.mpr ⟨c, hc, hlabel⟩⟩
    exact List.mem_map.mpr ⟨_, hmem, rfl⟩

section Ticks

variable (e) (dt : Float32) (now : Nat)

/-- The frame of a tick has the choices that are offered. -/
theorem choices_snd_tick : (e.tick dt now).2.choices = e.offers := by
  obtain ⟨reveal, history, recorded, htick⟩ := e.exists_fst_tick dt now
  cases hs : e.currentScene with
  | none =>
    rw [tick, offers, hs]
    exact (ite_self _).symm
  | some s =>
    rw [snd_tick hs, htick, offers, hs]
    rfl

/-- The frame of a tick has an open menu just if the engine has. -/
theorem choicesOpen_snd_tick : (e.tick dt now).2.choicesOpen = e.choicesOpen := by
  obtain ⟨reveal, history, recorded, htick⟩ := e.exists_fst_tick dt now
  cases hs : e.currentScene with
  | none =>
    rw [tick, choicesOpen, hs]
    exact (Bool.and_false _).symm
  | some s =>
    rw [snd_tick hs, htick]
    rfl

/-- The frame of a menu is never paused. -/
theorem paused_of_snd_tick (h : (e.tick dt now).2.paused = true) : e.paused = true := by
  obtain ⟨reveal, history, recorded, htick⟩ := e.exists_fst_tick dt now
  cases hs : e.currentScene with
  | none =>
    rw [tick, hs] at h
    cases h
  | some s =>
    rw [snd_tick hs, htick] at h
    exact h

end Ticks

section Answers

variable {index now : Nat} {reason : Refusal} {result : Except Refusal Unit}

/-- Why a choice is refused before anything is loaded. -/
inductive Declines (e : Engine τ) (index : Nat) : Refusal → Prop where
  | unplayed (menu : e.state.isPlaying = false) : Declines e index (e.mismatch "Playing")
  | paused (paused : e.paused = true) : Declines e index (.wrongState "Playing" "PauseMenuOpen")
  | unoffered (missing : e.offered? index = none) : Declines e index (.invalidChoice index)
  | unlisted {c : Choice} {target : String} (unpaused : e.paused = false)
      (offered : e.offered? index = some c) (targeted : c.target = some target)
      (missing : e.store.findIndex? target = none) : Declines e index (.scenarioNotFound target)

/-- A choice that cannot be planned is declined for one of these reasons. -/
theorem declines_of_planChoice (h : e.planChoice index = .error reason) :
    Declines e index reason := by
  cases hplaying : e.state.isPlaying with
  | false =>
    have hexpect : e.expectPlaying = .error (e.mismatch "Playing") := by
      rw [expectPlaying, hplaying]
      rfl
    rw [planChoice, hexpect] at h
    cases h
    exact .unplayed hplaying
  | true =>
    have hexpect : e.expectPlaying = .ok () := if_pos hplaying
    rw [planChoice, hexpect] at h
    cases hpaused : e.paused with
    | true =>
      rw [hpaused] at h
      cases h
      exact .paused hpaused
    | false =>
      rw [hpaused] at h
      cases hoffered : e.offered? index with
      | none =>
        rw [hoffered] at h
        cases h
        exact .unoffered hoffered
      | some c =>
        rw [hoffered] at h
        cases htarget : c.target with
        | none =>
          simp only [htarget] at h
          cases h
        | some target =>
          simp only [htarget] at h
          cases hlisted : e.store.findIndex? target with
          | none =>
            rw [hlisted] at h
            cases h
            exact .unlisted hpaused hoffered htarget hlisted
          | some k =>
            rw [hlisted] at h
            cases h

/-- Whether an answer is that there is no such choice, or that none can be made now. -/
def deniesChoice : Except Refusal Unit → Bool
  | .error (.invalidChoice _) => true
  | .error (.wrongState _ _) => true
  | _ => false

/-- A scenario that cannot be played is not selected or has no scenes. -/
theorem playable_eq_error (h : e.playable index = .error reason) :
    reason = .noScenarioSelected ∨ ∃ name, reason = .emptyScenario name := by
  rw [playable] at h
  split at h
  · cases h
    exact Or.inl rfl
  · split at h
    · cases h
      exact Or.inr ⟨_, rfl⟩
    · cases h

/-- A scenario that a choice leads to can only turn out to be unplayable. -/
theorem enterLoaded_choice_eq_error {k : Nat} {target : String}
    (h : e.enterLoaded now (.choice k target) = .error reason) :
    e.playable k = .error reason := by
  rw [enterLoaded] at h
  cases hplayable : e.playable k with
  | error other =>
    simp only [Entrance.index, hplayable] at h
    cases h
    rfl
  | ok length =>
    simp only [Entrance.index, hplayable] at h
    cases h

/-- An answer denies a choice exactly if it is not offered. -/
theorem deniesChoice_eq_false_iff (ha : Answers e (.activateChoice index) now (e', result)) :
    deniesChoice result = false ↔ index ∈ e.offers.map (·.index) := by
  rw [mem_map_index_offers]
  cases ha with
  | refused hplan =>
    cases declines_of_planChoice hplan with
    | unplayed hmenu =>
      refine iff_of_false Bool.noConfusion ?_
      rintro ⟨_, c, hoffered⟩
      obtain ⟨s, hs, _⟩ := offered?_eq_some_iff.mp hoffered
      rw [isPlaying_of_currentScene hs] at hmenu
      cases hmenu
    | paused hpaused => simp [deniesChoice, hpaused]
    | unoffered hmissing => simp [deniesChoice, hmissing]
    | unlisted hunpaused hoffered _ _ => exact iff_of_true rfl ⟨hunpaused, _, hoffered⟩
  | done haccepts =>
    cases haccepts with
    | choose _ hunpaused hoffered _ => exact iff_of_true rfl ⟨hunpaused, _, hoffered⟩
  | unplayable haccepts _ hentered =>
    cases haccepts with
    | follow _ hunpaused hoffered _ _ =>
      refine iff_of_true ?_ ⟨hunpaused, _, hoffered⟩
      rcases playable_eq_error (enterLoaded_choice_eq_error hentered) with rfl | ⟨name, rfl⟩
      · rfl
      · rfl
  | entered haccepts _ _ _ _ =>
    cases haccepts with
    | follow _ hunpaused hoffered _ _ => exact iff_of_true rfl ⟨hunpaused, _, hoffered⟩

end Answers

/-- A frame shows of an engine what can be done, where each input has its answer. -/
structure Faithful (e : Engine τ) (f : Frame)
    (answer : Input → Engine τ × Except Refusal Unit) : Prop where
  /-- The menu is open exactly if there are choices in it. -/
  opened : f.choicesOpen = true ↔ f.choices ≠ []
  /-- There are some exactly if an unpaused scene has a choice with a label. -/
  filled : f.choices ≠ [] ↔ e.state.isPlaying = true ∧ e.paused = false ∧
    ∃ s ∈ e.currentScene, ∃ c ∈ s.choices.toList, c.label.isSome = true
  /-- They are the choices with a label, and have the places and labels that the scene gives. -/
  labelled {index : Nat} {label : String} : ⟨index, label⟩ ∈ f.choices ↔
    e.paused = false ∧
      ∃ s ∈ e.currentScene, (s.choices.get? index).bind (·.label) = some label
  /-- They are listed in the order of their places. -/
  ordered : f.choices.Pairwise (·.index < ·.index)
  /-- Exactly they can be made. -/
  available {index : Nat} :
    deniesChoice (answer (.activateChoice index)).2 = false ↔ index ∈ f.choices.map (·.index)
  /-- Before choices and while paused, a signal to go on does nothing. -/
  held : f.choices ≠ [] ∨ f.paused = true →
    (answer .advance).1.state = e.state ∧ (answer .advance).1.serial = e.serial

/-- A frame is faithful if it shows the choices that the engine offers. -/
theorem faithful_of_choices_eq {f : Frame} {answer : Input → Engine τ × Except Refusal Unit}
    {now : Nat} (hopen : f.choicesOpen = e.choicesOpen) (hchoices : f.choices = e.offers)
    (hpaused : f.paused = true → e.paused = true)
    (hanswers : ∀ input, Answers e input now (answer input)) : Faithful e f answer := by
  constructor
  case opened => rw [hopen, hchoices, offers_ne_nil]
  case filled => rw [hchoices, offers_ne_nil, choicesOpen_iff]
  case labelled =>
    intro index label
    rw [hchoices, mem_offers]
  case ordered =>
    rw [hchoices]
    exact e.pairwise_offers
  case available =>
    intro index
    rw [hchoices]
    exact deniesChoice_eq_false_iff (hanswers (.activateChoice index))
  case held =>
    intro h
    rw [hchoices, offers_ne_nil] at h
    obtain ⟨status, hstatus⟩ := eq_of_answers_advance (h.symm.imp_left hpaused) (hanswers .advance)
    rw [hstatus]
    exact ⟨rfl, rfl⟩

/-- Whatever an engine is like, the frame of the next tick is faithful to it, as it is before
the tick and after it, whenever an input is given and whatever the source answers then. -/
theorem faithful_snd_tick {σ : Type} (source : Source (StateM σ) τ) (e : Engine τ) (dt : Float32)
    (now later : Nat) (t : σ) :
    Faithful e (e.tick dt now).2 (fun input => ((e.handle source later input).run t).1) ∧
      Faithful (e.tick dt now).1 (e.tick dt now).2
        (fun input => (((e.tick dt now).1.handle source later input).run t).1) := by
  have hanswers (e : Engine τ) (input : Input) :
      Answers e input later ((e.handle source later input).run t).1 :=
    answers_of_canReturn_handle (canReturn_fst_run _ t)
  have hopen := e.choicesOpen_snd_tick dt now
  have hchoices := e.choices_snd_tick dt now
  have hpaused := e.paused_of_snd_tick dt now
  refine ⟨faithful_of_choices_eq hopen hchoices hpaused (hanswers e), ?_⟩
  -- a tick touches nothing that these questions are about
  obtain ⟨reveal, history, recorded, htick⟩ := e.exists_fst_tick dt now
  have hsame : (e.tick dt now).1.choicesOpen = e.choicesOpen ∧
      (e.tick dt now).1.offers = e.offers ∧ (e.tick dt now).1.paused = e.paused := by
    rw [htick]
    exact ⟨rfl, rfl, rfl⟩
  exact faithful_of_choices_eq (hopen.trans hsame.1.symm) (hchoices.trans hsame.2.1.symm)
    (fun h => hsame.2.2.trans (hpaused h)) (hanswers _)

end Engine

end VisualNovel
