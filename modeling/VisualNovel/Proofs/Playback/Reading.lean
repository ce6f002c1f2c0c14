import VisualNovel.Proofs.Playback.Offered
import VisualNovel.Proofs.Playback.Steady

/-!
# Scenes of known scenarios

The source of an engine may change, as long as it gives the same scenes of the scenarios that
the engine knows. Without an editor, the engine then holds these scenes of every scenario that
it has loaded, whatever it was asked. So a choice that leads nowhere can be seen in the
scenarios: no scenario has the name that it leads to, or the one that has it has no scene.
-/

namespace VisualNovel

open MonadAttach LawfulMonadAttach

variable {τ : Type}

/-- The scenes that a source gives of a scenario; none, if it gives no text. -/
def Source.scenes (source : Source Id τ) (layout : Layout) (d : Descriptor) : List Scene :=
  match (source.text d).run with
  | .ok text => (Scenario.read layout text).scenes
  | .error _ => []

/-- Whether an input is refused because there is nothing to play where it leads. -/
def Refusal.leadsNowhere : Refusal → Bool
  | .scenarioNotFound _ => true
  | .emptyScenario _ => true
  | _ => false

/-- An entry without scenes takes those of its source. -/
theorem Entry.scenes_take {entry : Entry τ} (h : entry.scenes = []) (source : Source Id τ)
    (layout : Layout) (textures : Except String (List (String × τ))) :
    (entry.take layout textures (source.text entry.descriptor).run).1.scenes =
      source.scenes layout entry.descriptor := by
  rw [Source.scenes]
  generalize (source.text entry.descriptor).run = text
  cases textures <;> cases text
  · exact h
  · rfl
  · exact h
  · rfl

namespace Engine

/-- An engine that knows some scenarios, and that holds given scenes of those it has loaded. -/
structure Informed (settings : Settings) (ds : List Descriptor) (scenes : Descriptor → List Scene)
    (e : Engine τ) : Prop where
  settings_eq : e.settings = settings
  descriptors_eq : e.store.descriptors = ds
  coherent : e.Coherent
  scenes_eq (i : Nat) (entry : Entry τ) (hi : entry ∈ e.store.get? i) :
    entry.scenes = if entry.loaded then scenes entry.descriptor else []

namespace Informed

variable {settings : Settings} {ds : List Descriptor} {scenes : Descriptor → List Scene}
  {e : Engine τ} {source : Source Id τ}

/-- An engine that was started has loaded nothing. -/
theorem start (settings : Settings) (ds : List Descriptor) (scenes : Descriptor → List Scene) :
    Informed settings ds scenes (.start settings ds : Engine τ) where
  settings_eq := rfl
  descriptors_eq := Store.descriptors_ofDescriptors ds
  coherent := coherent_startListed settings _
  scenes_eq i entry hi := by
    rw [Store.eq_of_get?_ofDescriptors hi]
    rfl

/-- Every entry is that of a known scenario. -/
theorem descriptor_mem (h : Informed settings ds scenes e) {i : Nat} {entry : Entry τ}
    (hi : e.store.get? i = some entry) : entry.descriptor ∈ ds := by
  rw [← h.descriptors_eq]
  exact List.mem_map_of_mem (List.mem_of_getElem? hi)

/-- A load takes the scenes of the source. -/
theorem load (h : Informed settings ds scenes e)
    (hsource : ∀ d ∈ ds, source.scenes settings.layout d = scenes d) (index : Nat) :
    Informed settings ds scenes (e.load source index).run := by
  obtain ⟨hloads, _⟩ := loads_load source index e
  have hread : ∀ j, ∀ entry ∈ (e.load source index).run.store.get? j, entry.descriptor ∈ ds ∧
      entry.scenes = if entry.loaded then scenes entry.descriptor else [] := by
    have hlayout : e.settings.layout = settings.layout := by rw [h.settings_eq]
    refine forall_loadEach ?_ hlayout (fun i entry hi => ⟨h.descriptor_mem hi,
      h.scenes_eq i entry hi⟩) (e.required index)
    rintro entry ⟨hmem, hscenes⟩ hloaded
    rw [hloaded] at hscenes
    rw [Entry.descriptor_take, Entry.loaded_take, Entry.scenes_take hscenes]
    exact ⟨hmem, hsource entry.descriptor hmem⟩
  exact ⟨hloads.settings_eq.trans h.settings_eq, hloads.descriptors_eq.trans h.descriptors_eq,
    h.coherent.loads hloads, fun i entry hi => (hread i entry hi).2⟩

/-- An input leaves an engine with the scenes of the source. -/
theorem handle (h : Informed settings ds scenes e) (hediting : settings.editing = false)
    (hsource : ∀ d ∈ ds, source.scenes settings.layout d = scenes d) (now : Nat) (input : Input) :
    Informed settings ds scenes (e.handle source now input).run.1 := by
  have hanswers : Answers e input now (e.handle source now input).run :=
    answers_of_canReturn_handle (canReturn_run (e.handle source now input))
  refine ⟨hanswers.settings_eq.trans h.settings_eq, ?_, h.coherent.answers hanswers, ?_⟩
  all_goals
    rw [← h.settings_eq] at hediting
    rcases store_handle hediting source now input with hsame | ⟨index, hload⟩
  · rw [hsame]
    exact h.descriptors_eq
  · rw [hload]
    exact (h.load hsource index).descriptors_eq
  · rw [hsame]
    exact h.scenes_eq
  · rw [hload]
    exact (h.load hsource index).scenes_eq

/-- Whatever is asked, if scenarios are looked for where they are known. -/
theorem call (h : Informed settings ds scenes e) (hediting : settings.editing = false)
    (hsource : ∀ d ∈ ds, source.scenes settings.layout d = scenes d) {c : Call}
    (hlisted : ∀ ls, c = .rescan ls → ls = ds.map .found) :
    Informed settings ds scenes (e.call source c).run := by
  have hcoherent : (e.call source c).run.Coherent :=
    h.coherent.call (canReturn_run (e.call source c))
  cases c with
  | handle input now => exact h.handle hediting hsource now input
  | tick dt now =>
    obtain ⟨reveal, history, recorded, htick⟩ := e.exists_fst_tick dt now
    have hcall : (e.call source (.tick dt now)).run = { e with reveal, history, recorded } := htick
    rw [hcall] at hcoherent ⊢
    exact ⟨h.settings_eq, h.descriptors_eq, hcoherent, h.scenes_eq⟩
  | rescan ls =>
    obtain rfl := hlisted ls rfl
    have hstart := start (τ := τ) settings ds scenes
    cases hplaying : e.state.isPlaying with
    | true =>
      have hcall : (e.call source (.rescan (ds.map .found))).run = e := by
        simp only [Engine.call, rescanListed, hplaying, if_true]
        rfl
      rw [hcall]
      exact h
    | false =>
      have hcall : (e.call source (.rescan (ds.map .found))).run =
          { e with store := .ofListings (ds.map .found) } := by
        simp only [Engine.call, rescanListed, hplaying, Bool.false_eq_true, if_false]
        rfl
      rw [hcall] at hcoherent ⊢
      exact ⟨h.settings_eq, hstart.descriptors_eq, hcoherent, hstart.scenes_eq⟩
  | setCatalog names => exact ⟨h.settings_eq, h.descriptors_eq, hcoherent, h.scenes_eq⟩
  | takeReports => exact ⟨h.settings_eq, h.descriptors_eq, hcoherent, h.scenes_eq⟩

/-- Calls leave an engine with the scenes of the source, if the same scenarios are found again. -/
theorem run (h : Informed settings ds scenes e) (hediting : settings.editing = false)
    (hsource : ∀ d ∈ ds, source.scenes settings.layout d = scenes d) {calls : List Call}
    (hlisted : ∀ ls, .rescan ls ∈ calls → ls = ds.map .found) :
    Informed settings ds scenes (e.run source calls).run := by
  refine of_canReturn_run ?_ h (canReturn_run (e.run source calls))
  rintro c hc e e' h hcall
  cases hcall
  exact h.call hediting hsource fun ls hls => hlisted ls (hls ▸ hc)

end Informed

section Choices

variable {settings : Settings} {ds : List Descriptor} {scenes : Descriptor → List Scene}
  {e : Engine τ} {source : Source Id τ} {index now : Nat} {reason : Refusal}

/-- A choice leads nowhere if there is no scenario of its name, or none with a scene. -/
theorem exists_of_leadsNowhere
    (h : (e.handle source now (.activateChoice index)).run.2 = .error reason)
    (hreason : reason.leadsNowhere = true) :
    ∃ c target, e.offered? index = some c ∧ c.target = some target ∧
      (reason = .scenarioNotFound target ∧ e.store.findIndex? target = none ∨
        ∃ k entry, e.store.findIndex? target = some k ∧
          (e.load source k).run.store.get? k = some entry ∧ entry.scenes = []) := by
  rw [Engine.handle] at h
  cases hplan : e.plan (.activateChoice index) with
  | error other =>
    rw [hplan] at h
    cases h
    cases declines_of_planChoice hplan with
    | unlisted _ hoffered htarget hmissing =>
      exact ⟨_, _, hoffered, htarget, Or.inl ⟨rfl, hmissing⟩⟩
    | _ => cases hreason
  | ok p =>
    cases accepts_of_plan hplan with
    | choose _ _ _ _ =>
      rw [hplan] at h
      cases h
    | @follow _ k c target _ _ hoffered htarget hlisted =>
      refine ⟨c, target, hoffered, htarget, Or.inr ⟨k, ?_⟩⟩
      have hsettled : ((e.load source k).run.settle
          ((e.load source k).run.enterLoaded now (.choice k target))).2 = .error reason := by
        rw [hplan] at h
        exact h
      cases hentered : (e.load source k).run.enterLoaded now (.choice k target) with
      | ok e' =>
        rw [hentered] at hsettled
        cases hsettled
      | error other =>
        rw [hentered] at hsettled
        cases hsettled
        have hplayable := enterLoaded_choice_eq_error hentered
        rw [playable] at hplayable
        split at hplayable
        · cases hplayable
          cases hreason
        · next entry hentry =>
          split at hplayable
          · next hempty => exact ⟨entry, hlisted, hentry, List.isEmpty_iff.mp hempty⟩
          · cases hplayable

/-- A choice that leads nowhere belongs to a scene of the scenario that is being played; no
known scenario has the name that it leads to, or one that has it has no scenes. -/
theorem Informed.exists_of_leadsNowhere (h : Informed settings ds scenes e)
    (hsource : ∀ d ∈ ds, source.scenes settings.layout d = scenes d)
    (hrefused : (e.handle source now (.activateChoice index)).run.2 = .error reason)
    (hreason : reason.leadsNowhere = true) :
    ∃ d ∈ ds, ∃ scene, e.state = .playing d.fileName scene ∧
      ∃ s ∈ scenes d, ∃ c ∈ s.choices.toList, ∃ target, c.target = some target ∧
        (reason = .scenarioNotFound target ∧ (∀ d' ∈ ds, d'.fileName ≠ target) ∨
          ∃ d' ∈ ds, d'.fileName = target ∧ scenes d' = []) := by
  obtain ⟨c, target, hoffered, htarget, hmissing⟩ :=
    Engine.exists_of_leadsNowhere hrefused hreason
  obtain ⟨s, hs, hc, _⟩ := offered?_eq_some_iff.mp hoffered
  obtain ⟨scenario, scene, hstate⟩ := exists_playing (isPlaying_of_currentScene hs)
  obtain ⟨k, entry, hheld⟩ := h.coherent.held hstate
  obtain ⟨named, hnamed, rfl⟩ := Store.exists_of_findIndex?_eq hheld.listed
  obtain rfl : entry = named := Option.some.inj (hheld.present.symm.trans hnamed)
  have hscenes := h.scenes_eq k entry hheld.present
  rw [if_pos hheld.loaded] at hscenes
  rw [hheld.currentScene_eq hstate, hscenes] at hs
  rw [← Quartet.getElem?_toList] at hc
  refine ⟨entry.descriptor, h.descriptor_mem hheld.present, scene, hstate, s,
    List.mem_of_getElem? hs, c, List.mem_of_getElem? hc, target, htarget, ?_⟩
  rcases hmissing with ⟨hreason, hunlisted⟩ | ⟨j, other, hlisted, hother, hempty⟩
  · refine Or.inl ⟨hreason, fun d' hd' hname => ?_⟩
    rw [Store.findIndex?_eq, h.descriptors_eq, List.findIdx?_eq_none_iff] at hunlisted
    simpa [hname] using hunlisted d' hd'
  · obtain ⟨hloads, hready⟩ := loads_load source j e
    have hload := h.load hsource j
    obtain ⟨found, hfound, hname⟩ :=
      Store.exists_of_findIndex?_eq ((hloads.findIndex?_eq target).trans hlisted)
    obtain rfl : other = found := Option.some.inj (hother.symm.trans hfound)
    have hread := hload.scenes_eq j other hother
    rw [if_pos (hready other hother), hempty] at hread
    exact Or.inr ⟨other.descriptor, hload.descriptor_mem hother, hname, hread.symm⟩

end Choices

end Engine

end VisualNovel
