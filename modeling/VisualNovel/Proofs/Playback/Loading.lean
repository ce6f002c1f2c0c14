import VisualNovel.Playback.Engine
import VisualNovel.Proofs.Store

/-!
# Loading

Whatever a source answers, loading changes nothing but scenarios that were not loaded
before, and it keeps one report for each of them. Of an effect only the results count that
it can return, so that all sources are dealt with at once: those that answer at once, and
those whose answers depend on what they were asked before.
-/

namespace VisualNovel

open MonadAttach LawfulMonadAttach

namespace Engine

variable {τ : Type} {e e₁ e₂ : Engine τ}

/-- The engine once both answers of a source about a scenario were taken. -/
def taken (e : Engine τ) (i : Nat) (entry : Entry τ)
    (textures : Except String (List (String × τ))) (text : Except String String) : Engine τ :=
  let result := entry.take e.settings.layout textures text
  { e with
    store := e.store.set i result.1
    reports := e.reports ++ [(entry.descriptor.fileName, result.2)] }

/-- An engine from which another comes by loads, each of a scenario that was not loaded. -/
inductive Loads (e : Engine τ) : Engine τ → Prop where
  | refl : Loads e e
  | step {e₁ : Engine τ} {i : Nat} {entry : Entry τ} (before : Loads e e₁)
      (present : e₁.store.get? i = some entry) (unloaded : entry.loaded = false)
      (textures : Except String (List (String × τ))) (text : Except String String) :
      Loads e (e₁.taken i entry textures text)

namespace Loads

/-- Loads after loads are loads. -/
theorem trans (h : Loads e e₁) (h' : Loads e₁ e₂) : Loads e e₂ := by
  induction h' with
  | refl => exact h
  | step _ present unloaded textures text ih => exact .step ih present unloaded textures text

/-- Loads touch the store and the reports alone. -/
theorem rest (h : Loads e e₁) : e₁ = { e with store := e₁.store, reports := e₁.reports } := by
  induction h with
  | refl => rfl
  | step _ _ _ textures text ih =>
    rw [ih]
    rfl

theorem settings_eq (h : Loads e e₁) : e₁.settings = e.settings := by rw [h.rest]

theorem state_eq (h : Loads e e₁) : e₁.state = e.state := by rw [h.rest]

theorem active_eq (h : Loads e e₁) : e₁.active = e.active := by rw [h.rest]

theorem player_eq (h : Loads e e₁) : e₁.player = e.player := by rw [h.rest]

theorem history_eq (h : Loads e e₁) : e₁.history = e.history := by rw [h.rest]

theorem recorded_eq (h : Loads e e₁) : e₁.recorded = e.recorded := by rw [h.rest]

theorem serial_eq (h : Loads e e₁) : e₁.serial = e.serial := by rw [h.rest]

/-- A scenario that is loaded stays as it is. -/
theorem get?_eq (h : Loads e e₁) {i : Nat} {entry : Entry τ} (hi : e.store.get? i = some entry)
    (hloaded : entry.loaded = true) : e₁.store.get? i = some entry := by
  induction h with
  | refl => exact hi
  | @step e₁ j other _ present unloaded textures text ih =>
    have hij : j ≠ i := by
      rintro rfl
      rw [ih] at present
      rw [Option.some.inj present, unloaded] at hloaded
      exact Bool.false_ne_true hloaded
    exact (Store.get?_set_ne hij _).trans ih

/-- Loads leave the descriptors alone. -/
theorem descriptors_eq (h : Loads e e₁) : e₁.store.descriptors = e.store.descriptors := by
  induction h with
  | refl => rfl
  | step _ present _ textures text ih =>
    exact (Store.descriptors_set present (Entry.descriptor_take _ _ _ _)).trans ih

/-- Loads leave every scenario at its index. -/
theorem findIndex?_eq (h : Loads e e₁) (fileName : String) :
    e₁.store.findIndex? fileName = e.store.findIndex? fileName :=
  Store.findIndex?_congr h.descriptors_eq fileName

/-- What is ready stays ready. -/
theorem ready (h : Loads e e₁) {i : Nat} (hi : e.store.Ready i) : e₁.store.Ready i := by
  induction h with
  | refl => exact hi
  | step _ present _ textures text ih => exact ih.set present (Entry.loaded_take _ _ _ _)

end Loads

/-- A scenario is required for itself. -/
theorem self_mem_required (e : Engine τ) (index : Nat) : index ∈ e.required index := by
  rw [required]
  split
  · split
    · exact List.mem_singleton_self index
    · exact List.mem_cons_self
  · exact List.mem_singleton_self index

/-- The scenario that has the textures is required with another one. -/
theorem mem_required_of_scenario? {i index : Nat}
    (h : i ∈ e.settings.lookup.scenario? e.store (some index)) : i ∈ e.required index := by
  rw [required, Option.mem_def.mp h]
  by_cases hi : i = index
  · simp [hi]
  · simp [hi]

section Effects

variable {m : Type → Type} [Monad m] [LawfulMonad m] {source : Source m τ}

/-- A scenario that is there and not loaded is taken from the source, and otherwise nothing happens.
-/
theorem loadOne_eq (source : Source m τ) (i : Nat) (e : Engine τ) :
    e.loadOne source i =
      match e.store.get? i with
      | none => pure e
      | some entry =>
        if entry.loaded then pure e
        else (do
          let textures ← source.textures entry.descriptor
          let text ← source.text entry.descriptor
          pure (e.taken i entry textures text)) := by
  rw [loadOne, Store.ensureLoaded]
  cases hi : e.store.get? i with
  | none => simp
  | some entry =>
    simp only
    split
    · simp [hi, LoadReport.idle]
    · simp only [bind_assoc, pure_bind, Store.get?_set_self hi, Option.map_some,
        Entry.performed_take, Entry.descriptor_take, if_true, taken]

variable [MonadAttach m] [LawfulMonadAttach m]

/-- A load of one scenario leaves it ready. -/
theorem loads_of_canReturn_loadOne {i : Nat} (h : CanReturn (e.loadOne source i) e₁) :
    Loads e e₁ ∧ e₁.store.Ready i := by
  rw [loadOne_eq] at h
  split at h
  · next hi =>
    obtain rfl := eq_of_canReturn_pure h
    exact ⟨.refl, by simp [Store.Ready, hi]⟩
  · next entry hi =>
    split at h
    · next hloaded =>
      obtain rfl := eq_of_canReturn_pure h
      exact ⟨.refl, by simpa [Store.Ready, hi] using hloaded⟩
    · next hloaded =>
      obtain ⟨textures, _, h⟩ := canReturn_bind_imp' h
      obtain ⟨text, _, h⟩ := canReturn_bind_imp' h
      obtain rfl := eq_of_canReturn_pure h
      refine ⟨.step .refl hi (Bool.eq_false_iff.mpr hloaded) textures text, ?_⟩
      simp [Store.Ready, taken, Store.get?_set_self hi]

/-- Loading some scenarios makes loads, after which all of them are ready. -/
theorem loads_of_canReturn_loadEach {is : List Nat} (h : CanReturn (loadEach source is e) e₁) :
    Loads e e₁ ∧ ∀ i ∈ is, e₁.store.Ready i := by
  induction is generalizing e with
  | nil =>
    obtain rfl := eq_of_canReturn_pure h
    exact ⟨.refl, by simp⟩
  | cons i is ih =>
    obtain ⟨e₂, hone, h⟩ := canReturn_bind_imp' h
    obtain ⟨hone, hready⟩ := loads_of_canReturn_loadOne hone
    obtain ⟨heach, hrest⟩ := ih h
    exact ⟨hone.trans heach, List.forall_mem_cons.mpr ⟨heach.ready hready, hrest⟩⟩

/-- A load for a scenario leaves it ready, and also the one whose textures count. -/
theorem loads_of_canReturn_load {index : Nat} (h : CanReturn (e.load source index) e₁) :
    Loads e e₁ ∧ e₁.store.Ready index ∧
      ∀ i ∈ e.settings.lookup.scenario? e.store (some index), e₁.store.Ready i := by
  obtain ⟨hloads, hready⟩ := loads_of_canReturn_loadEach h
  exact ⟨hloads, hready index (self_mem_required e index),
    fun i hi => hready i (mem_required_of_scenario? hi)⟩

end Effects

end Engine

end VisualNovel
