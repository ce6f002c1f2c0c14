import VisualNovel.Proofs.Playback.Coherence

/-!
# Steady sources

A source whose answers do not change gives a scenario the same scenes and textures whenever
it is loaded. As long as nobody edits and the scenarios stay listed as they are, all that an
engine ever holds of a scenario is then determined by its descriptor, so that two engines
over the same source agree on every scenario that both have loaded.
-/

namespace VisualNovel

open MonadAttach LawfulMonadAttach

variable {τ : Type}

/-- A scenario as a source gives it whose answers do not change. -/
def Source.entry (source : Source Id τ) (layout : Layout) (d : Descriptor) : Entry τ :=
  ((Entry.ofDescriptor d).take layout (source.textures d).run (source.text d).run).1

/-- Every scenario of a store is as its source gives it, or has not been loaded. -/
def Store.Sourced (s : Store τ) (source : Source Id τ) (layout : Layout) : Prop :=
  ∀ i, ∀ entry ∈ s.get? i,
    entry = .ofDescriptor entry.descriptor ∨ entry = source.entry layout entry.descriptor

/-- What a source gives is loaded. -/
theorem Source.loaded_entry (source : Source Id τ) (layout : Layout) (d : Descriptor) :
    (source.entry layout d).loaded = true :=
  Entry.loaded_take _ _ _ _

namespace Store.Sourced

variable {source : Source Id τ} {layout : Layout} {s : Store τ} {i : Nat} {entry : Entry τ}

/-- A scenario that is loaded is as its source gives it. -/
theorem eq_of_loaded (h : s.Sourced source layout) (hi : s.get? i = some entry)
    (hloaded : entry.loaded = true) : entry = source.entry layout entry.descriptor := by
  rcases h i entry hi with hentry | hentry
  · rw [hentry] at hloaded
    cases hloaded
  · exact hentry

/-- A scenario that two stores have loaded is the same in both. -/
theorem get?_eq {t : Store τ} (hs : s.Sourced source layout) (ht : t.Sourced source layout)
    (hsame : s.descriptors = t.descriptors) (hentry : s.get? i = some entry)
    (hloaded : entry.loaded = true) (hready : t.Ready i) : t.get? i = some entry := by
  have hdescriptor : (t.get? i).map (·.descriptor) = some entry.descriptor := by
    have hsame : t.descriptors[i]? = s.descriptors[i]? := by rw [hsame]
    rw [descriptors, descriptors, List.getElem?_map, List.getElem?_map] at hsame
    rw [get?] at hentry ⊢
    rw [hsame, hentry, Option.map_some]
  obtain ⟨other, hother, hother'⟩ := Option.map_eq_some_iff.mp hdescriptor
  have hentry' := hs.eq_of_loaded hentry hloaded
  have hother'' := ht.eq_of_loaded hother (hready other hother)
  rw [hother, hother'', hother', ← hentry']

/-- Two stores have the same entry of a scenario that is ready in both. -/
theorem get?_congr {t : Store τ} (hs : s.Sourced source layout) (ht : t.Sourced source layout)
    (hsame : s.descriptors = t.descriptors) (hready : s.Ready i) (hready' : t.Ready i) :
    t.get? i = s.get? i := by
  cases hentry : s.get? i with
  | some entry => exact hs.get?_eq ht hsame hentry (hready entry hentry) hready'
  | none =>
    cases hother : t.get? i with
    | none => rfl
    | some other =>
      have hsome := ht.get?_eq hs hsame.symm hother (hready' other hother) hready
      rw [hentry] at hsome
      cases hsome

end Store.Sourced

namespace Engine

variable {source : Source Id τ} {layout : Layout} {e e' : Engine τ}

/-- A step leaves the store. -/
theorem store_stepForward (e : Engine τ) : e.stepForward.store = e.store := by
  rcases e.exists_stepForward with hstay | ⟨scene, hmove⟩
  · rw [hstay]
  · rw [hmove]
    rfl

/-- An input that is answered at once leaves the store alone, unless it is an edit. -/
theorem Accepts.store_eq {input : Input} (h : Accepts e input (.done e'))
    (hediting : e.settings.editing = false) : e'.store = e.store := by
  cases h with
  | advance _ _ => exact e.store_stepForward
  | choose _ _ _ _ =>
    split
    · rfl
    · exact e.store_stepForward
  | editor hedit =>
    obtain ⟨hediting', _⟩ := edited_of_edit hedit
    rw [hediting] at hediting'
    cases hediting'
  | _ => rfl

/-- Entering a scenario that is loaded leaves the store. -/
theorem store_settle (e : Engine τ) (now : Nat) (entrance : Entrance) :
    (e.settle (e.enterLoaded now entrance)).1.store = e.store := by
  cases hentered : e.enterLoaded now entrance with
  | error reason => rfl
  | ok e' =>
    obtain ⟨_, _, _, rfl⟩ := enterLoaded_eq_ok hentered
    rfl

/-- An input leaves the store alone, or loads what is needed to play a scenario. -/
theorem store_handle (hediting : e.settings.editing = false) (source : Source Id τ) (now : Nat)
    (input : Input) :
    (e.handle source now input).run.1.store = e.store ∨
      ∃ index, (e.handle source now input).run.1.store = (e.load source index).run.store := by
  rw [handle]
  split
  · exact Or.inl rfl
  · next e' hplan => exact Or.inl ((accepts_of_plan hplan).store_eq hediting)
  · next entrance _ => exact Or.inr ⟨entrance.index, store_settle _ now entrance⟩

/-- What a load of one scenario leaves comes by loads. -/
theorem loads_loadOne (source : Source Id τ) (i : Nat) (e : Engine τ) :
    Loads e (e.loadOne source i).run :=
  (loads_of_canReturn_loadOne (canReturn_run (e.loadOne source i))).1

/-- What a load leaves comes by loads, and the scenario is ready then. -/
theorem loads_load (source : Source Id τ) (index : Nat) (e : Engine τ) :
    Loads e (e.load source index).run ∧ (e.load source index).run.store.Ready index := by
  obtain ⟨hloads, hready, _⟩ := loads_of_canReturn_load (canReturn_run (e.load source index))
  exact ⟨hloads, hready⟩

section Every

variable {P : Entry τ → Prop} (htake : ∀ entry, P entry → entry.loaded = false →
  P (entry.take layout (source.textures entry.descriptor).run (source.text entry.descriptor).run).1)

include htake

/-- What holds of every scenario, and of what a source gives for one that is not loaded, holds
of every scenario after a load. -/
theorem forall_loadOne (hlayout : e.settings.layout = layout)
    (h : ∀ j, ∀ entry ∈ e.store.get? j, P entry) (i : Nat) :
    ∀ j, ∀ entry ∈ (e.loadOne source i).run.store.get? j, P entry := by
  rw [loadOne_eq]
  split
  · exact h
  · next entry hi =>
    split
    · exact h
    · next hloaded =>
      have hnew := htake entry (h i entry hi) (Bool.eq_false_iff.mpr hloaded)
      rw [← hlayout] at hnew
      exact Store.forall_get?_set h hi hnew

/-- What holds of every entry and of what a source gives holds of every entry after loads. -/
theorem forall_loadEach (hlayout : e.settings.layout = layout)
    (h : ∀ j, ∀ entry ∈ e.store.get? j, P entry) (is : List Nat) :
    ∀ j, ∀ entry ∈ (loadEach source is e).run.store.get? j, P entry := by
  induction is generalizing e with
  | nil => exact h
  | cons i is ih =>
    have hsettings := (loads_loadOne source i e).settings_eq
    exact ih (hsettings ▸ hlayout) (forall_loadOne htake hlayout h i)

end Every

/-- A load takes what the source gives. -/
theorem sourced_load (h : e.store.Sourced source e.settings.layout) (index : Nat) :
    (e.load source index).run.store.Sourced source e.settings.layout := by
  refine forall_loadEach ?_ rfl h (e.required index)
  intro entry hentry hloaded
  rcases hentry with hentry | hentry
  · rw [Entry.descriptor_take, hentry]
    exact Or.inr rfl
  · rw [hentry, Source.loaded_entry] at hloaded
    cases hloaded

/-- An engine of given settings that knows given scenarios, of which it holds what a source
gives. -/
structure Steady (source : Source Id τ) (settings : Settings) (ds : List Descriptor)
    (e : Engine τ) : Prop where
  settings_eq : e.settings = settings
  descriptors_eq : e.store.descriptors = ds
  sourced : e.store.Sourced source settings.layout
  coherent : e.Coherent

namespace Steady

variable {settings : Settings} {ds : List Descriptor}

/-- An engine that was started holds nothing but what its source gives. -/
theorem start (source : Source Id τ) (settings : Settings) (ds : List Descriptor) :
    Steady source settings ds (.start settings ds : Engine τ) where
  settings_eq := rfl
  descriptors_eq := Store.descriptors_ofDescriptors ds
  sourced := fun _ _ hentry => Or.inl (Store.eq_of_get?_ofDescriptors hentry)
  coherent := coherent_startListed settings _

/-- A load leaves an engine steady. -/
theorem load (h : Steady source settings ds e) (index : Nat) :
    Steady source settings ds (e.load source index).run := by
  obtain ⟨hloads, _⟩ := loads_load source index e
  refine ⟨hloads.settings_eq.trans h.settings_eq, hloads.descriptors_eq.trans h.descriptors_eq, ?_,
    h.coherent.loads hloads⟩
  have hsourced := h.sourced
  rw [← h.settings_eq] at hsourced ⊢
  exact sourced_load hsourced _

/-- An input leaves an engine steady. -/
theorem handle (h : Steady source settings ds e) (hediting : settings.editing = false) (now : Nat)
    (input : Input) : Steady source settings ds (e.handle source now input).run.1 := by
  have hanswers : Answers e input now (e.handle source now input).run :=
    answers_of_canReturn_handle (canReturn_run (e.handle source now input))
  have hstore : (e.handle source now input).run.1.store.descriptors = ds ∧
      (e.handle source now input).run.1.store.Sourced source settings.layout := by
    rw [← h.settings_eq] at hediting
    rcases store_handle hediting source now input with hsame | ⟨index, hload⟩
    · rw [hsame]
      exact ⟨h.descriptors_eq, h.sourced⟩
    · rw [hload]
      exact ⟨(h.load index).descriptors_eq, (h.load index).sourced⟩
  exact ⟨hanswers.settings_eq.trans h.settings_eq, hstore.1, hstore.2, h.coherent.answers hanswers⟩

/-- A tick leaves an engine steady. -/
theorem tick (h : Steady source settings ds e) (dt : Float32) (now : Nat) :
    Steady source settings ds (e.tick dt now).1 := by
  have hcoherent := h.coherent.tick dt now
  obtain ⟨reveal, history, recorded, htick⟩ := e.exists_fst_tick dt now
  rw [htick] at hcoherent ⊢
  exact ⟨h.settings_eq, h.descriptors_eq, h.sourced, hcoherent⟩

/-- Reports and the catalog do not matter to a steady engine. -/
theorem aside (h : Steady source settings ds e) (reports : List (String × LoadReport))
    (catalog : List String) : Steady source settings ds { e with reports, catalog } :=
  ⟨h.settings_eq, h.descriptors_eq, h.sourced, h.coherent.aside e.status reports catalog⟩

/-- A run without a rescan. -/
theorem run (h : Steady source settings ds e) (hediting : settings.editing = false)
    {calls : List Call} (hlisted : ∀ ls, .rescan ls ∉ calls) :
    Steady source settings ds (e.run source calls).run := by
  refine of_canReturn_run ?_ h (canReturn_run (e.run source calls))
  intro c hc e e' h hcall
  cases hcall
  cases c with
  | handle input now => exact h.handle hediting now input
  | tick dt now => exact h.tick dt now
  | rescan ls => exact absurd hc (hlisted ls)
  | setCatalog names => exact h.aside e.reports names
  | takeReports => exact h.aside [] e.catalog

/-- What one engine has loaded of a scenario is what another one loads. -/
theorem get?_eq {e₁ e₂ : Engine τ} (h₁ : Steady source settings ds e₁)
    (h₂ : Steady source settings ds e₂) {k : Nat} {entry : Entry τ}
    (hentry : e₁.store.get? k = some entry) (hloaded : entry.loaded = true)
    (hready : e₂.store.Ready k) : e₂.store.get? k = some entry :=
  h₁.sourced.get?_eq h₂.sourced (h₁.descriptors_eq.trans h₂.descriptors_eq.symm) hentry hloaded
    hready

end Steady

end Engine

end VisualNovel
