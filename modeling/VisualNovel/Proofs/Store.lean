import VisualNovel.Store

/-!
# Stores

What the operations of a store do at an index, and what they leave alone. Where a
scenario stands depends on the descriptors only, which no load and no edit changes.
-/

namespace VisualNovel

namespace Entry

variable {τ : Type} (e : Entry τ) (layout : Layout)
  (textures : Except String (List (String × τ))) (text : Except String String)

@[simp] theorem descriptor_take : (e.take layout textures text).1.descriptor = e.descriptor := by
  cases textures <;> cases text <;> rfl

@[simp] theorem loaded_take : (e.take layout textures text).1.loaded = true := by
  cases textures <;> cases text <;> rfl

@[simp] theorem performed_take : (e.take layout textures text).2.performed = true := by
  cases textures <;> cases text <;> rfl

end Entry

namespace Store

variable {τ : Type} {s : Store τ} {i j : Nat} {entry : Entry τ}

/-- An entry that is set is found at its index. -/
theorem get?_set_self (h : s.get? i = some entry) (new : Entry τ) :
    (s.set i new).get? i = some new := by
  obtain ⟨hi, _⟩ := List.getElem?_eq_some_iff.mp h
  exact List.getElem?_set_self hi

/-- An entry that is set leaves the others. -/
theorem get?_set_ne (h : i ≠ j) (new : Entry τ) : (s.set i new).get? j = s.get? j :=
  List.getElem?_set_ne h

/-- What holds of every scenario holds after another one that it holds of was put in a place. -/
theorem forall_get?_set {P : Entry τ → Prop} (h : ∀ j, ∀ other ∈ s.get? j, P other)
    (hi : s.get? i = some entry) {new : Entry τ} (hnew : P new) :
    ∀ j, ∀ other ∈ (s.set i new).get? j, P other := by
  intro j other hother
  by_cases hij : i = j
  · subst hij
    rwa [← Option.some.inj ((get?_set_self hi new).symm.trans hother)]
  · exact h j other ((get?_set_ne hij new).symm.trans hother)

/-- Changing the scenes of an entry leaves the rest of it. -/
theorem get?_modifyScenes_self (h : s.get? i = some entry) (f : List Scene → List Scene) :
    (s.modifyScenes i f).get? i = some { entry with scenes := f entry.scenes } := by
  rw [get?, modifyScenes, List.getElem?_modify_eq]
  exact congrArg (Option.map _) h

/-- Changing the scenes of an entry leaves the others. -/
theorem get?_modifyScenes_ne (h : i ≠ j) (f : List Scene → List Scene) :
    (s.modifyScenes i f).get? j = s.get? j :=
  List.getElem?_modify_ne _ _ h

/-- Stores with the same scenario at every index are the same. -/
theorem ext_get? {s t : Store τ} (h : ∀ i, s.get? i = t.get? i) : s = t :=
  congrArg Store.mk (List.ext_getElem? h)

/-- A change of scenes that leaves them as they are leaves the store as it is. -/
theorem modifyScenes_eq_self (h : s.get? i = some entry) {f : List Scene → List Scene}
    (hf : f entry.scenes = entry.scenes) : s.modifyScenes i f = s := by
  apply ext_get?
  intro j
  by_cases hij : i = j
  · rw [← hij, get?_modifyScenes_self h, hf, h]
  · rw [get?_modifyScenes_ne hij]

/-- Whether a scenario is loaded, if it is there at all. -/
def Ready (s : Store τ) (i : Nat) : Prop := ∀ entry ∈ s.get? i, entry.loaded = true

/-- A scenario stays ready when an entry is set to a loaded one. -/
theorem Ready.set (h : s.Ready j) (hi : s.get? i = some entry) {new : Entry τ}
    (hnew : new.loaded = true) : (s.set i new).Ready j := by
  intro other hother
  by_cases hij : i = j
  · subst hij
    rwa [← Option.some.inj ((get?_set_self hi new).symm.trans hother)]
  · exact h other ((get?_set_ne hij new).symm.trans hother)

/-- A scenario stays ready when scenes are changed. -/
theorem Ready.modifyScenes (h : s.Ready j) (hi : s.get? i = some entry)
    (f : List Scene → List Scene) : (s.modifyScenes i f).Ready j := by
  intro other hother
  by_cases hij : i = j
  · subst hij
    rw [← Option.some.inj ((get?_modifyScenes_self hi f).symm.trans hother)]
    exact h entry hi
  · exact h other ((get?_modifyScenes_ne hij f).symm.trans hother)

/-- What is known of the scenarios of a store without loading any. -/
def descriptors (s : Store τ) : List Descriptor := s.entries.map (·.descriptor)

/-- A store has the scenarios it is made of. -/
theorem descriptors_ofDescriptors (ds : List Descriptor) :
    (ofDescriptors ds : Store τ).descriptors = ds := by
  simp [ofDescriptors, ofListings, descriptors, Entry.ofListing, Listing.found, Function.comp_def]

/-- Nothing of a new store is loaded. -/
theorem eq_of_get?_ofDescriptors {ds : List Descriptor}
    (h : (ofDescriptors ds).get? i = some entry) : entry = .ofDescriptor entry.descriptor := by
  have hmem : entry ∈ (ds.map Listing.found).map Entry.ofListing := List.mem_of_getElem? h
  obtain ⟨l, hl, rfl⟩ := List.mem_map.mp hmem
  obtain ⟨d, _, rfl⟩ := List.mem_map.mp hl
  rfl

/-- Stores with the same descriptor at every index have the same scenarios. -/
theorem descriptors_congr {s t : Store τ}
    (h : ∀ i, (s.get? i).map (·.descriptor) = (t.get? i).map (·.descriptor)) :
    s.descriptors = t.descriptors := by
  apply List.ext_getElem?
  intro i
  rw [descriptors, descriptors, List.getElem?_map, List.getElem?_map]
  exact h i

/-- An entry of the same scenario leaves which scenarios there are. -/
theorem descriptors_set (h : s.get? i = some entry) {new : Entry τ}
    (hnew : new.descriptor = entry.descriptor) : (s.set i new).descriptors = s.descriptors := by
  apply descriptors_congr
  intro j
  by_cases hij : i = j
  · rw [← hij, get?_set_self h, h, Option.map_some, Option.map_some, hnew]
  · rw [get?_set_ne hij]

/-- Changing scenes leaves which scenarios there are. -/
theorem descriptors_modifyScenes (h : s.get? i = some entry) (f : List Scene → List Scene) :
    (s.modifyScenes i f).descriptors = s.descriptors := by
  apply descriptors_congr
  intro j
  by_cases hij : i = j
  · rw [← hij, get?_modifyScenes_self h, h]
    rfl
  · rw [get?_modifyScenes_ne hij]

/-- A scenario is found by its file name among all of them. -/
theorem findIndex?_eq (s : Store τ) (fileName : String) :
    s.findIndex? fileName = s.descriptors.findIdx? (·.fileName == fileName) := by
  rw [findIndex?, descriptors, List.findIdx?_map]
  rfl

/-- Stores with the same descriptors have every scenario at the same place. -/
theorem findIndex?_congr {s t : Store τ} (h : s.descriptors = t.descriptors) (fileName : String) :
    s.findIndex? fileName = t.findIndex? fileName := by
  rw [findIndex?_eq, findIndex?_eq, h]

/-- A scenario that is found by its file name is there and has that name. -/
theorem exists_of_findIndex?_eq {fileName : String} (h : s.findIndex? fileName = some i) :
    ∃ entry, s.get? i = some entry ∧ entry.descriptor.fileName = fileName := by
  obtain ⟨hi, hname, _⟩ := List.findIdx?_eq_some_iff_getElem.mp h
  exact ⟨s.entries[i], List.getElem?_eq_getElem hi, by simpa using hname⟩

end Store

end VisualNovel
