import VisualNovel.Proofs.Store
import VisualNovel.Proofs.Table

/-!
# Journals of a source

To see what a source is asked, it is given a journal in which every question is written down
with its answer. A load asks exactly two questions, for the textures of a scenario and then
for its text, and what it comes to follows from the two answers alone: the scenes are those of
the text, the textures those of the list, and each answer that failed is told by a warning.
-/

namespace VisualNovel

variable {τ : Type} {m : Type → Type} [Monad m]

/-- A question to a source, with its answer. -/
inductive Inquiry (τ : Type) where
  | textures (descriptor : Descriptor) (answer : Except String (List (String × τ)))
  | text (descriptor : Descriptor) (answer : Except String String)

/-- The source that answers as another one does, and writes every question down with its
answer. -/
def Source.journaled (source : Source m τ) : Source (StateT (List (Inquiry τ)) m) τ where
  textures d := do
    let answer ← source.textures d
    modify (· ++ [.textures d answer])
    return answer
  text d := do
    let answer ← source.text d
    modify (· ++ [.text d answer])
    return answer

/-- A load of a scenario, with the two answers that it got. -/
structure Load (τ : Type) where
  descriptor : Descriptor
  textures : Except String (List (String × τ))
  text : Except String String

namespace Load

/-- What a load asks. -/
def inquiries (l : Load τ) : List (Inquiry τ) :=
  [.textures l.descriptor l.textures, .text l.descriptor l.text]

/-- The scenes of the text that was read, or none if it could not be read. -/
def scenes (layout : Layout) (l : Load τ) : List Scene :=
  match l.text with
  | .ok text => (Scenario.read layout text).scenes
  | .error _ => []

/-- The textures with their names as they were listed, or none if they could not be. -/
def named (l : Load τ) : List (String × τ) :=
  match l.textures with
  | .ok textures => textures
  | .error _ => []

/-- The number of answers that failed. -/
def failures (l : Load τ) : Nat := [l.textures.isOk, l.text.isOk].count false

/-- The report of a load of a scenario of which nothing was loaded. -/
def report (layout : Layout) (l : Load τ) : LoadReport :=
  ((Entry.ofDescriptor l.descriptor).take layout l.textures l.text).2

variable {layout : Layout} {l : Load τ}

/-- What a load makes of a scenario of which nothing was loaded. -/
theorem take_ofDescriptor : ((Entry.ofDescriptor l.descriptor).take layout l.textures l.text).1 =
    ⟨l.descriptor, true, l.scenes layout, .ofList l.named⟩ := by
  obtain ⟨d, textures, text⟩ := l
  cases textures <;> cases text <;> rfl

/-- The report of a load says that it was made. -/
theorem performed_report : (l.report layout).performed = true :=
  Entry.performed_take _ _ _ _

/-- The report of a load counts its scenes. -/
theorem scenes_report : (l.report layout).scenes = (l.scenes layout).length := by
  obtain ⟨d, textures, text⟩ := l
  cases textures <;> cases text <;> rfl

/-- The report of a load counts its textures. -/
theorem textures_report : (l.report layout).textures = (Table.ofList l.named).size := by
  obtain ⟨d, textures, text⟩ := l
  cases textures <;> cases text <;> rfl

/-- There is one warning for each answer that failed. -/
theorem length_warnings_report : (l.report layout).warnings.length = l.failures := by
  obtain ⟨d, textures, text⟩ := l
  cases textures <;> cases text <;> rfl

end Load

namespace Store

variable {s : Store τ} {i : Nat} {entry : Entry τ}

/-- Where there is no scenario nothing is asked. -/
theorem run_ensureLoaded_absent (h : s.get? i = none) (layout : Layout) (source : Source m τ)
    (j : List (Inquiry τ)) :
    (s.ensureLoaded layout source.journaled i).run j = pure ((s, none), j) := by
  simp [ensureLoaded, h]

/-- Where a scenario is loaded nothing is asked. -/
theorem run_ensureLoaded_loaded (h : s.get? i = some entry) (hloaded : entry.loaded = true)
    (layout : Layout) (source : Source m τ) (j : List (Inquiry τ)) :
    (s.ensureLoaded layout source.journaled i).run j = pure ((s, some .idle), j) := by
  simp [ensureLoaded, h, hloaded]

/-- A load asks for the textures and then for the text, and for nothing else. -/
theorem run_ensureLoaded_unloaded [LawfulMonad m] (h : s.get? i = some entry)
    (hloaded : entry.loaded = false)
    (layout : Layout) (source : Source m τ) (j : List (Inquiry τ)) :
    (s.ensureLoaded layout source.journaled i).run j = (do
      let textures ← source.textures entry.descriptor
      let text ← source.text entry.descriptor
      let result := entry.take layout textures text
      pure ((s.set i result.1, some result.2),
        j ++ (Load.mk entry.descriptor textures text).inquiries)) := by
  simp [ensureLoaded, h, hloaded, Source.journaled, Load.inquiries]

/-- To keep a journal changes nothing else. -/
theorem fst_run_ensureLoaded_journaled [LawfulMonad m] (layout : Layout) (source : Source m τ)
    (i : Nat) (s : Store τ) (j : List (Inquiry τ)) :
    Prod.fst <$> (s.ensureLoaded layout source.journaled i).run j =
      s.ensureLoaded layout source i := by
  cases hentry : s.get? i with
  | none => rw [run_ensureLoaded_absent hentry, map_pure, ensureLoaded, hentry]
  | some entry =>
    cases hloaded : entry.loaded with
    | true =>
      rw [run_ensureLoaded_loaded hentry hloaded]
      simp [ensureLoaded, hentry, hloaded]
    | false =>
      rw [run_ensureLoaded_unloaded hentry hloaded]
      simp [ensureLoaded, hentry, hloaded]

/-- Nothing is there of a scenario that is not loaded. -/
def Fresh (s : Store τ) : Prop :=
  ∀ i, ∀ entry ∈ s.get? i, entry.loaded = false → entry = .ofDescriptor entry.descriptor

/-- A store of what was listed has loaded nothing. -/
theorem fresh_ofListings (ls : List Listing) : (ofListings ls : Store τ).Fresh := by
  intro i entry hentry hloaded
  have hmem : entry ∈ ls.map Entry.ofListing := List.mem_of_getElem? hentry
  obtain ⟨⟨d, marked⟩, _, rfl⟩ := List.mem_map.mp hmem
  obtain rfl : marked = false := hloaded
  rfl

/-- A loaded entry leaves nothing of scenarios that are not loaded. -/
theorem Fresh.set (h : s.Fresh) (hi : s.get? i = some entry) {new : Entry τ}
    (hnew : new.loaded = true) : (s.set i new).Fresh :=
  forall_get?_set h hi fun hloaded => by simp [hnew] at hloaded

/-- Changing the scenes of a loaded entry leaves nothing of scenarios that are not loaded. -/
theorem Fresh.modifyScenes (h : s.Fresh) (hi : s.get? i = some entry)
    (hloaded : entry.loaded = true) (f : List Scene → List Scene) : (s.modifyScenes i f).Fresh := by
  intro j other hother hunloaded
  by_cases hij : i = j
  · subst hij
    obtain rfl := Option.some.inj ((get?_modifyScenes_self hi f).symm.trans hother)
    rw [hloaded] at hunloaded
    cases hunloaded
  · exact h j other ((get?_modifyScenes_ne hij f).symm.trans hother) hunloaded

/-- Every entry is unloaded. -/
theorem get?_unloadAll (s : Store τ) (i : Nat) : s.unloadAll.get? i = (s.get? i).map .unload :=
  List.getElem?_map

/-- Nothing is left when all is unloaded. -/
theorem fresh_unloadAll (s : Store τ) : s.unloadAll.Fresh := by
  intro i entry hentry _
  rw [get?_unloadAll] at hentry
  obtain ⟨other, _, rfl⟩ := Option.map_eq_some_iff.mp hentry
  rfl

end Store

end VisualNovel
