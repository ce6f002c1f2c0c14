import VisualNovel.Proofs.Scenario.RoundTrip

/-!
# Saving what was read

A scenario that was read is written again when an author saves it without an edit. All of
its values were read from fields, so they are plain and belong to the layout. But a field at
the end of its line is read even where it could not have been written there: an empty one
before a doubled separator, one with a carriage return before that of the line end, or a
marker that a separator follows. A scenario is saved unchanged exactly if no value of these
kinds stands last or alone on a line of one of its scenes.
-/

namespace VisualNovel.Scenario

open Text

/-- A scene whose values can all be read back from the ends of their lines. -/
structure Stable (layout : Layout) (s : Scene) : Prop where
  closed : ∀ v ∈ s.last layout, Closed v
  unmarked : ∀ v ∈ s.alone layout, ∀ x ∈ v, x ≠ startMarker ∧ x ≠ endMarker

section Read

variable {layout : Layout} {text : String} {s : Scene}

/-- Of a scene that was read only the ends of its lines are in doubt. -/
theorem storable_iff_stable (hs : s ∈ scenes layout text) :
    Storable layout s ↔ Stable layout s := by
  constructor
  · intro h
    exact ⟨h.closed, h.unmarked⟩
  · intro h
    have hplain : ∀ v ∈ s.stored layout, ∀ x ∈ v, Plain x :=
      fun v hv => plain_of_mem_scenes hs (stored_subset layout s hv)
    exact ⟨hplain, h.closed, h.unmarked, fits_of_mem_scenes hs⟩

/-- Only stable scenes come back. -/
theorem stable_of_scenes_write_scenes
    (h : scenes layout (write layout (scenes layout text)) = scenes layout text)
    (hs : s ∈ scenes layout text) : Stable layout s :=
  (storable_iff_stable hs).mp (storable_of_scenes_write h s hs)

/-- Scenes that were read come back from what is written of them exactly if all of them are
stable. -/
theorem scenes_write_scenes_eq_iff (layout : Layout) (text : String) :
    scenes layout (write layout (scenes layout text)) = scenes layout text ↔
      ∀ s ∈ scenes layout text, Stable layout s := by
  constructor
  · intro h s hs
    exact stable_of_scenes_write_scenes h hs
  · intro h
    have hstorable : ∀ s ∈ scenes layout text, Storable layout s :=
      fun s hs => (storable_iff_stable hs).mpr (h s hs)
    rw [scenes, read_write hstorable]

/-- An empty sound before a doubled separator, a carriage return before that of the line end,
and a marker in the place of the main character's line: none of these comes back. -/
theorem scenes_write_scenes_ne :
    scenes .simple (write .simple (scenes .simple "[scene_start]\na:b::\n[scene_end]\n")) ≠
        scenes .simple "[scene_start]\na:b::\n[scene_end]\n" ∧
      scenes .simple (write .simple (scenes .simple "[scene_start]\na:b:c\r\r\n[scene_end]\n")) ≠
        scenes .simple "[scene_start]\na:b:c\r\r\n[scene_end]\n" ∧
      scenes .simple (write .simple (scenes .simple
          "[scene_start]\n\n\n\n\n\n[scene_end]:\n[scene_end]\n")) ≠
        scenes .simple "[scene_start]\n\n\n\n\n\n[scene_end]:\n[scene_end]\n" := by
  refine ⟨?_, ?_, ?_⟩
  · have hread : scenes .simple "[scene_start]\na:b::\n[scene_end]\n" =
        [{ Scene.blank with background := some "a", music := some "b", sound := some "" }] := by
      rfl
    intro h
    have hstable := stable_of_scenes_write_scenes h (hread ▸ List.mem_singleton_self _)
    exact (hstable.closed (some "") List.mem_cons_self "" rfl).1 rfl
  · have hread : scenes .simple "[scene_start]\na:b:c\r\r\n[scene_end]\n" =
        [{ Scene.blank with background := some "a", music := some "b", sound := some "c\r" }] := by
      rfl
    intro h
    have hstable := stable_of_scenes_write_scenes h (hread ▸ List.mem_singleton_self _)
    exact (hstable.closed (some "c\r") List.mem_cons_self "c\r" rfl).2 rfl
  · have hread : scenes .simple "[scene_start]\n\n\n\n\n\n[scene_end]:\n[scene_end]\n" =
        [{ Scene.blank with mainLine := some endMarker }] := by
      rfl
    intro h
    have hstable := stable_of_scenes_write_scenes h (hread ▸ List.mem_singleton_self _)
    exact (hstable.unmarked (some endMarker) List.mem_cons_self endMarker rfl).2 rfl

/-- A field that can stand anywhere on its line. -/
def TidyField (f : String) : Prop :=
  f ≠ "" ∧ f.toList.getLast? ≠ some '\r' ∧ f ≠ startMarker ∧ f ≠ endMarker

instance (f : String) : Decidable (TidyField f) :=
  inferInstanceAs (Decidable (f ≠ "" ∧ f.toList.getLast? ≠ some '\r' ∧ f ≠ startMarker ∧
    f ≠ endMarker))

/-- A text all of whose fields could stand anywhere on their lines. -/
def Tidy (text : String) : Prop :=
  ∀ line ∈ Text.lines text, line ≠ startMarker → line ≠ endMarker →
    ∀ f ∈ splitFields line, TidyField f

instance (text : String) : Decidable (Tidy text) :=
  inferInstanceAs (Decidable (∀ line ∈ Text.lines text, line ≠ startMarker → line ≠ endMarker →
    ∀ f ∈ splitFields line, TidyField f))

/-- Every value of a scene of a tidy text is a tidy field. -/
theorem tidyField_of_mem_scenes (h : Tidy text) (hs : s ∈ scenes layout text)
    {v : Option String} (hv : v ∈ s.stored .advanced) : ∀ x ∈ v, TidyField x := by
  obtain ⟨used, hused, rfl⟩ := exists_assemble_of_mem_scenes hs
  rcases readFrom_assemble layout _ v hv with rfl | ⟨fields, hfields, f, hf, rfl⟩
  · simp
  · obtain ⟨line, hline, rfl⟩ := List.mem_map.mp hfields
    obtain ⟨hmem, hstart, hend⟩ := hused line hline
    intro x hx
    obtain ⟨rfl, _⟩ := readField_eq_some hx
    exact h line hmem hstart hend f hf

/-- What stands last on a line is stored. -/
theorem last_subset_stored (layout : Layout) (s : Scene) : s.last layout ⊆ s.stored layout := by
  intro v hv
  simp only [Scene.last, Scene.alone, Scene.stored, List.mem_append, List.mem_map,
    List.mem_flatMap] at hv ⊢
  rcases hv with ((hv | ⟨p, hp, rfl⟩) | ⟨c, hc, rfl⟩) | hv | hv
  · exact Or.inl (Or.inl (Or.inl (by simpa using Or.inr (Or.inr (Or.inl (by simpa using hv))))))
  · have hlast : p.last layout ∈ p.stored layout := by
      cases layout <;> simp [Speaker.last, Speaker.stored, Layout.isAdvanced]
    exact Or.inl (Or.inl (Or.inr ⟨p, hp, hlast⟩))
  · exact Or.inl (Or.inr ⟨c, hc, by simp⟩)
  · exact Or.inl (Or.inl (Or.inl (by simpa using Or.inr (Or.inr (Or.inr (by simpa using hv))))))
  · refine Or.inr ?_
    split at hv
    · next hl => simpa [hl] using Or.inr (by simpa using hv)
    · simp at hv

/-- The scenes of a tidy text come back from what is written of them. -/
theorem scenes_write_scenes_of_tidy (h : Tidy text) :
    scenes layout (write layout (scenes layout text)) = scenes layout text := by
  have hstorable : ∀ s ∈ scenes layout text, Storable layout s := by
    intro s hs
    have htidy : ∀ v ∈ s.last layout, ∀ x ∈ v, TidyField x := fun v hv =>
      tidyField_of_mem_scenes h hs (stored_subset layout s (last_subset_stored layout s hv))
    have hclosed : ∀ v ∈ s.last layout, Closed v :=
      fun v hv x hx => ⟨(htidy v hv x hx).1, (htidy v hv x hx).2.1⟩
    have hunmarked : ∀ v ∈ s.alone layout, ∀ x ∈ v, x ≠ startMarker ∧ x ≠ endMarker :=
      fun v hv x hx => (htidy v (List.mem_append_right _ hv) x hx).2.2
    exact (storable_iff_stable hs).mpr ⟨hclosed, hunmarked⟩
  rw [scenes, read_write hstorable]

example : Tidy "[scene_start]\r\nclub:theme:NONE\r\nAnn:NONE:Hello" := by decide +kernel

end Read

end VisualNovel.Scenario
