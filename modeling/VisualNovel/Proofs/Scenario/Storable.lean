import VisualNovel.Proofs.Scenario.Block

/-!
# Storable scenes

A layout stores some of the values of a scene, and some of these stand last or alone on
their line. A scene is storable if the values at all these places are such as can be
read back, and the values that the layout does not store are absent. The first half of
this, that values are plain and no foreign one is there, holds of every scene that was
read.
-/

namespace VisualNovel

open Scenario

namespace Speaker

/-- The values of a speaker that a layout stores. -/
def stored (layout : Layout) (s : Speaker) : List (Option String) :=
  [s.name, s.texture, s.line] ++
    if layout.isAdvanced then [s.textureLeft, s.textureRight, s.textureHead] else []

/-- The value of a speaker that stands last on its line. -/
def last (layout : Layout) (s : Speaker) : Option String :=
  if layout.isAdvanced then s.textureHead else s.line

end Speaker

namespace Scene

/-- The values of a scene that a layout stores. -/
def stored (layout : Layout) (s : Scene) : List (Option String) :=
  [s.background, s.music, s.sound, s.mainLine] ++
    s.speakers.toList.flatMap (·.stored layout) ++
    s.choices.toList.flatMap (fun c => [c.label, c.target]) ++
    if layout.isAdvanced then [s.backgroundOverlay, s.overlay] else []

/-- The values of a scene that stand alone on their line. -/
def alone (layout : Layout) (s : Scene) : List (Option String) :=
  [s.mainLine] ++ if layout.isAdvanced then [s.overlay] else []

/-- The values of a scene that stand last on their line. -/
def last (layout : Layout) (s : Scene) : List (Option String) :=
  [s.sound] ++ s.speakers.toList.map (·.last layout) ++ s.choices.toList.map (·.target) ++
    s.alone layout

/-- Whether everything that the layout does not store is absent. -/
def Fits (layout : Layout) (s : Scene) : Prop :=
  layout.isAdvanced = false → s.backgroundOverlay = none ∧ s.overlay = none ∧
    ∀ p ∈ s.speakers.toList, p.textureLeft = none ∧ p.textureRight = none ∧ p.textureHead = none

instance (layout : Layout) (s : Scene) : Decidable (s.Fits layout) :=
  inferInstanceAs (Decidable (_ → _))

end Scene

namespace Scenario

/-- A scene that can be written in a layout and read back. -/
structure Storable (layout : Layout) (s : Scene) : Prop where
  plain : ∀ v ∈ s.stored layout, ∀ x ∈ v, Plain x
  closed : ∀ v ∈ s.last layout, Closed v
  unmarked : ∀ v ∈ s.alone layout, ∀ x ∈ v, x ≠ startMarker ∧ x ≠ endMarker
  fits : s.Fits layout

instance (layout : Layout) (s : Scene) : Decidable (Storable layout s) :=
  decidable_of_iff
    ((∀ v ∈ s.stored layout, ∀ x ∈ v, Plain x) ∧ (∀ v ∈ s.last layout, Closed v) ∧
      (∀ v ∈ s.alone layout, ∀ x ∈ v, x ≠ startMarker ∧ x ≠ endMarker) ∧ s.Fits layout)
    ⟨fun h => ⟨h.1, h.2.1, h.2.2.1, h.2.2.2⟩, fun h => ⟨h.plain, h.closed, h.unmarked, h.fits⟩⟩

/-- The simple layout stores no more of a speaker than the advanced one. -/
theorem stored_speaker_subset (s : Speaker) : s.stored .simple ⊆ s.stored .advanced :=
  List.append_subset.mpr ⟨List.subset_append_left _ _, List.nil_subset _⟩

/-- The simple layout stores no more than the advanced one. -/
theorem stored_subset (layout : Layout) (s : Scene) : s.stored layout ⊆ s.stored .advanced := by
  cases layout with
  | advanced => exact fun _ h => h
  | simple =>
    intro v hv
    simp only [Scene.stored, Layout.isAdvanced, Bool.false_eq_true, if_false, if_true,
      List.append_nil, List.mem_append, List.mem_flatMap] at hv ⊢
    rcases hv with (hv | ⟨p, hp, hv⟩) | hv
    · exact Or.inl (Or.inl (Or.inl hv))
    · exact Or.inl (Or.inl (Or.inr ⟨p, hp, stored_speaker_subset p hv⟩))
    · exact Or.inl (Or.inr hv)

/-- A value that is absent or was read from a field of some lines. -/
def ReadFrom (lines : List (List String)) (v : Option String) : Prop :=
  v = none ∨ ∃ fields ∈ lines, ∃ f ∈ fields, readField f = v

theorem readFrom_none (lines : List (List String)) : ReadFrom lines none := Or.inl rfl

/-- A part that a line may give has what all given parts and the part without one have. -/
theorem getD_bind_getElem? {α : Type} (Q : α → Prop) {read : List String → Option α} {a : α}
    {lines : List (List String)} (ha : Q a)
    (hread : ∀ fields ∈ lines, ∀ b, read fields = some b → Q b) (i : Nat) :
    Q ((lines[i]?.bind read).getD a) := by
  cases hb : lines[i]?.bind read with
  | none => exact ha
  | some b =>
    obtain ⟨fields, hi, hb⟩ := Option.bind_eq_some_iff.mp hb
    exact hread fields (List.mem_of_getElem? hi) b hb

section Parts

variable {layout : Layout} {lines : List (List String)}

/-- What is read from a field of some lines is read from them. -/
theorem readFrom_readField {fields : List String} {f : String} (hfields : fields ∈ lines)
    (hf : f ∈ fields) : ReadFrom lines (readField f) :=
  Or.inr ⟨fields, hfields, f, hf, rfl⟩

/-- Every value of a header was read from its line. -/
theorem readFrom_headerOf : ∀ v ∈ [(headerOf layout lines).background,
    (headerOf layout lines).backgroundOverlay, (headerOf layout lines).music,
    (headerOf layout lines).sound], ReadFrom lines v := by
  refine getD_bind_getElem? (fun header : Scene => ∀ v ∈ [header.background,
    header.backgroundOverlay, header.music, header.sound], ReadFrom lines v) ?_ ?_ 0
  · simp [Scene.blank, readFrom_none]
  · intro fields hfields header h
    have hread {f : String} (hf : f ∈ fields) := readFrom_readField hfields hf
    rw [readHeader.eq_def] at h
    split at h
    · split at h
      · obtain rfl := Option.some.inj h
        simp [hread]
      · simp at h
    · obtain rfl := Option.some.inj h
      simp [hread, Scene.blank, readFrom_none]
    · simp at h

/-- Every value of a speaker was read from its line. -/
theorem readFrom_speakerAt (i : Nat) :
    ∀ v ∈ (speakerAt layout lines i).stored .advanced, ReadFrom lines v := by
  refine getD_bind_getElem? (fun s : Speaker => ∀ v ∈ s.stored .advanced, ReadFrom lines v) ?_ ?_ i
  · simp [Speaker.stored, Speaker.blank, Layout.isAdvanced, readFrom_none]
  · intro fields hfields s h
    have hread {f : String} (hf : f ∈ fields) := readFrom_readField hfields hf
    rw [readSpeaker.eq_def] at h
    split at h
    · simp only at h
      split at h
      · obtain rfl := Option.some.inj h
        simp [hread, Speaker.stored, Layout.isAdvanced]
      · obtain rfl := Option.some.inj h
        simp [hread, Speaker.stored, Layout.isAdvanced, Speaker.blank, readFrom_none]
    · simp at h

/-- Both values of a choice were read from its line. -/
theorem readFrom_choiceAt (i : Nat) :
    ReadFrom lines (choiceAt lines i).label ∧ ReadFrom lines (choiceAt lines i).target := by
  refine getD_bind_getElem? (fun c : Choice => ReadFrom lines c.label ∧ ReadFrom lines c.target)
    ⟨readFrom_none lines, readFrom_none lines⟩ ?_ i
  intro fields hfields c h
  rw [readChoice.eq_def] at h
  split at h
  · obtain rfl := Option.some.inj h
    exact ⟨readFrom_readField hfields (by simp), readFrom_readField hfields (by simp)⟩
  · simp at h

/-- A single value is absent or was read from a field of some lines. -/
theorem readFrom_valueAt (i : Nat) : ReadFrom lines (valueAt lines i) := by
  refine getD_bind_getElem? (ReadFrom lines) (readFrom_none lines) ?_ i
  intro fields hfields v h
  rw [readSingle.eq_def] at h
  split at h
  · obtain rfl := Option.some.inj h
    exact readFrom_readField hfields (by simp)
  · simp at h

/-- In the simple layout a header brings no overlay. -/
theorem backgroundOverlay_headerOf (hl : layout.isAdvanced = false) :
    (headerOf layout lines).backgroundOverlay = none := by
  refine getD_bind_getElem? (fun header : Scene => header.backgroundOverlay = none) rfl ?_ 0
  intro fields _ header h
  rw [readHeader.eq_def] at h
  split at h
  · simp [hl] at h
  · obtain rfl := Option.some.inj h
    rfl
  · simp at h

/-- In the simple layout a speaker has no layers. -/
theorem layers_speakerAt (hl : layout.isAdvanced = false) (i : Nat) :
    (speakerAt layout lines i).textureLeft = none ∧
      (speakerAt layout lines i).textureRight = none ∧
      (speakerAt layout lines i).textureHead = none := by
  refine getD_bind_getElem? (fun s : Speaker =>
    s.textureLeft = none ∧ s.textureRight = none ∧ s.textureHead = none) ⟨rfl, rfl, rfl⟩ ?_ i
  intro fields _ s h
  rw [readSpeaker.eq_def] at h
  split at h
  · simp only at h
    split at h
    · simp [Layout.isAdvanced] at hl
    · obtain rfl := Option.some.inj h
      exact ⟨rfl, rfl, rfl⟩
  · simp at h

end Parts

/-- Every value of an assembled scene was read from its lines. -/
theorem readFrom_assemble (layout : Layout) (lines : List (List String)) :
    ∀ v ∈ (assemble layout lines).stored .advanced, ReadFrom lines v := by
  have hheader : ∀ v ∈ [(headerOf layout lines).background,
      (headerOf layout lines).backgroundOverlay, (headerOf layout lines).music,
      (headerOf layout lines).sound], ReadFrom lines v := readFrom_headerOf
  simp only [List.forall_mem_cons] at hheader
  obtain ⟨hbackground, hoverlay, hmusic, hsound, -⟩ := hheader
  have hchoice (i : Nat) : ∀ v ∈ [(choiceAt lines i).label, (choiceAt lines i).target],
      ReadFrom lines v := by
    simpa using readFrom_choiceAt i
  simp only [Scene.stored, Layout.isAdvanced, if_true, List.forall_mem_append, Quartet.toList,
    List.flatMap_cons, List.flatMap_nil, List.append_nil]
  refine ⟨⟨⟨?_, ?_⟩, ?_⟩, ?_⟩
  · simpa [assemble] using ⟨hbackground, hmusic, hsound, readFrom_valueAt mainPosition⟩
  · exact ⟨readFrom_speakerAt 1, readFrom_speakerAt 2, readFrom_speakerAt 3, readFrom_speakerAt 4⟩
  · exact ⟨hchoice 6, hchoice 7, hchoice 8, hchoice 9⟩
  · have hvalue : ReadFrom lines (assemble layout lines).overlay := by
      rw [assemble]
      split
      · exact readFrom_valueAt overlayPosition
      · exact readFrom_none lines
    simpa using ⟨hoverlay, hvalue⟩

/-- An assembled scene fits the layout it was read in. -/
theorem fits_assemble (layout : Layout) (lines : List (List String)) :
    (assemble layout lines).Fits layout := by
  intro hl
  refine ⟨backgroundOverlay_headerOf hl, by simp [assemble, hl], ?_⟩
  simp only [assemble, Quartet.toList, List.forall_mem_cons]
  exact ⟨layers_speakerAt hl 1, layers_speakerAt hl 2, layers_speakerAt hl 3,
    layers_speakerAt hl 4, by simp⟩

/-- Every value of a scene that was read is plain. -/
theorem plain_of_mem_scenes {layout : Layout} {text : String} {s : Scene}
    (hs : s ∈ scenes layout text) {v : Option String} (hv : v ∈ s.stored .advanced) :
    ∀ x ∈ v, Plain x := by
  obtain ⟨used, hused, rfl⟩ := exists_assemble_of_mem_scenes hs
  rcases readFrom_assemble layout _ v hv with rfl | ⟨fields, hfields, f, hf, rfl⟩
  · simp
  · obtain ⟨line, hline, rfl⟩ := List.mem_map.mp hfields
    exact fun x hx => plain_of_readField (Text.not_mem_of_mem_lines (hused line hline).1) hf hx

/-- A scene that was read fits the layout it was read in. -/
theorem fits_of_mem_scenes {layout : Layout} {text : String} {s : Scene}
    (hs : s ∈ scenes layout text) : s.Fits layout := by
  obtain ⟨used, _, rfl⟩ := exists_assemble_of_mem_scenes hs
  exact fits_assemble layout _

end Scenario

end VisualNovel
