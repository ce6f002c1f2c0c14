import VisualNovel.Proofs.Scenario.Storable

/-!
# Storable parts

Whether a scene is storable is a question of its parts, one after the other. So a change of
one part has to be looked at in its own place only. A value that is safe can be put in any
place.
-/

namespace VisualNovel

open Scenario

namespace Scenario

/-- A value that can stand anywhere in a block. -/
structure Safe (v : Option String) : Prop where
  plain : ∀ x ∈ v, Plain x
  closed : Closed v
  unmarked : ∀ x ∈ v, x ≠ startMarker ∧ x ≠ endMarker

theorem safe_none : Safe none := by
  constructor <;> rintro x ⟨⟩

end Scenario

/-- A speaker that can be written in a layout and read back. -/
structure Speaker.Storable (layout : Layout) (p : Speaker) : Prop where
  plain : ∀ v ∈ p.stored layout, ∀ x ∈ v, Plain x
  closed : Closed (p.last layout)
  fits : layout.isAdvanced = false →
    p.textureLeft = none ∧ p.textureRight = none ∧ p.textureHead = none

namespace Speaker.Storable

variable {layout : Layout} {p : Speaker} {v : Option String}

/-- In the simple layout the line stands last, and there are no layers. -/
theorem simple_iff : p.Storable .simple ↔
    ((∀ x ∈ p.name, Plain x) ∧ (∀ x ∈ p.texture, Plain x) ∧ ∀ x ∈ p.line, Plain x) ∧
      Closed p.line ∧ p.textureLeft = none ∧ p.textureRight = none ∧ p.textureHead = none := by
  have hstored : (∀ v ∈ p.stored .simple, ∀ x ∈ v, Plain x) ↔
      (∀ x ∈ p.name, Plain x) ∧ (∀ x ∈ p.texture, Plain x) ∧ ∀ x ∈ p.line, Plain x := by
    simp [stored, Layout.isAdvanced]
  constructor
  · intro h
    exact ⟨hstored.mp h.plain, h.closed, h.fits rfl⟩
  · intro h
    exact ⟨hstored.mpr h.1, h.2.1, fun _ => h.2.2⟩

/-- In the advanced layout the head stands last. -/
theorem advanced_iff : p.Storable .advanced ↔
    ((∀ x ∈ p.name, Plain x) ∧ (∀ x ∈ p.texture, Plain x) ∧ ∀ x ∈ p.line, Plain x) ∧
      ((∀ x ∈ p.textureLeft, Plain x) ∧ (∀ x ∈ p.textureRight, Plain x) ∧
        ∀ x ∈ p.textureHead, Plain x) ∧ Closed p.textureHead := by
  have hstored : (∀ v ∈ p.stored .advanced, ∀ x ∈ v, Plain x) ↔
      ((∀ x ∈ p.name, Plain x) ∧ (∀ x ∈ p.texture, Plain x) ∧ ∀ x ∈ p.line, Plain x) ∧
        (∀ x ∈ p.textureLeft, Plain x) ∧ (∀ x ∈ p.textureRight, Plain x) ∧
          ∀ x ∈ p.textureHead, Plain x := by
    simp [stored, Layout.isAdvanced, and_assoc]
  constructor
  · intro h
    obtain ⟨hfirst, hlayers⟩ := hstored.mp h.plain
    exact ⟨hfirst, hlayers, h.closed⟩
  · intro h
    exact ⟨hstored.mpr ⟨h.1, h.2.1⟩, h.2.2, fun hl => by cases hl⟩

/-- A speaker can be written and read back with another safe name. -/
theorem withName (h : p.Storable layout) (hv : Safe v) :
    ({ p with name := v } : Speaker).Storable layout := by
  cases layout with
  | simple =>
    rw [simple_iff] at h ⊢
    exact ⟨⟨hv.plain, h.1.2⟩, h.2⟩
  | advanced =>
    rw [advanced_iff] at h ⊢
    exact ⟨⟨hv.plain, h.1.2⟩, h.2⟩

/-- A speaker can be written and read back with another safe line. -/
theorem withLine (h : p.Storable layout) (hv : Safe v) :
    ({ p with line := v } : Speaker).Storable layout := by
  cases layout with
  | simple =>
    rw [simple_iff] at h ⊢
    exact ⟨⟨h.1.1, h.1.2.1, hv.plain⟩, hv.closed, h.2.2⟩
  | advanced =>
    rw [advanced_iff] at h ⊢
    exact ⟨⟨h.1.1, h.1.2.1, hv.plain⟩, h.2⟩

/-- A speaker can be written and read back with another safe texture, if the layout has the part. -/
theorem setTexture (h : p.Storable layout) (hv : Safe v) {part : PortraitPart}
    (hpart : part.isLayered = true → layout.isAdvanced = true) :
    (p.setTexture part v).Storable layout := by
  cases layout with
  | simple =>
    cases part with
    | body =>
      rw [simple_iff] at h ⊢
      exact ⟨⟨h.1.1, hv.plain, h.1.2.2⟩, h.2⟩
    | left | right | head => exact absurd (hpart rfl) (by decide)
  | advanced =>
    rw [advanced_iff] at h ⊢
    obtain ⟨⟨hname, htexture, hline⟩, ⟨hleft, hright, hhead⟩, hclosed⟩ := h
    cases part with
    | body => exact ⟨⟨hname, hv.plain, hline⟩, ⟨hleft, hright, hhead⟩, hclosed⟩
    | left => exact ⟨⟨hname, htexture, hline⟩, ⟨hv.plain, hright, hhead⟩, hclosed⟩
    | right => exact ⟨⟨hname, htexture, hline⟩, ⟨hleft, hv.plain, hhead⟩, hclosed⟩
    | head => exact ⟨⟨hname, htexture, hline⟩, ⟨hleft, hright, hv.plain⟩, hv.closed⟩

end Speaker.Storable

/-- A choice that can be written and read back. -/
structure Choice.Storable (c : Choice) : Prop where
  label : ∀ x ∈ c.label, Plain x
  target : ∀ x ∈ c.target, Plain x
  closed : Closed c.target

namespace Scenario

/-- The overlays that a layout stores can be read back, and it stores them all. -/
def OverlaysStorable (layout : Layout) (s : Scene) : Prop :=
  match layout with
  | .simple => s.backgroundOverlay = none ∧ s.overlay = none
  | .advanced => (∀ x ∈ s.backgroundOverlay, Plain x) ∧ Safe s.overlay

/-- In the wide layout both overlays are stored. -/
theorem overlaysStorable_iff {layout : Layout} (h : layout.isAdvanced = true) (s : Scene) :
    OverlaysStorable layout s ↔ (∀ x ∈ s.backgroundOverlay, Plain x) ∧ Safe s.overlay := by
  cases layout with
  | simple => cases h
  | advanced => rfl

/-- A scene all parts of which can be written in a layout and read back. -/
structure StorableParts (layout : Layout) (s : Scene) : Prop where
  background : ∀ x ∈ s.background, Plain x
  music : ∀ x ∈ s.music, Plain x
  sound : ∀ x ∈ s.sound, Plain x
  soundClosed : Closed s.sound
  mainLine : Safe s.mainLine
  speakers : ∀ p ∈ s.speakers.toList, p.Storable layout
  choices : ∀ c ∈ s.choices.toList, c.Storable
  overlays : OverlaysStorable layout s

variable {layout : Layout} {s : Scene}

/-- A scene can be written and read back if all of its parts can. -/
theorem StorableParts.storable (h : StorableParts layout s) : Storable layout s := by
  have hspeakers : ∀ v ∈ s.speakers.toList.flatMap (·.stored layout), ∀ x ∈ v, Plain x :=
    List.forall_mem_flatMap.mpr fun p hp => (h.speakers p hp).plain
  have hchoices : ∀ v ∈ s.choices.toList.flatMap (fun c => [c.label, c.target]),
      ∀ x ∈ v, Plain x := by
    refine List.forall_mem_flatMap.mpr fun c hc => ?_
    simpa using ⟨(h.choices c hc).label, (h.choices c hc).target⟩
  have hlast : ∀ v ∈ s.speakers.toList.map (·.last layout), Closed v :=
    List.forall_mem_map.mpr fun p hp => (h.speakers p hp).closed
  have htargets : ∀ v ∈ s.choices.toList.map (·.target), Closed v :=
    List.forall_mem_map.mpr fun c hc => (h.choices c hc).closed
  have hoverlays := h.overlays
  constructor
  · simp only [Scene.stored, List.forall_mem_append, List.forall_mem_cons]
    refine ⟨⟨⟨⟨h.background, h.music, h.sound, h.mainLine.plain, by simp⟩, hspeakers⟩,
      hchoices⟩, ?_⟩
    cases layout with
    | simple => simp [Layout.isAdvanced]
    | advanced => simpa [Layout.isAdvanced] using ⟨hoverlays.1, hoverlays.2.plain⟩
  · simp only [Scene.last, Scene.alone, List.forall_mem_append, List.forall_mem_cons]
    refine ⟨⟨⟨⟨h.soundClosed, by simp⟩, hlast⟩, htargets⟩, ⟨h.mainLine.closed, by simp⟩, ?_⟩
    cases layout with
    | simple => simp [Layout.isAdvanced]
    | advanced => simpa [Layout.isAdvanced] using hoverlays.2.closed
  · simp only [Scene.alone, List.forall_mem_append, List.forall_mem_cons]
    refine ⟨⟨h.mainLine.unmarked, by simp⟩, ?_⟩
    cases layout with
    | simple => simp [Layout.isAdvanced]
    | advanced => simpa [Layout.isAdvanced] using hoverlays.2.unmarked
  · intro hl
    cases layout with
    | simple => exact ⟨hoverlays.1, hoverlays.2, fun p hp => (h.speakers p hp).fits rfl⟩
    | advanced => cases hl

/-- All parts of a scene that can be written and read back can be. -/
theorem Storable.parts (h : Storable layout s) : StorableParts layout s := by
  obtain ⟨hplain, hclosed, hunmarked, hfits⟩ := h
  simp only [Scene.stored, List.forall_mem_append, List.forall_mem_cons,
    List.forall_mem_flatMap] at hplain
  simp only [Scene.last, List.forall_mem_append, List.forall_mem_cons,
    List.forall_mem_map] at hclosed
  simp only [Scene.alone, List.forall_mem_append, List.forall_mem_cons] at hclosed hunmarked
  obtain ⟨⟨⟨⟨hbackground, hmusic, hsound, hmain, -⟩, hspeakers⟩, hchoices⟩, hoverlays⟩ := hplain
  obtain ⟨⟨⟨⟨hsoundClosed, -⟩, hlast⟩, htargets⟩, ⟨hmainClosed, -⟩, hoverlayClosed⟩ := hclosed
  refine ⟨hbackground, hmusic, hsound, hsoundClosed, ⟨hmain, hmainClosed, hunmarked.1.1⟩,
    fun p hp => ⟨hspeakers p hp, hlast p hp, fun hl => (hfits hl).2.2 p hp⟩,
    fun c hc => ⟨(hchoices c hc).1, (hchoices c hc).2.1, htargets c hc⟩, ?_⟩
  cases layout with
  | simple => exact ⟨(hfits rfl).1, (hfits rfl).2.1⟩
  | advanced =>
    simp only [Layout.isAdvanced, if_true, List.forall_mem_cons]
      at hoverlays hoverlayClosed hunmarked
    exact ⟨hoverlays.1, hoverlays.2.1, hoverlayClosed.1, hunmarked.2.1⟩

/-- A scene is storable exactly if all of its parts are. -/
theorem storable_iff_parts : Storable layout s ↔ StorableParts layout s :=
  ⟨Storable.parts, StorableParts.storable⟩

/-- A blank scene is storable. -/
theorem storable_blank (layout : Layout) : Storable layout .blank := by
  have hspeaker : Speaker.Storable layout .blank := by
    constructor
    · cases layout <;> simp [Speaker.stored, Speaker.blank]
    · cases layout <;> exact safe_none.closed
    · exact fun _ => ⟨rfl, rfl, rfl⟩
  have hchoice : Choice.Storable .blank := ⟨safe_none.plain, safe_none.plain, safe_none.closed⟩
  rw [storable_iff_parts]
  refine ⟨safe_none.plain, safe_none.plain, safe_none.plain, safe_none.closed, safe_none,
    ?_, ?_, ?_⟩
  · simpa [Scene.blank, Quartet.toList, Quartet.replicate] using hspeaker
  · simpa [Scene.blank, Quartet.toList, Quartet.replicate] using hchoice
  · cases layout with
    | simple => exact ⟨rfl, rfl⟩
    | advanced => exact ⟨safe_none.plain, safe_none⟩

end Scenario

end VisualNovel
