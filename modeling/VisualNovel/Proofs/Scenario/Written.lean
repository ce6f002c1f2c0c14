import VisualNovel.Proofs.Scenario.Storable
import VisualNovel.Scenario.Writer

/-!
# Written blocks

The lines of a written block are read with a carriage return less at their ends. A part
that is read back from its own line shows that the last value of the line is closed. Of
all lines of a block only those of the main character and of the overlay can be markers,
as every other line holds a separator.
-/

namespace VisualNovel.Scenario

open Text

/-- The lines of a block before that of the main character. -/
def foreLines (layout : Layout) (s : Scene) : List String :=
  [lineBack (headerLine layout s), lineBack (speakerLine layout s.speakers.first),
    lineBack (speakerLine layout s.speakers.second),
    lineBack (speakerLine layout s.speakers.third),
    lineBack (speakerLine layout s.speakers.fourth)]

/-- The lines of the choices of a block. -/
def choiceLines (s : Scene) : List String :=
  [lineBack (choiceLine s.choices.first), lineBack (choiceLine s.choices.second),
    lineBack (choiceLine s.choices.third), lineBack (choiceLine s.choices.fourth)]

/-- The lines of a block behind those of the choices. -/
def overlayLines (layout : Layout) (s : Scene) : List String :=
  if layout.isAdvanced then [lastBack s.overlay] else []

/-- The lines between the markers of a block, as they are read. -/
def blockBack (layout : Layout) (s : Scene) : List String :=
  foreLines layout s ++ lastBack s.mainLine :: (choiceLines s ++ overlayLines layout s)

theorem lineBack_singleton (v : Option String) : lineBack [v] = lastBack v := by
  have h := lineBack_concat [] v
  rwa [List.nil_append, List.map_nil, List.nil_append, joinFields, join, List.map_singleton,
    joinPieces, String.ofList_toList] at h

/-- The lines of a block are those of its values. -/
theorem blockBack_eq_map (layout : Layout) (s : Scene) :
    blockBack layout s = (sceneLines layout s).map lineBack := by
  cases layout <;>
    simp [sceneLines, blockBack, foreLines, choiceLines, overlayLines, lineBack_singleton,
      Quartet.toList, Layout.isAdvanced]

/-- The lines of a written block, as they are read. -/
theorem map_withoutReturn_blockLines (layout : Layout) (s : Scene) :
    (blockLines layout s).map withoutReturn =
      startMarker :: blockBack layout s ++ [endMarker] := by
  have hmark : withoutReturn startMarker = startMarker ∧ withoutReturn endMarker = endMarker := by
    decide
  rw [blockLines, blockBack_eq_map, List.map_append, List.map_cons, List.map_map, hmark.1,
    List.map_singleton, hmark.2]
  rfl

/-- The values of a line of a block are those of one part of the scene. -/
theorem mem_sceneLines {layout : Layout} {s : Scene} {values : List (Option String)} :
    values ∈ sceneLines layout s ↔
      values = headerLine layout s ∨ (∃ p ∈ s.speakers.toList, values = speakerLine layout p) ∨
        values = [s.mainLine] ∨ (∃ c ∈ s.choices.toList, values = choiceLine c) ∨
          layout.isAdvanced = true ∧ values = [s.overlay] := by
  cases layout <;>
    simp [sceneLines, Layout.isAdvanced, eq_comm (b := values)]

/-- Every value on a line of a block is one that the layout stores. -/
theorem mem_stored_of_mem_sceneLines {layout : Layout} {s : Scene} {values : List (Option String)}
    (h : values ∈ sceneLines layout s) : values ⊆ s.stored layout := by
  intro v hv
  simp only [Scene.stored, List.mem_append, List.mem_flatMap]
  rcases mem_sceneLines.mp h with rfl | ⟨p, hp, rfl⟩ | rfl | ⟨c, hc, rfl⟩ | ⟨hl, rfl⟩
  · cases layout <;> simp [headerLine, Layout.isAdvanced] at hv ⊢ <;> grind
  · have hstored : v ∈ p.stored layout := by
      cases layout <;> simpa [speakerLine, Speaker.stored, Layout.isAdvanced] using hv
    exact Or.inl (Or.inl (Or.inr ⟨p, hp, hstored⟩))
  · exact Or.inl (Or.inl (Or.inl (by simpa using Or.inr (Or.inr (Or.inr (by simpa using hv))))))
  · exact Or.inl (Or.inr ⟨c, hc, hv⟩)
  · exact Or.inr (by simpa [hl] using Or.inr (by simpa using hv))

/-- The lines of written scenes with plain values. -/
theorem lines_write {layout : Layout} {scenes : List Scene}
    (h : ∀ s ∈ scenes, ∀ v ∈ s.stored layout, ∀ x ∈ v, Plain x) :
    Text.lines (write layout scenes) =
      scenes.flatMap fun s => startMarker :: blockBack layout s ++ [endMarker] := by
  rw [write, lines_unlines, List.map_flatMap]
  · simp only [map_withoutReturn_blockLines]
  · intro l hl
    obtain ⟨s, hs, hl⟩ := List.mem_flatMap.mp hl
    simp only [blockLines, List.cons_append, List.mem_cons, List.mem_append, List.mem_map,
      List.not_mem_nil, or_false] at hl
    rcases hl with rfl | ⟨values, hvalues, rfl⟩ | rfl
    · decide
    · exact feed_not_mem_writtenLine fun v hv =>
        h s hs v (mem_stored_of_mem_sceneLines hvalues hv)
    · decide

section Parts

variable {lines : List (List String)} {i : Nat}

/-- A value that stands last on its line is closed if it is what is read there, as nothing is
read where its field is lost. -/
theorem closed_of_read (vs : List (Option String)) (v : Option String)
    (read : List String → Option String) (hplain : ∀ w ∈ vs ++ [v], ∀ x ∈ w, Plain x)
    (hlost : lastBack v = "" → read (vs.map writeField) = none)
    (hkept : ∀ field, read (vs.map writeField ++ [field]) = readField field)
    (h : read (splitFields (lineBack (vs ++ [v]))) = v) : Closed v := by
  rw [splitFields_lineBack vs v hplain] at h
  by_cases hlast : lastBack v = ""
  · rw [if_pos hlast, hlost hlast] at h
    exact absurd h.symm (ne_none_of_lastBack_eq hlast)
  · rw [if_neg hlast, hkept] at h
    exact (readField_lastBack_iff (hplain v (by simp))).mp ⟨hlast, h⟩

/-- A value that is read back from the end of its line can stand there. -/
theorem closed_of_valueAt {v : Option String} (hv : ∀ x ∈ v, Plain x)
    (hi : lines[i]? = some (splitFields (lastBack v))) (h : valueAt lines i = v) : Closed v := by
  rw [valueAt_eq hi, ← lineBack_singleton] at h
  exact closed_of_read [] v (fun fields => (readSingle fields).getD none) (by simpa using hv)
    (fun _ => rfl) (fun _ => rfl) h

/-- The target of a button that is read back can stand at the end of a line. -/
theorem closed_of_choiceAt {c : Choice} (hc : ∀ v ∈ choiceLine c, ∀ x ∈ v, Plain x)
    (hi : lines[i]? = some (splitFields (lineBack (choiceLine c)))) (h : choiceAt lines i = c) :
    Closed c.target := by
  rw [choiceAt_eq hi] at h
  exact closed_of_read [c.label] c.target
    (fun fields => ((readChoice fields).getD .blank).target) hc (fun _ => rfl) (fun _ => rfl)
    (congrArg Choice.target h)

/-- The last field of a speaker that is read back can stand at the end of a line. -/
theorem closed_of_speakerAt {layout : Layout} {p : Speaker}
    (hp : ∀ v ∈ speakerLine layout p, ∀ x ∈ v, Plain x)
    (hi : lines[i]? = some (splitFields (lineBack (speakerLine layout p))))
    (h : speakerAt layout lines i = p) : Closed (p.last layout) := by
  rw [speakerAt_eq layout hi] at h
  cases layout with
  | simple =>
    exact closed_of_read [p.name, p.texture] p.line
      (fun fields => ((readSpeaker .simple .blank fields).getD .blank).line) hp (fun _ => rfl)
      (fun _ => rfl) (congrArg Speaker.line h)
  | advanced =>
    exact closed_of_read [p.name, p.texture, p.line, p.textureLeft, p.textureRight] p.textureHead
      (fun fields => ((readSpeaker .advanced .blank fields).getD .blank).textureHead) hp
      (fun _ => rfl) (fun _ => rfl) (congrArg Speaker.textureHead h)

/-- Where the last field of an advanced header is lost, the other three are read in their
simple places, so that the values would have to be absent one after the other. -/
theorem closed_of_headerOf {layout : Layout} {s : Scene}
    (hs : ∀ v ∈ headerLine layout s, ∀ x ∈ v, Plain x)
    (hzero : lines[0]? = some (splitFields (lineBack (headerLine layout s))))
    (hoverlay : (headerOf layout lines).backgroundOverlay = s.backgroundOverlay)
    (hmusic : (headerOf layout lines).music = s.music)
    (hsound : (headerOf layout lines).sound = s.sound) : Closed s.sound := by
  rw [headerOf_eq layout hzero] at hoverlay hmusic hsound
  cases layout with
  | simple =>
    exact closed_of_read [s.background, s.music] s.sound
      (fun fields => ((readHeader .simple .blank fields).getD .blank).sound) hs (fun _ => rfl)
      (fun _ => rfl) hsound
  | advanced =>
    refine closed_of_read [s.background, s.backgroundOverlay, s.music] s.sound
      (fun fields => ((readHeader .advanced .blank fields).getD .blank).sound) hs
      (fun hlast => ?_) (fun _ => rfl) hsound
    have hf := splitFields_lineBack [s.background, s.backgroundOverlay, s.music] s.sound hs
    rw [if_pos hlast] at hf
    rw [show headerLine .advanced s = [s.background, s.backgroundOverlay, s.music] ++ [s.sound]
      from rfl, hf] at hoverlay hmusic
    have ho : s.backgroundOverlay = none := hoverlay.symm
    have hm : s.music = none := by
      rw [← hmusic, ho]
      rfl
    change readField (writeField s.music) = none
    rw [hm]
    rfl

end Parts

/-- A line that is no marker is part of what stands in a block. -/
theorem content_cons {line : String} (h : line ≠ startMarker ∧ line ≠ endMarker)
    (rest : List String) : content (line :: rest) = splitFields line :: content rest := by
  simp [content, h.1, h.2]

/-- Lines that are no markers are part of what stands in a block. -/
theorem content_append {lines : List String}
    (h : ∀ line ∈ lines, line ≠ startMarker ∧ line ≠ endMarker) (rest : List String) :
    content (lines ++ rest) = lines.map splitFields ++ content rest := by
  induction lines with
  | nil => rfl
  | cons line lines ih =>
    rw [List.cons_append, content_cons (h line List.mem_cons_self),
      ih fun l hl => h l (List.mem_cons_of_mem _ hl)]
    rfl

/-- Another marker of a beginning is no part of what stands in a block. -/
theorem content_startMarker (rest : List String) :
    content (startMarker :: rest) = content rest := by
  simp [content, endMarker_ne_startMarker.symm]

/-- What follows the end of a block is no part of it. -/
theorem content_endMarker (rest : List String) : content (endMarker :: rest) = [] := by
  simp [content]

/-- A line with a separator is no marker. -/
theorem ne_marker_of_separator_mem {line : String} (h : separator ∈ line.toList) :
    line ≠ startMarker ∧ line ≠ endMarker := by
  refine ⟨?_, ?_⟩ <;> rintro rfl <;> exact absurd h (by decide)

/-- The line of a header has a separator. -/
theorem separator_mem_headerLine (layout : Layout) (s : Scene) :
    separator ∈ (lineBack (headerLine layout s)).toList := by
  cases layout with
  | simple => exact separator_mem_lineBack s.background [s.music] s.sound
  | advanced => exact separator_mem_lineBack s.background [s.backgroundOverlay, s.music] s.sound

/-- The line of a speaker has a separator. -/
theorem separator_mem_speakerLine (layout : Layout) (s : Speaker) :
    separator ∈ (lineBack (speakerLine layout s)).toList := by
  cases layout with
  | simple => exact separator_mem_lineBack s.name [s.texture] s.line
  | advanced =>
    exact separator_mem_lineBack s.name [s.texture, s.line, s.textureLeft, s.textureRight]
      s.textureHead

/-- No line in front of the buttons is a marker. -/
theorem ne_marker_of_mem_foreLines {layout : Layout} {s : Scene} :
    ∀ line ∈ foreLines layout s, line ≠ startMarker ∧ line ≠ endMarker := by
  simp only [foreLines, List.forall_mem_cons]
  exact ⟨ne_marker_of_separator_mem (separator_mem_headerLine layout s),
    ne_marker_of_separator_mem (separator_mem_speakerLine layout _),
    ne_marker_of_separator_mem (separator_mem_speakerLine layout _),
    ne_marker_of_separator_mem (separator_mem_speakerLine layout _),
    ne_marker_of_separator_mem (separator_mem_speakerLine layout _), by simp⟩

/-- No line of a button is a marker. -/
theorem ne_marker_of_mem_choiceLines {s : Scene} :
    ∀ line ∈ choiceLines s, line ≠ startMarker ∧ line ≠ endMarker := by
  intro line hline
  apply ne_marker_of_separator_mem
  simp only [choiceLines, List.mem_cons, List.not_mem_nil, or_false] at hline
  rcases hline with rfl | rfl | rfl | rfl <;> exact separator_mem_lineBack _ [] _

end VisualNovel.Scenario
