import Mathlib.Data.List.Induction
import VisualNovel.Proofs.Scenario.Field
import VisualNovel.Scenario.Reader

/-!
# Blocks that are read

Of the lines of a block only the markers count by what they say; all others count by
their position alone. So the scene of a block can be said at once, part by part, with
the line that each part comes from. A property that every line keeps holds of all
scenes that are read; in particular every value that was read is plain.
-/

namespace VisualNovel.Scenario

open Text

theorem endMarker_ne_startMarker : endMarker ≠ startMarker := by decide

/-- A start marker opens a block if none is open. -/
theorem readLines_startMarker (layout : Layout) (number : Nat) (rest : List String) :
    readLines layout number none (startMarker :: rest) =
      readLines layout (number + 1) (some .start) rest := by
  rw [readLines, if_pos rfl, Option.getD_none]

/-- An end marker closes the block that is open. -/
theorem readLines_endMarker (layout : Layout) (number : Nat) (b : Block) (rest : List String) :
    readLines layout number (some b) (endMarker :: rest) =
      let reading := readLines layout (number + 1) none rest
      { reading with scenes := b.scene :: reading.scenes } := by
  rw [readLines, if_neg endMarker_ne_startMarker, if_pos rfl]
  rfl

/-- The scene of a block after further lines, each given by its fields. A line that does not
fit its position leaves the scene as it is. -/
def fill (layout : Layout) : Nat → List (List String) → Scene → Scene
  | _, [], scene => scene
  | position, fields :: lines, scene =>
    fill layout (position + 1) lines ((applyLine layout position fields scene).getD scene)

/-- The lines of a block that count: none from the end marker on, and no start marker. -/
def content (lines : List String) : List (List String) :=
  ((lines.takeWhile (· ≠ endMarker)).filter (· ≠ startMarker)).map splitFields

/-- A line moves a block on by one position. -/
theorem Block.take_fst (layout : Layout) (number : Nat) (line : String) (b : Block) :
    (b.take layout number line).1 =
      ⟨(applyLine layout b.position (splitFields line) b.scene).getD b.scene, b.position + 1⟩ := by
  rw [Block.take]
  cases applyLine layout b.position (splitFields line) b.scene <;> rfl

/-- The first scene that is read is that of the open block, if it is closed. -/
theorem head?_scenes_readLines (layout : Layout) (number : Nat) (b : Block)
    (lines rest : List String) :
    (readLines layout number (some b) (lines ++ endMarker :: rest)).scenes.head? =
      some (fill layout b.position (content lines) b.scene) := by
  induction lines generalizing number b with
  | nil => simp [readLines, endMarker_ne_startMarker, content, fill]
  | cons line lines ih =>
    rw [List.cons_append, readLines]
    by_cases hs : line = startMarker
    · subst hs
      simpa [content, endMarker_ne_startMarker.symm] using ih (number + 1) b
    · by_cases he : line = endMarker
      · subst he
        simp [endMarker_ne_startMarker, content, fill]
      · have hstep := ih (number + 1) (b.take layout number line).1
        rw [if_neg hs, if_neg he]
        simpa [content, hs, he, fill, Block.take_fst] using hstep

/-- The header that lines give, at the first position. -/
def headerOf (layout : Layout) (lines : List (List String)) : Scene :=
  (lines[0]?.bind (readHeader layout .blank)).getD .blank

/-- The speaker that lines give at a position. -/
def speakerAt (layout : Layout) (lines : List (List String)) (i : Nat) : Speaker :=
  (lines[i]?.bind (readSpeaker layout .blank)).getD .blank

/-- The choice that lines give at a position. -/
def choiceAt (lines : List (List String)) (i : Nat) : Choice :=
  (lines[i]?.bind readChoice).getD .blank

/-- The value that stands alone on the line at a position. -/
def valueAt (lines : List (List String)) (i : Nat) : Option String :=
  (lines[i]?.bind readSingle).getD none

section Given

variable {lines : List (List String)} {fields : List String} {i : Nat}

/-- The first line gives the header, if it fits. -/
theorem headerOf_eq (layout : Layout) (h : lines[0]? = some fields) :
    headerOf layout lines = (readHeader layout .blank fields).getD .blank := by
  rw [headerOf, h, Option.bind_some]

/-- The line at a place gives its speaker, if it fits. -/
theorem speakerAt_eq (layout : Layout) (h : lines[i]? = some fields) :
    speakerAt layout lines i = (readSpeaker layout .blank fields).getD .blank := by
  rw [speakerAt, h, Option.bind_some]

/-- The line at a place gives its button, if it fits. -/
theorem choiceAt_eq (h : lines[i]? = some fields) :
    choiceAt lines i = (readChoice fields).getD .blank := by
  rw [choiceAt, h, Option.bind_some]

/-- The line at a place gives its value, if it fits. -/
theorem valueAt_eq (h : lines[i]? = some fields) :
    valueAt lines i = (readSingle fields).getD none := by
  rw [valueAt, h, Option.bind_some]

/-- Where a line is missing, its part is blank. -/
theorem headerOf_of_none (layout : Layout) (h : lines[0]? = none) :
    headerOf layout lines = .blank := by
  rw [headerOf, h, Option.bind_none, Option.getD_none]

theorem speakerAt_of_none (layout : Layout) (h : lines[i]? = none) :
    speakerAt layout lines i = .blank := by
  rw [speakerAt, h, Option.bind_none, Option.getD_none]

theorem choiceAt_of_none (h : lines[i]? = none) : choiceAt lines i = .blank := by
  rw [choiceAt, h, Option.bind_none, Option.getD_none]

theorem valueAt_of_none (h : lines[i]? = none) : valueAt lines i = none := by
  rw [valueAt, h, Option.bind_none, Option.getD_none]

end Given

/-- The scene of a block, each part of it from the line at its position. -/
def assemble (layout : Layout) (lines : List (List String)) : Scene where
  background := (headerOf layout lines).background
  backgroundOverlay := (headerOf layout lines).backgroundOverlay
  music := (headerOf layout lines).music
  sound := (headerOf layout lines).sound
  speakers := ⟨speakerAt layout lines 1, speakerAt layout lines 2, speakerAt layout lines 3,
    speakerAt layout lines 4⟩
  mainLine := valueAt lines mainPosition
  choices := ⟨choiceAt lines 6, choiceAt lines 7, choiceAt lines 8, choiceAt lines 9⟩
  overlay := if layout.isAdvanced then valueAt lines overlayPosition else none

/-- The last line of a block is put into what the others made of the scene. -/
theorem fill_concat (layout : Layout) (position : Nat) (lines : List (List String))
    (fields : List String) (scene : Scene) :
    fill layout position (lines ++ [fields]) scene =
      let before := fill layout position lines scene
      (applyLine layout (position + lines.length) fields before).getD before := by
  induction lines generalizing position scene with
  | nil => rfl
  | cons line lines ih =>
    rw [List.cons_append, fill, ih, List.length_cons,
      show position + 1 + lines.length = position + (lines.length + 1) by omega]
    rfl

/-- A header sets its own parts of a scene alone. -/
theorem eq_of_readHeader {layout : Layout} {scene header : Scene} {fields : List String}
    (h : readHeader layout scene fields = some header) :
    header = { scene with
      background := header.background
      backgroundOverlay := header.backgroundOverlay
      music := header.music
      sound := header.sound } := by
  rw [readHeader.eq_def] at h
  split at h
  · split at h
    · obtain rfl := Option.some.inj h
      rfl
    · simp at h
  · obtain rfl := Option.some.inj h
    rfl
  · simp at h

/-- A block without lines is a blank scene. -/
theorem assemble_nil (layout : Layout) : assemble layout [] = .blank := by
  cases layout <;> rfl

/-- A further line changes the part that belongs to its position. -/
theorem assemble_concat (layout : Layout) (lines : List (List String)) (fields : List String) :
    assemble layout (lines ++ [fields]) =
      (applyLine layout lines.length fields (assemble layout lines)).getD
        (assemble layout lines) := by
  generalize hn : lines.length = n
  have hlook (k : Nat) : (lines ++ [fields])[k]? = if k = n then some fields else lines[k]? := by
    grind
  have hnone : lines[n]? = none := by simp [← hn]
  match n with
  | 0 =>
    obtain rfl : lines = [] := List.length_eq_zero_iff.mp hn
    rw [assemble_nil, List.nil_append, applyLine]
    have hheader : headerOf layout [fields] = (readHeader layout .blank fields).getD .blank := rfl
    cases h : readHeader layout .blank fields with
    | none => cases layout <;> simp [assemble, hheader, h] <;> rfl
    | some header =>
      rw [Option.getD_some, eq_of_readHeader h]
      cases layout <;> simp [assemble, hheader, h] <;> exact ⟨rfl, rfl, rfl, rfl⟩
  | 1 | 2 | 3 | 4 =>
    simp only [applyLine, assemble, headerOf, speakerAt, choiceAt, valueAt, hlook, hnone]
    cases h : readSpeaker layout .blank fields <;> simp [h, mainPosition, overlayPosition]
  | 5 =>
    simp only [applyLine, assemble, headerOf, speakerAt, choiceAt, valueAt, hlook]
    cases h : readSingle fields <;> simp [h, hnone, mainPosition, overlayPosition]
  | 6 | 7 | 8 | 9 =>
    simp only [applyLine, assemble, headerOf, speakerAt, choiceAt, valueAt, hlook, hnone]
    cases h : readChoice fields <;> simp [h, mainPosition, overlayPosition]
  | 10 =>
    simp only [applyLine, assemble, headerOf, speakerAt, choiceAt, valueAt, hlook]
    cases layout <;> cases h : readSingle fields <;>
      simp [h, hnone, Layout.isAdvanced, mainPosition, overlayPosition]
  | n + 11 =>
    have hold (k : Nat) (hk : k < n + 11) : (lines ++ [fields])[k]? = lines[k]? := by
      rw [hlook, if_neg (by omega)]
    simp (disch := omega) only [assemble, headerOf, speakerAt, choiceAt, valueAt, mainPosition,
      overlayPosition, hold]
    rfl

/-- The scene of a block is assembled from its lines. -/
theorem fill_eq_assemble (layout : Layout) (lines : List (List String)) :
    fill layout 0 lines .blank = assemble layout lines := by
  induction lines using List.reverseRecOn with
  | nil => exact (assemble_nil layout).symm
  | append_singleton lines fields ih =>
    rw [fill_concat, ih, Nat.zero_add, assemble_concat]

/-- A block that was filled by lines, each of which has a property. -/
def FilledBy (P : String → Prop) (layout : Layout) (b : Block) : Prop :=
  ∃ lines : List String, (∀ line ∈ lines, P line) ∧ b.position = lines.length ∧
    b.scene = fill layout 0 (lines.map splitFields) .blank

/-- Another line of its kind leaves a block filled by lines of that kind. -/
theorem FilledBy.take {P : String → Prop} {layout : Layout} {b : Block}
    (h : FilledBy P layout b) (number : Nat) {line : String} (hline : P line) :
    FilledBy P layout (b.take layout number line).1 := by
  obtain ⟨lines, hlines, hpos, hscene⟩ := h
  refine ⟨lines ++ [line], ?_, ?_, ?_⟩
  · intro l hl
    rcases List.mem_append.mp hl with hl | hl
    · exact hlines l hl
    · rwa [List.mem_singleton.mp hl]
  · simp [Block.take_fst, hpos]
  · rw [List.map_append, List.map_singleton, fill_concat, Block.take_fst]
    simp [hscene, hpos]

/-- Every scene that is read is assembled from some of the lines that were read, none of which
is a marker. -/
theorem exists_assemble_of_mem_readLines {P : String → Prop} (layout : Layout) (number : Nat)
    (block : Option Block) (lines : List String)
    (hlines : ∀ line ∈ lines, line ≠ startMarker → line ≠ endMarker → P line)
    (hblock : ∀ b ∈ block, FilledBy P layout b) {s : Scene}
    (hs : s ∈ (readLines layout number block lines).scenes) :
    ∃ used : List String, (∀ line ∈ used, P line) ∧ s = assemble layout (used.map splitFields) := by
  induction lines generalizing number block with
  | nil => simp [readLines] at hs
  | cons line lines ih =>
    obtain ⟨hline, hrest⟩ := List.forall_mem_cons.mp hlines
    rw [readLines.eq_def] at hs
    simp only at hs
    split at hs
    · refine ih (number + 1) _ hrest ?_ hs
      rintro b ⟨⟩
      cases block with
      | none => exact ⟨[], by simp, rfl, rfl⟩
      | some b => exact hblock b rfl
    · next hstart =>
      split at hs
      · rcases List.mem_append.mp hs with hs | hs
        · obtain ⟨b, hb, rfl⟩ := by simpa using hs
          obtain ⟨used, hused, _, hscene⟩ := hblock b hb
          exact ⟨used, hused, hscene.trans (fill_eq_assemble layout _)⟩
        · exact ih (number + 1) none hrest (by simp) hs
      · next hend =>
        cases block with
        | none => exact ih (number + 1) none hrest (by simp) hs
        | some b =>
          refine ih (number + 1) _ hrest ?_ hs
          rintro _ ⟨⟩
          exact (hblock b rfl).take number (hline hstart hend)

/-- Every scene of a text is assembled from some of its lines, none of which is a marker. -/
theorem exists_assemble_of_mem_scenes {layout : Layout} {text : String} {s : Scene}
    (hs : s ∈ scenes layout text) :
    ∃ used : List String,
      (∀ line ∈ used, line ∈ Text.lines text ∧ line ≠ startMarker ∧ line ≠ endMarker) ∧
        s = assemble layout (used.map splitFields) :=
  exists_assemble_of_mem_readLines layout 1 none (Text.lines text)
    (fun _ hline hstart hend => ⟨hline, hstart, hend⟩) (by simp) hs

end VisualNovel.Scenario
