import VisualNovel.Proofs.Scenario.Block

/-!
# The grammar of scenarios

What a text says can be told without reading it line after line. Its lines are cut into
blocks by the markers alone, in one way only. Of the lines of a block each has its place, and
a table tells which numbers of fields fit there; the scene of the block takes every value
from one field of one line, and a line that does not fit is skipped. The reading of a text
is exactly what this grammar says of its blocks.
-/

namespace VisualNovel.Scenario

open Text

/-- A line of a text with its number. -/
abbrev NumberedLine := String × Nat

/-- The lines of a text, numbered from one. -/
def numbered (text : String) : List NumberedLine := (lines text).zipIdx 1

/-- The lines of a block that count; another start marker within it does not. -/
def body (inside : List NumberedLine) : List NumberedLine :=
  inside.filter fun line => line.1 ≠ startMarker

/-- The bodies of the blocks of a text: those that are closed, and the last one if it is not. -/
structure Cut where
  closed : List (List NumberedLine)
  unclosed : Option (List NumberedLine)
deriving DecidableEq

/-- How lines are cut into blocks. A block opens at a start marker while none is open, and
closes at the next end marker. -/
inductive CutInto : List NumberedLine → Cut → Prop where
  | outside {lines : List NumberedLine} (unopened : ∀ line ∈ lines, line.1 ≠ startMarker) :
      CutInto lines ⟨[], none⟩
  | unclosed {before inside : List NumberedLine} {opening : Nat}
      (unopened : ∀ line ∈ before, line.1 ≠ startMarker)
      (unended : ∀ line ∈ inside, line.1 ≠ endMarker) :
      CutInto (before ++ (startMarker, opening) :: inside) ⟨[], some (body inside)⟩
  | closed {before inside rest : List NumberedLine} {opening closing : Nat} {cut : Cut}
      (unopened : ∀ line ∈ before, line.1 ≠ startMarker)
      (unended : ∀ line ∈ inside, line.1 ≠ endMarker) (more : CutInto rest cut) :
      CutInto (before ++ (startMarker, opening) :: (inside ++ (endMarker, closing) :: rest))
        ⟨body inside :: cut.closed, cut.unclosed⟩

/-- Either a marker occurs in some lines, and then for a first time, or it does not. -/
theorem eq_append_or_forall_ne (marker : String) (lines : List NumberedLine) :
    (∃ before number rest, lines = before ++ (marker, number) :: rest ∧
        ∀ line ∈ before, line.1 ≠ marker) ∨
      ∀ line ∈ lines, line.1 ≠ marker := by
  cases h : lines.find? (·.1 = marker) with
  | none => exact Or.inr (by simpa using h)
  | some found =>
    obtain ⟨hfound, before, rest, rfl, hbefore⟩ := List.find?_eq_some_iff_append.mp h
    obtain ⟨line, number⟩ := found
    obtain rfl : line = marker := by simpa using hfound
    exact Or.inl ⟨before, number, rest, rfl, by simpa using hbefore⟩

/-- What stands before the first occurrence of a marker, and behind it, is unique. -/
theorem eq_of_append_marker_eq {marker : String} {before before' rest rest' : List NumberedLine}
    {number number' : Nat} (h : ∀ line ∈ before, line.1 ≠ marker)
    (h' : ∀ line ∈ before', line.1 ≠ marker)
    (heq : before ++ (marker, number) :: rest = before' ++ (marker, number') :: rest') :
    before = before' ∧ rest = rest' := by
  have htake {before rest : List NumberedLine} {number : Nat}
      (h : ∀ line ∈ before, line.1 ≠ marker) :
      (before ++ (marker, number) :: rest).takeWhile (·.1 ≠ marker) = before := by
    rw [List.takeWhile_append_of_pos (by simpa using h)]
    simp
  have hbefore : before = before' := by rw [← htake h, heq, htake h']
  subst hbefore
  exact ⟨rfl, (List.cons.inj (List.append_cancel_left heq)).2⟩

/-- All lines can be cut into blocks. -/
theorem exists_cutInto (lines : List NumberedLine) : ∃ cut, CutInto lines cut := by
  induction hn : lines.length using Nat.strongRecOn generalizing lines with
  | _ n ih =>
    rcases eq_append_or_forall_ne startMarker lines with
      ⟨before, opening, tail, rfl, hbefore⟩ | hnone
    · rcases eq_append_or_forall_ne endMarker tail with
        ⟨inside, closing, rest, rfl, hinside⟩ | hinside
      · obtain ⟨cut, hcut⟩ := ih rest.length (by simp at hn; omega) rest rfl
        exact ⟨_, .closed hbefore hinside hcut⟩
      · exact ⟨_, .unclosed hbefore hinside⟩
    · exact ⟨_, .outside hnone⟩

/-- Lines are cut into blocks in one way only. -/
theorem CutInto.unique {lines : List NumberedLine} {cut cut' : Cut} (h : CutInto lines cut)
    (h' : CutInto lines cut') : cut' = cut := by
  induction h generalizing cut' with
  | outside hlines =>
    cases h' with
    | outside _ => rfl
    | unclosed _ _ => exact absurd rfl (hlines _ (List.mem_append_right _ List.mem_cons_self))
    | closed _ _ _ => exact absurd rfl (hlines _ (List.mem_append_right _ List.mem_cons_self))
  | @unclosed before inside opening hbefore hinside =>
    generalize hlines : before ++ (startMarker, opening) :: inside = lines at h'
    cases h' with
    | outside hnone =>
      exact absurd rfl (hnone _ (hlines ▸ List.mem_append_right _ List.mem_cons_self))
    | unclosed hbefore' _ =>
      obtain ⟨rfl, rfl⟩ := eq_of_append_marker_eq hbefore hbefore' hlines
      rfl
    | closed hbefore' _ _ =>
      obtain ⟨rfl, rfl⟩ := eq_of_append_marker_eq hbefore hbefore' hlines
      exact absurd rfl (hinside _ (List.mem_append_right _ List.mem_cons_self))
  | @closed before inside rest opening closing cut hbefore hinside _ ih =>
    generalize hlines :
      before ++ (startMarker, opening) :: (inside ++ (endMarker, closing) :: rest) = lines at h'
    cases h' with
    | outside hnone =>
      exact absurd rfl (hnone _ (hlines ▸ List.mem_append_right _ List.mem_cons_self))
    | unclosed hbefore' hinside' =>
      obtain ⟨rfl, rfl⟩ := eq_of_append_marker_eq hbefore hbefore' hlines
      exact absurd rfl (hinside' _ (List.mem_append_right _ List.mem_cons_self))
    | closed hbefore' hinside' hcut' =>
      obtain ⟨rfl, htail⟩ := eq_of_append_marker_eq hbefore hbefore' hlines
      obtain ⟨rfl, rfl⟩ := eq_of_append_marker_eq hinside hinside' htail
      rw [ih hcut']

/-- The table of the positions of a block: how many fields a line may have to fit there. -/
def FitsAt (layout : Layout) (position count : Nat) : Prop :=
  position = 0 ∧ (count = 3 ∨ layout = .advanced ∧ count = 4) ∨
  (1 ≤ position ∧ position ≤ 4) ∧ 3 ≤ count ∨
  position = 5 ∧ count = 1 ∨
  (6 ≤ position ∧ position ≤ 9) ∧ count = 2 ∨
  position = 10 ∧ layout = .advanced ∧ count = 1

instance (layout : Layout) (position count : Nat) : Decidable (FitsAt layout position count) :=
  inferInstanceAs (Decidable (_ ∨ _))

/-- The lines of a body, each by its fields. -/
def bodyFields (body : List NumberedLine) : List (List String) :=
  body.map fun line => splitFields line.1

/-- The fields of lines do not depend on the numbers of the lines. -/
theorem bodyFields_zipIdx (lines : List String) (number : Nat) :
    bodyFields (lines.zipIdx number) = lines.map splitFields := by
  rw [bodyFields, ← List.zipIdx_map_fst number lines, List.map_map, List.zipIdx_map_fst]
  rfl

/-- The number of fields of the line at a position. -/
def countAt (body : List (List String)) (position : Nat) : Nat :=
  (body[position]?.map List.length).getD 0

/-- The value of a field of the line at a position; there is none if the line is missing or
does not fit there, or if the field says so. -/
def fieldAt (layout : Layout) (body : List (List String)) (position i : Nat) : Option String :=
  if FitsAt layout position (countAt body position) then
    ((body[position]?.bind (·[i]?)).filter (· ≠ absent))
  else none

/-- The speaker of the line at a position, whose portrait has layers if there are enough
fields. -/
def speakerOf (layout : Layout) (body : List (List String)) (position : Nat) : Speaker :=
  let value := fieldAt layout body position
  let layered := layout = .advanced ∧ 5 < countAt body position
  { name := value 0
    texture := value 1
    line := value 2
    textureLeft := if layered then value 3 else none
    textureRight := if layered then value 4 else none
    textureHead := if layered then value 5 else none }

/-- The choice of the line at a position. -/
def choiceOf (layout : Layout) (body : List (List String)) (position : Nat) : Choice :=
  ⟨fieldAt layout body position 0, fieldAt layout body position 1⟩

/-- The scene of a body. -/
def sceneOf (layout : Layout) (body : List (List String)) : Scene :=
  let header := fieldAt layout body 0
  let overlaid := countAt body 0 = 4
  { background := header 0
    backgroundOverlay := if overlaid then header 1 else none
    music := if overlaid then header 2 else header 1
    sound := if overlaid then header 3 else header 2
    speakers := ⟨speakerOf layout body 1, speakerOf layout body 2, speakerOf layout body 3,
      speakerOf layout body 4⟩
    mainLine := fieldAt layout body 5 0
    choices := ⟨choiceOf layout body 6, choiceOf layout body 7, choiceOf layout body 8,
      choiceOf layout body 9⟩
    overlay := fieldAt layout body 10 0 }

/-- The lines of a body, the first of which is at some position, that do not fit theirs. -/
def misfitsFrom (layout : Layout) (position : Nat) (body : List NumberedLine) :
    List SkippedLine :=
  (body.zipIdx position).filterMap fun ((line, number), position) =>
    let count := (splitFields line).length
    if FitsAt layout position count then none else some ⟨number, position, count⟩

/-- The lines of a body that do not fit their positions. -/
def misfits (layout : Layout) (body : List NumberedLine) : List SkippedLine :=
  misfitsFrom layout 0 body

/-- What blocks say. -/
def Cut.reading (layout : Layout) (cut : Cut) : Reading where
  scenes := cut.closed.map fun body => sceneOf layout (bodyFields body)
  skipped := (cut.closed ++ cut.unclosed.toList).flatMap (misfits layout)
  unterminated := if cut.unclosed.isSome then 1 else 0

section Table

variable {layout : Layout} {body : List (List String)} {fields : List String} {position i : Nat}

/-- A line fits as a header if it has three fields, or four in the wide layout. -/
theorem isSome_readHeader (scene : Scene) :
    (readHeader layout scene fields).isSome ↔
      fields.length = 3 ∨ layout = .advanced ∧ fields.length = 4 := by
  match fields with
  | [] | [_] | [_, _] | [_, _, _] => simp [readHeader]
  | [_, _, _, _] => cases layout <;> simp [readHeader, Layout.isAdvanced]
  | _ :: _ :: _ :: _ :: _ :: _ => simp [readHeader]

/-- A line fits as a speaker if it has at least three fields. -/
theorem isSome_readSpeaker (speaker : Speaker) :
    (readSpeaker layout speaker fields).isSome ↔ 3 ≤ fields.length := by
  match fields with
  | [] | [_] | [_, _] => simp [readSpeaker]
  | _ :: _ :: _ :: _ =>
    simp only [readSpeaker]
    split <;> simp

/-- A line fits as a button if it has two fields. -/
theorem isSome_readChoice : (readChoice fields).isSome ↔ fields.length = 2 := by
  match fields with
  | [] | [_] | [_, _] | _ :: _ :: _ :: _ => simp [readChoice]

/-- A line fits as a single value if it has one field. -/
theorem isSome_readSingle : (readSingle fields).isSome ↔ fields.length = 1 := by
  match fields with
  | [] | [_] | _ :: _ :: _ => simp [readSingle]

/-- A line is taken at a position exactly if the table says that it fits there. -/
theorem isSome_applyLine (scene : Scene) :
    (applyLine layout position fields scene).isSome ↔ FitsAt layout position fields.length := by
  match position with
  | 0 => simp [applyLine, isSome_readHeader, FitsAt]
  | 1 | 2 | 3 | 4 => simp [applyLine, isSome_readSpeaker, FitsAt]
  | 5 => simp [applyLine, isSome_readSingle, FitsAt]
  | 6 | 7 | 8 | 9 => simp [applyLine, isSome_readChoice, FitsAt]
  | 10 => cases layout <;> simp [applyLine, isSome_readSingle, FitsAt, Layout.isAdvanced]
  | n + 11 => simp [applyLine, FitsAt]

/-- A field says what is written in it, unless that is the word for nothing. -/
theorem readField_eq_filter (f : String) : readField f = (some f).filter (· ≠ absent) := by
  rw [readField]
  split <;> simp [Option.filter, *]

/-- Where there is no line there is no field. -/
theorem fieldAt_of_none (h : body[position]? = none) : fieldAt layout body position i = none := by
  simp [fieldAt, h]

/-- The field of a line that fits is there unless it is marked as absent. -/
theorem fieldAt_of_some (h : body[position]? = some fields) :
    fieldAt layout body position i =
      if FitsAt layout position fields.length then fields[i]?.filter (· ≠ absent) else none := by
  simp [fieldAt, countAt, h]

/-- A line counts as many fields as it has. -/
theorem countAt_of_some (h : body[position]? = some fields) :
    countAt body position = fields.length := by
  simp [countAt, h]

/-- The reader takes the speakers from the second line to the fifth. -/
theorem speakerAt_eq_speakerOf (h : 1 ≤ position ∧ position ≤ 4) :
    speakerAt layout body position = speakerOf layout body position := by
  have hfits (count : Nat) : FitsAt layout position count ↔ 3 ≤ count := by
    simp only [FitsAt]
    omega
  cases hp : body[position]? with
  | none => simp [speakerAt_of_none layout hp, speakerOf, fieldAt_of_none hp, Speaker.blank]
  | some fields =>
    rw [speakerAt_eq layout hp]
    simp only [speakerOf, fieldAt_of_some hp, countAt_of_some hp, hfits]
    match fields with
    | [] | [_] | [_, _] => simp [readSpeaker, Speaker.blank]
    | [_, _, _] | [_, _, _, _] | [_, _, _, _, _] =>
      simp [readSpeaker, Speaker.blank, readField_eq_filter]
    | _ :: _ :: _ :: _ :: _ :: _ :: _ =>
      cases layout <;> simp [readSpeaker, Speaker.blank, readField_eq_filter]

/-- The reader takes the buttons from the seventh line to the tenth. -/
theorem choiceAt_eq_choiceOf (layout : Layout) (h : 6 ≤ position ∧ position ≤ 9) :
    choiceAt body position = choiceOf layout body position := by
  have hfits (count : Nat) : FitsAt layout position count ↔ count = 2 := by
    simp only [FitsAt]
    omega
  cases hp : body[position]? with
  | none => simp [choiceAt_of_none hp, choiceOf, fieldAt_of_none hp, Choice.blank]
  | some fields =>
    rw [choiceAt_eq hp]
    simp only [choiceOf, fieldAt_of_some hp, hfits]
    match fields with
    | [] | [_] | _ :: _ :: _ :: _ => simp [readChoice, Choice.blank]
    | [_, _] => simp [readChoice, readField_eq_filter]

/-- Where a line is to have one field the reader takes that field. -/
theorem valueAt_eq_fieldAt (h : ∀ count, FitsAt layout position count ↔ count = 1) :
    valueAt body position = fieldAt layout body position 0 := by
  cases hp : body[position]? with
  | none => rw [valueAt_of_none hp, fieldAt_of_none hp]
  | some fields =>
    rw [valueAt_eq hp, fieldAt_of_some hp]
    simp only [h]
    match fields with
    | [] | _ :: _ :: _ => simp [readSingle]
    | [_] => simp [readSingle, readField_eq_filter]

/-- The parts of the header. -/
theorem headerOf_eq_fieldAt :
    headerOf layout body = { Scene.blank with
      background := (sceneOf layout body).background
      backgroundOverlay := (sceneOf layout body).backgroundOverlay
      music := (sceneOf layout body).music
      sound := (sceneOf layout body).sound } := by
  have hfits (count : Nat) : FitsAt layout 0 count ↔
      count = 3 ∨ layout = .advanced ∧ count = 4 := by
    simp [FitsAt]
  cases hp : body[0]? with
  | none => simp [headerOf_of_none layout hp, sceneOf, fieldAt_of_none hp, Scene.blank]
  | some fields =>
    rw [headerOf_eq layout hp]
    simp only [sceneOf, fieldAt_of_some hp, countAt_of_some hp, hfits]
    match fields with
    | [] | [_] | [_, _] | _ :: _ :: _ :: _ :: _ :: _ => simp [readHeader, Scene.blank]
    | [_, _, _] => simp [readHeader, Scene.blank, readField_eq_filter]
    | [_, _, _, _] =>
      cases layout <;> simp [readHeader, Layout.isAdvanced, Scene.blank, readField_eq_filter]

/-- The scene of a block is the one that the table tells. -/
theorem assemble_eq_sceneOf (layout : Layout) (body : List (List String)) :
    assemble layout body = sceneOf layout body := by
  have hmain : valueAt body mainPosition = fieldAt layout body 5 0 :=
    valueAt_eq_fieldAt (by simp [FitsAt, mainPosition])
  have hoverlay : (if layout.isAdvanced then valueAt body overlayPosition else none) =
      fieldAt layout body 10 0 := by
    cases layout with
    | simple => simp [fieldAt, FitsAt, Layout.isAdvanced]
    | advanced => exact valueAt_eq_fieldAt (by simp [FitsAt, overlayPosition])
  rw [assemble, hmain, hoverlay, headerOf_eq_fieldAt,
    speakerAt_eq_speakerOf (by omega), speakerAt_eq_speakerOf (by omega),
    speakerAt_eq_speakerOf (by omega), speakerAt_eq_speakerOf (by omega),
    choiceAt_eq_choiceOf layout (by omega), choiceAt_eq_choiceOf layout (by omega),
    choiceAt_eq_choiceOf layout (by omega), choiceAt_eq_choiceOf layout (by omega)]
  rfl

end Table

/-- Lines before a start marker are passed over. -/
theorem readLines_outside (layout : Layout) {before : List String}
    (h : ∀ line ∈ before, line ≠ startMarker) (number : Nat) (rest : List String) :
    readLines layout number none (before ++ rest) =
      readLines layout (number + before.length) none rest := by
  induction before generalizing number with
  | nil => rfl
  | cons line before ih =>
    rw [List.forall_mem_cons] at h
    rw [List.cons_append, readLines, if_neg h.1, ih h.2, List.length_cons,
      show number + 1 + before.length = number + (before.length + 1) by omega]
    split <;> rfl

/-- Another marker of a beginning is no part of what stands in a block. -/
theorem body_cons_startMarker (number : Nat) (inside : List NumberedLine) :
    body ((startMarker, number) :: inside) = body inside := by
  simp [body]

/-- A line that is no marker of a beginning is part of what stands in a block. -/
theorem body_cons {line : String} (h : line ≠ startMarker) (number : Nat)
    (inside : List NumberedLine) :
    body ((line, number) :: inside) = (line, number) :: body inside := by
  simp [body, h]

/-- A line is skipped exactly if it does not fit its position. -/
theorem misfitsFrom_cons (layout : Layout) (number : Nat) (line : String)
    (rest : List NumberedLine) (b : Block) :
    misfitsFrom layout b.position ((line, number) :: rest) =
      (b.take layout number line).2.toList ++ misfitsFrom layout (b.position + 1) rest := by
  have hfits : (applyLine layout b.position (splitFields line) b.scene).isSome ↔
      FitsAt layout b.position (splitFields line).length := isSome_applyLine b.scene
  rw [misfitsFrom, List.zipIdx_cons, List.filterMap_cons, Block.take]
  cases happly : applyLine layout b.position (splitFields line) b.scene with
  | none => simp_all [misfitsFrom]
  | some scene => simp_all [misfitsFrom]

/-- Lines within a block fill its scene, and those that do not fit are skipped. -/
theorem readLines_inside (layout : Layout) {inside : List String}
    (h : ∀ line ∈ inside, line ≠ endMarker) (number : Nat) (b : Block) (rest : List String) :
    readLines layout number (some b) (inside ++ rest) =
      let counted := body (inside.zipIdx number)
      let reading := readLines layout (number + inside.length)
        (some ⟨fill layout b.position (bodyFields counted) b.scene, b.position + counted.length⟩)
        rest
      { reading with skipped := misfitsFrom layout b.position counted ++ reading.skipped } := by
  induction inside generalizing number b with
  | nil => rfl
  | cons line inside ih =>
    rw [List.forall_mem_cons] at h
    rw [List.cons_append, readLines, List.zipIdx_cons, List.length_cons,
      show number + (inside.length + 1) = number + 1 + inside.length by omega]
    by_cases hs : line = startMarker
    · subst hs
      rw [if_pos rfl, Option.getD_some, ih h.2, body_cons_startMarker]
    · rw [if_neg hs, if_neg h.1, body_cons hs]
      simp only [ih h.2]
      rw [misfitsFrom_cons]
      simp [bodyFields, fill, Block.take_fst, Nat.add_assoc, Nat.add_comm 1]

/-- No marker among numbered lines is none among the lines. -/
theorem forall_ne_of_zipIdx {lines : List String} {number : Nat} {marker : String}
    (h : ∀ line ∈ lines.zipIdx number, line.1 ≠ marker) : ∀ line ∈ lines, line ≠ marker := by
  intro line hline
  rw [← List.zipIdx_map_fst number lines] at hline
  obtain ⟨numberedLine, hmem, rfl⟩ := List.mem_map.mp hline
  exact h numberedLine hmem

/-- Numbered lines around a marker are the lines around it, the numbers going on behind it. -/
theorem exists_of_zipIdx_eq_append_cons {lines : List String} {number opening : Nat}
    {marker : String} {before rest : List NumberedLine}
    (h : lines.zipIdx number = before ++ (marker, opening) :: rest) :
    ∃ before' rest', lines = before' ++ marker :: rest' ∧ before = before'.zipIdx number ∧
      rest = rest'.zipIdx (number + before'.length + 1) := by
  obtain ⟨before', tail, rfl, hbefore, htail⟩ := List.zipIdx_eq_append_iff.mp h
  obtain ⟨line, rest', rfl, hline, hrest⟩ := List.zipIdx_eq_cons_iff.mp htail.symm
  cases hline
  exact ⟨before', rest', rfl, hbefore, hrest⟩

/-- The reading of lines is what their blocks say. -/
theorem readLines_eq_of_cutInto (layout : Layout) {number : Nat} {lines : List String} {cut : Cut}
    (h : CutInto (lines.zipIdx number) cut) :
    readLines layout number none lines = cut.reading layout := by
  generalize hnumbered : lines.zipIdx number = numberedLines at h
  induction h generalizing number lines with
  | outside hnone =>
    subst hnumbered
    have hread := readLines_outside layout (forall_ne_of_zipIdx hnone) number []
    simpa [readLines, Cut.reading] using hread
  | unclosed hbefore hinside =>
    obtain ⟨before, inside, rfl, rfl, rfl⟩ := exists_of_zipIdx_eq_append_cons hnumbered
    have hread := readLines_inside layout (forall_ne_of_zipIdx hinside)
      (number + before.length + 1) .start []
    rw [List.append_nil] at hread
    rw [readLines_outside layout (forall_ne_of_zipIdx hbefore), readLines_startMarker, hread]
    simp [readLines, Cut.reading, misfits, Block.start]
  | closed hbefore hinside hcut ih =>
    obtain ⟨before, tail, rfl, rfl, htail⟩ := exists_of_zipIdx_eq_append_cons hnumbered
    obtain ⟨inside, rest, rfl, rfl, rfl⟩ := exists_of_zipIdx_eq_append_cons htail.symm
    rw [readLines_outside layout (forall_ne_of_zipIdx hbefore), readLines_startMarker,
      readLines_inside layout (forall_ne_of_zipIdx hinside)]
    simp only [readLines_endMarker, ih rfl]
    simp [Cut.reading, misfits, Block.start, fill_eq_assemble, assemble_eq_sceneOf]

/-- A text is cut into blocks in exactly one way, and its reading is what the blocks say: one
scene for each closed block, each value from its own field; the lines of all blocks that do
not fit their positions; and whether the last block is left open. -/
theorem read_eq_reading (layout : Layout) (text : String) :
    ∃ cut, CutInto (numbered text) cut ∧ (∀ cut', CutInto (numbered text) cut' → cut' = cut) ∧
      read layout text = cut.reading layout := by
  obtain ⟨cut, hcut⟩ := exists_cutInto (numbered text)
  exact ⟨cut, hcut, fun _ hcut' => hcut.unique hcut', readLines_eq_of_cutInto layout hcut⟩

end VisualNovel.Scenario
