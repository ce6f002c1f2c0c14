import VisualNovel.Proofs.Scenario.Block
import VisualNovel.Proofs.Text.Lines

/-!
# Scenarios one after the other

What is read of the second part of a list of lines depends on the first part in two things
alone: on the block that the first part has left open, and on the number of its lines. So where
a text ends with its last line and leaves no block open, what is put behind it is read as if it
stood alone, but for the numbers of its lines.
-/

namespace VisualNovel.Scenario

/-- The same line with a number that is higher by that of the lines in front of it. -/
def SkippedLine.movedBy (lines : Nat) (s : SkippedLine) : SkippedLine :=
  { s with number := s.number + lines }

/-- What is read of lines with others in front of them that leave no block open. -/
def Reading.movedBy (lines : Nat) (r : Reading) : Reading :=
  { r with skipped := r.skipped.map (·.movedBy lines) }

/-- What is read of two parts one after the other. Only the second one can be left open. -/
def Reading.append (first second : Reading) : Reading where
  scenes := first.scenes ++ second.scenes
  skipped := first.skipped ++ second.skipped
  unterminated := second.unterminated

/-- The block that is open after one more line. -/
def openStep (layout : Layout) (block : Option Block) (number : Nat) (line : String) :
    Option Block :=
  if line = startMarker then some (block.getD .start)
  else if line = endMarker then none
  else block.map fun b => (b.take layout number line).1

/-- The block that lines leave open. -/
def openAfter (layout : Layout) : Nat → Option Block → List String → Option Block
  | _, block, [] => block
  | number, block, line :: rest =>
    openAfter layout (number + 1) (openStep layout block number line) rest

/-- What one line adds to what is read, next to the block that it leaves open. -/
def readStep (layout : Layout) (block : Option Block) (number : Nat) (line : String) : Reading where
  scenes := if line = endMarker then (block.map (·.scene)).toList else []
  skipped :=
    if line = startMarker ∨ line = endMarker then []
    else (block.bind fun b => (b.take layout number line).2).toList
  unterminated := 0

/-- A line is read with the block that is open, and leaves one to the lines behind it. -/
theorem readLines_cons (layout : Layout) (number : Nat) (block : Option Block) (line : String)
    (rest : List String) :
    readLines layout number block (line :: rest) =
      (readStep layout block number line).append
        (readLines layout (number + 1) (openStep layout block number line) rest) := by
  by_cases hstart : line = startMarker
  · simp [readLines, hstart, readStep, openStep, Reading.append, endMarker_ne_startMarker.symm]
  · by_cases hend : line = endMarker
    · simp [readLines, hend, readStep, openStep, Reading.append, endMarker_ne_startMarker]
    · cases block <;> simp [readLines, hstart, hend, readStep, openStep, Reading.append]

/-- It does not matter how three readings are put together. -/
theorem Reading.append_assoc (first second third : Reading) :
    (first.append second).append third = first.append (second.append third) := by
  simp [Reading.append, List.append_assoc]

/-- A block is left open exactly if the lines end inside one. -/
theorem unterminated_readLines (layout : Layout) (number : Nat) (block : Option Block)
    (lines : List String) :
    (readLines layout number block lines).unterminated =
      if (openAfter layout number block lines).isSome then 1 else 0 := by
  induction lines generalizing number block with
  | nil => rfl
  | cons line lines ih => rw [readLines_cons, Reading.append, ih, openAfter]

/-- The second part of some lines is read with the block that the first part leaves open. -/
theorem readLines_append (layout : Layout) (number : Nat) (block : Option Block)
    (first second : List String) :
    readLines layout number block (first ++ second) =
      (readLines layout number block first).append
        (readLines layout (number + first.length) (openAfter layout number block first)
          second) := by
  induction first generalizing number block with
  | nil => simp [readLines, Reading.append, openAfter]
  | cons line first ih =>
    have hnumber : number + 1 + first.length = number + (line :: first).length := by
      rw [List.length_cons]
      omega
    rw [List.cons_append, readLines_cons, ih, readLines_cons, Reading.append_assoc, openAfter,
      hnumber]

/-- Two readings that are put together are moved as one. -/
theorem Reading.movedBy_append (lines : Nat) (first second : Reading) :
    (first.append second).movedBy lines = (first.movedBy lines).append (second.movedBy lines) := by
  simp [Reading.append, Reading.movedBy]

/-- The number of a line tells nothing about the block that it leaves open. -/
theorem openStep_add (layout : Layout) (block : Option Block) (number lines : Nat)
    (line : String) :
    openStep layout block (number + lines) line = openStep layout block number line := by
  simp only [openStep, Block.take_fst]

/-- A line further down is read in the same way, and reported further down. -/
theorem readStep_add (layout : Layout) (block : Option Block) (number lines : Nat)
    (line : String) :
    readStep layout block (number + lines) line =
      (readStep layout block number line).movedBy lines := by
  cases block with
  | none => simp [readStep, Reading.movedBy]
  | some b =>
    cases h : applyLine layout b.position (splitFields line) b.scene <;>
      by_cases hmarker : line = startMarker ∨ line = endMarker <;>
      simp [readStep, Reading.movedBy, Block.take, h, hmarker, SkippedLine.movedBy]

/-- Lines with others in front of them are read alike, but for their numbers. -/
theorem readLines_add (layout : Layout) (number lines : Nat) (block : Option Block)
    (rest : List String) :
    readLines layout (number + lines) block rest =
      (readLines layout number block rest).movedBy lines := by
  induction rest generalizing number block with
  | nil => rfl
  | cons line rest ih =>
    rw [readLines_cons, readLines_cons, Reading.movedBy_append, readStep_add, openStep_add,
      Nat.add_right_comm, ih]

/-- What stands behind a text that ends with its last line, and leaves no block open, is read as
if it stood alone: the scenes of both come one after the other, and so do the lines that were
skipped, where those behind are counted on from the lines in front. -/
theorem read_append (layout : Layout) {a b : String}
    (hend : a = "" ∨ a.toList.getLast? = some '\n')
    (hclosed : (read layout a).unterminated = 0) :
    read layout (a ++ b) = {
      scenes := (read layout a).scenes ++ (read layout b).scenes
      skipped := (read layout a).skipped ++
        (read layout b).skipped.map fun s =>
          ⟨s.number + (Text.lines a).length, s.position, s.fieldCount⟩
      unterminated := (read layout b).unterminated } := by
  have hnone : openAfter layout 1 none (Text.lines a) = none := by
    rw [read, unterminated_readLines] at hclosed
    simpa using hclosed
  rw [read, Text.lines_append hend, readLines_append, hnone, readLines_add]
  rfl

/-- Noise and a line that does not fit before the seam, and behind it a block that begins with a
line that does not fit and is left open. -/
theorem read_append_noisy :
    let a := "noise\r\n[scene_start]\r\n:\n[scene_start]\nclub:NONE\n[scene_end]\n[scene_end]\n"
    let b := "\n[scene_start]\nclub\r\nAnn:NONE:Hello\n[scene_end]\n[scene_start]\n"
    (read .simple a).unterminated = 0 ∧
      (read .simple (a ++ b)).skipped = [⟨3, 0, 1⟩, ⟨5, 1, 2⟩, ⟨10, 0, 1⟩] ∧
      (read .simple (a ++ b)).scenes.length = 2 ∧ (read .simple (a ++ b)).unterminated = 1 := by
  have hclosed : (read .simple
      "noise\r\n[scene_start]\r\n:\n[scene_start]\nclub:NONE\n[scene_end]\n[scene_end]\n"
        ).unterminated = 0 := by rfl
  dsimp only
  rw [read_append .simple (Or.inr rfl) hclosed]
  exact ⟨hclosed, rfl, rfl, rfl⟩

end VisualNovel.Scenario
