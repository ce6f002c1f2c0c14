import VisualNovel.Proofs.Scenario.Block

/-!
# A scan that erases

A scenario can also be read by a scan that throws away what it has read. Whenever a block is
closed, its scene is kept, all lines before the end marker are erased, and the scan begins
again on the lines that are left, the end marker still among them. Whether a block is open is
a flag of its own, and the position of the last block is not forgotten when it is closed.
Although its index goes back again and again, the scan ends on every text, as each step leaves
one line less ahead of it; and it has the scenes that are read in one pass.
-/

namespace VisualNovel.Scenario

/-- A scan that erases the lines behind it. -/
structure Scan where
  lines : List String
  index : Nat
  inBlock : Bool
  position : Nat
  scene : Scene
  scenes : List Scene

namespace Scan

variable {layout : Layout} {s t last : Scan} {line : String} {rest : List String}

/-- A scan before the first line of a text. -/
def start (text : String) : Scan := ⟨Text.lines text, 0, false, 0, .blank, []⟩

/-- Opens a block, unless one is open. -/
def openBlock (s : Scan) : Scan :=
  if s.inBlock then s else { s with inBlock := true, position := 0, scene := .blank }

/-- Keeps the scene of the block if one is open. -/
def keepScene (s : Scan) : Scan :=
  if s.inBlock then { s with scenes := s.scenes ++ [s.scene], scene := .blank } else s

/-- Closes the block, erases the lines before the current one and goes back. -/
def closeBlock (s : Scan) : Scan :=
  { s.keepScene with lines := s.lines.drop s.index, index := 0, inBlock := false }

/-- Fills the block with a line if one is open. -/
def fillBlock (layout : Layout) (line : String) (s : Scan) : Scan :=
  if s.inBlock then
    { s with
      scene := (applyLine layout s.position (splitFields line) s.scene).getD s.scene
      position := s.position + 1 }
  else s

/-- What the current line does. -/
def take (layout : Layout) (line : String) (s : Scan) : Scan :=
  if line = startMarker then s.openBlock
  else if line = endMarker then s.closeBlock
  else s.fillBlock layout line

/-- Goes on by one line. -/
def advance (s : Scan) : Scan := { s with index := s.index + 1 }

/-- One step of a scan, if there is a current line. -/
def step (layout : Layout) (s : Scan) : Option Scan :=
  s.lines[s.index]?.map fun line => (s.take layout line).advance

/-- How a scan ends: there is no further step. -/
inductive Ends (layout : Layout) : Scan → Scan → Prop where
  | done {s : Scan} (halted : s.step layout = none) : Ends layout s s
  | step {s t last : Scan} (next : s.step layout = some t) (rest : Ends layout t last) :
      Ends layout s last

/-- The lines ahead of a scan. -/
def ahead (s : Scan) : List String := s.lines.drop s.index

/-- The block that is open. -/
def block (s : Scan) : Option Block := if s.inBlock then some ⟨s.scene, s.position⟩ else none

/-- Once a block is opened there is one: the one that was open, or a new one. -/
theorem block_openBlock (s : Scan) : s.openBlock.block = some (s.block.getD .start) := by
  cases h : s.inBlock <;> simp [openBlock, block, h, Block.start]

theorem scenes_openBlock (s : Scan) : s.openBlock.scenes = s.scenes := by
  cases h : s.inBlock <;> simp [openBlock, h]

theorem block_closeBlock (s : Scan) : s.closeBlock.block = none := rfl

/-- Once a block is closed its scene is the last one. -/
theorem scenes_closeBlock (s : Scan) :
    s.closeBlock.scenes = s.scenes ++ (s.block.map (·.scene)).toList := by
  cases h : s.inBlock <;> simp [closeBlock, keepScene, block, h]

/-- A line is put into the block that is open, if one is. -/
theorem block_fillBlock (layout : Layout) (number : Nat) (line : String) (s : Scan) :
    (s.fillBlock layout line).block = s.block.map fun b => (b.take layout number line).1 := by
  cases h : s.inBlock <;> simp [fillBlock, block, h, Block.take_fst]

/-- A line in a block adds no scene. -/
theorem scenes_fillBlock (layout : Layout) (line : String) (s : Scan) :
    (s.fillBlock layout line).scenes = s.scenes := by
  cases h : s.inBlock <;> simp [fillBlock, h]

/-- Whether lines were erased or not, the same lines are ahead behind the current one. -/
theorem ahead_advance_take (layout : Layout) (line : String) (s : Scan) :
    (s.take layout line).advance.ahead = s.ahead.tail := by
  rw [take]
  split
  · cases h : s.inBlock <;> simp [openBlock, h, advance, ahead]
  · split
    · simp [closeBlock, advance, ahead]
    · cases h : s.inBlock <;> simp [fillBlock, h, advance, ahead]

/-- The reader takes a line as the scan does. -/
theorem scenes_take (layout : Layout) (number : Nat) (line : String) (rest : List String)
    (s : Scan) :
    s.scenes ++ (readLines layout number s.block (line :: rest)).scenes =
      (s.take layout line).scenes ++
        (readLines layout (number + 1) (s.take layout line).block rest).scenes := by
  rw [take, readLines.eq_def]
  simp only
  split
  · rw [block_openBlock, scenes_openBlock]
  · split
    · rw [block_closeBlock, scenes_closeBlock, List.append_assoc]
    · rw [block_fillBlock layout number, scenes_fillBlock]
      cases s.block <;> rfl

/-- A scan has a step exactly as long as a line is ahead. -/
theorem step_of_ahead_eq_cons (layout : Layout) (h : s.ahead = line :: rest) :
    s.step layout = some (s.take layout line).advance := by
  have hline : s.lines[s.index]? = some line := by
    rw [← List.head?_drop]
    exact congrArg List.head? h
  rw [step, hline, Option.map_some]

/-- The scan ends where no line is ahead. -/
theorem step_of_ahead_eq_nil (layout : Layout) (h : s.ahead = []) : s.step layout = none := by
  rw [step, List.getElem?_eq_none (List.drop_eq_nil_iff.mp h), Option.map_none]

/-- Each step leaves one line less ahead. -/
theorem length_ahead_of_step (h : s.step layout = some t) :
    t.ahead.length + 1 = s.ahead.length := by
  cases hahead : s.ahead with
  | nil => rw [step_of_ahead_eq_nil layout hahead] at h; cases h
  | cons line rest =>
    rw [step_of_ahead_eq_cons layout hahead] at h
    obtain rfl := Option.some.inj h
    rw [ahead_advance_take, hahead]
    rfl

/-- No scan goes on for ever. -/
theorem wellFounded_step (layout : Layout) :
    WellFounded fun t s : Scan => s.step layout = some t :=
  Subrelation.wf (fun h => Nat.lt_of_succ_le (Nat.le_of_eq (length_ahead_of_step h)))
    (measure fun s : Scan => s.ahead.length).wf

/-- A scan ends in one way only. -/
theorem Ends.unique (h : Ends layout s last) {last' : Scan} (h' : Ends layout s last') :
    last' = last := by
  induction h with
  | done halted =>
    cases h' with
    | done _ => rfl
    | step next _ => rw [halted] at next; cases next
  | step next _ ih =>
    cases h' with
    | done halted => rw [next] at halted; cases halted
    | step next' rest' =>
      obtain rfl := Option.some.inj (next.symm.trans next')
      exact ih rest'

/-- A scan ends with the scenes that it has and those that are read of the lines ahead. -/
theorem exists_ends (layout : Layout) (number : Nat) (s : Scan) :
    ∃ last, Ends layout s last ∧
      last.scenes = s.scenes ++ (readLines layout number s.block s.ahead).scenes := by
  generalize hlines : s.ahead = lines
  induction lines generalizing s number with
  | nil => exact ⟨s, .done (step_of_ahead_eq_nil layout hlines), by simp [readLines]⟩
  | cons line lines ih =>
    have hnext := step_of_ahead_eq_cons layout hlines
    have hahead : (s.take layout line).advance.ahead = lines := by
      rw [ahead_advance_take, hlines]
      rfl
    obtain ⟨last, hends, hscenes⟩ := ih (number + 1) _ hahead
    exact ⟨last, .step hnext hends, hscenes.trans (scenes_take layout number line lines s).symm⟩

end Scan

/-- The scan that erases ends on every text, and with the scenes that are read in one pass. -/
theorem scenes_eq_scan (layout : Layout) (text : String) :
    (WellFounded fun t s : Scan => s.step layout = some t) ∧
      ∃ last, Scan.Ends layout (.start text) last ∧
        (∀ last', Scan.Ends layout (.start text) last' → last' = last) ∧
        scenes layout text = last.scenes := by
  obtain ⟨last, hends, hscenes⟩ := Scan.exists_ends layout 1 (.start text)
  exact ⟨Scan.wellFounded_step layout, last, hends, fun _ => hends.unique, hscenes.symm⟩

end VisualNovel.Scenario
