import VisualNovel.Scene
import VisualNovel.Scenario.Field
import VisualNovel.Text.Lines

/-!
# Reading scenarios

A scenario is a sequence of blocks between a start and an end marker. Inside a
block the meaning of a line is its position alone: the header, four speakers, the
line of the main character, four choices, and in the advanced layout an overlay.
A line that does not fit its position is skipped and reported; it still takes up
the position.
-/

namespace VisualNovel.Scenario

/-- The position of the main character's line. -/
def mainPosition : Nat := 5

/-- The position of the overlay, which only the advanced layout has. -/
def overlayPosition : Nat := 10

/-- The header of a block: backdrop, its overlay in the advanced layout, music and sound. -/
def readHeader (layout : Layout) (scene : Scene) : List String → Option Scene
  | [background, overlay, music, sound] =>
    if layout.isAdvanced then
      some { scene with
        background := readField background
        backgroundOverlay := readField overlay
        music := readField music
        sound := readField sound }
    else none
  | [background, music, sound] =>
    some { scene with
      background := readField background
      music := readField music
      sound := readField sound }
  | _ => none

/-- A speaker: name, body and line, and in the advanced layout three more parts. -/
def readSpeaker (layout : Layout) (speaker : Speaker) : List String → Option Speaker
  | name :: texture :: line :: more =>
    let speaker := { speaker with
      name := readField name
      texture := readField texture
      line := readField line }
    match layout, more with
    | .advanced, left :: right :: head :: _ =>
      some { speaker with
        textureLeft := readField left
        textureRight := readField right
        textureHead := readField head }
    | _, _ => some speaker
  | _ => none

/-- A choice: its label and the scenario it leads to. -/
def readChoice : List String → Option Choice
  | [label, target] => some ⟨readField label, readField target⟩
  | _ => none

/-- A line that is one field. -/
def readSingle : List String → Option (Option String)
  | [field] => some (readField field)
  | _ => none

/-- What a line at a position of the block adds to the scene, if it fits there. -/
def applyLine (layout : Layout) (position : Nat) (fields : List String) (scene : Scene) :
    Option Scene :=
  match position with
  | 0 => readHeader layout scene fields
  | 1 => (readSpeaker layout scene.speakers.first fields).map fun s =>
      { scene with speakers := { scene.speakers with first := s } }
  | 2 => (readSpeaker layout scene.speakers.second fields).map fun s =>
      { scene with speakers := { scene.speakers with second := s } }
  | 3 => (readSpeaker layout scene.speakers.third fields).map fun s =>
      { scene with speakers := { scene.speakers with third := s } }
  | 4 => (readSpeaker layout scene.speakers.fourth fields).map fun s =>
      { scene with speakers := { scene.speakers with fourth := s } }
  | 5 => (readSingle fields).map fun line => { scene with mainLine := line }
  | 6 => (readChoice fields).map fun c =>
      { scene with choices := { scene.choices with first := c } }
  | 7 => (readChoice fields).map fun c =>
      { scene with choices := { scene.choices with second := c } }
  | 8 => (readChoice fields).map fun c =>
      { scene with choices := { scene.choices with third := c } }
  | 9 => (readChoice fields).map fun c =>
      { scene with choices := { scene.choices with fourth := c } }
  | 10 =>
    if layout.isAdvanced then
      (readSingle fields).map fun overlay => { scene with overlay }
    else none
  | _ => none

/-- A line that did not fit its position. -/
structure SkippedLine where
  number : Nat
  position : Nat
  fieldCount : Nat
deriving DecidableEq, Repr

/-- What was read from a text. -/
structure Reading where
  scenes : List Scene
  skipped : List SkippedLine
  unterminated : Nat
deriving DecidableEq, Repr

/-- A block that has been opened: the scene so far and the position of the next line. -/
structure Block where
  scene : Scene
  position : Nat
deriving DecidableEq, Repr

/-- A block before its first line. -/
def Block.start : Block := ⟨.blank, 0⟩

/-- Takes one line of an open block; the second part is the line if it was skipped. -/
def Block.take (layout : Layout) (number : Nat) (line : String) (block : Block) :
    Block × Option SkippedLine :=
  let fields := splitFields line
  match applyLine layout block.position fields block.scene with
  | some scene => (⟨scene, block.position + 1⟩, none)
  | none => (⟨block.scene, block.position + 1⟩, some ⟨number, block.position, fields.length⟩)

/-- Reads lines, of which the first has the given number, with the block that is open. -/
def readLines (layout : Layout) : Nat → Option Block → List String → Reading
  | _, block, [] => ⟨[], [], if block.isSome then 1 else 0⟩
  | number, block, line :: rest =>
    if line = startMarker then
      readLines layout (number + 1) (some (block.getD .start)) rest
    else if line = endMarker then
      let reading := readLines layout (number + 1) none rest
      { reading with scenes := (block.map (·.scene)).toList ++ reading.scenes }
    else match block with
      | none => readLines layout (number + 1) none rest
      | some block =>
        let (block, skipped) := block.take layout number line
        let reading := readLines layout (number + 1) (some block) rest
        { reading with skipped := skipped.toList ++ reading.skipped }

/-- Reads a scenario. -/
def read (layout : Layout) (text : String) : Reading :=
  readLines layout 1 none (Text.lines text)

/-- The scenes of a scenario. -/
def scenes (layout : Layout) (text : String) : List Scene :=
  (read layout text).scenes

end VisualNovel.Scenario
