import VisualNovel.Text.Split

/-!
# Fields of a scenario line

A line is a list of fields with colons between them, and the word `NONE` in a
field says that nothing is there.
-/

namespace VisualNovel.Scenario

/-- The character between two fields of a line. -/
def separator : Char := ':'

/-- What is written in the place of an absent value. -/
def absent : String := "NONE"

/-- The line that opens a block. -/
def startMarker : String := "[scene_start]"

/-- The line that closes a block. -/
def endMarker : String := "[scene_end]"

/-- The fields of a line; an empty field at the very end does not count. -/
def splitFields (line : String) : List String :=
  let fields := Text.split separator line
  if fields.getLast? = some "" then fields.dropLast else fields

/-- A line made of fields. -/
def joinFields (fields : List String) : String :=
  Text.join separator fields

/-- The value that a field stands for. -/
def readField (field : String) : Option String :=
  if field = absent then none else some field

/-- The field that stands for a value. -/
def writeField (value : Option String) : String :=
  value.getD absent

/-- Only the text that stands for nothing is not read back. -/
theorem readField_writeField {v : Option String} :
    readField (writeField v) = v ↔ v ≠ some absent := by
  cases v with
  | none => simp [readField, writeField]
  | some s => by_cases h : s = absent <;> simp [readField, writeField, h]

end VisualNovel.Scenario
