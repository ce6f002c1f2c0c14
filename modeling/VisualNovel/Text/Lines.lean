import VisualNovel.Text.Split

/-!
# Lines

A text is cut into lines at line feeds. One carriage return directly before a
line feed belongs to the line end; a last line without a line feed keeps its
carriage return. Nothing after the last line feed is no line.
-/

namespace VisualNovel.Text

/-- A terminated line without the carriage return that belongs to its end. -/
def dropReturn (line : List Char) : List Char :=
  if line.getLast? = some '\r' then line.dropLast else line

/-- The lines that the pieces between line feeds stand for. -/
def linesOfPieces : List (List Char) → List (List Char)
  | [] => []
  | [p] => if p = [] then [] else [p]
  | p :: q :: ps => dropReturn p :: linesOfPieces (q :: ps)

/-- The lines of a list of characters. -/
def lineChars (cs : List Char) : List (List Char) :=
  linesOfPieces (pieces '\n' cs)

/-- The lines of a text. -/
def lines (s : String) : List String :=
  (lineChars s.toList).map String.ofList

/-- The lines with a line feed after each. -/
def unlines (ls : List String) : String :=
  String.join (ls.map (· ++ "\n"))

end VisualNovel.Text
