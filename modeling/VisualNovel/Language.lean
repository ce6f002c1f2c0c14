import VisualNovel.Disk.Basic
import VisualNovel.Text.Lines

/-!
# Languages

The captions of the menus can be shown in other languages. A language file names
the language and its code page in its first two lines, and then has a caption, an
equals sign and the words for it in each line; other lines are passed over.
-/

namespace VisualNovel

/-- The words of a language for the captions. -/
structure Language where
  name : String
  codePage : String
  words : Registry String

namespace Language

/-- A caption and the words for it. -/
def entryOf? (line : String) : Option (String × String) :=
  match Text.split '=' line with
  | [caption, words] => some (caption, words)
  | _ => none

/-- A line without an equals sign. -/
def plainLine? (line : String) : Option String :=
  match Text.split '=' line with
  | [value] => some value
  | _ => none

/-- The language that a text describes. -/
def ofText? (text : String) : Option Language :=
  match Text.lines text with
  | first :: second :: rest =>
    let words := Table.ofList (rest.filterMap entryOf?)
    if words.isEmpty then none
    else do return { name := ← plainLine? first, codePage := ← plainLine? second, words }
  | _ => none

/-- The words for a caption, or the caption itself. -/
def translate (l : Language) (caption : String) : String := (l.words.get? caption).getD caption

/-- The number of captions. -/
def size (l : Language) : Nat := l.words.size

end Language

/-- All languages of a game. -/
structure Languages where
  all : List Language

namespace Languages

/-- No languages. -/
def empty : Languages := ⟨[]⟩

/-- The extension of a language file. -/
def fileExtension : String := "lang"

/-- The languages of the files in a directory; files that describe none are passed over. -/
def load (disk : Disk) (dir : String) : Languages :=
  ⟨(disk.filesWith dir [fileExtension]).filterMap fun name =>
    match disk.readText (Path.join dir name) with
    | .ok text => Language.ofText? text
    | .error _ => none⟩

/-- The names of the languages. -/
def names (ls : Languages) : List String := ls.all.map (·.name)

/-- The first language with a name. -/
def find? (ls : Languages) (name : String) : Option Language := ls.all.find? (·.name == name)

/-- The words of a language for a caption, or the caption itself. -/
def translate (ls : Languages) (language : Option String) (caption : String) : String :=
  match language.bind ls.find? with
  | some l => l.translate caption
  | none => caption

end Languages

end VisualNovel
