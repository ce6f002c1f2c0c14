import VisualNovel.Text.Split

/-!
# Paths

A path is a text of names with slashes between them. Paths are joined without
being normalised; a name is split into stem and extension at its last point,
unless that point is its first character.
-/

namespace VisualNovel.Path

/-- Whether a path begins at the root of the file system. -/
def isAbsolute (path : String) : Bool := path.toList.head? == some '/'

/-- A path continued by another one; one that begins at the root stands alone. -/
def join (base path : String) : String :=
  if isAbsolute path || base = "" then path
  else if base.toList.getLast? = some '/' then base ++ path
  else base ++ "/" ++ path

/-- The names of a path. -/
def components (path : String) : List String := (Text.split '/' path).filter (· ≠ "")

/-- What a path says, however it is spelled: whether it begins at the root, and its names. A
single point says nothing, unless the path begins with it. -/
def meaning (path : String) : Bool × List String :=
  match components path with
  | [] => (isAbsolute path, [])
  | c :: cs =>
    (isAbsolute path,
      (if c = "." && isAbsolute path then [] else [c]) ++ cs.filter (· ≠ "."))

/-- Whether two paths say the same. -/
def same (a b : String) : Bool := meaning a == meaning b

/-- The last name of a path, unless the path ends by going up. -/
def fileName? (path : String) : Option String :=
  ((components path).filter (· ≠ ".")).getLast?.filter (· ≠ "..")

/-- A name cut at its last point: the stem, and the extension if there is one. -/
def cutName (name : String) : String × Option String :=
  match Text.cutAtLast '.' name.toList with
  | none | some ([], _) => (name, none)
  | some (stem, extension) => (String.ofList stem, some (String.ofList extension))

/-- The stem of the last name of a path. -/
def stem? (path : String) : Option String := (fileName? path).map fun name => (cutName name).1

/-- The extension of a name. -/
def extension? (name : String) : Option String := (cutName name).2

/-- A text with its Latin capital letters made small. -/
def lowerLatin (s : String) : String := String.ofList (s.toList.map Char.toLower)

/-- Whether a name has one of some extensions, in small or capital letters. -/
def hasExtension (extensions : List String) (name : String) : Bool :=
  (extension? name).any fun e => extensions.contains (lowerLatin e)

end VisualNovel.Path
