import VisualNovel.Disk.Path
import VisualNovel.Disk.Tree

/-!
# Disks

Paths on a disk are followed name by name, so that a path through something that is
no directory leads nowhere. What is changed is a new disk, and a change that fails
says why. A directory can be made together with those that are missing above it.
-/

namespace VisualNovel

/-- Why something cannot be done on a disk. -/
inductive DiskError where
  | notFound
  | notDirectory
  | isDirectory
  | badName
  | outside
  | notText
deriving DecidableEq, Repr

namespace Disk

/-- The most bytes that a name can have. -/
def maxNameBytes : Nat := 255

/-- The most bytes that a path can have. -/
def maxPathBytes : Nat := 4095

/-- Whether a name can be the name of an item. -/
def isName (name : String) : Bool :=
  name.utf8ByteSize ≤ maxNameBytes && !name.toList.contains '\x00'

/-- The location that names lead to from a location. All but the last one have to lead to
something that is there. -/
def walk (d : Disk) (l : Location) : List String → Except DiskError Location
  | [] => .ok l
  | name :: names =>
    match d.item? l with
    | none => .error .notFound
    | some (.file _) => .error .notDirectory
    | some .directory =>
      if name = "." then d.walk l names
      else if name = ".." then
        if l = [] then .error .outside else d.walk l.dropLast names
      else if isName name then d.walk (l ++ [name]) names
      else .error .badName

/-- The names of a path that can be followed; a slash at the end asks for a directory. -/
def steps (path : String) : Except DiskError (List String) :=
  if path = "" then .error .notFound
  else if path.utf8ByteSize > maxPathBytes || path.toList.contains '\x00' then .error .badName
  else if Path.isAbsolute path then .error .outside
  else if path.toList.getLast? = some '/' then .ok (Path.components path ++ ["."])
  else .ok (Path.components path)

/-- The location that a path leads to. -/
def resolve (d : Disk) (path : String) : Except DiskError Location := do
  d.walk [] (← steps path)

/-- What there is at a path. -/
def find? (d : Disk) (path : String) : Option Item :=
  match d.resolve path with
  | .ok l => d.item? l
  | .error _ => none

/-- Whether there is anything at a path. -/
def contains (d : Disk) (path : String) : Bool := (d.find? path).isSome

/-- Whether there is a directory at a path. -/
def isDirectory (d : Disk) (path : String) : Bool := d.find? path == some .directory

/-- Whether there is a file at a path. -/
def isFile (d : Disk) (path : String) : Bool :=
  match d.find? path with
  | some (.file _) => true
  | _ => false

/-- The text of the file at a path. -/
def readText (d : Disk) (path : String) : Except DiskError String := do
  match d.item? (← d.resolve path) with
  | none => throw .notFound
  | some .directory => throw .isDirectory
  | some (.file (.text s)) => return s
  | some (.file _) => throw .notText

/-- Writes a text to the file at a path, which may be new. -/
def writeText (d : Disk) (path text : String) : Except DiskError Disk := do
  let l ← d.resolve path
  match d.item? l with
  | some .directory => throw .isDirectory
  | _ => return d.set (some (.file (.text text))) l

/-- Removes the file at a path. -/
def removeFile (d : Disk) (path : String) : Except DiskError Disk := do
  let l ← d.resolve path
  match d.item? l with
  | none => throw .notFound
  | some .directory => throw .isDirectory
  | some (.file _) => return d.set none l

/-- Follows names from the directory at a location and makes the directories that are missing
on the way. A missing one behind which only points come is not made. What was made before
something failed stays. -/
def createAlong (d : Disk) (l : Location) : List String → Disk × Except DiskError Unit
  | [] => (d, .ok ())
  | name :: names =>
    if name = "." then d.createAlong l names
    else if name = ".." then
      if l = [] then (d, .error .outside) else d.createAlong l.dropLast names
    else match d.item? (l ++ [name]) with
      | some .directory => d.createAlong (l ++ [name]) names
      | some (.file _) => (d, .error .notDirectory)
      | none =>
        if names ≠ [] && names.all (· = ".") then (d, .error .notFound)
        else if isName name then
          (d.set (some (.directory .empty)) (l ++ [name])).createAlong (l ++ [name]) names
        else (d, .error .badName)

/-- Makes a directory and all that are missing above it. -/
def createDirectories (d : Disk) (path : String) : Disk × Except DiskError Unit :=
  if path = "" then (d, .ok ())
  else match steps path with
    | .error e => (d, .error e)
    | .ok _ => d.createAlong [] (Path.components path)

/-- The items of the directory at a path; nothing, if there is no directory. -/
def list (d : Disk) (path : String) : List (String × Item) :=
  match d.resolve path with
  | .ok l => d.children l
  | .error _ => []

/-- The names of the files of a directory that have one of some extensions. -/
def filesWith (d : Disk) (path : String) (extensions : List String) : List String :=
  (d.list path).filterMap fun (name, item) =>
    match item with
    | .file _ => if Path.hasExtension extensions name then some name else none
    | .directory => none

end Disk

end VisualNovel
