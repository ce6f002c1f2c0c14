import VisualNovel.Disk.Basic
import VisualNovel.Failure
import VisualNovel.Text.Blank

/-!
# The folder of saves

Every save is a file of its own directly inside the folder. What a player calls a
save is made into the name of a file by replacing the characters that mean
something in a path; a name of which nothing but points is left belongs to the
automatic save.
-/

namespace VisualNovel

/-- The folder that holds the saves of a game. -/
structure SaveFolder where
  dir : String
deriving DecidableEq, Repr

/-- What a list of saves shows of one. -/
structure SaveInfo where
  name : String
  position : Position
deriving DecidableEq, Repr

namespace SaveFolder

/-- The extension of a save file. -/
def fileExtension : String := "savegame"

/-- The name of the automatic save. -/
def autosaveName : String := "autosave"

/-- The characters that cannot stand in the name of a save. -/
def reserved : List Char := ['/', '\\', ':', '*', '?', '"', '<', '>', '|']

/-- The name that a save is kept under. -/
def keyOf (name : String) : String :=
  let cs := (Text.trimChars name.toList).map fun c => if reserved.contains c then '_' else c
  if cs.all (· == '.') then autosaveName else String.ofList cs

/-- The file of a save. -/
def path (f : SaveFolder) (name : String) : String :=
  Path.join f.dir (keyOf name ++ "." ++ fileExtension)

/-- Makes the folder if it is not there. -/
def ensure (f : SaveFolder) (disk : Disk) : Disk × Except SaveError Unit :=
  if disk.contains f.dir then (disk, .ok ())
  else match disk.createDirectories f.dir with
    | (disk, .ok ()) => (disk, .ok ())
    | (disk, .error _) => (disk, .error (.fileTrouble .makeFolder))

/-- Keeps a save under a name and says in which file. -/
def save (f : SaveFolder) (disk : Disk) (name : String) (record : SaveRecord) :
    Disk × Except SaveError String :=
  match f.ensure disk with
  | (disk, .error e) => (disk, .error e)
  | (disk, .ok ()) =>
    match disk.writeText (f.path name) record.toText with
    | .ok disk => (disk, .ok (f.path name))
    | .error _ => (disk, .error (.fileTrouble .write))

/-- Keeps the automatic save. -/
def autosave (f : SaveFolder) (disk : Disk) (record : SaveRecord) :
    Disk × Except SaveError String :=
  f.save disk autosaveName record

/-- Whether there is a save under a name. -/
def contains (f : SaveFolder) (disk : Disk) (name : String) : Bool := disk.contains (f.path name)

/-- The save under a name. -/
def load (f : SaveFolder) (disk : Disk) (name : String) : Except SaveError SaveRecord :=
  if f.contains disk name then
    match disk.readText (f.path name) with
    | .ok text => SaveRecord.ofText text
    | .error _ => .error (.fileTrouble .read)
  else .error (.notFound (f.path name))

/-- Removes the save under a name, if there is one. -/
def delete (f : SaveFolder) (disk : Disk) (name : String) : Except SaveError Disk :=
  if f.contains disk name then
    match disk.removeFile (f.path name) with
    | .ok disk => .ok disk
    | .error _ => .error (.fileTrouble .delete)
  else .ok disk

/-- The names of all saves, in the order of their files. -/
def list (f : SaveFolder) (disk : Disk) : List String :=
  (disk.filesWith f.dir [fileExtension]).map fun name => (Path.cutName name).1

/-- What a list of saves shows of one; nothing if it cannot be continued. -/
def info? (f : SaveFolder) (disk : Disk) (name : String) : Option SaveInfo :=
  match (f.load disk name).bind SaveRecord.toPosition with
  | .ok position => some ⟨name, position⟩
  | .error _ => none

/-- The name of a save that the player gives none: the scenario and the moment. -/
def defaultName (scenario stamp : String) : String :=
  (Path.stem? scenario).getD scenario ++ " " ++ stamp

end SaveFolder

end VisualNovel
