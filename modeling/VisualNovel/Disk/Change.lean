import VisualNovel.Disk.Basic

/-!
# Changes of a disk

A program works on a disk of its own and is done when it has another one. What
has to be done to the first to make it the second is a list of changes: new
directories and written files, each directory before what is in it, then the files
that are gone. A disk that stays as it is needs no change.
-/

namespace VisualNovel

/-- Something to be done to a disk. -/
inductive Change where
  | makeDirectory (location : Location)
  | writeText (location : Location) (text : String)
  | removeFile (location : Location)
deriving DecidableEq, Repr

namespace Disk

/-- What an item needs that was not there as it is now. -/
def changeFor? (before : Disk) (location : Location) (item : Item) : Option Change :=
  if before.item? location = some item then none
  else match item with
    | .directory => some (.makeDirectory location)
    | .file (.text s) => some (.writeText location s)
    | .file _ => none

/-- What has to be done to a disk to make it another one. -/
def changes (before after : Disk) : List Change :=
  after.entries.filterMap (fun e => changeFor? before e.1 e.2) ++
    before.entries.filterMap fun e =>
      if (after.item? e.1).isSome then none else some (.removeFile e.1)

/-- An item that was there as it is now needs nothing. -/
theorem changeFor?_eq_none {before : Disk} {location : Location} {item : Item}
    (h : before.item? location = some item) : before.changeFor? location item = none := by
  simp [changeFor?, h]

end Disk

end VisualNovel
