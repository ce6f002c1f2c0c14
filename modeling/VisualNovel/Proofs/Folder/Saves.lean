import VisualNovel.Folder.Saves
import VisualNovel.Proofs.Disk.Spared

/-!
# Saves beside each other

A save is read back as it was written, and it stays so while saves are written and deleted
under other names. What a player calls a save never leads out of the folder of saves, and two
names are kept in the same file only if the same is made of both.
-/

namespace VisualNovel.SaveFolder

variable {f : SaveFolder} {disk disk' : Disk} {a b name text : String} {record : SaveRecord}

/-- What is made of a name has no slash. -/
theorem not_mem_keyOf (name : String) : '/' ∉ (keyOf name).toList := by
  rw [keyOf]
  split
  · decide
  · rw [String.toList_ofList, List.mem_map]
    rintro ⟨c, _, hc⟩
    split at hc
    · cases hc
    · next hkept =>
      subst hc
      exact hkept (by decide)

/-- The name of the file of a save. -/
def fileOf (name : String) : String := keyOf name ++ "." ++ fileExtension

/-- The path of a save is that of its file in the folder. -/
theorem path_eq (f : SaveFolder) (name : String) : f.path name = Path.join f.dir (fileOf name) :=
  rfl

/-- The file of a save is called by its key, with the extension behind it. -/
theorem toList_fileOf (name : String) :
    (fileOf name).toList = (keyOf name).toList ++ ".savegame".toList := by
  simp [fileOf, fileExtension]

/-- The file of a save has a plain name. -/
theorem isPlain_fileOf (name : String) : Path.IsPlain (fileOf name) := by
  have hlength : 9 ≤ (fileOf name).toList.length := by
    rw [toList_fileOf, List.length_append]
    exact Nat.le_add_left _ _
  constructor
  case uncut =>
    rw [toList_fileOf, List.mem_append, not_or]
    exact ⟨not_mem_keyOf name, by decide⟩
  all_goals
    intro h
    rw [h] at hlength
    exact absurd hlength (by decide)

/-- Names of which different keys are made have different files. -/
theorem fileOf_ne (h : keyOf a ≠ keyOf b) : fileOf a ≠ fileOf b := by
  intro hsame
  apply h
  have hlist := congrArg String.toList hsame
  rw [toList_fileOf, toList_fileOf] at hlist
  exact String.toList_inj.mp (List.append_cancel_right hlist)

/-- A text that can be read is what is loaded. -/
theorem load_of_readText (h : disk.readText (f.path name) = .ok text) :
    f.load disk name = SaveRecord.ofText text := by
  have hcontains : f.contains disk name = true := Disk.contains_of_readText h
  rw [load, if_pos hcontains, h]

/-- A save that was written stands in its file. -/
theorem readText_of_save {path : String} (h : f.save disk name record = (disk', .ok path)) :
    disk'.readText (f.path name) = .ok record.toText := by
  rw [save] at h
  split at h
  · cases h
  · split at h
    · next hwrite =>
      obtain ⟨rfl, _⟩ := Prod.mk.inj h
      exact Disk.readText_of_writeText hwrite
    · cases h

/-- A folder with something in it is not made again. -/
theorem ensure_eq_of_readText (h : disk.readText (f.path name) = .ok text) :
    f.ensure disk = (disk, .ok ()) := by
  obtain ⟨l, hl, _⟩ := Disk.readText_eq_ok_iff.mp h
  rw [ensure]
  by_cases hdir : f.dir = ""
  · rw [hdir]
    rfl
  · rw [if_pos (Disk.contains_of_resolve_join (isPlain_fileOf name) hdir hl)]

/-- A save that is written again, even under another name for its file, stays as it is. -/
theorem readText_save_of_eq (heq : keyOf b = keyOf a)
    (h : disk.readText (f.path a) = .ok record.toText) :
    (f.save disk b record).1.readText (f.path a) = .ok record.toText := by
  have hpath : f.path b = f.path a := by rw [path, path, heq]
  rw [save, ensure_eq_of_readText h]
  dsimp only
  cases hwrite : disk.writeText (f.path b) record.toText with
  | error reason => exact h
  | ok disk' =>
    rw [hpath] at hwrite
    exact Disk.readText_of_writeText hwrite

/-- Another save may be written, or not. -/
theorem readText_save_of_ne (hne : keyOf b ≠ keyOf a)
    (h : disk.readText (f.path a) = .ok text) (record : SaveRecord) :
    (f.save disk b record).1.readText (f.path a) = .ok text := by
  rw [save, ensure_eq_of_readText h]
  dsimp only
  cases hwrite : disk.writeText (f.path b) record.toText with
  | error reason => exact h
  | ok disk' =>
    obtain ⟨l, hl, hfile, rfl⟩ := Disk.writeText_eq_ok_iff.mp hwrite
    exact Disk.readText_set_join (isPlain_fileOf b) (isPlain_fileOf a) (fileOf_ne hne) hl hfile h

/-- Another save may be deleted. -/
theorem readText_delete_of_ne (hne : keyOf b ≠ keyOf a)
    (h : disk.readText (f.path a) = .ok text) (hdelete : f.delete disk b = .ok disk') :
    disk'.readText (f.path a) = .ok text := by
  rw [delete] at hdelete
  split at hdelete
  · split at hdelete
    · next hremove =>
      cases hdelete
      obtain ⟨l, content, hl, hitem, rfl⟩ := Disk.removeFile_eq_ok_iff.mp hremove
      have hfile : disk.item? l ≠ some .directory := by
        rw [hitem]
        simp
      exact Disk.readText_set_join (isPlain_fileOf b) (isPlain_fileOf a) (fileOf_ne hne) hl hfile h
    · cases hdelete
  · cases hdelete
    exact h

section Spared

variable {root dir other : String} {r : Location}

/-- Making the folder leaves what is below the directories beside it. -/
theorem spares_ensure (hdir : f.dir = Path.join root dir) (hplain : Path.IsPlain dir)
    (hne : dir ≠ other) (hroot : disk.DirectoryAt root r) :
    Disk.Spares (r ++ [other]) disk (f.ensure disk).1 := by
  rw [ensure, hdir]
  split
  · exact .refl _ disk
  · have hmade := Disk.spares_createDirectories hroot hplain hne
    generalize disk.createDirectories (Path.join root dir) = result at hmade ⊢
    obtain ⟨made, _ | _⟩ := result
    · exact hmade
    · exact hmade

/-- A save spares the directories beside that of the saves. -/
theorem spares_save (hdir : f.dir = Path.join root dir) (hplain : Path.IsPlain dir)
    (hne : dir ≠ other) (hroot : disk.DirectoryAt root r) (name : String) (record : SaveRecord) :
    Disk.Spares (r ++ [other]) disk (f.save disk name record).1 := by
  have hensure := spares_ensure hdir hplain hne hroot
  rw [save]
  generalize f.ensure disk = result at hensure ⊢
  obtain ⟨made, _ | _⟩ := result
  · exact hensure
  · dsimp only
    split
    · next written hwrite =>
      rw [path_eq, hdir] at hwrite
      exact hensure.trans
        (Disk.spares_writeText (hensure.directoryAt hroot) hplain (isPlain_fileOf name) hne hwrite)
    · exact hensure

/-- Deleting a save leaves what is below the directories beside the folder. -/
theorem spares_delete (hdir : f.dir = Path.join root dir) (hplain : Path.IsPlain dir)
    (hne : dir ≠ other) (hroot : disk.DirectoryAt root r) {name : String}
    (h : f.delete disk name = .ok disk') : Disk.Spares (r ++ [other]) disk disk' := by
  rw [delete] at h
  split at h
  · split at h
    · next hremove =>
      cases h
      rw [path_eq, hdir] at hremove
      exact Disk.spares_removeFile hroot hplain (isPlain_fileOf name) hne hremove
    · cases h
  · cases h
    exact .refl _ disk

end Spared

end VisualNovel.SaveFolder
