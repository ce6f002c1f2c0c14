import Mathlib.Logic.Function.Basic
import VisualNovel.Proofs.Disk.Made
import VisualNovel.Proofs.Folder.Keys
import VisualNovel.Proofs.Save
import VisualNovel.Proofs.Text.Bytes

/-!
# What the folder of saves holds

A folder in which nothing is changed but through saves has exactly one file for every key under
which something is kept, and nothing else. So a name leads to what is kept under its key, and the
list of the saves is the list of the keys. Whatever is done to the folder puts the file of a key
there or takes it away, or it changes nothing.
-/

namespace VisualNovel.SaveFolder

variable {f : SaveFolder} {disk disk' sub sub' : Disk} {l l' r : Location} {name path : String}
  {kept : String → Option SaveRecord} {record : SaveRecord}

/-- The folder is at a location of a disk, with something below. -/
structure OpensAt (f : SaveFolder) (disk : Disk) (l : Location) (sub : Disk) : Prop where
  resolve : disk.resolve f.dir = .ok l
  below : disk.below? l = some sub

namespace OpensAt

/-- The folder is a directory. -/
theorem directory (h : f.OpensAt disk l sub) : disk.item? l = some .directory :=
  (Disk.isSome_below? disk l).mp (Option.isSome_of_eq_some h.below)

/-- The folder is in one place only. -/
theorem unique (h : f.OpensAt disk l sub) (h' : f.OpensAt disk l' sub') : l' = l ∧ sub' = sub := by
  obtain rfl : l' = l := Except.ok.inj (h'.resolve.symm.trans h.resolve)
  exact ⟨rfl, Option.some.inj (h'.below.symm.trans h.below)⟩

/-- A folder that is there is not made again. -/
theorem ensure_eq (h : f.OpensAt disk l sub) : f.ensure disk = (disk, .ok ()) := by
  have hcontains : disk.contains f.dir = true := by
    rw [Disk.contains, Disk.find?, h.resolve]
    simp only [h.directory, Option.isSome_some]
  rw [ensure, if_pos hcontains]

/-- Where the file of a save can be, the folder is there. -/
theorem exists_of_resolve_path (hdir : f.dir ≠ "") (h : disk.resolve (f.path name) = .ok r) :
    ∃ l sub, f.OpensAt disk l sub ∧ r = l ++ [fileOf name] := by
  obtain ⟨l, hl, hdirectory, rfl⟩ :=
    Disk.exists_resolve_of_resolve_join (isPlain_fileOf name) hdir h
  obtain ⟨sub, hsub⟩ := Option.isSome_iff_exists.mp ((Disk.isSome_below? disk l).mpr hdirectory)
  exact ⟨l, sub, ⟨hl, hsub⟩, rfl⟩

/-- The folder is still there after something was put into it or taken away from it. -/
theorem set (h : f.OpensAt disk l sub) {file : String}
    (hfile : disk.item? (l ++ [file]) ≠ some .directory) (new : Option Tree) :
    f.OpensAt (disk.set new (l ++ [file])) l ⟨sub.items.set file new⟩ :=
  ⟨Disk.resolve_set hfile h.resolve new, Disk.below?_set_concat h.below file new⟩

end OpensAt

/-- The folder is made if it is missing. -/
theorem fst_ensure (f : SaveFolder) (disk : Disk) : (f.ensure disk).1 =
    if disk.contains f.dir then disk else (disk.createDirectories f.dir).1 := by
  rw [ensure]
  split
  · rfl
  · generalize disk.createDirectories f.dir = result
    obtain ⟨made, _ | _⟩ := result <;> rfl

/-- Making the folder again does nothing more. -/
theorem ensure_ensure (f : SaveFolder) (disk : Disk) :
    (f.ensure (f.ensure disk).1).1 = (f.ensure disk).1 := by
  rw [fst_ensure f disk]
  split
  · next hthere => rw [fst_ensure, if_pos hthere]
  · rw [fst_ensure]
    split
    · rfl
    · rw [Disk.createDirectories_createDirectories]

/-- The file that a save is kept in. -/
def treeOf (record : SaveRecord) : Tree := .file (.text record.toText)

/-- On a disk the folder holds saves under keys. -/
structure Holds (f : SaveFolder) (disk : Disk) (kept : String → Option SaveRecord) : Prop where
  /-- What is kept has a key of its own, and stands in the file for it. -/
  stored (key : String) (record : SaveRecord) (h : kept key = some record) :
    keyOf key = key ∧ SaveRecord.ofText record.toText = .ok record ∧
      disk.readText (f.path key) = .ok record.toText
  /-- Whatever the folder has in it, once it is made, belongs to something that is kept. -/
  only (l : Location) (sub : Disk) (h : f.OpensAt (f.ensure disk).1 l sub) :
    sub.items.keys.Nodup ∧ ∀ file t, sub.items.get? file = some t →
      ∃ key record, kept key = some record ∧ file = fileOf key

namespace Holds

/-- What the folder holds stays when the folder is made. -/
theorem ensure (h : f.Holds disk kept) : f.Holds (f.ensure disk).1 kept := by
  constructor
  case stored =>
    intro key record hkey
    obtain ⟨hkeyOf, hread, htext⟩ := h.stored key record hkey
    rw [ensure_eq_of_readText htext]
    exact ⟨hkeyOf, hread, htext⟩
  case only =>
    intro l sub hopen
    rw [ensure_ensure] at hopen
    exact h.only l sub hopen

/-- No two items of the folder have the same name. -/
theorem nodup_keys (h : f.Holds disk kept) (hopen : f.OpensAt disk l sub) :
    sub.items.keys.Nodup :=
  (h.only l sub (by rwa [hopen.ensure_eq])).1

/-- What is in the folder has the file of a key. -/
theorem exists_of_get? (h : f.Holds disk kept) (hopen : f.OpensAt disk l sub) {file : String}
    {t : Tree} (ht : sub.items.get? file = some t) :
    ∃ key record, kept key = some record ∧ file = fileOf key :=
  (h.only l sub (by rwa [hopen.ensure_eq])).2 file t ht

/-- What is kept under the key of a name stands in the file of the name. -/
theorem readText_path (h : f.Holds disk kept) (hkept : kept (keyOf name) = some record) :
    disk.readText (f.path name) = .ok record.toText := by
  obtain ⟨_, _, htext⟩ := h.stored _ record hkept
  rwa [path_keyOf] at htext

/-- What is under the name of a file is the save of its key. -/
theorem get?_fileOf (h : f.Holds disk kept) (hdir : f.dir ≠ "") (hopen : f.OpensAt disk l sub)
    (name : String) : sub.items.get? (fileOf name) = (kept (keyOf name)).map treeOf := by
  cases hkept : kept (keyOf name) with
  | none =>
    rw [Option.map_none, Option.eq_none_iff_forall_ne_some]
    intro t ht
    obtain ⟨key, record, hkey, hfile⟩ := h.exists_of_get? hopen ht
    obtain ⟨hkeyOf, _⟩ := h.stored key record hkey
    have hsame : keyOf name = key := (fileOf_eq_fileOf_iff.mp hfile).trans hkeyOf
    rw [hsame, hkey] at hkept
    cases hkept
  | some record =>
    obtain ⟨r, hr, hitem⟩ := Disk.readText_eq_ok_iff.mp (h.readText_path hkept)
    obtain ⟨l', sub', hopen', rfl⟩ := OpensAt.exists_of_resolve_path hdir hr
    obtain ⟨rfl, rfl⟩ := hopen.unique hopen'
    rw [Disk.item?_concat hopen'.below] at hitem
    obtain ⟨t, ht, hfile⟩ := Option.map_eq_some_iff.mp hitem
    cases t with
    | directory items => cases hfile
    | file content =>
      cases hfile
      exact ht

/-- A file is put into the folder, or taken away from it. -/
theorem set (h : f.Holds disk kept) (hdir : f.dir ≠ "") (hr : disk.resolve (f.path name) = .ok r)
    (hfile : disk.item? r ≠ some .directory) (new : Option SaveRecord)
    (hnew : ∀ record ∈ new, SaveRecord.ofText record.toText = .ok record) :
    f.Holds (disk.set (new.map treeOf) r) (Function.update kept (keyOf name) new) := by
  obtain ⟨l, sub, hopen, rfl⟩ := OpensAt.exists_of_resolve_path hdir hr
  have hopen' := hopen.set hfile (new.map treeOf)
  constructor
  case stored =>
    intro key record hkey
    by_cases hsame : key = keyOf name
    · subst hsame
      rw [Function.update_self] at hkey
      subst hkey
      refine ⟨keyOf_keyOf name, hnew record rfl, ?_⟩
      rw [path_keyOf]
      exact Disk.readText_eq_ok_iff.mpr
        ⟨_, Disk.resolve_set hfile hr _, Disk.item?_set_self hopen.below _ _⟩
    · rw [Function.update_of_ne hsame] at hkey
      obtain ⟨hkeyOf, hread, htext⟩ := h.stored key record hkey
      have hne : keyOf name ≠ keyOf key := by
        rw [hkeyOf]
        exact Ne.symm hsame
      exact ⟨hkeyOf, hread, Disk.readText_set_join (isPlain_fileOf name) (isPlain_fileOf key)
        (fileOf_ne hne) hr hfile htext⟩
  case only =>
    intro l' sub' hopen''
    rw [hopen'.ensure_eq] at hopen''
    obtain ⟨rfl, rfl⟩ := hopen'.unique hopen''
    refine ⟨Table.nodup_keys_set (h.nodup_keys hopen) _ _, fun file t ht => ?_⟩
    rw [Table.get?_set] at ht
    split at ht
    · next hsame =>
      obtain ⟨record, hrecord, _⟩ := Option.map_eq_some_iff.mp ht
      refine ⟨keyOf name, record, ?_, ?_⟩
      · rw [Function.update_self, hrecord]
      · rw [← hsame, fileOf_eq_fileOf_iff, keyOf_keyOf]
    · next hne =>
      obtain ⟨key, record, hkey, rfl⟩ := h.exists_of_get? hopen ht
      have hother : key ≠ keyOf name := by
        rintro rfl
        exact hne (fileOf_eq_fileOf_iff.mpr (keyOf_keyOf name).symm)
      exact ⟨key, record, by rwa [Function.update_of_ne hother], rfl⟩

/-- Where a file is listed, the folder is there. -/
theorem exists_of_mem_filesWith {file : String}
    (h : file ∈ disk.filesWith f.dir [fileExtension]) :
    ∃ l sub, f.OpensAt disk l sub ∧ file ∈ sub.items.keys := by
  obtain ⟨content, hlisted, _⟩ := Disk.mem_filesWith.mp h
  obtain ⟨l, sub, t, hl, hsub, hmem, _⟩ := Disk.exists_of_mem_list hlisted
  exact ⟨l, sub, ⟨hl, hsub⟩, List.mem_map_of_mem hmem⟩

/-- There is one file for every key under which something is kept, and no other file is listed. -/
theorem mem_filesWith (h : f.Holds disk kept) (hdir : f.dir ≠ "") {file : String} :
    file ∈ disk.filesWith f.dir [fileExtension] ↔
      ∃ key, (kept key).isSome = true ∧ file = fileOf key := by
  constructor
  · intro hfile
    obtain ⟨l, sub, hopen, hmem⟩ := exists_of_mem_filesWith hfile
    obtain ⟨⟨_, t⟩, hentry, rfl⟩ := List.mem_map.mp hmem
    obtain ⟨key, record, hkey, hfileOf⟩ := h.exists_of_get? hopen
      ((Table.get?_eq_some_iff (h.nodup_keys hopen)).mpr hentry)
    exact ⟨key, Option.isSome_of_eq_some hkey, hfileOf⟩
  · rintro ⟨key, hkey, rfl⟩
    obtain ⟨record, hrecord⟩ := Option.isSome_iff_exists.mp hkey
    obtain ⟨hkeyOf, _, htext⟩ := h.stored key record hrecord
    obtain ⟨r, hr, _⟩ := Disk.readText_eq_ok_iff.mp htext
    obtain ⟨l, sub, hopen, _⟩ := OpensAt.exists_of_resolve_path hdir hr
    have hget : sub.items.get? (fileOf key) = some (treeOf record) := by
      rw [h.get?_fileOf hdir hopen, hkeyOf, hrecord, Option.map_some]
    have hlisted := (Disk.mem_list_iff hopen.resolve hopen.below (h.nodup_keys hopen)).mpr
      ⟨_, hget, rfl⟩
    exact Disk.mem_filesWith.mpr ⟨_, hlisted, hasExtension_fileOf key⟩

/-- The files are in increasing order. -/
theorem pairwise_filesWith (h : f.Holds disk kept) :
    (disk.filesWith f.dir [fileExtension]).Pairwise (· < ·) := by
  rcases List.eq_nil_or_concat (disk.filesWith f.dir [fileExtension]) with hnil | ⟨_, file, hfiles⟩
  · rw [hnil]
    exact List.Pairwise.nil
  · have hmem : file ∈ disk.filesWith f.dir [fileExtension] := by
      rw [hfiles]
      simp
    obtain ⟨l, sub, hopen, _⟩ := exists_of_mem_filesWith hmem
    exact Disk.pairwise_filesWith hopen.resolve hopen.below (h.nodup_keys hopen) _

/-- A save is kept under its key if it succeeds, and it changes nothing if it fails. -/
theorem save (h : f.Holds disk kept) (hdir : f.dir ≠ "")
    (hrecord : SaveRecord.ofText record.toText = .ok record) (name : String) :
    match f.save disk name record with
    | (disk', .ok _) => f.Holds disk' (Function.update kept (keyOf name) (some record))
    | (disk', .error _) => f.Holds disk' kept := by
  have hmade := h.ensure
  rw [SaveFolder.save]
  generalize f.ensure disk = result at hmade ⊢
  obtain ⟨made, _ | _⟩ := result
  · exact hmade
  · dsimp only
    cases hwrite : made.writeText (f.path name) record.toText with
    | error reason => exact hmade
    | ok disk' =>
      obtain ⟨r, hr, hfile, rfl⟩ := Disk.writeText_eq_ok_iff.mp hwrite
      exact hmade.set hdir hr hfile (some record) (by simpa using hrecord)

end Holds

end VisualNovel.SaveFolder
