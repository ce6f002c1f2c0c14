import VisualNovel.Proofs.Disk.Listing

/-!
# Changes elsewhere

What is made or written in one directory spares the directories beside it: what lies below them
stays as it is, and so do the ways that lead there.
-/

namespace VisualNovel.Disk

variable {d d' d'' : Disk} {l r : Location} {root a b : String} {new : Option Tree}

/-- Where neither of two locations lies below the other, what is put to one of them leaves what
is below the other one. -/
theorem below?_set_of_apart {other : Location} (h : ¬ l <+: other) (h' : ¬ other <+: l) (d : Disk)
    (new : Option Tree) : (d.set new l).below? other = d.below? other := by
  induction l generalizing d other with
  | nil => simp at h
  | cons name l ih =>
    cases other with
    | nil => simp at h'
    | cons first other =>
      by_cases hname : name = first
      · subst hname
        have hrest : ¬ l <+: other := fun hp => h (by simpa using hp)
        have hrest' : ¬ other <+: l := fun hp => h' (by simpa using hp)
        have hl : l ≠ [] := fun he => hrest (he ▸ List.nil_prefix)
        simp only [set, if_neg hl]
        split
        · next items hget =>
          simpa [below?, hget, Table.get?_insert] using ih hrest hrest' ⟨items⟩
        · rfl
      · simp only [set]
        by_cases hl : l = []
        · simp [below?, hl, Table.get?_set, hname]
        · simp only [if_neg hl]
          split
          · simp [below?, Table.get?_insert, hname]
          · rfl

/-- A change of a disk that leaves what is below a location, and takes no directory away. -/
structure Spares (l : Location) (d d' : Disk) : Prop where
  directories (r : Location) (h : d.item? r = some .directory) : d'.item? r = some .directory
  below_eq : d'.below? l = d.below? l

namespace Spares

theorem refl (l : Location) (d : Disk) : Spares l d d := ⟨fun _ h => h, rfl⟩

/-- Two changes that spare a location spare it together. -/
theorem trans (h : Spares l d d') (h' : Spares l d' d'') : Spares l d d'' :=
  ⟨fun r hr => h'.directories r (h.directories r hr), h'.below_eq.trans h.below_eq⟩

/-- A change beside a location spares it. -/
theorem set (hfile : d.item? r ≠ some .directory) (hnot : ¬ r <+: l) (hnot' : ¬ l <+: r) :
    Spares l d (d.set new r) :=
  ⟨fun _ => item?_set_of_directory new hfile, below?_set_of_apart hnot hnot' d new⟩

/-- A change that spares a location leaves the directories where they are. -/
theorem directoryAt (h : Spares l d d') (hroot : d.DirectoryAt root r) :
    d'.DirectoryAt root r :=
  ⟨hroot.leads.of_directories h.directories, h.directories r hroot.directory⟩

/-- A change that spares the location of a path leaves disks that are alike there. -/
theorem alike {path : String} (h : Spares l d d') (hl : d.resolve path = .ok l) :
    Alike path d d' :=
  ⟨l, hl, resolve_eq_of_directories h.directories hl, h.below_eq⟩

/-- What is put into a directory spares the one beside it. -/
theorem set_beside {more : Location} (hne : b ≠ a)
    (hfile : d.item? (r ++ b :: more) ≠ some .directory) :
    Spares (r ++ [a]) d (d.set new (r ++ b :: more)) :=
  .set hfile (not_prefix_of_ne hne r more []) (not_prefix_of_ne hne.symm r [] more)

end Spares

/-- What names lead to a directory begin at one. -/
theorem Leads.directory {names : List String} (h : d.Leads l names r)
    (hr : d.item? r = some .directory) : d.item? l = some .directory := by
  cases h with
  | done _ => exact hr
  | stay hdirectory _ => exact hdirectory
  | up hdirectory _ _ => exact hdirectory
  | down hdirectory _ _ _ _ => exact hdirectory

/-- Where all directories of a way are there, none is made. -/
theorem createAlong_append {names more : List String} (h : d.Leads l names r)
    (hr : d.item? r = some .directory) :
    d.createAlong l (names ++ more) = d.createAlong r more := by
  induction h with
  | done _ => rfl
  | stay _ _ ih =>
    rw [List.cons_append, createAlong, if_pos rfl]
    exact ih hr
  | up _ hinside _ ih =>
    rw [List.cons_append, createAlong, if_neg (by decide), if_pos rfl, if_neg hinside]
    exact ih hr
  | down _ hhere habove _ hrest ih =>
    rw [List.cons_append, createAlong, if_neg hhere, if_neg habove, hrest.directory hr]
    exact ih hr

/-- A directory that is made in another one spares those beside it. -/
theorem spares_createDirectories (hroot : d.DirectoryAt root r) (hb : Path.IsPlain b)
    (hne : b ≠ a) :
    Spares (r ++ [a]) d (d.createDirectories (Path.join root b)).1 := by
  rw [createDirectories]
  split
  · exact .refl _ d
  · split
    · exact .refl _ d
    · rw [Path.components_join hb, createAlong_append hroot.leads hroot.directory,
        createAlong, if_neg hb.ne_here, if_neg hb.ne_above]
      split
      · exact .refl _ d
      · exact .refl _ d
      · next hmissing =>
        have hfile : d.item? (r ++ [b]) ≠ some .directory := by
          rw [hmissing]
          simp
        split
        · exact .refl _ d
        · split
          · exact .set_beside hne hfile
          · exact .refl _ d

/-- The path of a file in a directory that lies in another one. -/
theorem eq_of_resolve_join_join {name : String} (hroot : d.DirectoryAt root r)
    (hb : Path.IsPlain b) (hname : Path.IsPlain name)
    (h : d.resolve (Path.join (Path.join root b) name) = .ok l) : l = r ++ [b, name] := by
  obtain ⟨m, ⟨hleads, _⟩, rfl⟩ := exists_of_resolve_join hname h
  rw [Path.components_join hb] at hleads
  obtain ⟨r', hdir, hlast⟩ := hleads.exists_of_append
  obtain rfl := hroot.leads.unique hdir
  obtain ⟨_, rfl⟩ := hlast.eq_append hb
  simp

/-- A file that is written in one directory leaves what is below the one beside it. -/
theorem spares_writeText {name text : String} (hroot : d.DirectoryAt root r)
    (hb : Path.IsPlain b) (hname : Path.IsPlain name) (hne : b ≠ a)
    (h : d.writeText (Path.join (Path.join root b) name) text = .ok d') :
    Spares (r ++ [a]) d d' := by
  obtain ⟨l, hl, hfile, rfl⟩ := writeText_eq_ok_iff.mp h
  obtain rfl := eq_of_resolve_join_join hroot hb hname hl
  exact .set_beside hne hfile

/-- A file that is removed from one directory leaves what is below the one beside it. -/
theorem spares_removeFile {name : String} (hroot : d.DirectoryAt root r)
    (hb : Path.IsPlain b) (hname : Path.IsPlain name) (hne : b ≠ a)
    (h : d.removeFile (Path.join (Path.join root b) name) = .ok d') :
    Spares (r ++ [a]) d d' := by
  obtain ⟨l, content, hl, hitem, rfl⟩ := removeFile_eq_ok_iff.mp h
  obtain rfl := eq_of_resolve_join_join hroot hb hname hl
  have hfile : d.item? (r ++ [b, name]) ≠ some .directory := by
    rw [hitem]
    simp
  exact .set_beside hne hfile

end VisualNovel.Disk
