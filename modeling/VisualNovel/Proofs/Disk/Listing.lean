import VisualNovel.Proofs.Disk.Beside
import VisualNovel.Proofs.Table

/-!
# Listed directories

What a directory lists, and what the files in it hold, depends on where its path leads and on
what is below, and on nothing else. Where the names on a disk stand for themselves in a path, a
file that is listed is found under its name.
-/

namespace VisualNovel

namespace Disk

variable {d d' : Disk} {l : Location} {path name : String} {item : Item}

/-- A disk on which every name stands for itself in a path. -/
def Plain (d : Disk) : Prop := ∀ e ∈ d.entries, ∀ name ∈ e.1, Path.IsPlain name

/-- What is in a directory is among the entries of a disk, with all that is below it. -/
theorem mem_entriesAlong {t : Tree} {es : List (String × Tree)} (h : (name, t) ∈ es) :
    (l ++ [name], t.item) ∈ entriesAlong l es ∧
      ∀ e ∈ entriesWithin (l ++ [name]) t, e ∈ entriesAlong l es := by
  induction es with
  | nil => cases h
  | cons e es ih =>
    obtain ⟨first, other⟩ := e
    rw [entriesAlong]
    rcases List.mem_cons.mp h with heq | hrest
    · cases heq
      exact ⟨List.mem_cons_self, fun e he =>
        List.mem_cons_of_mem _ (List.mem_append_left _ he)⟩
    · obtain ⟨hself, hwithin⟩ := ih hrest
      exact ⟨List.mem_cons_of_mem _ (List.mem_append_right _ hself), fun e he =>
        List.mem_cons_of_mem _ (List.mem_append_right _ (hwithin e he))⟩

/-- What a directory has below a location is among all that is on the disk. -/
theorem mem_entriesAlong_of_below? {sub : Disk} {above : Location} {t : Tree}
    (h : d.below? l = some sub) (hmem : (name, t) ∈ sub.items.entries) :
    (above ++ l ++ [name], t.item) ∈ entriesAlong above d.items.entries := by
  induction l generalizing d above with
  | nil =>
    cases h
    rw [List.append_nil]
    exact (mem_entriesAlong hmem).1
  | cons first l ih =>
    rw [below?] at h
    split at h
    · next items hget =>
      obtain ⟨_, hwithin⟩ := mem_entriesAlong (l := above) (Table.mem_of_get? hget)
      apply hwithin
      rw [List.append_cons above first l]
      exact ih h
    · cases h

/-- What is listed lies in a directory. -/
theorem exists_of_mem_list (h : (name, item) ∈ d.list path) :
    ∃ l sub t, d.resolve path = .ok l ∧ d.below? l = some sub ∧
      (name, t) ∈ sub.items.entries ∧ item = t.item := by
  rw [list] at h
  split at h
  · next l hl =>
    rw [children] at h
    split at h
    · next sub hsub =>
      obtain ⟨⟨_, t⟩, ht, heq⟩ := List.mem_map.mp (List.mem_mergeSort.mp h)
      cases heq
      exact ⟨l, sub, t, hl, hsub, ht, rfl⟩
    · cases h
  · cases h

/-- Items that are in order are listed as they are. -/
theorem list_eq_of_sorted {s : Disk} (hl : d.resolve path = .ok l) (hs : d.below? l = some s)
    (hsorted : (s.items.entries.map fun e => (e.1, e.2.item)).Pairwise fun e e' =>
      decide (e.1 ≤ e'.1) = true) :
    d.list path = s.items.entries.map fun e => (e.1, e.2.item) := by
  rw [list, hl]
  dsimp only
  rw [children, hs]
  exact List.mergeSort_of_pairwise hsorted

/-- On a plain disk a directory lists plain names. -/
theorem Plain.of_mem_list (h : d.Plain) (hmem : (name, item) ∈ d.list path) :
    Path.IsPlain name := by
  obtain ⟨l, sub, t, _, hsub, ht, _⟩ := exists_of_mem_list hmem
  exact h _ (mem_entriesAlong_of_below? hsub ht) name (by simp)

/-- What lists something is a directory. -/
theorem isDirectory_of_mem_list (h : (name, item) ∈ d.list path) : d.isDirectory path = true := by
  obtain ⟨l, sub, _, hl, hsub, _⟩ := exists_of_mem_list h
  have hdirectory : d.item? l = some .directory :=
    (isSome_below? d l).mp (Option.isSome_of_eq_some hsub)
  have hfind : d.find? path = some .directory := by
    rw [find?, hl]
    exact hdirectory
  rw [isDirectory, hfind]
  rfl

/-- The files of a directory with an extension are listed. -/
theorem mem_filesWith {extensions : List String} : name ∈ d.filesWith path extensions ↔
    ∃ content, (name, .file content) ∈ d.list path ∧
      Path.hasExtension extensions name = true := by
  rw [filesWith, List.mem_filterMap]
  constructor
  · rintro ⟨⟨other, item⟩, hmem, hfile⟩
    cases item with
    | directory => cases hfile
    | file content =>
      dsimp only at hfile
      split at hfile
      · next hextension =>
        cases hfile
        exact ⟨content, hmem, hextension⟩
      · cases hfile
  · rintro ⟨content, hmem, hextension⟩
    exact ⟨(name, .file content), hmem, if_pos hextension⟩

section Order

variable {sub : Disk}

/-- Where no name is there twice, what has a name is listed with it. -/
theorem mem_list_iff (hl : d.resolve path = .ok l) (hsub : d.below? l = some sub)
    (hnodup : sub.items.keys.Nodup) :
    (name, item) ∈ d.list path ↔ ∃ t, sub.items.get? name = some t ∧ t.item = item := by
  rw [list, hl]
  dsimp only
  rw [children, hsub]
  simp only [List.mem_mergeSort, List.mem_map, Table.get?_eq_some_iff hnodup]
  constructor
  · rintro ⟨⟨first, t⟩, hmem, heq⟩
    cases heq
    exact ⟨t, hmem, rfl⟩
  · rintro ⟨t, hmem, rfl⟩
    exact ⟨_, hmem, rfl⟩

/-- Where no name is there twice, the names are listed in increasing order. -/
theorem pairwise_list (hl : d.resolve path = .ok l) (hsub : d.below? l = some sub)
    (hnodup : sub.items.keys.Nodup) : (d.list path).Pairwise fun e e' => e.1 < e'.1 := by
  rw [list, hl]
  dsimp only
  rw [children, hsub]
  dsimp only
  generalize hentries : (sub.items.entries.map fun e => (e.1, e.2.item)) = entries
  have hkeys : (entries.map (·.1)).Nodup := by
    rw [← hentries, List.map_map]
    exact hnodup
  have hsorted : (entries.mergeSort fun e e' => decide (e.1 ≤ e'.1)).Pairwise
      fun e e' => decide (e.1 ≤ e'.1) = true := by
    apply List.pairwise_mergeSort
    · intro e e' e'' h h'
      exact decide_eq_true (String.le_trans (of_decide_eq_true h) (of_decide_eq_true h'))
    · intro e e'
      simp [String.le_total e.1 e'.1]
  have hdistinct : (entries.mergeSort fun e e' => decide (e.1 ≤ e'.1)).Pairwise
      fun e e' => e.1 ≠ e'.1 := by
    have hperm := (List.mergeSort_perm entries fun e e' => decide (e.1 ≤ e'.1)).map Prod.fst
    exact List.pairwise_map.mp (hperm.nodup_iff.mpr hkeys)
  refine hsorted.imp₂ (fun e e' hle hne => ?_) hdistinct
  exact String.not_le.mp fun hge => hne (String.le_antisymm (of_decide_eq_true hle) hge)

/-- Where no name is there twice, the files with an extension are in increasing order. -/
theorem pairwise_filesWith (hl : d.resolve path = .ok l) (hsub : d.below? l = some sub)
    (hnodup : sub.items.keys.Nodup) (extensions : List String) :
    (d.filesWith path extensions).Pairwise (· < ·) := by
  obtain ⟨f, hf, hname⟩ : ∃ f, d.filesWith path extensions = (d.list path).filterMap f ∧
      ∀ e file, f e = some file → file = e.1 := by
    refine ⟨_, rfl, ?_⟩
    rintro ⟨name, item⟩ file hfile
    cases item with
    | directory => cases hfile
    | file content =>
      dsimp only at hfile
      split at hfile
      · exact (Option.some.inj hfile).symm
      · cases hfile
  rw [hf, List.pairwise_filterMap]
  refine (pairwise_list hl hsub hnodup).imp fun {e e'} hlt file hfile file' hfile' => ?_
  rw [hname e file hfile, hname e' file' hfile']
  exact hlt

end Order

/-- Disks on which a path leads to the same location, with the same below. -/
def Alike (path : String) (d d' : Disk) : Prop :=
  ∃ l, d.resolve path = .ok l ∧ d'.resolve path = .ok l ∧ d'.below? l = d.below? l

namespace Alike

theorem symm (h : Alike path d d') : Alike path d' d := by
  obtain ⟨l, hl, hl', hbelow⟩ := h
  exact ⟨l, hl', hl, hbelow.symm⟩

/-- Disks that are alike at a path list the same there. -/
theorem list_eq (h : Alike path d d') : d'.list path = d.list path := by
  obtain ⟨l, hl, hl', hbelow⟩ := h
  rw [list, list, hl, hl']
  dsimp only
  rw [children, children, hbelow]

/-- Disks that are alike at a path have the same files there. -/
theorem filesWith_eq (h : Alike path d d') (extensions : List String) :
    d'.filesWith path extensions = d.filesWith path extensions := by
  rw [filesWith, filesWith, h.list_eq]

end Alike

/-- A single point leads nowhere else. -/
theorem Leads.eq_of_here {r : Location} (h : d.Leads l ["."] r) : r = l := by
  rw [← walk_eq_ok_iff, walk] at h
  split at h
  · cases h
  · cases h
  · rw [if_pos rfl] at h
    exact (Except.ok.inj h).symm

/-- The names of a path that can be followed lead where the path leads. -/
theorem leads_of_resolve (h : d.resolve path = .ok l) : d.Leads [] (Path.components path) l := by
  obtain ⟨names, hsteps, hleads⟩ := resolve_eq_ok_iff.mp h
  rcases eq_of_steps hsteps with rfl | rfl
  · exact hleads
  · obtain ⟨m, hdir, hlast⟩ := hleads.exists_of_append
    obtain rfl := hlast.eq_of_here
    exact hdir

/-- A file of a directory holds the same on disks that are alike there. -/
theorem Alike.readText_join {text : String} (h : Alike path d d') (hname : Path.IsPlain name)
    (htext : d.readText (Path.join path name) = .ok text) :
    d'.readText (Path.join path name) = .ok text := by
  obtain ⟨l, hl, hl', hbelow⟩ := h
  obtain ⟨r, hr, hitem⟩ := readText_eq_ok_iff.mp htext
  obtain ⟨names, hsteps, hleads⟩ := resolve_eq_ok_iff.mp hr
  obtain rfl := steps_join hname hsteps
  obtain ⟨m, hdir, hlast⟩ := hleads.exists_of_append
  obtain rfl := (leads_of_resolve hl).unique hdir
  obtain ⟨hdirectory, rfl⟩ := hlast.eq_append hname
  obtain ⟨sub, hsub⟩ := Option.isSome_iff_exists.mp ((isSome_below? d m).mpr hdirectory)
  have hsub' : d'.below? m = some sub := hbelow.trans hsub
  have hdirectory' : d'.item? m = some .directory :=
    (isSome_below? d' m).mp (Option.isSome_of_eq_some hsub')
  have hnamed : isName name = true := by
    cases hlast with
    | down _ _ _ hnamed _ => exact hnamed
    | stay _ _ => exact absurd rfl hname.ne_here
    | up _ _ _ => exact absurd rfl hname.ne_above
  have hleads' : d'.Leads [] (Path.components path ++ [name]) (m ++ [name]) :=
    (leads_of_resolve hl').append
      (.down hdirectory' hname.ne_here hname.ne_above hnamed (.done _))
  refine readText_eq_ok_iff.mpr ⟨m ++ [name], resolve_eq_ok_iff.mpr ⟨_, hsteps, hleads'⟩, ?_⟩
  rwa [item?_concat hsub', ← item?_concat hsub]

end Disk

end VisualNovel
