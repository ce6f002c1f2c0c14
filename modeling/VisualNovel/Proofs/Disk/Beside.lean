import VisualNovel.Proofs.Disk.ReadBack
import VisualNovel.Proofs.Text.Lines

/-!
# Files of the same directory

A path that continues the path of a directory by a plain name leads to what has this name in
the directory, whichever way the path of the directory takes. What is done to one file of a
directory leaves the others as they are.
-/

namespace VisualNovel

namespace Path

/-- A name that stands for itself in a path. -/
structure IsPlain (name : String) : Prop where
  ne_empty : name ≠ ""
  ne_here : name ≠ "."
  ne_above : name ≠ ".."
  uncut : '/' ∉ name.toList

instance (name : String) : Decidable (IsPlain name) :=
  decidable_of_iff (name ≠ "" ∧ name ≠ "." ∧ name ≠ ".." ∧ '/' ∉ name.toList)
    ⟨fun ⟨hempty, hhere, habove, huncut⟩ => ⟨hempty, hhere, habove, huncut⟩,
      fun h => ⟨h.ne_empty, h.ne_here, h.ne_above, h.uncut⟩⟩

variable {dir name : String}

/-- A name without a slash is not an absolute path. -/
theorem not_isAbsolute_of_not_mem (h : '/' ∉ name.toList) : isAbsolute name = false := by
  rw [isAbsolute]
  cases hn : name.toList with
  | nil => rfl
  | cons c cs =>
    have hc : c ≠ '/' := by
      rintro rfl
      exact h (hn ▸ List.mem_cons_self)
    simpa using hc

/-- A plain name is not an absolute path. -/
theorem IsPlain.not_isAbsolute (h : IsPlain name) : isAbsolute name = false :=
  not_isAbsolute_of_not_mem h.uncut

/-- A plain name does not end in a slash. -/
theorem IsPlain.getLast?_ne (h : IsPlain name) : name.toList.getLast? ≠ some '/' := by
  intro hlast
  exact h.uncut (List.mem_of_getLast? hlast)

/-- A plain name has a character. -/
theorem IsPlain.toList_ne_nil (h : IsPlain name) : name.toList ≠ [] := by
  intro hnil
  exact h.ne_empty (String.toList_eq_nil_iff.mp hnil)

/-- A slash separates the names of what stands on its sides. -/
theorem components_append (base path : String) :
    components (base ++ "/" ++ path) = components base ++ components path := by
  have hlist : (base ++ "/" ++ path).toList = base.toList ++ '/' :: path.toList := by simp
  simp only [components, Text.split, hlist, Text.pieces_append, List.map_append,
    List.filter_append]

/-- A text without slashes is one name. -/
theorem components_of_not_mem (hne : name ≠ "") (h : '/' ∉ name.toList) :
    components name = [name] := by
  simp [components, Text.split, Text.pieces_of_not_mem h, hne]

/-- A slash at the end adds no name. -/
theorem components_append_slash (base : String) : components (base ++ "/") = components base := by
  have happend := components_append base ""
  rwa [String.append_empty, show components "" = [] from by decide, List.append_nil] at happend

/-- What ends in a slash is something else with a slash behind it. -/
theorem exists_eq_append_slash (h : dir.toList.getLast? = some '/') :
    ∃ base, dir = base ++ "/" := by
  obtain ⟨cs, hcs⟩ := List.getLast?_eq_some_iff.mp h
  refine ⟨String.ofList cs, String.toList_inj.mp ?_⟩
  rw [hcs]
  simp

/-- The names of a path that is continued by one name, be it that of a directory above. -/
theorem components_join_of_not_mem (hne : name ≠ "") (h : '/' ∉ name.toList) (dir : String) :
    components (join dir name) = components dir ++ [name] := by
  rw [join, not_isAbsolute_of_not_mem h]
  by_cases hdir : dir = ""
  · subst hdir
    simpa [components, Text.split, Text.pieces] using components_of_not_mem hne h
  · simp only [hdir, Bool.false_or, decide_false, Bool.false_eq_true, if_false]
    split
    · next hslash =>
      obtain ⟨base, rfl⟩ := exists_eq_append_slash hslash
      rw [components_append, components_append_slash, components_of_not_mem hne h]
    · rw [components_append, components_of_not_mem hne h]

/-- A plain name that is joined to a directory is the last name of the path. -/
theorem components_join (h : IsPlain name) (dir : String) :
    components (join dir name) = components dir ++ [name] :=
  components_join_of_not_mem h.ne_empty h.uncut dir

/-- A path that ends in a plain name does not end in a slash. -/
theorem getLast?_join_ne (h : IsPlain name) (dir : String) :
    (join dir name).toList.getLast? ≠ some '/' := by
  have happend (base : String) : (base ++ name).toList.getLast? ≠ some '/' := by
    have hc := List.getLast?_eq_some_getLast h.toList_ne_nil
    have hlast := h.getLast?_ne
    rw [hc] at hlast
    rwa [String.toList_append, List.getLast?_append, hc]
  rw [join]
  split
  · exact h.getLast?_ne
  · split
    · exact happend dir
    · exact happend (dir ++ "/")

end Path

namespace Disk

variable {d d' : Disk} {l m r : Location} {dir path a b : String}

/-- Names are followed one part after the other. -/
theorem Leads.exists_of_append {names more : List String} (h : d.Leads l (names ++ more) r) :
    ∃ m, d.Leads l names m ∧ d.Leads m more r := by
  induction names generalizing l with
  | nil => exact ⟨l, .done l, h⟩
  | cons name names ih =>
    cases h with
    | stay hdirectory hrest =>
      obtain ⟨m, hfirst, hsecond⟩ := ih hrest
      exact ⟨m, .stay hdirectory hfirst, hsecond⟩
    | up hdirectory hinside hrest =>
      obtain ⟨m, hfirst, hsecond⟩ := ih hrest
      exact ⟨m, .up hdirectory hinside hfirst, hsecond⟩
    | down hdirectory hhere habove hname hrest =>
      obtain ⟨m, hfirst, hsecond⟩ := ih hrest
      exact ⟨m, .down hdirectory hhere habove hname hfirst, hsecond⟩

/-- Names that can be followed after others can be followed with them. -/
theorem Leads.append {names more : List String} (h : d.Leads l names m)
    (h' : d.Leads m more r) : d.Leads l (names ++ more) r := by
  induction h with
  | done l => exact h'
  | stay hdirectory _ ih => exact .stay hdirectory (ih h')
  | up hdirectory hinside _ ih => exact .up hdirectory hinside (ih h')
  | down hdirectory hhere habove hname _ ih => exact .down hdirectory hhere habove hname (ih h')

/-- Names lead to one location only. -/
theorem Leads.unique {names : List String} (h : d.Leads l names r) (h' : d.Leads l names m) :
    m = r := by
  rw [← walk_eq_ok_iff] at h h'
  exact Except.ok.inj (h'.symm.trans h)

/-- A plain name leads into the directory. -/
theorem Leads.eq_append (hname : Path.IsPlain a) (h : d.Leads l [a] r) :
    d.item? l = some .directory ∧ r = l ++ [a] := by
  cases h with
  | stay _ _ => exact absurd rfl hname.ne_here
  | up _ _ _ => exact absurd rfl hname.ne_above
  | down hdirectory _ _ _ hrest =>
    cases hrest
    exact ⟨hdirectory, rfl⟩

/-- The names of a path lead to a directory. -/
structure DirectoryAt (d : Disk) (path : String) (l : Location) : Prop where
  leads : d.Leads [] (Path.components path) l
  directory : d.item? l = some .directory

/-- The names of a path that is continued by a plain name. -/
theorem steps_join {names : List String} (hname : Path.IsPlain a)
    (h : steps (Path.join dir a) = .ok names) : names = Path.components dir ++ [a] := by
  rw [← Path.components_join hname]
  rw [steps] at h
  split at h
  · cases h
  · split at h
    · cases h
    · split at h
      · cases h
      · rw [if_neg (Path.getLast?_join_ne hname dir)] at h
        exact (Except.ok.inj h).symm

/-- The path of a directory that is continued by a plain name leads into the directory. -/
theorem exists_of_resolve_join (hname : Path.IsPlain a)
    (h : d.resolve (Path.join dir a) = .ok r) : ∃ l, d.DirectoryAt dir l ∧ r = l ++ [a] := by
  obtain ⟨names, hsteps, hleads⟩ := resolve_eq_ok_iff.mp h
  rw [steps_join hname hsteps] at hleads
  obtain ⟨l, hdir, hlast⟩ := hleads.exists_of_append
  obtain ⟨hdirectory, hr⟩ := hlast.eq_append hname
  exact ⟨l, ⟨hdir, hdirectory⟩, hr⟩

/-- Ways that part at a name do not come together again. -/
theorem not_prefix_of_ne (h : a ≠ b) (l more more' : Location) :
    ¬ l ++ a :: more <+: l ++ b :: more' := by
  intro hprefix
  obtain ⟨rest, hrest⟩ := hprefix
  rw [List.append_assoc, List.append_cancel_left_eq] at hrest
  exact h (List.cons.inj hrest).1

/-- A file of a directory is as it was after something else was put into the directory or taken
away from it. -/
theorem readText_set_join {text : String} {new : Option Tree} (ha : Path.IsPlain a)
    (hb : Path.IsPlain b) (hne : a ≠ b) (hl : d.resolve (Path.join dir a) = .ok l)
    (hfile : d.item? l ≠ some .directory) (h : d.readText (Path.join dir b) = .ok text) :
    (d.set new l).readText (Path.join dir b) = .ok text := by
  obtain ⟨r, hr, hitem⟩ := readText_eq_ok_iff.mp h
  have hr' := resolve_set hfile hr new
  obtain ⟨above, hdir, rfl⟩ := exists_of_resolve_join ha hl
  obtain ⟨above', hdir', rfl⟩ := exists_of_resolve_join hb hr
  obtain rfl := hdir.leads.unique hdir'.leads
  have hbeside := item?_set_of_not_prefix (not_prefix_of_ne hne above' [] []) d new
  exact readText_eq_ok_iff.mpr ⟨_, hr', hbeside.trans hitem⟩

/-- What is followed are the names of a path, and a single point behind a slash at the end. -/
theorem eq_of_steps {names : List String} (h : steps path = .ok names) :
    names = Path.components path ∨ names = Path.components path ++ ["."] := by
  rw [steps] at h
  split at h
  · cases h
  · split at h
    · cases h
    · split at h
      · cases h
      · split at h
        · exact Or.inr (Except.ok.inj h).symm
        · exact Or.inl (Except.ok.inj h).symm

/-- A path whose names lead to a directory leads to it, if it can be followed at all. -/
theorem resolve_of_leads {names : List String} (hsteps : steps path = .ok names)
    (hleads : d.Leads [] (Path.components path) l) (hdirectory : d.item? l = some .directory) :
    d.resolve path = .ok l := by
  refine resolve_eq_ok_iff.mpr ⟨names, hsteps, ?_⟩
  rcases eq_of_steps hsteps with rfl | rfl
  · exact hleads
  · exact hleads.append (.stay hdirectory (.done l))

/-- The beginning of a path that can be followed can be followed. -/
theorem steps_of_append {rest : String} {names : List String} (hdir : dir ≠ "")
    (h : steps (dir ++ rest) = .ok names) : ∃ names, steps dir = .ok names := by
  rw [steps] at h
  split at h
  · cases h
  · split at h
    · cases h
    · next hname =>
      split at h
      · cases h
      · next habsolute =>
        have hsize : ¬ (dir.utf8ByteSize > maxPathBytes || dir.toList.contains '\x00') = true := by
          simp only [String.utf8ByteSize_append, String.toList_append, List.contains_append,
            Bool.or_eq_true, decide_eq_true_eq, not_or, Bool.not_eq_true] at hname ⊢
          obtain ⟨hlength, hclean, _⟩ := hname
          exact ⟨by omega, hclean⟩
        have hrelative : ¬ Path.isAbsolute dir = true := by
          intro hdirAbsolute
          apply habsolute
          rw [Path.isAbsolute, beq_iff_eq] at hdirAbsolute ⊢
          rw [String.toList_append, List.head?_append, hdirAbsolute]
          rfl
        rw [steps, if_neg hdir, if_neg hsize, if_neg hrelative]
        split
        · exact ⟨_, rfl⟩
        · exact ⟨_, rfl⟩

/-- What has a path in a directory shows where the directory is, unless the path of the directory
says nothing. -/
theorem exists_resolve_of_resolve_join (hname : Path.IsPlain a) (hdir : dir ≠ "")
    (h : d.resolve (Path.join dir a) = .ok r) :
    ∃ l, d.resolve dir = .ok l ∧ d.item? l = some .directory ∧ r = l ++ [a] := by
  obtain ⟨l, ⟨hleads, hdirectory⟩, hr⟩ := exists_of_resolve_join hname h
  obtain ⟨names, hsteps, _⟩ := resolve_eq_ok_iff.mp h
  have hcontinued : ∃ rest, Path.join dir a = dir ++ rest := by
    rw [Path.join, hname.not_isAbsolute]
    simp only [hdir, Bool.false_or, decide_false, Bool.false_eq_true, if_false]
    split
    · exact ⟨a, rfl⟩
    · exact ⟨"/" ++ a, String.append_assoc⟩
  obtain ⟨rest, hrest⟩ := hcontinued
  rw [hrest] at hsteps
  obtain ⟨_, hdirSteps⟩ := steps_of_append hdir hsteps
  exact ⟨l, resolve_of_leads hdirSteps hleads hdirectory, hdirectory, hr⟩

/-- What has a path in a directory shows that the directory is there. -/
theorem contains_of_resolve_join (hname : Path.IsPlain a) (hdir : dir ≠ "")
    (h : d.resolve (Path.join dir a) = .ok r) : d.contains dir = true := by
  obtain ⟨l, hresolved, hdirectory, _⟩ := exists_resolve_of_resolve_join hname hdir h
  rw [contains, find?, hresolved]
  simp only [hdirectory, Option.isSome_some]

end Disk

end VisualNovel
