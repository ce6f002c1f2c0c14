import VisualNovel.Proofs.Disk.Spared

/-!
# Directories that are made

Making directories takes none away, and what can be made is made at once: a second try does
nothing more and ends like the first. Where nothing is missing in front of a name that goes up, a
way leads to a directory that was there before, or to one that was made and has nothing in it.
-/

namespace VisualNovel.Disk

variable {d d' : Disk} {l r : Location} {names : List String} {path name : String}

/-- What is below a location is found through what is below a part of it. -/
theorem below?_append {e : Disk} (h : d.below? l = some e) (rest : Location) :
    d.below? (l ++ rest) = e.below? rest := by
  induction l generalizing d with
  | nil =>
    cases h
    rfl
  | cons name l ih =>
    rw [below?] at h
    rw [List.cons_append, below?]
    split at h
    · exact ih h
    · cases h

/-- What is put into a directory is put among its items. -/
theorem below?_set_concat {e : Disk} (h : d.below? l = some e) (name : String)
    (new : Option Tree) : (d.set new (l ++ [name])).below? l = some ⟨e.items.set name new⟩ := by
  induction l generalizing d with
  | nil =>
    cases h
    rw [List.nil_append, set, if_pos rfl, below?_nil]
  | cons first l ih =>
    rw [below?] at h
    split at h
    · next items hget =>
      have hne : l ++ [name] ≠ [] := by simp
      rw [List.cons_append, set, if_neg hne, hget]
      simp only [below?, Table.get?_insert, if_true]
      exact ih h
    · cases h

/-- A directory that is made in another one is empty. -/
theorem below?_set_directory (hl : d.item? l = some .directory) (name : String) :
    (d.set (some (.directory .empty)) (l ++ [name])).below? (l ++ [name]) = some .empty := by
  obtain ⟨sub, hsub⟩ := Option.isSome_iff_exists.mp ((isSome_below? d l).mpr hl)
  rw [below?_append (below?_set_concat hsub name _)]
  simp only [below?, Table.set, Table.get?_insert, if_true]
  rfl

/-- What is no directory has nothing in it. -/
theorem children_eq_nil (h : d.item? l ≠ some .directory) : d.children l = [] := by
  have hnone : d.below? l = none := by
    rw [← Option.not_isSome_iff_eq_none, isSome_below?]
    exact h
  rw [children, hnone]

/-- An empty directory has nothing in it. -/
theorem children_eq_nil_of_empty (h : d.below? l = some .empty) : d.children l = [] := by
  rw [children, h]
  simp [empty, Table.empty]

/-- Making directories takes none away. -/
theorem item?_createAlong (hr : d.item? r = some .directory) (l : Location)
    (names : List String) : (d.createAlong l names).1.item? r = some .directory := by
  fun_induction createAlong d l names with
  | case2 d l names ih => exact ih hr
  | case4 d l names hinside _ ih => exact ih hr
  | case5 d l name names _ _ _ ih => exact ih hr
  | case8 d l name names _ _ hmissing _ _ ih =>
    have hfile : d.item? (l ++ [name]) ≠ some .directory := by
      rw [hmissing]
      simp
    exact ih (item?_set_of_directory _ hfile hr)
  | _ => exact hr

/-- A directory that is made is there. -/
theorem item?_set_directory (hl : d.item? l = some .directory) (name : String) :
    (d.set (some (.directory .empty)) (l ++ [name])).item? (l ++ [name]) = some .directory :=
  (isSome_below? _ _).mp (Option.isSome_of_eq_some (below?_set_directory hl name))

/-- Making directories again does nothing more. -/
theorem createAlong_createAlong (hl : d.item? l = some .directory) :
    (d.createAlong l names).1.createAlong l names = d.createAlong l names := by
  fun_induction createAlong d l names with
  | case1 d l => rfl
  | case2 d l names ih =>
    rw [createAlong, if_pos rfl]
    exact ih hl
  | case3 d names habove => rw [createAlong, if_neg habove, if_pos rfl, if_pos rfl]
  | case4 d l names hinside habove ih =>
    rw [createAlong, if_neg habove, if_pos rfl, if_neg hinside]
    exact ih (item?_directory_above (List.dropLast_prefix l) hl)
  | case5 d l name names hhere habove hdirectory ih =>
    rw [createAlong, if_neg hhere, if_neg habove, item?_createAlong hdirectory]
    exact ih hdirectory
  | case6 d l name names hhere habove content hfile =>
    rw [createAlong, if_neg hhere, if_neg habove, hfile]
  | case7 d l name names hhere habove hmissing hpoints =>
    rw [createAlong, if_neg hhere, if_neg habove, hmissing]
    exact if_pos hpoints
  | case8 d l name names hhere habove hmissing hpoints hname ih =>
    have hmade := item?_set_directory hl name
    rw [createAlong, if_neg hhere, if_neg habove, item?_createAlong hmade]
    exact ih hmade
  | case9 d l name names hhere habove hmissing hpoints hname =>
    rw [createAlong, if_neg hhere, if_neg habove, hmissing]
    dsimp only
    rw [if_neg hpoints, if_neg hname]

/-- Making the directories of a path again does nothing more, and ends in the same way. -/
theorem createDirectories_createDirectories (d : Disk) (path : String) :
    (d.createDirectories path).1.createDirectories path = d.createDirectories path := by
  rw [createDirectories]
  split
  · rw [createDirectories, if_pos ‹_›]
  · next hpath =>
    split
    · next hsteps => rw [createDirectories, if_neg hpath, hsteps]
    · next hsteps =>
      rw [createDirectories, if_neg hpath, hsteps]
      exact createAlong_createAlong rfl

/-- The location that names lead to if all of them can be followed. -/
def follow (l : Location) : List String → Location
  | [] => l
  | name :: names =>
    if name = "." then follow l names
    else if name = ".." then follow l.dropLast names
    else follow (l ++ [name]) names

/-- A name that neither stays nor goes up leads down. -/
theorem follow_name (hhere : name ≠ ".") (habove : name ≠ "..") (l : Location)
    (names : List String) : follow l (name :: names) = follow (l ++ [name]) names := by
  rw [follow, if_neg hhere, if_neg habove]

/-- Names that can be followed lead there. -/
theorem Leads.eq_follow (h : d.Leads l names r) : r = follow l names := by
  induction h with
  | done l => rfl
  | stay _ _ ih => exact ih
  | up _ _ _ ih => exact ih
  | down _ hhere habove _ _ ih => rwa [follow_name hhere habove]

/-- What lies above an item is there. -/
theorem isSome_item?_above (h : l <+: r) (hr : (d.item? r).isSome = true) :
    (d.item? l).isSome = true := by
  obtain ⟨rest, rfl⟩ := h
  induction l generalizing d with
  | nil => rfl
  | cons name l ih =>
    rw [List.cons_append, item?] at hr
    rw [item?]
    split at hr
    · exact ih hr
    · split at hr
      · next hnil => simp [(List.append_eq_nil_iff.mp hnil).1]
      · cases hr
    · cases hr

/-- The first name leads on to where the others begin. -/
theorem follow_cons (l : Location) (name : String) (names : List String) :
    follow l (name :: names) = follow (follow l [name]) names := by
  rw [follow, follow]
  split
  · rfl
  · split
    · rfl
    · rfl

/-- Names that do not go up lead further down. -/
theorem prefix_follow (hup : ".." ∉ names) : l <+: follow l names := by
  induction names generalizing l with
  | nil => exact List.prefix_rfl
  | cons name names ih =>
    rw [List.mem_cons, not_or] at hup
    rw [follow, if_neg (Ne.symm hup.1)]
    split
    · exact ih hup.2
    · exact (List.prefix_append l [name]).trans (ih hup.2)

/-- Whether nothing is missing in front of a name that goes up, on the way from a location. -/
def DirectFrom (d : Disk) (l : Location) (names : List String) : Prop :=
  ∀ i < names.length, names[i]? = some ".." →
    (d.item? (follow l (names.take i))).isSome = true

instance (d : Disk) (l : Location) (names : List String) : Decidable (d.DirectFrom l names) :=
  inferInstanceAs (Decidable (∀ i < names.length, _ → _))

/-- Whether nothing is missing in front of a name that goes up in a path. -/
def Direct (d : Disk) (path : String) : Prop := d.DirectFrom [] (Path.components path)

instance (d : Disk) (path : String) : Decidable (d.Direct path) :=
  inferInstanceAs (Decidable (d.DirectFrom _ _))

/-- A way that does not go up is direct. -/
theorem directFrom_of_not_mem (hup : ".." ∉ names) : d.DirectFrom l names :=
  fun _ _ hi => absurd (List.mem_of_getElem? hi) hup

/-- A way that can be followed is direct. -/
theorem Leads.directFrom (h : d.Leads l names r) : d.DirectFrom l names := by
  intro i hi hup
  induction h generalizing i with
  | done l => exact absurd hi (Nat.not_lt_zero i)
  | stay hdirectory _ ih =>
    cases i with
    | zero => exact absurd (Option.some.inj hup) (by decide)
    | succ i => exact ih i (Nat.lt_of_succ_lt_succ hi) hup
  | up hdirectory _ _ ih =>
    cases i with
    | zero => exact Option.isSome_of_eq_some hdirectory
    | succ i => exact ih i (Nat.lt_of_succ_lt_succ hi) hup
  | down hdirectory hhere habove _ _ ih =>
    cases i with
    | zero => exact absurd (Option.some.inj hup) habove
    | succ i =>
      rw [List.take_succ_cons, follow_name hhere habove]
      exact ih i (Nat.lt_of_succ_lt_succ hi) hup

/-- Nor is anything missing on the rest of the way. -/
theorem DirectFrom.tail (h : d.DirectFrom l (name :: names)) :
    d.DirectFrom (follow l [name]) names := by
  intro i hi hup
  have hthere := h (i + 1) (Nat.succ_lt_succ hi) hup
  rwa [List.take_succ_cons, follow_cons] at hthere

/-- Behind a name that is missing no name goes up. -/
theorem DirectFrom.not_mem (h : d.DirectFrom l (name :: names)) (hhere : name ≠ ".")
    (habove : name ≠ "..") (hmissing : d.item? (l ++ [name]) = none) : ".." ∉ names := by
  intro hmem
  obtain ⟨front, rest, rfl, hfront⟩ := List.eq_append_cons_of_mem hmem
  have hthere := h.tail front.length (by simp) (by simp)
  have hbelow : l ++ [name] <+: follow (follow l [name]) front := by
    rw [follow_name hhere habove]
    exact prefix_follow hfront
  rw [List.take_left] at hthere
  have hname := isSome_item?_above hbelow hthere
  rw [hmissing] at hname
  cases hname

/-- A point on a way leads nowhere else. -/
theorem Leads.of_here (h : d.Leads l ("." :: names) r) : d.Leads l names r := by
  rw [← walk_eq_ok_iff] at h ⊢
  rw [walk] at h
  split at h
  · cases h
  · cases h
  · rwa [if_pos rfl] at h

/-- A way goes on upwards from the directory above. -/
theorem Leads.of_above (h : d.Leads l (".." :: names) r) : d.Leads l.dropLast names r := by
  rw [← walk_eq_ok_iff] at h ⊢
  rw [walk, if_neg (by decide), if_pos rfl] at h
  split at h
  · cases h
  · cases h
  · split at h
    · cases h
    · exact h

/-- A name on a way can be the name of an item, and the way goes on below it. -/
theorem Leads.of_name (hhere : name ≠ ".") (habove : name ≠ "..")
    (h : d.Leads l (name :: names) r) : isName name = true ∧ d.Leads (l ++ [name]) names r := by
  cases h with
  | stay _ _ => exact absurd rfl hhere
  | up _ _ _ => exact absurd rfl habove
  | down _ _ _ hname hrest => exact ⟨hname, hrest⟩

/-- From an empty directory no way leads to another one below it. -/
theorem Leads.eq_of_empty (h : d.Leads l names r) (hup : ".." ∉ names)
    (hempty : d.below? l = some .empty) (hr : d.item? r = some .directory) :
    r = l ∧ ∀ name ∈ names, name = "." := by
  induction h with
  | done l => exact ⟨rfl, by simp⟩
  | stay _ _ ih =>
    rw [List.mem_cons, not_or] at hup
    obtain ⟨hrl, hnames⟩ := ih hup.2 hempty hr
    exact ⟨hrl, List.forall_mem_cons.mpr ⟨rfl, hnames⟩⟩
  | up _ _ _ _ => exact absurd List.mem_cons_self hup
  | down _ _ _ _ hrest _ =>
    have hdirectory := hrest.directory hr
    rw [item?_concat hempty] at hdirectory
    cases hdirectory

/-- Along points nothing is made. -/
theorem createAlong_of_forall_here (h : ∀ name ∈ names, name = ".") :
    d.createAlong l names = (d, .ok ()) := by
  induction names with
  | nil => rfl
  | cons name names ih =>
    obtain ⟨rfl, hnames⟩ := List.forall_mem_cons.mp h
    rw [createAlong, if_pos rfl]
    exact ih hnames

/-- A way in front of whose upward names nothing is missing leads to a directory that was there
before, or nothing is listed at its end. -/
theorem leads_or_children_eq_nil (hl : d.item? l = some .directory) (hway : d.DirectFrom l names)
    (h : (d.createAlong l names).1.Leads l names r) :
    (d.Leads l names r ∧ d.item? r = some .directory) ∨
      (d.createAlong l names).1.children r = [] := by
  by_cases hr : (d.createAlong l names).1.item? r = some .directory
  case neg => exact Or.inr (children_eq_nil hr)
  fun_induction createAlong d l names with
  | case2 d l names ih =>
    exact (ih hl hway.tail h.of_here hr).imp_left fun ⟨hleads, hthere⟩ => ⟨.stay hl hleads, hthere⟩
  | case4 d l names hinside habove ih =>
    have hparent := item?_directory_above (List.dropLast_prefix l) hl
    exact (ih hparent hway.tail h.of_above hr).imp_left fun ⟨hleads, hthere⟩ =>
      ⟨.up hl hinside hleads, hthere⟩
  | case5 d l name names hhere habove hdirectory ih =>
    obtain ⟨hname, hrest⟩ := h.of_name hhere habove
    have htail := hway.tail
    rw [follow_name hhere habove] at htail
    exact (ih hdirectory htail hrest hr).imp_left fun ⟨hleads, hthere⟩ =>
      ⟨.down hl hhere habove hname hleads, hthere⟩
  | case8 d l name names hhere habove hmissing hpoints hname ih =>
    -- The rest of the way does not go up, so it stays below a directory that is empty.
    have hup := hway.not_mem hhere habove hmissing
    have hmade := below?_set_directory hl name
    obtain ⟨_, hrest⟩ := h.of_name hhere habove
    rcases ih (item?_set_directory hl name) (directFrom_of_not_mem hup) hrest hr with
      ⟨hleads, hthere⟩ | hempty
    · obtain ⟨rfl, hnames⟩ := hleads.eq_of_empty hup hmade hthere
      rw [createAlong_of_forall_here hnames]
      exact Or.inr (children_eq_nil_of_empty hmade)
    · exact Or.inr hempty
  | _ => exact Or.inl ⟨h, hr⟩

/-- A directory that was missing is empty after it was made, if nothing is missing in front of a
name that goes up. -/
theorem children_createDirectories (hway : d.Direct path)
    (hmissing : d.contains path = false)
    (hl : (d.createDirectories path).1.resolve path = .ok l) :
    (d.createDirectories path).1.children l = [] := by
  obtain ⟨names, hsteps, _⟩ := resolve_eq_ok_iff.mp hl
  have hleads := leads_of_resolve hl
  have hmade : d.createDirectories path = d.createAlong [] (Path.components path) := by
    have hpath : path ≠ "" := by
      rintro rfl
      cases hsteps
    rw [createDirectories, if_neg hpath, hsteps]
  rw [hmade] at hleads ⊢
  refine (leads_or_children_eq_nil rfl hway hleads).resolve_left ?_
  rintro ⟨hbefore, hdirectory⟩
  have hfound : d.resolve path = .ok l := resolve_of_leads hsteps hbefore hdirectory
  rw [contains, find?, hfound] at hmissing
  simp [hdirectory] at hmissing

end VisualNovel.Disk
