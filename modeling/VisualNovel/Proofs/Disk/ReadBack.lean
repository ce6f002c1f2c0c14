import VisualNovel.Disk.Basic

/-!
# Reading back what was written

A path that leads to a file leads to the same file after it was written, because no
directory on the way is touched. So a text that was written is read back through the same
path, and whatever way the path takes.
-/

namespace VisualNovel.Disk

variable {d d' : Disk} {l r : Location}

/-- What lies above a directory is a directory. -/
theorem item?_directory_above (h : l <+: r) (hr : d.item? r = some .directory) :
    d.item? l = some .directory := by
  obtain ⟨rest, rfl⟩ := h
  induction l generalizing d with
  | nil => rfl
  | cons name l ih =>
    rw [List.cons_append, item?] at hr
    rw [item?]
    split at hr
    · exact ih hr
    · split at hr <;> simp at hr
    · simp at hr

/-- The way that names lead, each of them from a directory. -/
inductive Leads (d : Disk) : Location → List String → Location → Prop where
  | done (l : Location) : Leads d l [] l
  | stay {l r : Location} {names : List String} (directory : d.item? l = some .directory)
      (rest : Leads d l names r) : Leads d l ("." :: names) r
  | up {l r : Location} {names : List String} (directory : d.item? l = some .directory)
      (inside : l ≠ []) (rest : Leads d l.dropLast names r) : Leads d l (".." :: names) r
  | down {l r : Location} {name : String} {names : List String}
      (directory : d.item? l = some .directory) (ne_here : name ≠ ".") (ne_above : name ≠ "..")
      (named : isName name = true) (rest : Leads d (l ++ [name]) names r) :
      Leads d l (name :: names) r

/-- The walk along names ends somewhere just if the names lead there. -/
theorem walk_eq_ok_iff {names : List String} : d.walk l names = .ok r ↔ d.Leads l names r := by
  constructor
  · intro h
    induction names generalizing l with
    | nil =>
      cases h
      exact .done _
    | cons name names ih =>
      rw [walk] at h
      split at h
      · cases h
      · cases h
      · next hdirectory =>
        split at h
        · next hhere =>
          subst hhere
          exact .stay hdirectory (ih h)
        · next hhere =>
          split at h
          · next habove =>
            subst habove
            split at h
            · cases h
            · next hinside => exact .up hdirectory hinside (ih h)
          · next habove =>
            split at h
            · next hname => exact .down hdirectory hhere habove hname (ih h)
            · cases h
  · intro h
    induction h with
    | done l => rfl
    | stay hdirectory _ ih =>
      rw [walk, hdirectory]
      exact ih
    | up hdirectory hinside _ ih =>
      rw [walk, hdirectory]
      simpa [hinside] using ih
    | down hdirectory hhere habove hname _ ih =>
      rw [walk, hdirectory]
      simpa [hhere, habove, hname] using ih

/-- The location of an item lies in a directory. -/
def Rooted (d : Disk) (l : Location) : Prop :=
  ∀ above name, l = above ++ [name] → d.item? above = some .directory

/-- A directory lies in a directory, or is the root. -/
theorem rooted_of_directory (h : d.item? l = some .directory) : d.Rooted l := by
  rintro above name rfl
  exact item?_directory_above (List.prefix_append above [name]) h

/-- Names that can be followed lead into a directory. -/
theorem Leads.rooted {names : List String} (h : d.Leads l names r) (hl : d.Rooted l) :
    d.Rooted r := by
  induction h with
  | done l => exact hl
  | stay _ _ ih => exact ih hl
  | @up l r names hdirectory _ _ ih =>
    exact ih (rooted_of_directory (item?_directory_above (List.dropLast_prefix l) hdirectory))
  | down hdirectory _ _ _ _ ih =>
    apply ih
    intro above last heq
    obtain ⟨rfl, _⟩ := List.append_inj' heq rfl
    exact hdirectory

/-- Where all directories are still there, names lead to where they led before. -/
theorem Leads.of_directories
    (hd : ∀ l, d.item? l = some .directory → d'.item? l = some .directory)
    {names : List String} (h : d.Leads l names r) : d'.Leads l names r := by
  induction h with
  | done l => exact .done l
  | stay hdirectory _ ih => exact .stay (hd _ hdirectory) ih
  | up hdirectory hinside _ ih => exact .up (hd _ hdirectory) hinside ih
  | down hdirectory hhere habove hname _ ih => exact .down (hd _ hdirectory) hhere habove hname ih

/-- What is put somewhere, or taken away, takes no directory away if there was none. -/
theorem item?_set_of_directory (new : Option Tree) (hl : d.item? l ≠ some .directory)
    (hr : d.item? r = some .directory) : (d.set new l).item? r = some .directory := by
  have hnot : ¬ l <+: r := fun hl' => hl (item?_directory_above hl' hr)
  have hsame := item?_set_of_not_prefix hnot d new
  exact hsame.trans hr

/-- A file that is put into a directory is there. -/
theorem item?_set_file_self (content : Content) (hl : d.item? l ≠ some .directory)
    (hrooted : d.Rooted l) :
    (d.set (some (.file content)) l).item? l = some (.file content) := by
  rcases List.eq_nil_or_concat l with rfl | ⟨above, name, rfl⟩
  · exact absurd rfl hl
  · rw [List.concat_eq_append] at hrooted ⊢
    have habove : d.item? above = some .directory := hrooted above name rfl
    obtain ⟨below, hbelow⟩ := Option.isSome_iff_exists.mp ((isSome_below? d above).mpr habove)
    exact item?_set_self hbelow name _

variable {path : String}

/-- A path leads to a location just if its names do. -/
theorem resolve_eq_ok_iff :
    d.resolve path = .ok l ↔ ∃ names, steps path = .ok names ∧ d.Leads [] names l := by
  rw [resolve]
  cases steps path with
  | error reason => simp [bind, Except.bind]
  | ok names => simp [bind, Except.bind, walk_eq_ok_iff]

/-- A path leads into a directory. -/
theorem rooted_of_resolve (h : d.resolve path = .ok l) : d.Rooted l := by
  obtain ⟨names, _, hleads⟩ := resolve_eq_ok_iff.mp h
  exact hleads.rooted (rooted_of_directory rfl)

/-- Where all directories are still there, a path leads to where it led before. -/
theorem resolve_eq_of_directories
    (hd : ∀ l, d.item? l = some .directory → d'.item? l = some .directory)
    (h : d.resolve path = .ok l) : d'.resolve path = .ok l := by
  obtain ⟨names, hsteps, hleads⟩ := resolve_eq_ok_iff.mp h
  exact resolve_eq_ok_iff.mpr ⟨names, hsteps, hleads.of_directories hd⟩

/-- Where a file is put or taken away, a path still leads to where it led before. -/
theorem resolve_set (hfile : d.item? r ≠ some .directory) (h : d.resolve path = .ok l)
    (new : Option Tree) : (d.set new r).resolve path = .ok l :=
  resolve_eq_of_directories (fun _ => item?_set_of_directory new hfile) h

/-- A text is read where a path leads to a file with the text. -/
theorem readText_eq_ok_iff {text : String} :
    d.readText path = .ok text ↔
      ∃ l, d.resolve path = .ok l ∧ d.item? l = some (.file (.text text)) := by
  rw [readText]
  cases hl : d.resolve path with
  | error reason => simp [bind, Except.bind]
  | ok l =>
    simp only [bind, Except.bind]
    cases hitem : d.item? l with
    | none => simp [throw, throwThe, MonadExceptOf.throw, hitem]
    | some item =>
      cases item with
      | directory => simp [throw, throwThe, MonadExceptOf.throw, hitem]
      | file content =>
        cases content <;> simp [throw, throwThe, MonadExceptOf.throw, hitem, pure, Except.pure]

/-- A file that can be read is there. -/
theorem contains_of_readText {text : String} (h : d.readText path = .ok text) :
    d.contains path = true := by
  obtain ⟨l, hl, hitem⟩ := readText_eq_ok_iff.mp h
  rw [contains, find?, hl]
  simp only [hitem, Option.isSome_some]

/-- A text is written where a path leads to a file, or to nothing in a directory. -/
theorem writeText_eq_ok_iff {text : String} :
    d.writeText path text = .ok d' ↔ ∃ l, d.resolve path = .ok l ∧
      d.item? l ≠ some .directory ∧ d' = d.set (some (.file (.text text))) l := by
  rw [writeText]
  cases hl : d.resolve path with
  | error reason => simp [bind, Except.bind]
  | ok l =>
    simp only [bind, Except.bind]
    cases hitem : d.item? l with
    | none => simp [hitem, pure, Except.pure, eq_comm]
    | some item =>
      cases item with
      | directory => simp [throw, throwThe, MonadExceptOf.throw, hitem]
      | file content => simp [hitem, pure, Except.pure, eq_comm]

/-- A file is removed where a path leads to one. -/
theorem removeFile_eq_ok_iff :
    d.removeFile path = .ok d' ↔ ∃ l content, d.resolve path = .ok l ∧
      d.item? l = some (.file content) ∧ d' = d.set none l := by
  rw [removeFile]
  cases hl : d.resolve path with
  | error reason => simp [bind, Except.bind]
  | ok l =>
    simp only [bind, Except.bind]
    cases hitem : d.item? l with
    | none => simp [throw, throwThe, MonadExceptOf.throw, hitem]
    | some item =>
      cases item with
      | directory => simp [throw, throwThe, MonadExceptOf.throw, hitem]
      | file content => simp [hitem, pure, Except.pure, eq_comm]

/-- A text that was written to a file is read back from it. -/
theorem readText_of_writeText {text : String} (h : d.writeText path text = .ok d') :
    d'.readText path = .ok text := by
  obtain ⟨l, hl, hfile, rfl⟩ := writeText_eq_ok_iff.mp h
  have hresolved := resolve_set hfile hl (some (.file (.text text)))
  have hitem := item?_set_file_self (.text text) hfile (rooted_of_resolve hl)
  exact readText_eq_ok_iff.mpr ⟨l, hresolved, hitem⟩

end VisualNovel.Disk
