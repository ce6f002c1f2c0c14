import VisualNovel.Proofs.Disk.Made

/-!
# Disks that grow

Where something is put at a location at which there is nothing, everything else stays as it is.
Making directories only adds directories, and each of them lies on the way of the path that is to
be made. On a disk on which no directory has two items of the same name it stays so.
-/

namespace VisualNovel.Disk

variable {d d' d'' : Disk} {l r : Location} {names : List String} {path name : String} {t : Tree}

/-- A location that a path comes through, or leads to. -/
def OnWay (path : String) (l : Location) : Prop :=
  ∃ names, names <+: Path.components path ∧ l = follow [] names

/-- A change of a disk that leaves everything that is there, and adds only what is new by some
measure. -/
structure Grown (New : Location → Item → Prop) (d d' : Disk) : Prop where
  kept (l : Location) (item : Item) (h : d.item? l = some item) : d'.item? l = some item
  gained (l : Location) (item : Item) (h : d'.item? l = some item) :
    d.item? l = some item ∨ New l item

namespace Grown

variable {New New' : Location → Item → Prop}

theorem refl (New : Location → Item → Prop) (d : Disk) : Grown New d d :=
  ⟨fun _ _ h => h, fun _ _ h => .inl h⟩

/-- What is new by one measure is new by a wider one. -/
theorem mono (h : Grown New d d') (hnew : ∀ l item, New l item → New' l item) :
    Grown New' d d' :=
  ⟨h.kept, fun l item hitem => (h.gained l item hitem).imp_right (hnew l item)⟩

/-- A disk that has grown twice has grown. -/
theorem trans (h : Grown New d d') (h' : Grown New d' d'') : Grown New d d'' :=
  ⟨fun l item hitem => h'.kept l item (h.kept l item hitem), fun l item hitem =>
    (h'.gained l item hitem).elim (h.gained l item) .inr⟩

/-- No path loses its way. -/
theorem resolve (h : Grown New d d') (hl : d.resolve path = .ok l) : d'.resolve path = .ok l :=
  resolve_eq_of_directories (fun r => h.kept r .directory) hl

end Grown

/-- Nothing is below a file or an empty directory that is put somewhere. -/
theorem item?_set_append (hleaf : ∀ items, t = .directory items → items = .empty)
    (hrooted : d.Rooted l) (hne : l ≠ []) (rest : Location) :
    (d.set (some t) l).item? (l ++ rest) = if rest = [] then some t.item else none := by
  obtain ⟨above, name, rfl⟩ := List.eq_nil_or_concat l |>.resolve_left hne
  rw [List.concat_eq_append] at hrooted ⊢
  obtain ⟨sub, hsub⟩ :=
    Option.isSome_iff_exists.mp ((isSome_below? d above).mpr (hrooted above name rfl))
  have hset := below?_set_concat hsub name (some t)
  rw [List.append_assoc, item?_append hset, List.singleton_append, item?]
  simp only [Table.get?_set, if_true]
  cases t with
  | file content => rfl
  | directory items =>
    rw [hleaf items rfl]
    cases rest with
    | nil => rfl
    | cons first rest => rfl

/-- What is put where there is nothing is the only thing that is new. -/
theorem grown_set (hleaf : ∀ items, t = .directory items → items = .empty)
    (hrooted : d.Rooted l) (hnone : d.item? l = none) :
    Grown (fun m item => m = l ∧ item = t.item) d (d.set (some t) l) := by
  have hne : l ≠ [] := by
    rintro rfl
    cases hnone
  constructor
  · intro m item hitem
    have hnot : ¬ l <+: m := fun hprefix => by
      have := isSome_item?_above hprefix (Option.isSome_of_eq_some hitem)
      rw [hnone] at this
      cases this
    have hsame := item?_set_of_not_prefix hnot d (some t)
    exact hsame.trans hitem
  · intro m item hitem
    by_cases hprefix : l <+: m
    · obtain ⟨rest, rfl⟩ := hprefix
      rw [item?_set_append hleaf hrooted hne] at hitem
      split at hitem
      · next hrest =>
        subst hrest
        exact .inr ⟨List.append_nil l, (Option.some.inj hitem).symm⟩
      · cases hitem
    · have hsame := item?_set_of_not_prefix hprefix d (some t)
      exact .inl (hsame.symm.trans hitem)

/-- Directories that are made lie on the way. -/
theorem grown_createAlong (hl : d.item? l = some .directory) :
    Grown (fun m item => item = .directory ∧ ∃ before, before <+: names ∧ m = follow l before) d
      (d.createAlong l names).1 := by
  fun_induction createAlong d l names with
  | case2 d l names ih =>
    refine (ih hl).mono ?_
    rintro m item ⟨hitem, before, hbefore, rfl⟩
    exact ⟨hitem, "." :: before, List.cons_prefix_cons.mpr ⟨rfl, hbefore⟩, rfl⟩
  | case4 d l names hinside habove ih =>
    refine (ih (item?_directory_above (List.dropLast_prefix l) hl)).mono ?_
    rintro m item ⟨hitem, before, hbefore, rfl⟩
    exact ⟨hitem, ".." :: before, List.cons_prefix_cons.mpr ⟨rfl, hbefore⟩, rfl⟩
  | case5 d l name names hhere habove hdirectory ih =>
    refine (ih hdirectory).mono ?_
    rintro m item ⟨hitem, before, hbefore, rfl⟩
    exact ⟨hitem, name :: before, List.cons_prefix_cons.mpr ⟨rfl, hbefore⟩,
      (follow_name hhere habove l before).symm⟩
  | case8 d l name names hhere habove hmissing hpoints hname ih =>
    have hrooted : d.Rooted (l ++ [name]) := by
      intro above last heq
      obtain ⟨rfl, _⟩ := List.append_inj' heq rfl
      exact hl
    have hset := grown_set (t := .directory .empty) (fun items h => (Tree.directory.inj h).symm)
      hrooted hmissing
    refine (hset.mono ?_).trans ((ih (item?_set_directory hl name)).mono ?_)
    · rintro m item ⟨rfl, rfl⟩
      exact ⟨rfl, [name], by simp, (follow_name hhere habove l []).symm⟩
    · rintro m item ⟨hitem, before, hbefore, rfl⟩
      exact ⟨hitem, name :: before, List.cons_prefix_cons.mpr ⟨rfl, hbefore⟩,
        (follow_name hhere habove l before).symm⟩
  | _ => exact .refl _ _

/-- Making the directories of a path adds only directories on its way. -/
theorem grown_createDirectories (d : Disk) (path : String) :
    Grown (fun l item => item = .directory ∧ OnWay path l) d (d.createDirectories path).1 := by
  rw [createDirectories]
  split
  · exact .refl _ d
  · split
    · exact .refl _ d
    · exact grown_createAlong rfl

/-- Where nothing fails, there is a directory at the end of the way. -/
theorem item?_follow_of_createAlong (hl : d.item? l = some .directory)
    (h : (d.createAlong l names).2 = .ok ()) :
    (d.createAlong l names).1.item? (follow l names) = some .directory := by
  fun_induction createAlong d l names with
  | case1 d l => exact hl
  | case2 d l names ih => exact ih hl h
  | case4 d l names hinside habove ih =>
    exact ih (item?_directory_above (List.dropLast_prefix l) hl) h
  | case5 d l name names hhere habove hdirectory ih =>
    rw [follow_name hhere habove]
    exact ih hdirectory h
  | case8 d l name names hhere habove hmissing hpoints hname ih =>
    rw [follow_name hhere habove]
    exact ih (item?_set_directory hl name) h
  | _ => cases h

/-- Where the directories of a path could be made, a directory is where its names lead. -/
theorem item?_follow_of_createDirectories (h : d.createDirectories path = (d', .ok ())) :
    d'.item? (follow [] (Path.components path)) = some .directory := by
  rw [createDirectories] at h
  split at h
  · next hpath =>
    subst hpath
    rfl
  · split at h
    · cases h
    · have hok : (d.createAlong [] (Path.components path)).2 = .ok () := by rw [h]
      have hmade := item?_follow_of_createAlong rfl hok
      rwa [h] at hmade

/-- A directory that is there is not made. -/
theorem createDirectories_eq_self (hl : d.resolve path = .ok l)
    (hdirectory : d.item? l = some .directory) : d.createDirectories path = (d, .ok ()) := by
  obtain ⟨names, hsteps, _⟩ := resolve_eq_ok_iff.mp hl
  rw [createDirectories]
  split
  · rfl
  · have hsame : d.createAlong [] (Path.components path ++ []) = d.createAlong l [] :=
      createAlong_append (leads_of_resolve hl) hdirectory
    rw [List.append_nil] at hsame
    rw [hsteps]
    exact hsame

/-- A disk on which no directory has two items of the same name. -/
def Distinct (d : Disk) : Prop := ∀ l sub, d.below? l = some sub → sub.items.keys.Nodup

/-- An empty disk has no names that are the same. -/
theorem distinct_empty : Distinct .empty := by
  intro l sub hsub
  cases l with
  | nil =>
    cases hsub
    exact List.nodup_nil
  | cons name l => cases hsub

/-- The directories in a directory are each to be looked at on their own. -/
theorem distinct_iff : d.Distinct ↔ d.items.keys.Nodup ∧
    ∀ name items, d.items.get? name = some (.directory items) → Distinct ⟨items⟩ := by
  constructor
  · intro h
    refine ⟨h [] d rfl, fun name items hget l sub hsub => h (name :: l) sub ?_⟩
    rw [below?, hget]
    exact hsub
  · rintro ⟨hnodup, hitems⟩ l sub hsub
    cases l with
    | nil =>
      cases hsub
      exact hnodup
    | cons name l =>
      rw [below?] at hsub
      split at hsub
      · next items hget => exact hitems name items hget l sub hsub
      · cases hsub

/-- Putting something on a disk gives no directory two items of the same name. -/
theorem Distinct.set {new : Option Tree} (h : d.Distinct)
    (hnew : ∀ items, new = some (.directory items) → Distinct ⟨items⟩) (l : Location) :
    (d.set new l).Distinct := by
  induction l generalizing d with
  | nil => exact h
  | cons name l ih =>
    obtain ⟨hnodup, hitems⟩ := distinct_iff.mp h
    rw [Disk.set]
    split
    · refine distinct_iff.mpr ⟨Table.nodup_keys_set hnodup name new, fun other items hget => ?_⟩
      rw [Table.get?_set] at hget
      split at hget
      · exact hnew items hget
      · exact hitems other items hget
    · split
      · next inner hinner =>
        refine distinct_iff.mpr ⟨Table.nodup_keys_insert hnodup name _, fun other items hget => ?_⟩
        rw [Table.get?_insert] at hget
        split at hget
        · cases hget
          exact ih (hitems name inner hinner)
        · exact hitems other items hget
      · exact h

/-- Making directories along names gives no directory two items of the same name. -/
theorem Distinct.createAlong (h : d.Distinct) (l : Location) (names : List String) :
    (d.createAlong l names).1.Distinct := by
  fun_induction Disk.createAlong d l names with
  | case2 d l names ih => exact ih h
  | case4 d l names hinside habove ih => exact ih h
  | case5 d l name names hhere habove hdirectory ih => exact ih h
  | case8 d l name names hhere habove hmissing hpoints hname ih =>
    refine ih (h.set ?_ _)
    rintro items ⟨⟩
    exact distinct_empty
  | _ => exact h

/-- Making the directories of a path gives no directory two items of the same name. -/
theorem Distinct.createDirectories (h : d.Distinct) (path : String) :
    (d.createDirectories path).1.Distinct := by
  rw [Disk.createDirectories]
  split
  · exact h
  · split
    · exact h
    · exact h.createAlong [] _

/-- Writing a file gives no directory two items of the same name. -/
theorem Distinct.writeText {text : String} (h : d.Distinct)
    (hwrite : d.writeText path text = .ok d') : d'.Distinct := by
  obtain ⟨l, _, _, rfl⟩ := writeText_eq_ok_iff.mp hwrite
  exact h.set (by simp) l

end VisualNovel.Disk
