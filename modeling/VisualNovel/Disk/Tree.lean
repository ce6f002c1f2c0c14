import VisualNovel.Table

/-!
# Trees of files

A directory has items under names, and each of them is a file or a directory again.
A disk is the directory that a program works in. It is seen as what there is at every
location. The main statements say that a location below a directory leads on from
there, and what there is at a location after something is put somewhere or taken away.
-/

namespace VisualNovel

/-- What a file holds: text, an image of a size, or other bytes. -/
inductive Content where
  | text (s : String)
  | image (width height length : Nat)
  | binary (length : Nat)
deriving DecidableEq, Repr

/-- What there can be at a location. -/
inductive Item where
  | directory
  | file (content : Content)
deriving DecidableEq, Repr

/-- The names that lead from the working directory to an item. -/
abbrev Location := List String

/-- A file, or a directory with all that is in it. -/
inductive Tree where
  | directory (items : Table String Tree)
  | file (content : Content)

/-- The item at the top of a tree. -/
def Tree.item : Tree → Item
  | .directory _ => .directory
  | .file content => .file content

/-- The part of a file system below the working directory. -/
structure Disk where
  items : Table String Tree

namespace Disk

/-- The disk with nothing on it. -/
def empty : Disk := ⟨.empty⟩

/-- The part of a disk below the directory at a location. -/
def below? : Disk → Location → Option Disk
  | d, [] => some d
  | d, name :: l =>
    match d.items.get? name with
    | some (.directory items) => below? ⟨items⟩ l
    | _ => none

/-- What there is at a location; the working directory is always there. -/
def item? : Disk → Location → Option Item
  | _, [] => some .directory
  | d, name :: l =>
    match d.items.get? name with
    | some (.directory items) => item? ⟨items⟩ l
    | some (.file content) => if l = [] then some (.file content) else none
    | none => none

/-- Puts something at a location, or takes away what is there. Where the location is in no
directory, nothing changes. -/
def set (new : Option Tree) : Disk → Location → Disk
  | d, [] => d
  | d, name :: l =>
    if l = [] then ⟨d.items.set name new⟩
    else match d.items.get? name with
      | some (.directory items) => ⟨d.items.insert name (.directory (set new ⟨items⟩ l).items)⟩
      | _ => d

mutual

/-- All that is in a directory, each item before what is in it, for the location of the
directory and its entries. -/
def entriesAlong (l : Location) : List (String × Tree) → List (Location × Item)
  | [] => []
  | (name, t) :: es =>
    (l ++ [name], t.item) :: (entriesWithin (l ++ [name]) t ++ entriesAlong l es)

/-- All that is below the top of a tree. -/
def entriesWithin (l : Location) : Tree → List (Location × Item)
  | .directory ⟨es⟩ => entriesAlong l es
  | .file _ => []

end

/-- All that is on a disk, each item before what is in it. -/
def entries (d : Disk) : List (Location × Item) := entriesAlong [] d.items.entries

/-- The items of the directory at a location by name, in the order of the names; nothing, if
there is no directory. -/
def children (d : Disk) (l : Location) : List (String × Item) :=
  match d.below? l with
  | some d => (d.items.entries.map fun e => (e.1, e.2.item)).mergeSort fun a b => decide (a.1 ≤ b.1)
  | none => []

@[simp] theorem below?_nil (d : Disk) : d.below? [] = some d := rfl

@[simp] theorem item?_nil (d : Disk) : d.item? [] = some .directory := rfl

/-- There is a directory where there is a part of the disk below. -/
theorem isSome_below? (d : Disk) (l : Location) :
    (d.below? l).isSome ↔ d.item? l = some .directory := by
  induction l generalizing d with
  | nil => simp
  | cons name l ih =>
    simp only [below?, item?]
    cases d.items.get? name with
    | none => simp
    | some t =>
      cases t with
      | directory items => exact ih ⟨items⟩
      | file content => by_cases h : l = [] <;> simp [h]

/-- A location below a directory leads on from there. -/
theorem item?_append {d e : Disk} {l : Location} (h : d.below? l = some e) (rest : Location) :
    d.item? (l ++ rest) = e.item? rest := by
  induction l generalizing d with
  | nil => simp_all
  | cons name l ih =>
    simp only [below?] at h
    simp only [List.cons_append, item?]
    split at h
    · next items hget => simpa [hget] using ih h
    · simp at h

/-- A name in a directory leads to what is under it. -/
theorem item?_concat {d e : Disk} {l : Location} (h : d.below? l = some e) (name : String) :
    d.item? (l ++ [name]) = (e.items.get? name).map Tree.item := by
  rw [item?_append h]
  simp only [item?]
  cases e.items.get? name with
  | none => rfl
  | some t => cases t <;> rfl

/-- What was put into a directory is there, and what was taken away is not. -/
theorem item?_set_self {d e : Disk} {l : Location} (h : d.below? l = some e) (name : String)
    (new : Option Tree) : (d.set new (l ++ [name])).item? (l ++ [name]) = new.map Tree.item := by
  induction l generalizing d with
  | nil =>
    cases new with
    | none => simp [set, item?, Table.get?_set]
    | some t => cases t <;> simp [set, item?, Table.get?_set, Tree.item]
  | cons first l ih =>
    simp only [below?] at h
    split at h
    · next items hget => simpa [set, item?, hget, Table.get?_insert] using ih h
    · simp at h

/-- Where the way to a location does not come through another one, nothing changes when
something is put there or taken away. -/
theorem item?_set_of_not_prefix {l other : Location} (h : ¬ l <+: other) (d : Disk)
    (new : Option Tree) : (d.set new l).item? other = d.item? other := by
  induction l generalizing d other with
  | nil => simp at h
  | cons name l ih =>
    cases other with
    | nil => rfl
    | cons first other =>
      by_cases hname : name = first
      · subst hname
        have hrest : ¬ l <+: other := fun hp => h (by simpa using hp)
        have hl : l ≠ [] := fun he => hrest (he ▸ List.nil_prefix)
        simp only [set, if_neg hl]
        split
        · next items hget => simpa [item?, hget, Table.get?_insert] using ih hrest ⟨items⟩
        · rfl
      · simp only [set]
        by_cases hl : l = []
        · simp [item?, hl, Table.get?_set, hname]
        · simp only [if_neg hl]
          split
          · simp [item?, Table.get?_insert, hname]
          · rfl

end Disk

end VisualNovel
