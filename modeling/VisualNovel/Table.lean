/-!
# Tables

A table maps keys to values and remembers the order in which the keys came. A
value that is put under a known key takes the place of the earlier one. The main
statements say what is found after a value is put or a key is taken away.
-/

namespace VisualNovel

/-- Values by key. -/
structure Table (κ α : Type) where
  entries : List (κ × α)
deriving Repr

/-- Assets by name. -/
abbrev Registry (α : Type) := Table String α

namespace Table

variable {κ α : Type} [DecidableEq κ]

/-- The table without keys. -/
def empty : Table κ α := ⟨[]⟩

/-- The value under a key. -/
def get? (t : Table κ α) (key : κ) : Option α := (t.entries.find? (·.1 = key)).map (·.2)

/-- Whether there is a value under a key. -/
def contains (t : Table κ α) (key : κ) : Bool := (t.get? key).isSome

/-- The entries with a value put under a key. -/
def putEntry (key : κ) (a : α) : List (κ × α) → List (κ × α)
  | [] => [(key, a)]
  | e :: es => if e.1 = key then (key, a) :: es else e :: putEntry key a es

/-- Puts a value under a key. -/
def insert (t : Table κ α) (key : κ) (a : α) : Table κ α := ⟨putEntry key a t.entries⟩

/-- Takes a key away. -/
def erase (t : Table κ α) (key : κ) : Table κ α := ⟨t.entries.filter (·.1 ≠ key)⟩

/-- Puts a value under a key, or takes the key away if there is no value. -/
def set (t : Table κ α) (key : κ) : Option α → Table κ α
  | some a => t.insert key a
  | none => t.erase key

/-- The table of a list, in which later values replace earlier ones. -/
def ofList (entries : List (κ × α)) : Table κ α :=
  entries.foldl (fun t e => t.insert e.1 e.2) empty

/-- The number of keys. -/
def size (t : Table κ α) : Nat := t.entries.length

/-- Whether there are no keys. -/
def isEmpty (t : Table κ α) : Bool := t.entries.isEmpty

/-- Texts in the order of their characters. -/
def sortNames (names : List String) : List String := names.mergeSort fun a b => decide (a ≤ b)

/-- All names in order. -/
def names (t : Registry α) : List String := sortNames (t.entries.map (·.1))

@[simp] theorem get?_empty (key : κ) : (empty : Table κ α).get? key = none := rfl

/-- A value is found under the key it was put under, and nothing else changes. -/
theorem get?_insert (t : Table κ α) (key other : κ) (a : α) :
    (t.insert key a).get? other = if key = other then some a else t.get? other := by
  simp only [insert, get?]
  induction t.entries with
  | nil => by_cases h : key = other <;> simp [putEntry, h]
  | cons e es ih =>
    by_cases hk : e.1 = key
    · subst hk
      by_cases h : e.1 = other <;> simp [putEntry, h]
    · by_cases h : e.1 = other
      · subst h
        simp [putEntry, hk, Ne.symm hk]
      · simp only [putEntry, hk, if_false, List.find?_cons, h, decide_false]
        exact ih

/-- Nothing is found under a key that was taken away, and nothing else changes. -/
theorem get?_erase (t : Table κ α) (key other : κ) :
    (t.erase key).get? other = if key = other then none else t.get? other := by
  simp only [erase, get?]
  induction t.entries with
  | nil => simp
  | cons e es ih =>
    by_cases hk : e.1 = key
    · by_cases h : e.1 = other <;> simp_all
    · by_cases h : e.1 = other
      · have hne : key ≠ other := fun he => hk (h.trans he.symm)
        simp_all
      · simp_all

/-- A key leads to what was set under it, and nothing else changes. -/
theorem get?_set (t : Table κ α) (key other : κ) (a : Option α) :
    (t.set key a).get? other = if key = other then a else t.get? other := by
  cases a with
  | none => exact get?_erase t key other
  | some a => exact get?_insert t key other a

end Table

end VisualNovel
