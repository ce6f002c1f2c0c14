import VisualNovel.Json.Codec

/-!
# Quartets

A scene seats exactly four speakers and offers exactly four choices. A quartet
holds one value for each of the four positions, which are counted from zero.
-/

namespace VisualNovel

/-- One value for each of four positions. -/
structure Quartet (α : Type) where
  first : α
  second : α
  third : α
  fourth : α
deriving DecidableEq, Repr

namespace Quartet

variable {α β : Type}

/-- The number of positions. -/
def size : Nat := 4

/-- The same value at every position. -/
def replicate (a : α) : Quartet α := ⟨a, a, a, a⟩

/-- The values in the order of their positions. -/
def toList (q : Quartet α) : List α := [q.first, q.second, q.third, q.fourth]

/-- The value at a position. -/
def get? (q : Quartet α) : Nat → Option α
  | 0 => some q.first
  | 1 => some q.second
  | 2 => some q.third
  | 3 => some q.fourth
  | _ => none

/-- Changes the value at a position; no other position counts. -/
def modify (q : Quartet α) (i : Nat) (f : α → α) : Quartet α :=
  match i with
  | 0 => { q with first := f q.first }
  | 1 => { q with second := f q.second }
  | 2 => { q with third := f q.third }
  | 3 => { q with fourth := f q.fourth }
  | _ => q

/-- Puts a value at a position. -/
def set (q : Quartet α) (i : Nat) (a : α) : Quartet α := q.modify i fun _ => a

/-- The quartet of a list of exactly four values. -/
def ofList? : List α → Option (Quartet α)
  | [a, b, c, d] => some ⟨a, b, c, d⟩
  | _ => none

@[simp] theorem length_toList (q : Quartet α) : q.toList.length = 4 := rfl

@[simp] theorem ofList?_toList (q : Quartet α) : ofList? q.toList = some q := rfl

/-- Positions and the list of values agree. -/
theorem getElem?_toList (q : Quartet α) (i : Nat) : q.toList[i]? = q.get? i := by
  match i with
  | 0 | 1 | 2 | 3 => rfl
  | n + 4 => simp [toList, get?]

/-- A change is seen at its own position alone. -/
theorem get?_modify (q : Quartet α) (i j : Nat) (f : α → α) :
    (q.modify i f).get? j = if i = j then (q.get? j).map f else q.get? j := by
  match i, j with
  | 0, 0 | 0, 1 | 0, 2 | 0, 3 | 1, 0 | 1, 1 | 1, 2 | 1, 3
  | 2, 0 | 2, 1 | 2, 2 | 2, 3 | 3, 0 | 3, 1 | 3, 2 | 3, 3 => simp [modify, get?]
  | 0, n + 4 | 1, n + 4 | 2, n + 4 | 3, n + 4 => simp [get?]
  | n + 4, 0 | n + 4, 1 | n + 4, 2 | n + 4, 3 | n + 4, m + 4 => simp [modify, get?]

/-- What all values have and a change keeps, all values have after the change. -/
theorem forall_mem_modify {P : α → Prop} {q : Quartet α} {f : α → α} (h : ∀ a ∈ q.toList, P a)
    (hf : ∀ a, P a → P (f a)) (i : Nat) : ∀ a ∈ (q.modify i f).toList, P a := by
  simp only [toList, List.forall_mem_cons] at h
  obtain ⟨h₁, h₂, h₃, h₄, -⟩ := h
  match i with
  | 0 => simpa [modify, toList] using ⟨hf _ h₁, h₂, h₃, h₄⟩
  | 1 => simpa [modify, toList] using ⟨h₁, hf _ h₂, h₃, h₄⟩
  | 2 => simpa [modify, toList] using ⟨h₁, h₂, hf _ h₃, h₄⟩
  | 3 => simpa [modify, toList] using ⟨h₁, h₂, h₃, hf _ h₄⟩
  | n + 4 => simpa [modify, toList] using ⟨h₁, h₂, h₃, h₄⟩

instance [Json.Codec α] : Json.Codec (Quartet α) where
  encode q := Json.encode q.toList
  decode v := (Json.decode v).bind ofList?

end Quartet

end VisualNovel
