import VisualNovel.Quartet
import Mathlib.Data.List.Basic

/-!
# Places of a quartet

The values of a quartet are numbered by their places, and numbering them one after the other
is the same as asking for the value at each place.
-/

namespace VisualNovel.Quartet

variable {α β : Type}

/-- A value is numbered by its place. -/
theorem mem_zipIdx {q : Quartet α} {a : α} {i : Nat} :
    (a, i) ∈ q.toList.zipIdx ↔ q.get? i = some a := by
  rw [List.mk_mem_zipIdx_iff_getElem?, getElem?_toList]

/-- The numbers grow from value to value. -/
theorem pairwise_zipIdx (q : Quartet α) : q.toList.zipIdx.Pairwise (·.2 < ·.2) := by
  rw [← List.pairwise_map (f := Prod.snd) (R := (· < ·)), List.zipIdx_map_snd]
  exact List.pairwise_lt_range'

/-- What is picked from place to place is what is picked from value to value. -/
theorem filterMap_range (q : Quartet α) (f : α → Option β) :
    ((List.range size).filterMap fun i => (q.get? i).bind f) = q.toList.filterMap f := rfl

/-- Quartets with the same value at every place are the same. -/
theorem ext_get? {q r : Quartet α} (h : ∀ i, q.get? i = r.get? i) : q = r := by
  obtain ⟨_, _, _, _⟩ := q
  obtain ⟨_, _, _, _⟩ := r
  rw [Quartet.mk.injEq]
  exact ⟨Option.some.inj (h 0), Option.some.inj (h 1), Option.some.inj (h 2),
    Option.some.inj (h 3)⟩

/-- Two changes of one value are one change. -/
theorem modify_modify (q : Quartet α) (i : Nat) (f g : α → α) :
    (q.modify i f).modify i g = q.modify i fun a => g (f a) := by
  apply ext_get?
  intro j
  simp only [get?_modify]
  split
  · rw [Option.map_map]
    rfl
  · rfl

/-- There is something at an index below four, and nothing at any other. -/
theorem isSome_get? {q : Quartet α} {i : Nat} : (q.get? i).isSome = true ↔ i < size := by
  rw [← getElem?_toList, Option.isSome_iff_ne_none, ne_eq, List.getElem?_eq_none_iff, Nat.not_le]
  rfl

end VisualNovel.Quartet
