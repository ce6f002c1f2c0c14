/-!
# Cutting text at a separator

A text, or any other list, is cut at every occurrence of an item into pieces, of
which there is always at least one, and put together again by joining them. Joining inverts
cutting on every text, and cutting inverts joining on every non-empty list of
pieces that do not hold the separator.
-/

namespace VisualNovel.Text

section Pieces

variable {α : Type} [DecidableEq α]

/-- The pieces between the occurrences of a separator, at least one. -/
def pieces (sep : α) : List α → List (List α)
  | [] => [[]]
  | c :: cs =>
    if c = sep then [] :: pieces sep cs
    else match pieces sep cs with
      | [] => [[c]]
      | p :: ps => (c :: p) :: ps

/-- The pieces with the separator between them. -/
def joinPieces {α : Type} (sep : α) : List (List α) → List α
  | [] => []
  | [p] => p
  | p :: q :: ps => p ++ sep :: joinPieces sep (q :: ps)

theorem pieces_ne_nil (sep : α) (cs : List α) : pieces sep cs ≠ [] := by
  cases cs with
  | nil => simp [pieces]
  | cons c cs =>
    rw [pieces]
    split
    · simp
    · split <;> simp

/-- Joining the pieces of a text gives the text. -/
theorem joinPieces_pieces (sep : α) (cs : List α) :
    joinPieces sep (pieces sep cs) = cs := by
  induction cs with
  | nil => rfl
  | cons c cs ih =>
    rw [pieces]
    split
    · next h =>
      cases hp : pieces sep cs with
      | nil => exact absurd hp (pieces_ne_nil sep cs)
      | cons p ps => rw [hp] at ih; simp [joinPieces, ih, h]
    · cases hp : pieces sep cs with
      | nil => exact absurd hp (pieces_ne_nil sep cs)
      | cons p ps =>
        rw [hp] at ih
        cases ps with
        | nil => simpa [joinPieces] using ih
        | cons q qs => simpa [joinPieces] using ih

/-- No piece holds the separator. -/
theorem not_mem_of_mem_pieces {sep : α} {cs p : List α} (h : p ∈ pieces sep cs) :
    sep ∉ p := by
  induction cs generalizing p with
  | nil => simp_all [pieces]
  | cons c cs ih =>
    rw [pieces] at h
    split at h
    · rcases List.mem_cons.mp h with rfl | h
      · simp
      · exact ih h
    · next hc =>
      cases hp : pieces sep cs with
      | nil => exact absurd hp (pieces_ne_nil sep cs)
      | cons q qs =>
        rw [hp] at h ih
        rcases List.mem_cons.mp h with rfl | h
        · simp only [List.mem_cons, not_or]
          exact ⟨fun e => hc e.symm, ih List.mem_cons_self⟩
        · exact ih (List.mem_cons_of_mem _ h)

end Pieces

/-- The parts before and after the first character with a property. -/
def cutAtFirst (p : Char → Bool) : List Char → Option (List Char × List Char)
  | [] => none
  | c :: cs => if p c then some ([], cs) else (cutAtFirst p cs).map fun r => (c :: r.1, r.2)

/-- The parts before and after the last occurrence of a character. -/
def cutAtLast (sep : Char) (cs : List Char) : Option (List Char × List Char) :=
  (cutAtFirst (· = sep) cs.reverse).map fun r => (r.2.reverse, r.1.reverse)

/-- A text cut at every occurrence of a separator. -/
def split (sep : Char) (s : String) : List String :=
  (pieces sep s.toList).map String.ofList

/-- Texts put together with a separator between them. -/
def join (sep : Char) (parts : List String) : String :=
  String.ofList (joinPieces sep (parts.map String.toList))

end VisualNovel.Text
