import VisualNovel.Text.Lines

/-!
# Written lines

Cutting at a separator is the library's `List.splitOn`, and joining with one is
`List.intercalate`. From this follows what is read of lines that were written with
a line feed after each: every line comes back, but for one carriage return at its
end. A text that goes on after a line feed has the lines of both its parts. No line that is read
holds a line feed.
-/

namespace VisualNovel.Text

section Pieces

variable {α : Type} [DecidableEq α]

/-- The pieces of a list are those of the library. -/
theorem pieces_eq_splitOn (sep : α) (cs : List α) : pieces sep cs = cs.splitOn sep := by
  induction cs with
  | nil => simp [pieces]
  | cons c cs ih =>
    rw [pieces, List.splitOn_cons_eq_if_modifyHead, ih]
    by_cases hc : c = sep
    · simp [hc]
    · cases hp : cs.splitOn sep with
      | nil => exact absurd hp (List.splitOn_ne_nil sep cs)
      | cons p ps => simp [hc]

/-- Joining pieces is what the library calls intercalating the separator. -/
theorem joinPieces_eq_intercalate {α : Type} (sep : α) (ps : List (List α)) :
    joinPieces sep ps = [sep].intercalate ps := by
  induction ps with
  | nil => rfl
  | cons p ps ih =>
    cases ps with
    | nil => simp [joinPieces]
    | cons q qs => simp [joinPieces, ih, List.intercalate_cons_cons]

/-- Cutting inverts joining on pieces that do not hold the separator. -/
theorem pieces_joinPieces {sep : α} {ps : List (List α)} (hne : ps ≠ [])
    (h : ∀ p ∈ ps, sep ∉ p) : pieces sep (joinPieces sep ps) = ps := by
  rw [pieces_eq_splitOn, joinPieces_eq_intercalate]
  exact List.splitOn_intercalate sep h hne

/-- What stands before the first separator is the first piece. -/
theorem pieces_append_cons {sep : α} {p : List α} (h : sep ∉ p) (rest : List α) :
    pieces sep (p ++ sep :: rest) = p :: pieces sep rest := by
  simp only [pieces_eq_splitOn]
  exact List.splitOn_append_cons_self_of_not_mem h rest

/-- A separator ends the pieces before it. -/
theorem pieces_append (sep : α) (cs rest : List α) :
    pieces sep (cs ++ sep :: rest) = pieces sep cs ++ pieces sep rest := by
  simp only [pieces_eq_splitOn]
  exact List.splitOn_append_cons_self cs rest

/-- What holds no separator is one piece. -/
theorem pieces_of_not_mem {sep : α} {cs : List α} (h : sep ∉ cs) : pieces sep cs = [cs] := by
  rw [pieces_eq_splitOn]
  exact List.splitOn_eq_singleton h

/-- Every character of a piece is one of the text that was cut. -/
theorem mem_of_mem_pieces {sep c : α} {cs p : List α} (hp : p ∈ pieces sep cs) (hc : c ∈ p) :
    c ∈ cs := by
  rw [← joinPieces_pieces sep cs]
  generalize pieces sep cs = ps at hp
  induction ps with
  | nil => simp at hp
  | cons q ps ih =>
    cases ps with
    | nil => simpa [joinPieces, List.mem_singleton.mp hp] using hc
    | cons r ps =>
      rw [joinPieces, List.mem_append, List.mem_cons]
      rcases List.mem_cons.mp hp with rfl | hp
      · exact Or.inl hc
      · exact Or.inr (Or.inr (ih hp))

end Pieces

/-- Joined pieces end in the last one; each of the others has a separator after it. -/
theorem joinPieces_concat {α : Type} (sep : α) (ps : List (List α)) (p : List α) :
    joinPieces sep (ps ++ [p]) = ps.flatMap (· ++ [sep]) ++ p := by
  induction ps with
  | nil => simp [joinPieces]
  | cons q ps ih =>
    cases ps with
    | nil => simp [joinPieces]
    | cons r ps => simpa [joinPieces] using ih

/-- What is left of a line when the line feed after it takes one carriage return away. -/
def withoutReturn (line : String) : String := String.ofList (dropReturn line.toList)

/-- The first line feed ends the first line. -/
theorem lineChars_append_cons {l : List Char} (h : '\n' ∉ l) (rest : List Char) :
    lineChars (l ++ '\n' :: rest) = dropReturn l :: lineChars rest := by
  rw [lineChars, pieces_append_cons h, lineChars]
  cases hp : pieces '\n' rest with
  | nil => exact absurd hp (pieces_ne_nil '\n' rest)
  | cons p ps => rfl

/-- All pieces before the last ones are lines that were ended. -/
theorem linesOfPieces_append (ps : List (List Char)) {qs : List (List Char)} (h : qs ≠ []) :
    linesOfPieces (ps ++ qs) = ps.map dropReturn ++ linesOfPieces qs := by
  induction ps with
  | nil => rfl
  | cons p ps ih =>
    obtain ⟨q, rest, hrest⟩ := List.exists_cons_of_ne_nil (List.append_ne_nil_of_right_ne_nil ps h)
    rw [List.cons_append, hrest, linesOfPieces, ← hrest, ih, List.map_cons, List.cons_append]

/-- A text that goes on after a line feed goes on with new lines. -/
theorem lines_append {a : String} (h : a = "" ∨ a.toList.getLast? = some '\n') (b : String) :
    lines (a ++ b) = lines a ++ lines b := by
  rcases h with rfl | hlast
  · rw [String.empty_append]
    rfl
  · obtain ⟨cs, hcs⟩ := List.getLast?_eq_some_iff.mp hlast
    have hends (rest : List Char) : lineChars (cs ++ '\n' :: rest) =
        (pieces '\n' cs).map dropReturn ++ lineChars rest := by
      rw [lineChars, pieces_append, linesOfPieces_append _ (pieces_ne_nil '\n' rest), lineChars]
    have hall : (a ++ b).toList = cs ++ '\n' :: b.toList := by
      rw [String.toList_append, hcs, List.append_assoc, List.singleton_append]
    have hself : lineChars [] = [] := rfl
    rw [lines, lines, lines, hall, hcs, hends, hends, hself]
    simp

/-- Every written line is read, but for one carriage return at its end. -/
theorem lines_unlines {ls : List String} (h : ∀ l ∈ ls, '\n' ∉ l.toList) :
    lines (unlines ls) = ls.map withoutReturn := by
  induction ls with
  | nil => rfl
  | cons l ls ih =>
    have hl : '\n' ∉ l.toList := h l List.mem_cons_self
    have hrest := ih fun l hl => h l (List.mem_cons_of_mem _ hl)
    have hcons : (unlines (l :: ls)).toList = l.toList ++ '\n' :: (unlines ls).toList := by
      simp [unlines]
    rw [lines, hcons, lineChars_append_cons hl]
    simpa [lines, withoutReturn] using hrest

/-- Taking a carriage return away takes no other character. -/
theorem mem_of_mem_dropReturn {c : Char} {line : List Char} (h : c ∈ dropReturn line) :
    c ∈ line := by
  rw [dropReturn] at h
  split at h
  · exact List.dropLast_subset _ h
  · exact h

/-- A line without its carriage return has no other characters. -/
theorem mem_of_mem_withoutReturn {c : Char} {line : String}
    (h : c ∈ (withoutReturn line).toList) : c ∈ line.toList :=
  mem_of_mem_dropReturn (by simpa [withoutReturn] using h)

/-- No line that is read holds a line feed. -/
theorem not_mem_of_mem_linesOfPieces {ps : List (List Char)} (h : ∀ p ∈ ps, '\n' ∉ p)
    {l : List Char} (hl : l ∈ linesOfPieces ps) : '\n' ∉ l := by
  induction ps with
  | nil => simp [linesOfPieces] at hl
  | cons p ps ih =>
    have hp : '\n' ∉ p := h p List.mem_cons_self
    cases ps with
    | nil =>
      simp only [linesOfPieces] at hl
      split at hl
      · simp at hl
      · simpa [List.mem_singleton.mp hl] using hp
    | cons q qs =>
      simp only [linesOfPieces, List.mem_cons] at hl
      rcases hl with rfl | hl
      · exact fun hc => hp (mem_of_mem_dropReturn hc)
      · exact ih (fun p hp => h p (List.mem_cons_of_mem _ hp)) hl

/-- No line of a text holds a line feed. -/
theorem not_mem_of_mem_lines {text line : String} (h : line ∈ lines text) :
    '\n' ∉ line.toList := by
  obtain ⟨l, hl, rfl⟩ := List.mem_map.mp h
  rw [String.toList_ofList]
  exact not_mem_of_mem_linesOfPieces (fun _ => not_mem_of_mem_pieces) hl

/-- A carriage return is taken from the last part of a line, unless that part is empty. -/
theorem dropReturn_append {a b : List Char} (hb : b ≠ []) :
    dropReturn (a ++ b) = a ++ dropReturn b := by
  have hlast : (a ++ b).getLast? = b.getLast? := by
    rw [List.getLast?_append, List.getLast?_eq_some_getLast hb, Option.some_or]
  rw [dropReturn, dropReturn, hlast]
  split
  · exact List.dropLast_append_of_ne_nil hb
  · rfl

/-- A line stays as it is exactly if it does not end in a carriage return. -/
theorem withoutReturn_eq_self_iff {line : String} :
    withoutReturn line = line ↔ line.toList.getLast? ≠ some '\r' := by
  rw [← String.toList_inj, withoutReturn, String.toList_ofList, dropReturn]
  split
  · next h =>
    have hne : line.toList ≠ [] := by
      intro he
      simp [he] at h
    refine iff_of_false (fun he => ?_) (fun hn => hn h)
    have hlen := congrArg List.length he
    have hpos := List.length_pos_iff.mpr hne
    rw [List.length_dropLast] at hlen
    omega
  · next h => exact iff_of_true rfl h

end VisualNovel.Text
