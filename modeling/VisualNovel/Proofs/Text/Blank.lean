import VisualNovel.Text.Blank

/-!
# Texts without white edges

What is kept of a text that is not blank, whether it is trimmed or not: it is not nothing,
and it has no character that the text did not have. A text has nothing to trim exactly if it is
white at neither end, and so trimming twice is trimming once.
-/

namespace VisualNovel.Text

/-- A text that is not blank has something left when it is trimmed. -/
theorem ne_empty_of_trimmedNonBlank {s t : String} (h : trimmedNonBlank s = some t) : t ≠ "" := by
  rw [trimmedNonBlank] at h
  split at h
  · cases h
  · next hblank =>
    cases h
    exact fun ht => hblank (isBlank_iff_trim_eq.mpr ht)

/-- Trimming brings no character. -/
theorem mem_of_mem_trim {s : String} {c : Char} (h : c ∈ (trim s).toList) : c ∈ s.toList := by
  rw [toList_trim, trimChars, List.mem_reverse] at h
  have hfront := (List.dropWhile_suffix _).subset h
  rw [List.mem_reverse] at hfront
  exact (List.dropWhile_suffix _).subset hfront

/-- What is left of a text that is trimmed is its trimmed text. -/
theorem eq_of_trimmedNonBlank {s t : String} (h : trimmedNonBlank s = some t) : t = trim s := by
  rw [trimmedNonBlank] at h
  split at h
  · cases h
  · exact (Option.some.inj h).symm

/-- What is left of a text that is not trimmed is the text. -/
theorem eq_of_nonBlank {s t : String} (h : nonBlank s = some t) : t = s ∧ t ≠ "" := by
  rw [nonBlank] at h
  split at h
  · cases h
  · next hblank =>
    obtain rfl := Option.some.inj h
    refine ⟨rfl, ?_⟩
    rintro rfl
    exact hblank rfl

/-- What is left of a text when it is trimmed begins with something that is not white. -/
theorem head?_trimChars {cs : List Char} : ∀ c ∈ (trimChars cs).head?, isBlankChar c = false := by
  intro c hc
  have hprefix : trimChars cs <+: cs.dropWhile isBlankChar := by
    rw [trimChars, ← List.reverse_suffix, List.reverse_reverse]
    exact List.dropWhile_suffix isBlankChar
  obtain ⟨rest, hrest⟩ := hprefix
  have hhead : (cs.dropWhile isBlankChar).head? = some c := by
    rw [← hrest, List.head?_append, hc, Option.some_or]
  have hnot := List.head?_dropWhile_not isBlankChar cs
  rwa [hhead] at hnot

/-- It ends with something that is not white. -/
theorem getLast?_trimChars {cs : List Char} :
    ∀ c ∈ (trimChars cs).getLast?, isBlankChar c = false := by
  intro c hc
  rw [trimChars, List.getLast?_reverse] at hc
  have hnot := List.head?_dropWhile_not isBlankChar (cs.dropWhile isBlankChar).reverse
  rwa [hc] at hnot

/-- Nothing is dropped from what does not begin with white space. -/
theorem dropWhile_eq_self {cs : List Char} (h : ∀ c ∈ cs.head?, isBlankChar c = false) :
    cs.dropWhile isBlankChar = cs := by
  cases cs with
  | nil => rfl
  | cons c cs => rw [List.dropWhile_cons, h c rfl, if_neg Bool.false_ne_true]

/-- A text is trimmed already exactly if it is white at neither end. -/
theorem trimChars_eq_self_iff {cs : List Char} :
    trimChars cs = cs ↔ (∀ c ∈ cs.head?, isBlankChar c = false) ∧
      ∀ c ∈ cs.getLast?, isBlankChar c = false := by
  constructor
  · intro h
    rw [← h]
    exact ⟨head?_trimChars, getLast?_trimChars⟩
  · rintro ⟨hhead, hlast⟩
    rw [← List.head?_reverse] at hlast
    rw [trimChars, dropWhile_eq_self hhead, dropWhile_eq_self hlast, List.reverse_reverse]

/-- Trimming twice is trimming once. -/
theorem trimChars_trimChars (cs : List Char) : trimChars (trimChars cs) = trimChars cs :=
  trimChars_eq_self_iff.mpr ⟨head?_trimChars, getLast?_trimChars⟩

/-- A trimmed text has nothing to trim. -/
theorem trim_trim (s : String) : trim (trim s) = trim s := by
  rw [trim, toList_trim, trimChars_trimChars, trim]

/-- A text has nothing to trim just if its characters have not. -/
theorem trim_eq_self_iff {s : String} : trim s = s ↔ trimChars s.toList = s.toList := by
  rw [← String.toList_inj, toList_trim]

/-- A text without white space has nothing to trim. -/
theorem trimChars_eq_self_of_forall {cs : List Char} (h : ∀ c ∈ cs, isBlankChar c = false) :
    trimChars cs = cs :=
  trimChars_eq_self_iff.mpr
    ⟨fun c hc => h c (List.mem_of_head? hc), fun c hc => h c (List.mem_of_getLast? hc)⟩

/-- Texts that are put one after the other, with something between them, have nothing to trim at
the ends that they do not have themselves. -/
theorem trimChars_append_eq_self {cs ds : List Char} (hcs : cs ≠ []) (hds : ds ≠ [])
    (hcs' : trimChars cs = cs) (hds' : trimChars ds = ds) (between : List Char) :
    trimChars (cs ++ between ++ ds) = cs ++ between ++ ds := by
  obtain ⟨hhead, _⟩ := trimChars_eq_self_iff.mp hcs'
  obtain ⟨_, hlast⟩ := trimChars_eq_self_iff.mp hds'
  obtain ⟨c, cs, rfl⟩ := List.exists_cons_of_ne_nil hcs
  have hend : (c :: cs ++ between ++ ds).getLast? = ds.getLast? := by
    rw [List.getLast?_append, List.getLast?_eq_some_getLast hds, Option.some_or]
  rw [trimChars_eq_self_iff, hend]
  exact ⟨hhead, hlast⟩

/-- A white character at an end of a text is trimmed with it. -/
theorem trimChars_cons {c : Char} (h : isBlankChar c = true) (cs : List Char) :
    trimChars (c :: cs) = trimChars cs := by
  rw [trimChars, List.dropWhile_cons_of_pos h, trimChars]

/-- White space at the end is trimmed. -/
theorem trimChars_concat {c : Char} (h : isBlankChar c = true) (cs : List Char) :
    trimChars (cs ++ [c]) = trimChars cs := by
  rw [trimChars, trimChars, List.dropWhile_append]
  by_cases hempty : (cs.dropWhile isBlankChar).isEmpty = true
  · rw [if_pos hempty, List.isEmpty_iff.mp hempty, List.dropWhile_cons_of_pos h]
    rfl
  · rw [if_neg hempty, List.reverse_append, List.reverse_singleton, List.singleton_append,
      List.dropWhile_cons_of_pos h]

end VisualNovel.Text
