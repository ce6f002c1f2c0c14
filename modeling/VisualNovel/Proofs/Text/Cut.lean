import VisualNovel.Text.Split

/-!
# Texts cut once

A text that is cut at the first character with a property has no such character in front of the
cut, and every text of which this is true is cut there. A text that is cut at the last
occurrence of a character is cut the same way from behind.
-/

namespace VisualNovel.Text

variable {p : Char → Bool} {cs before after : List Char}

/-- Where nothing fits nothing is cut. -/
theorem cutAtFirst_eq_none (h : ∀ c ∈ cs, p c = false) : cutAtFirst p cs = none := by
  induction cs with
  | nil => rfl
  | cons c cs ih =>
    rw [List.forall_mem_cons] at h
    rw [cutAtFirst, h.1, if_neg Bool.false_ne_true, ih h.2, Option.map_none]

/-- A text is cut where the property holds for the first time. -/
theorem cutAtFirst_append_cons {c : Char} (h : ∀ d ∈ before, p d = false) (hc : p c = true)
    (after : List Char) : cutAtFirst p (before ++ c :: after) = some (before, after) := by
  induction before with
  | nil => rw [List.nil_append, cutAtFirst, if_pos hc]
  | cons d before ih =>
    rw [List.forall_mem_cons] at h
    rw [List.cons_append, cutAtFirst, h.1, if_neg Bool.false_ne_true, ih h.2, Option.map_some]

/-- Where nothing is cut nothing fits. -/
theorem forall_of_cutAtFirst_eq_none (h : cutAtFirst p cs = none) : ∀ c ∈ cs, p c = false := by
  induction cs with
  | nil => simp
  | cons c cs ih =>
    rw [cutAtFirst] at h
    split at h
    · cases h
    · next hc =>
      rw [List.forall_mem_cons]
      exact ⟨Bool.eq_false_iff.mpr hc, ih (Option.map_eq_none_iff.mp h)⟩

/-- What stands before the cut is the beginning of the text, and nothing in it has the property. -/
theorem exists_of_cutAtFirst_eq_some (h : cutAtFirst p cs = some (before, after)) :
    ∃ c, cs = before ++ c :: after ∧ p c = true ∧ ∀ d ∈ before, p d = false := by
  induction cs generalizing before with
  | nil => cases h
  | cons c cs ih =>
    rw [cutAtFirst] at h
    split at h
    · next hc =>
      cases h
      exact ⟨c, rfl, hc, by simp⟩
    · next hc =>
      obtain ⟨⟨front, rest⟩, hcut, heq⟩ := Option.map_eq_some_iff.mp h
      cases heq
      obtain ⟨d, rfl, hd, hfront⟩ := ih hcut
      exact ⟨d, rfl, hd, List.forall_mem_cons.mpr ⟨Bool.eq_false_iff.mpr hc, hfront⟩⟩

/-- A text is cut at the last occurrence of a character. -/
theorem cutAtLast_append_cons {sep : Char} (before : List Char) (h : sep ∉ after) :
    cutAtLast sep (before ++ sep :: after) = some (before, after) := by
  have hreverse : (before ++ sep :: after).reverse = after.reverse ++ sep :: before.reverse := by
    simp
  have hafter : ∀ d ∈ after.reverse, decide (d = sep) = false := by
    intro d hd
    rw [decide_eq_false_iff_not]
    rintro rfl
    exact h (List.mem_reverse.mp hd)
  rw [cutAtLast, hreverse, cutAtFirst_append_cons hafter (decide_eq_true rfl), Option.map_some,
    List.reverse_reverse, List.reverse_reverse]

/-- What is cut off at the last occurrence of a character does not hold it. -/
theorem eq_of_cutAtLast_eq_some {sep : Char} (h : cutAtLast sep cs = some (before, after)) :
    cs = before ++ sep :: after ∧ sep ∉ after := by
  obtain ⟨⟨front, rest⟩, hcut, heq⟩ := Option.map_eq_some_iff.mp h
  cases heq
  obtain ⟨c, hcs, hc, hfront⟩ := exists_of_cutAtFirst_eq_some hcut
  obtain rfl := of_decide_eq_true hc
  constructor
  · rw [← List.reverse_reverse cs, hcs]
    simp
  · intro hmem
    exact of_decide_eq_false (hfront c (List.mem_reverse.mp hmem)) rfl

end VisualNovel.Text
