import VisualNovel.Proofs.Text.Blank
import VisualNovel.Proofs.Text.Decimal

/-!
# Words and phrases

A word is a text with something in it and no white space, such as the digits of a number. A
phrase is made of texts with single spaces between them, where empty ones are left out. A phrase
of trimmed texts is trimmed.
-/

namespace VisualNovel.Text

/-- A text that is a word: something without white space in it. -/
structure IsWord (s : String) : Prop where
  ne_empty : s ≠ ""
  unbroken : ∀ c ∈ s.toList, isBlankChar c = false

instance (s : String) : Decidable (IsWord s) :=
  decidable_of_iff (s ≠ "" ∧ s.toList.all (!isBlankChar ·) = true)
    ⟨fun ⟨hne, hunbroken⟩ => ⟨hne, by simpa using hunbroken⟩,
      fun h => ⟨h.ne_empty, by simpa using h.unbroken⟩⟩

/-- A word has nothing to trim. -/
theorem IsWord.trim_eq {s : String} (h : IsWord s) : trim s = s :=
  trim_eq_self_iff.mpr (trimChars_eq_self_of_forall h.unbroken)

/-- A digit is not white space. -/
theorem isBlankChar_of_isDigit {c : Char} (h : c.isDigit = true) : isBlankChar c = false := by
  simp only [Char.isDigit, Bool.and_eq_true, decide_eq_true_eq, ge_iff_le, UInt32.le_iff_toNat_le]
    at h
  obtain ⟨hlow, hhigh⟩ := h
  change 48 ≤ c.toNat at hlow
  change c.toNat ≤ 57 at hhigh
  simp only [isBlankChar, Bool.or_eq_false_iff, Bool.and_eq_false_iff, decide_eq_false_iff_not,
    beq_eq_false_iff_ne]
  omega

/-- A number is a word. -/
theorem isWord_showNat (n : Nat) : IsWord (showNat n) where
  ne_empty h := by
    have hempty := congrArg String.toList h
    rw [showNat, String.toList_ofList] at hempty
    exact Nat.toDigits_ne_nil hempty
  unbroken c hc := by
    rw [showNat, String.toList_ofList] at hc
    exact isBlankChar_of_isDigit (isDigit_of_mem_toDigits hc)

/-- Texts one after the other with single spaces between them; what is empty is left out. -/
def phrase : List String → String
  | [] => ""
  | s :: rest =>
    if s = "" then phrase rest
    else if phrase rest = "" then s
    else s ++ " " ++ phrase rest

theorem phrase_singleton (s : String) : phrase [s] = s := by
  by_cases h : s = "" <;> simp [phrase, h]

/-- A phrase of trimmed texts is trimmed. -/
theorem trim_phrase {texts : List String} (h : ∀ s ∈ texts, trim s = s) :
    trim (phrase texts) = phrase texts := by
  induction texts with
  | nil => rfl
  | cons s rest ih =>
    rw [List.forall_mem_cons] at h
    have hrest := ih h.2
    rw [phrase]
    by_cases hs : s = ""
    · rwa [if_pos hs]
    · rw [if_neg hs]
      by_cases hempty : phrase rest = ""
      · rw [if_pos hempty]
        exact h.1
      · rw [if_neg hempty, trim_eq_self_iff, String.toList_append, String.toList_append]
        exact trimChars_append_eq_self (by simpa using hs) (by simpa using hempty)
          (trim_eq_self_iff.mp h.1) (trim_eq_self_iff.mp hrest) _

end VisualNovel.Text
