import VisualNovel.Text.Decimal

/-!
# Decimal digits

The decimal digits of a number are digits, at least one, of which the first is a zero for
zero alone. They are read as the number again, unless it is over the limit. Counted from one, an
index is written as the next number, and not at all if it is the largest that fits into 64 bits.
-/

namespace VisualNovel.Text

theorem isDigit_iff (c : Char) : c.isDigit = true ↔ '0' ≤ c ∧ c ≤ '9' := by
  simp only [Char.isDigit, Bool.and_eq_true, decide_eq_true_eq, ge_iff_le, Char.le_def]

/-- The digits of a number are digits. -/
theorem isDigit_of_mem_toDigits {c : Char} {n : Nat} (h : c ∈ Nat.toDigits 10 n) :
    c.isDigit = true :=
  Nat.isDigit_of_mem_toDigits (by decide) (by decide) h

/-- What is written for a number begins with a digit. -/
theorem exists_toDigits_eq_cons (n : Nat) :
    ∃ c cs, Nat.toDigits 10 n = c :: cs ∧ c.isDigit = true := by
  have hdigits : Nat.toDigits 10 n ≠ [] := Nat.toDigits_ne_nil
  obtain ⟨c, cs, hcs⟩ := List.exists_cons_of_ne_nil hdigits
  exact ⟨c, cs, hcs, isDigit_of_mem_toDigits (hcs ▸ List.mem_cons_self)⟩

/-- Digits are read as the number they stand for. -/
theorem readDigits_eq {cs : List Char} (h : ∀ c ∈ cs, c.isDigit = true) (n : Nat) :
    readDigits n cs = some (Nat.ofDigitChars 10 cs n) := by
  induction cs generalizing n with
  | nil => rfl
  | cons c cs ih =>
    rw [List.forall_mem_cons] at h
    have hc : '0' ≤ c ∧ c ≤ '9' := (isDigit_iff c).mp h.1
    rw [readDigits, digitValue?, if_pos hc, Option.bind_some, ih h.2, Nat.ofDigitChars_cons]

/-- The digits that are written for a number are read as the number. -/
theorem readNat?_toDigits (n : Nat) : readNat? (Nat.toDigits 10 n) = some n := by
  obtain ⟨c, cs, hcs, _⟩ := exists_toDigits_eq_cons n
  have hdigits : ∀ d ∈ c :: cs, d.isDigit = true := by
    rw [← hcs]
    exact fun d hd => isDigit_of_mem_toDigits hd
  rw [hcs, readNat?, readDigits_eq hdigits, ← hcs, Nat.ofDigitChars_ten_toDigits]

/-- A number other than zero is written without a zero at the front. -/
theorem head?_toDigits_ne {n : Nat} (h : n ≠ 0) : (Nat.toDigits 10 n).head? ≠ some '0' := by
  induction n using Nat.strongRecOn with
  | ind n ih =>
    rw [Nat.toDigits_eq_if (by decide)]
    split
    · rw [List.head?_cons, ne_eq, Option.some.injEq, Nat.digitChar_eq_zero]
      exact h
    · obtain ⟨c, cs, hcs, _⟩ := exists_toDigits_eq_cons (n / 10)
      have htail := ih (n / 10) (by omega) (by omega)
      rw [hcs] at htail ⊢
      exact htail

/-- A zero at the front stands alone. -/
theorem eq_nil_of_toDigits {n : Nat} {cs : List Char} (h : Nat.toDigits 10 n = '0' :: cs) :
    cs = [] := by
  by_cases hn : n = 0
  · subst hn
    rw [Nat.toDigits_zero] at h
    cases h
    rfl
  · exact absurd (congrArg List.head? h) (head?_toDigits_ne hn)

/-- Up to the limit, the digits that are written for a number are read as the number. -/
theorem readBounded?_toDigits {limit n : Nat} (h : n ≤ limit) :
    readBounded? limit (Nat.toDigits 10 n) = some n := by
  obtain ⟨c, cs, hcs, hdigit⟩ := exists_toDigits_eq_cons n
  have hread : readNat? (c :: cs) = some n := by
    rw [← hcs]
    exact readNat?_toDigits n
  have hplus : ∀ rest, c :: cs = '+' :: rest → False := by
    rintro rest ⟨⟩
    exact absurd hdigit (by decide)
  rw [hcs, readBounded?, hread, Option.filter_some, if_pos (by simpa using h)]
  exact hplus

/-- An index that is not the largest of 64 bits is counted as the next number. -/
theorem showOrdinal?_of_lt {index : Nat} (h : index < maxIndex) :
    showOrdinal? index = some (showNat (index + 1)) := if_pos h

/-- From the largest index of 64 bits on, nothing is counted. -/
theorem showOrdinal?_of_le {index : Nat} (h : maxIndex ≤ index) : showOrdinal? index = none :=
  if_neg (Nat.not_lt.mpr h)

end VisualNovel.Text
