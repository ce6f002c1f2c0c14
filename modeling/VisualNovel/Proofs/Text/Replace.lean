import VisualNovel.Text.Replace
import Mathlib.Data.List.Infix

/-!
# What is replaced

A text falls into occurrences of a pattern and characters at which none begins, and replacing
goes through it in just this way. From this follows when the parts of a text are replaced
apart from each other.
-/

namespace VisualNovel.Text

variable {pattern new s t : List Char}

/-- A prefix of two lists lies within the first or reaches into the second. -/
theorem prefix_append_cases (h : pattern <+: s ++ t) :
    pattern <+: s ∨ ∃ r, r ≠ [] ∧ pattern = s ++ r ∧ r <+: t := by
  obtain ⟨rest, hrest⟩ := h
  rcases List.append_eq_append_iff.mp hrest with ⟨r, rfl, _⟩ | ⟨r, rfl, hr⟩
  · exact Or.inl (List.prefix_append _ _)
  · by_cases hne : r = []
    · subst hne
      exact Or.inl (by simp)
    · exact Or.inr ⟨r, hne, rfl, rest, hr.symm⟩

/-- A pattern occurs in a text just if it is a part of it. -/
theorem occursIn_iff : occursIn pattern s = true ↔ pattern <:+: s := by
  induction s with
  | nil => simp [occursIn]
  | cons c s ih =>
    rw [occursIn, Bool.or_eq_true, List.isPrefixOf_iff_prefix, ih, List.infix_cons_iff]

/-- Induction along a text that is cut at the occurrences of a pattern. -/
theorem occurrence_induction {P : List Char → Prop} (hp : pattern ≠ []) (nil : P [])
    (found : ∀ rest, P rest → P (pattern ++ rest))
    (kept : ∀ c cs, ¬ pattern <+: c :: cs → P cs → P (c :: cs)) (cs : List Char) : P cs := by
  induction hn : cs.length using Nat.strongRecOn generalizing cs with
  | ind n ih =>
    subst hn
    cases cs with
    | nil => exact nil
    | cons c cs =>
      by_cases h : pattern <+: c :: cs
      · obtain ⟨rest, hrest⟩ := h
        have hshorter : rest.length < (c :: cs).length := by
          have hpos := List.length_pos_iff.mpr hp
          rw [← hrest, List.length_append]
          omega
        rw [← hrest]
        exact found rest (ih rest.length hshorter rest rfl)
      · exact kept c cs h (ih cs.length (Nat.lt_succ_self _) cs rfl)

/-- To skip characters is to begin behind them. -/
theorem replaceFrom_eq_drop (pattern new : List Char) (skip : Nat) (cs : List Char) :
    replaceFrom pattern new skip cs = replaceChars pattern new (cs.drop skip) := by
  induction skip generalizing cs with
  | zero => rfl
  | succ skip ih =>
    cases cs with
    | nil => rfl
    | cons c cs => exact ih cs

@[simp] theorem replaceChars_nil : replaceChars pattern new [] = [] := rfl

/-- An occurrence at the front gives way. -/
theorem replaceChars_pattern_append (hp : pattern ≠ []) (rest : List Char) :
    replaceChars pattern new (pattern ++ rest) = new ++ replaceChars pattern new rest := by
  obtain ⟨c, tail, rfl⟩ := List.exists_cons_of_ne_nil hp
  have hfound : (c :: tail).isPrefixOf (c :: (tail ++ rest)) = true :=
    List.isPrefixOf_iff_prefix.mpr (List.prefix_append (c :: tail) rest)
  rw [List.cons_append, replaceChars, replaceFrom, if_pos hfound, replaceFrom_eq_drop,
    List.length_cons, Nat.add_sub_cancel, List.drop_left]

/-- A character at which no occurrence begins stays. -/
theorem replaceChars_cons {c : Char} {cs : List Char} (h : ¬ pattern <+: c :: cs) :
    replaceChars pattern new (c :: cs) = c :: replaceChars pattern new cs := by
  rw [← List.isPrefixOf_iff_prefix] at h
  rw [replaceChars, replaceFrom, if_neg h]
  rfl

/-- Characters at none of which an occurrence begins stay. -/
theorem replaceChars_append_of_forall (h : ∀ v, v <:+ s → v ≠ [] → ¬ pattern <+: v ++ t) :
    replaceChars pattern new (s ++ t) = s ++ replaceChars pattern new t := by
  induction s with
  | nil => rfl
  | cons c s ih =>
    have hc : ¬ pattern <+: c :: (s ++ t) := h (c :: s) List.suffix_rfl (by simp)
    have hs : ∀ v, v <:+ s → v ≠ [] → ¬ pattern <+: v ++ t :=
      fun v hv => h v (hv.trans (List.suffix_cons c s))
    rw [List.cons_append, replaceChars_cons hc, ih hs, List.cons_append]

/-- A text without an occurrence stays as it is. -/
theorem replaceChars_of_absent (h : ¬ pattern <:+: s) : replaceChars pattern new s = s := by
  have hkept : replaceChars pattern new (s ++ []) = s ++ replaceChars pattern new [] := by
    apply replaceChars_append_of_forall
    intro v hv _ hbegins
    rw [List.append_nil] at hbegins
    exact h (hbegins.isInfix.trans hv.isInfix)
  simpa using hkept

/-- To replace a pattern by itself changes nothing. -/
theorem replaceChars_self (hp : pattern ≠ []) (cs : List Char) :
    replaceChars pattern pattern cs = cs := by
  induction cs using occurrence_induction hp with
  | nil => rfl
  | found rest ih => rw [replaceChars_pattern_append hp, ih]
  | kept c cs hc ih => rw [replaceChars_cons hc, ih]

section Marked

variable {mark : Char} {tail : List Char}

/-- What begins with the mark is replaced apart from what stands before it: a pattern whose first
character does not come again in it has no occurrence that reaches into another one. -/
theorem replaceChars_append_of_mark (hmark : mark ∉ tail) (s t : List Char) :
    replaceChars (mark :: tail) new (s ++ mark :: t) =
      replaceChars (mark :: tail) new s ++ replaceChars (mark :: tail) new (mark :: t) := by
  have hp : mark :: tail ≠ [] := List.cons_ne_nil _ _
  induction s using occurrence_induction hp with
  | nil => rfl
  | found rest ih =>
    rw [List.append_assoc, replaceChars_pattern_append hp, ih, replaceChars_pattern_append hp,
      List.append_assoc]
  | kept c cs hc ih =>
    have hlonger : ¬ mark :: tail <+: c :: (cs ++ mark :: t) := by
      intro h
      rcases prefix_append_cases (s := c :: cs) h with h | ⟨r, hr, htail, hrt⟩
      · exact hc h
      · obtain ⟨d, r, rfl⟩ := List.exists_cons_of_ne_nil hr
        obtain rfl := (List.cons_prefix_cons.mp hrt).1
        rw [List.cons_append, List.cons.injEq] at htail
        exact hmark (by simp [htail.2])
    rw [List.cons_append, replaceChars_cons hlonger, ih, replaceChars_cons hc, List.cons_append]

/-- Wherever an occurrence stands, what is before it, itself and what is behind it are replaced
apart from each other. -/
theorem replaceChars_append_pattern_append (hmark : mark ∉ tail) (s t : List Char) :
    replaceChars (mark :: tail) new (s ++ (mark :: tail ++ t)) =
      replaceChars (mark :: tail) new s ++ (new ++ replaceChars (mark :: tail) new t) := by
  rw [List.cons_append, replaceChars_append_of_mark hmark, ← List.cons_append,
    replaceChars_pattern_append (List.cons_ne_nil _ _)]

end Marked

end VisualNovel.Text
