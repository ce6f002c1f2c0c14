import VisualNovel.Json.Printer
import VisualNovel.Json.Reader
import VisualNovel.Proofs.Text.Decimal

/-!
# Reading literals back

String literals and numbers that were written are read as they were, whatever stands behind
a literal. A number ends where neither a digit nor a point nor an exponent follows, which is
so behind every number of a text that was written.
-/

namespace VisualNovel.Json

open Text

/-- The characters that are written with a letter behind a backslash. -/
def named : List Char := ['"', '\\', '\x08', '\t', '\n', '\x0c', '\r']

/-- The piece that is read where a character was written. -/
def pieceOf (c : Char) : Piece :=
  if c.toNat < 0x20 ∧ c ∉ named then .unit c.toNat else .char c

/-- A character without a letter of its own is written by its number if it is a control character,
and else as it is. -/
theorem escapeChar_of_not_mem_named {c : Char} (h : c ∉ named) :
    escapeChar c = if c.toNat < 0x20 then
      ['\\', 'u', '0', '0', hexDigit (c.toNat / 16), hexDigit (c.toNat % 16)] else [c] := by
  simp only [named, List.mem_cons, List.not_mem_nil, or_false, not_or] at h
  obtain ⟨hquote, hslash, hb, ht, hn, hf, hr⟩ := h
  rw [escapeChar, if_neg hquote, if_neg hslash, if_neg hb, if_neg ht, if_neg hn, if_neg hf,
    if_neg hr]

/-- The hexadecimal digits of a control character. -/
theorem hexUnit?_hexDigit : ∀ n < 0x20,
    hexUnit? '0' '0' (hexDigit (n / 16)) (hexDigit (n % 16)) = some n := by
  decide

/-- A character that was written is read as its piece. -/
theorem readPieces_escapeChar (c : Char) (cs : List Char) :
    readPieces (escapeChar c ++ cs) = (readPieces cs).map fun r => (pieceOf c :: r.1, r.2) := by
  by_cases hnamed : c ∈ named
  · have hpiece : pieceOf c = .char c := if_neg fun h => h.2 hnamed
    rw [hpiece]
    simp only [named, List.mem_cons, List.not_mem_nil, or_false] at hnamed
    rcases hnamed with rfl | rfl | rfl | rfl | rfl | rfl | rfl <;>
      cases hcs : readPieces cs <;> simp [escapeChar, readPieces, simpleEscape?, hcs]
  · rw [escapeChar_of_not_mem_named hnamed]
    by_cases hcontrol : c.toNat < 0x20
    · have hpiece : pieceOf c = .unit c.toNat := if_pos ⟨hcontrol, hnamed⟩
      rw [if_pos hcontrol, hpiece]
      simp only [List.cons_append, List.nil_append, readPieces, hexUnit?_hexDigit _ hcontrol]
      cases readPieces cs <;> rfl
    · have hpiece : pieceOf c = .char c := if_neg fun h => hcontrol h.1
      simp only [named, List.mem_cons, not_or] at hnamed
      have hslash : (c.toNat < 0x20 || c == '\\') = false := by
        simp [hcontrol, hnamed.2.1]
      rw [if_neg hcontrol, hpiece, List.singleton_append]
      rw [readPieces]
      · simp only [hslash]
        cases readPieces cs <;> rfl
      · exact hnamed.1
      · intro _ _ _ _ _ hc _
        exact hnamed.2.1 hc
      · intro _ _ hc _
        exact hnamed.2.1 hc

/-- Pieces are read up to the quote, one for each character that was written. -/
theorem readPieces_flatMap_escapeChar (s rest : List Char) :
    readPieces (s.flatMap escapeChar ++ '"' :: rest) = some (s.map pieceOf, rest) := by
  induction s with
  | nil => rfl
  | cons c s ih =>
    rw [List.flatMap_cons, List.append_assoc, readPieces_escapeChar, ih, Option.map_some,
      List.map_cons]

/-- A unit that is no part of a surrogate pair is a character of its own. -/
theorem assemble_unit_cons {n : Nat} (h : n < 0xD800) (ps : List Piece) :
    assemble (.unit n :: ps) = (assemble ps).map (Char.ofNat n :: ·) := by
  have hhigh : isHighUnit n = false := by
    rw [isHighUnit, decide_eq_false (by omega), Bool.false_and]
  have hlow : isLowUnit n = false := by
    rw [isLowUnit, decide_eq_false (by omega), Bool.false_and]
  cases ps with
  | nil => simp [assemble, hhigh, hlow]
  | cons p ps => cases p <;> simp [assemble, hhigh, hlow]

/-- The pieces of a text make up the text. -/
theorem assemble_map_pieceOf (s : List Char) : assemble (s.map pieceOf) = some s := by
  induction s with
  | nil => rfl
  | cons c s ih =>
    rw [List.map_cons, pieceOf]
    split
    · next hcontrol =>
      rw [assemble_unit_cons (by omega), ih, Option.map_some, Char.ofNat_toNat]
    · rw [assemble, ih, Option.map_some]

/-- A string literal that was written is read as the same string, or as no text again. -/
theorem readText_renderText (content : Option String) (rest : List Char) :
    ∃ cs, renderText content ++ rest = '"' :: cs ∧ readText cs = some (content, rest) := by
  cases content with
  | none => exact ⟨['\\', 'u', 'd', '8', '0', '0', '"'] ++ rest, rfl, rfl⟩
  | some s =>
    refine ⟨s.toList.flatMap escapeChar ++ '"' :: rest, by simp [renderText], ?_⟩
    rw [readText, readPieces_flatMap_escapeChar, Option.map_some, assemble_map_pieceOf,
      Option.map_some, String.ofList_toList]

/-- Whether the digits of a number end before a text. -/
def EndsDigits (cs : List Char) : Prop := ∀ c ∈ cs.head?, c.isDigit = false

/-- Whether a number ends before a text. -/
def EndsNumber (cs : List Char) : Prop :=
  ∀ c ∈ cs.head?, c.isDigit = false ∧ c ≠ '.' ∧ c ≠ 'e' ∧ c ≠ 'E'

/-- A number of which everything is written: a whole one has no exponent. -/
def Number.Written (n : Number) : Prop := n.whole = true → n.exponent = 0

/-- Digits are read up to where they end. -/
theorem spanDigits_append {ds cs : List Char} (hds : ∀ c ∈ ds, c.isDigit = true)
    (hcs : EndsDigits cs) : spanDigits (ds ++ cs) = (ds, cs) := by
  have hdigit (c : Char) : decide ('0' ≤ c ∧ c ≤ '9') = c.isDigit := by
    rw [Bool.eq_iff_iff, decide_eq_true_eq, isDigit_iff]
  have hend : cs.takeWhile Char.isDigit = [] ∧ cs.dropWhile Char.isDigit = cs := by
    cases cs with
    | nil => exact ⟨rfl, rfl⟩
    | cons c cs =>
      have hc : c.isDigit = false := hcs c rfl
      simp [hc]
  simp only [spanDigits, hdigit, List.takeWhile_append_of_pos hds, List.dropWhile_append_of_pos hds,
    hend, List.append_nil]

/-- The digits of a number are read up to where they end. -/
theorem spanDigits_toDigits (n : Nat) {cs : List Char} (h : EndsDigits cs) :
    spanDigits (Nat.toDigits 10 n ++ cs) = (Nat.toDigits 10 n, cs) :=
  spanDigits_append (fun _ => isDigit_of_mem_toDigits) h

/-- The digits of a number are read as a whole number. -/
theorem readWhole_toDigits (n : Nat) {cs : List Char} (h : EndsDigits cs) :
    readWhole (Nat.toDigits 10 n ++ cs) = some (Nat.toDigits 10 n, cs) := by
  rw [readWhole, spanDigits_toDigits n h]
  split
  · next hnil => exact absurd (congrArg Prod.fst hnil) Nat.toDigits_ne_nil
  · next hzero => cases eq_nil_of_toDigits (congrArg Prod.fst hzero)
  · rfl

/-- A digit is not a sign. -/
theorem ne_sign_of_isDigit {c : Char} (h : c.isDigit = true) : c ≠ '+' ∧ c ≠ '-' := by
  constructor <;>
  · rintro rfl
    cases h

/-- The digits of an exponent are read with the sign that stands before them. -/
theorem readExponentDigits_toDigits (n : Nat) {cs : List Char} (h : EndsDigits cs) :
    readExponentDigits (Nat.toDigits 10 n ++ cs) = some ((n : Int), cs) ∧
      readExponentDigits ('-' :: (Nat.toDigits 10 n ++ cs)) = some (-(n : Int), cs) := by
  have hspan := spanDigits_toDigits n h
  have hread := readNat?_toDigits n
  constructor
  · obtain ⟨c, ds, hds, hc⟩ := exists_toDigits_eq_cons n
    obtain ⟨hplus, hminus⟩ := ne_sign_of_isDigit hc
    rw [hds] at hspan hread ⊢
    rw [List.cons_append] at hspan ⊢
    rw [readExponentDigits]
    · rw [hspan]
      simp [hread]
    · exact fun rest hcons => hplus (List.cons.inj hcons).1
    · exact fun rest hcons => hminus (List.cons.inj hcons).1
  · simp [readExponentDigits, hspan, hread]

/-- A number without a fraction, read part by part. -/
theorem readNumber_eq (negative : Bool) {ds cs cs₁ cs₂ : List Char} {digits : Nat}
    {exponent : Option Int} (hsign : cs.head? ≠ some '-') (hwhole : readWhole cs = some (ds, cs₁))
    (hfraction : readFraction cs₁ = some ([], cs₁)) (hdigits : readNat? ds = some digits)
    (hexponent : readExponent cs₁ = some (exponent, cs₂)) :
    readNumber ((if negative then ['-'] else []) ++ cs) =
      some (⟨negative, digits, exponent.getD 0, exponent.isNone⟩, cs₂) := by
  cases negative with
  | true => simp [readNumber, hwhole, hfraction, hexponent, hdigits]
  | false =>
    cases cs with
    | nil => cases hwhole
    | cons c cs =>
      have hc : c ≠ '-' := fun h => hsign (congrArg some h)
      simp only [readNumber, Bool.false_eq_true, if_false, List.nil_append]
      split
      · next hcons => exact absurd (List.cons.inj hcons).1 hc
      · simp [hwhole, hfraction, hexponent, hdigits]

/-- A number does not begin with a minus. -/
theorem head?_toDigits_append_ne (n : Nat) (cs : List Char) :
    (Nat.toDigits 10 n ++ cs).head? ≠ some '-' := by
  obtain ⟨c, ds, hds, hc⟩ := exists_toDigits_eq_cons n
  rw [hds, List.cons_append, List.head?_cons]
  intro h
  exact (ne_sign_of_isDigit hc).2 (Option.some.inj h)

/-- Digits end before what is no digit. -/
theorem endsDigits_cons {c : Char} (hc : c.isDigit = false) (cs : List Char) :
    EndsDigits (c :: cs) := by
  intro d hd
  cases hd
  exact hc

/-- What follows the digits of a number that is not whole is read as its exponent. -/
theorem exists_renderNumber_eq (negative : Bool) (digits : Nat) (exponent : Int) {cs : List Char}
    (hcs : EndsDigits cs) :
    ∃ ds, renderNumber ⟨negative, digits, exponent, false⟩ =
        (if negative then ['-'] else []) ++ (Nat.toDigits 10 digits ++ 'e' :: ds) ∧
      readExponent ('e' :: (ds ++ cs)) = some (some exponent, cs) := by
  cases exponent with
  | ofNat e =>
    refine ⟨Nat.toDigits 10 e, by simp [renderNumber], ?_⟩
    rw [readExponent, (readExponentDigits_toDigits e hcs).1, Option.map_some]
    rfl
  | negSucc e =>
    refine ⟨'-' :: Nat.toDigits 10 (e + 1), by simp [renderNumber], ?_⟩
    rw [List.cons_append, readExponent, (readExponentDigits_toDigits (e + 1) hcs).2,
      Option.map_some]
    rfl

/-- Where a number ends there is neither a fraction nor an exponent. -/
theorem readFraction_readExponent {cs : List Char} (hcs : EndsNumber cs) :
    readFraction cs = some ([], cs) ∧ readExponent cs = some (none, cs) := by
  cases cs with
  | nil => exact ⟨rfl, rfl⟩
  | cons c cs =>
    obtain ⟨_, hpoint, he, hE⟩ := hcs c rfl
    constructor
    · rw [readFraction]
      exact fun rest hcons => hpoint (List.cons.inj hcons).1
    · rw [readExponent]
      · exact fun rest hcons => he (List.cons.inj hcons).1
      · exact fun rest hcons => hE (List.cons.inj hcons).1

/-- A number that was written is read as it was. -/
theorem readNumber_renderNumber {n : Number} (hn : n.Written) {cs : List Char}
    (hcs : EndsNumber cs) : readNumber (renderNumber n ++ cs) = some (n, cs) := by
  have hends : EndsDigits cs := fun c hc => (hcs c hc).1
  obtain ⟨negative, digits, exponent, whole⟩ := n
  cases whole with
  | true =>
    obtain rfl : exponent = 0 := hn rfl
    obtain ⟨hfraction, hexponent⟩ := readFraction_readExponent hcs
    simp only [renderNumber, if_true, List.append_assoc]
    exact readNumber_eq negative (head?_toDigits_append_ne _ _) (readWhole_toDigits _ hends)
      hfraction (readNat?_toDigits _) hexponent
  | false =>
    obtain ⟨ds, hds, hexponent⟩ := exists_renderNumber_eq negative digits exponent hends
    rw [hds, List.append_assoc, List.append_assoc, List.cons_append]
    exact readNumber_eq negative (head?_toDigits_append_ne _ _)
      (readWhole_toDigits _ (endsDigits_cons (by decide) _)) rfl (readNat?_toDigits _) hexponent

end VisualNovel.Json
