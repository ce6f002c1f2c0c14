/-!
# White space

The characters of the Unicode property `White_Space`, and the two questions that
are asked about them: what is left of a text once its white edges are cut off,
and whether anything is left at all. The main statement is that trimming leaves
nothing exactly when all characters are white.
-/

namespace VisualNovel.Text

/-- The characters with the Unicode property `White_Space`. -/
def isBlankChar (c : Char) : Bool :=
  let n := c.toNat
  (9 ≤ n && n ≤ 13) || n == 0x20 || n == 0x85 || n == 0xA0 || n == 0x1680 ||
    (0x2000 ≤ n && n ≤ 0x200A) || n == 0x2028 || n == 0x2029 || n == 0x202F ||
    n == 0x205F || n == 0x3000

/-- The characters between the first and the last one that is not white. -/
def trimChars (cs : List Char) : List Char :=
  ((cs.dropWhile isBlankChar).reverse.dropWhile isBlankChar).reverse

/-- A text without the white space at both of its ends. -/
def trim (s : String) : String :=
  String.ofList (trimChars s.toList)

/-- A text without any character that is not white. -/
def isBlank (s : String) : Bool :=
  s.toList.all isBlankChar

/-- The text as it is, or nothing if it is blank. -/
def nonBlank (s : String) : Option String :=
  if isBlank s then none else some s

/-- The trimmed text, or nothing if it is blank. -/
def trimmedNonBlank (s : String) : Option String :=
  if isBlank s then none else some (trim s)

/-- Core's white characters are among the white characters of Unicode. -/
theorem isBlankChar_of_isWhitespace {c : Char} (h : c.isWhitespace = true) :
    isBlankChar c = true := by
  simp only [Char.isWhitespace, Bool.or_eq_true, decide_eq_true_eq] at h
  rcases h with ((h | h) | h) | h <;> subst h <;> decide

@[simp] theorem trimChars_nil : trimChars [] = [] := rfl

@[simp] theorem toList_trim (s : String) : (trim s).toList = trimChars s.toList := by
  simp [trim]

/-- Dropping what satisfies a predicate leaves nothing exactly when all satisfies it. -/
theorem dropWhile_eq_nil_iff_all {p : Char → Bool} {cs : List Char} :
    cs.dropWhile p = [] ↔ cs.all p = true := by
  induction cs with
  | nil => simp
  | cons c cs ih => by_cases h : p c = true <;> simp_all

/-- Nothing is left of a list of characters exactly when all of them are white. -/
theorem trimChars_eq_nil_iff {cs : List Char} :
    trimChars cs = [] ↔ cs.all isBlankChar = true := by
  rw [trimChars, List.reverse_eq_nil_iff, dropWhile_eq_nil_iff_all, List.all_reverse]
  constructor
  · intro h
    rw [← List.takeWhile_append_dropWhile (p := isBlankChar) (l := cs), List.all_append, h,
      Bool.and_true, List.all_takeWhile]
  · intro h
    rw [dropWhile_eq_nil_iff_all.mpr h]
    rfl

/-- A text is blank exactly when trimming leaves nothing of it. -/
theorem isBlank_iff_trim_eq {s : String} : isBlank s = true ↔ trim s = "" := by
  rw [isBlank, ← trimChars_eq_nil_iff, trim]
  constructor
  · intro h; simp [h]
  · intro h; simpa using congrArg String.toList h

end VisualNovel.Text
