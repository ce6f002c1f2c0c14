/-!
# Replacing within text

Every occurrence of a pattern is replaced, from left to right and without
overlap; what was put in is not searched again.
-/

namespace VisualNovel.Text

/-- Replaces the occurrences of a pattern, after the given number of characters is skipped. -/
def replaceFrom (pattern new : List Char) : Nat → List Char → List Char
  | _, [] => []
  | skip + 1, _ :: cs => replaceFrom pattern new skip cs
  | 0, c :: cs =>
    if pattern.isPrefixOf (c :: cs) then
      new ++ replaceFrom pattern new (pattern.length - 1) cs
    else c :: replaceFrom pattern new 0 cs

/-- Replaces the occurrences of a non-empty pattern. -/
def replaceChars (pattern new cs : List Char) : List Char :=
  replaceFrom pattern new 0 cs

/-- Whether a pattern occurs in a list of characters. -/
def occursIn (pattern : List Char) : List Char → Bool
  | [] => pattern.isEmpty
  | c :: cs => pattern.isPrefixOf (c :: cs) || occursIn pattern cs

end VisualNovel.Text
