/-!
# Decimal numbers in text

Natural numbers are read from a list of decimal digits and refused beyond a
limit; they are written with the fewest digits.
-/

namespace VisualNovel.Text

/-- The largest index or count that fits into 64 bits. -/
def maxIndex : Nat := UInt64.size - 1

/-- The value of a decimal digit. -/
def digitValue? (c : Char) : Option Nat :=
  if '0' ≤ c ∧ c ≤ '9' then some (c.toNat - '0'.toNat) else none

/-- The number that a list of digits stands for, continuing from the digits before. -/
def readDigits : Nat → List Char → Option Nat
  | n, [] => some n
  | n, c :: cs => (digitValue? c).bind fun d => readDigits (10 * n + d) cs

/-- The number that a non-empty list of digits stands for. -/
def readNat? : List Char → Option Nat
  | [] => none
  | c :: cs => readDigits 0 (c :: cs)

/-- A number with an optional plus sign, no larger than the limit. -/
def readBounded? (limit : Nat) (cs : List Char) : Option Nat :=
  let digits := match cs with
    | '+' :: rest => rest
    | _ => cs
  (readNat? digits).filter (· ≤ limit)

/-- The decimal digits of a number. -/
def showNat (n : Nat) : String :=
  String.ofList (Nat.toDigits 10 n)

/-- The number that people count an index as. It has to fit into 64 bits as well, so that there is
none for the largest index: the program breaks off where it is to be counted. -/
def showOrdinal? (index : Nat) : Option String :=
  if index < maxIndex then some (showNat (index + 1)) else none

end VisualNovel.Text
