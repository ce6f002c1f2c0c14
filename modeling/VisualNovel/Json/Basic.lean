/-!
# Values of a JSON text

A value keeps what its readers ask for: a number remembers whether it was
written as a whole number, and a string literal whose escapes name half of a
surrogate pair stays in the value as a literal without a text, because such a
literal is harmless wherever nobody reads it.
-/

namespace VisualNovel.Json

/-- A number as written: its sign, all its digits, and the power of ten that scales them. -/
structure Number where
  negative : Bool
  digits : Nat
  exponent : Int
  whole : Bool
deriving DecidableEq, Repr

/-- The number that the decimal digits of a natural number stand for. -/
def Number.ofNat (n : Nat) : Number := ⟨false, n, 0, true⟩

/-- The natural number that a number written without sign, fraction or exponent stands for. -/
def Number.toNat? (n : Number) : Option Nat :=
  if n.whole && !n.negative then some n.digits else none

@[simp] theorem Number.toNat?_ofNat (n : Nat) : (Number.ofNat n).toNat? = some n := rfl

/-- A JSON value; a string literal or a key that stands for no Unicode text has none. -/
inductive Value where
  | null
  | bool (b : Bool)
  | number (n : Number)
  | text (content : Option String)
  | array (items : List Value)
  | object (members : List (Option String × Value))
deriving Repr

/-- The value of a string. -/
abbrev Value.ofString (s : String) : Value := .text (some s)

/-- The value of a natural number. -/
abbrev Value.ofNat (n : Nat) : Value := .number (.ofNat n)

/-- The object with the given keys and values. -/
abbrev Value.record (members : List (String × Value)) : Value :=
  .object (members.map fun m => (some m.1, m.2))

/-- The value of the last member with a key. -/
def Value.get? (key : String) : Value → Option Value
  | .object members => (members.reverse.find? (·.1 == some key)).map (·.2)
  | _ => none

end VisualNovel.Json
