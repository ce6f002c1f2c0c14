import VisualNovel.Json.Basic
import VisualNovel.Text.Decimal

/-!
# Reading JSON text

The reader follows the grammar strictly: no comments, no trailing commas, no
leading zeros, no bare control characters inside a string, and nothing but white
space around the one value. Every function takes the characters that are left
and returns what it read with the characters behind it.
-/

namespace VisualNovel.Json

/-- The white space of the grammar. -/
def isSpace (c : Char) : Bool :=
  c == ' ' || c == '\t' || c == '\n' || c == '\r'

/-- The characters behind leading white space. -/
def skipSpace (cs : List Char) : List Char :=
  cs.dropWhile isSpace

/-- The value of a hexadecimal digit in either case. -/
def hexValue? (c : Char) : Option Nat :=
  if '0' ≤ c ∧ c ≤ '9' then some (c.toNat - 48)
  else if 'a' ≤ c ∧ c ≤ 'f' then some (c.toNat - 87)
  else if 'A' ≤ c ∧ c ≤ 'F' then some (c.toNat - 55)
  else none

/-- The number that four hexadecimal digits stand for. -/
def hexUnit? (a b c d : Char) : Option Nat := do
  let a ← hexValue? a
  let b ← hexValue? b
  let c ← hexValue? c
  let d ← hexValue? d
  return ((a * 16 + b) * 16 + c) * 16 + d

/-- A part of a string literal: a character, or a 16-bit unit written in hexadecimal. -/
inductive Piece where
  | char (c : Char)
  | unit (n : Nat)
deriving DecidableEq, Repr

/-- The character that a backslash and one further character stand for. -/
def simpleEscape? : Char → Option Char
  | '"' => some '"'
  | '\\' => some '\\'
  | '/' => some '/'
  | 'b' => some '\x08'
  | 'f' => some '\x0c'
  | 'n' => some '\n'
  | 'r' => some '\r'
  | 't' => some '\t'
  | _ => none

/-- The pieces of a string literal whose opening quote has been read. -/
def readPieces : List Char → Option (List Piece × List Char)
  | [] => none
  | '"' :: rest => some ([], rest)
  | '\\' :: 'u' :: a :: b :: c :: d :: rest => do
    let n ← hexUnit? a b c d
    let (ps, rest) ← readPieces rest
    return (.unit n :: ps, rest)
  | '\\' :: c :: rest => do
    let c ← simpleEscape? c
    let (ps, rest) ← readPieces rest
    return (.char c :: ps, rest)
  | c :: rest =>
    if c.toNat < 0x20 || c == '\\' then none
    else do
      let (ps, rest) ← readPieces rest
      return (.char c :: ps, rest)

/-- Units that open a surrogate pair. -/
def isHighUnit (n : Nat) : Bool := 0xD800 ≤ n && n < 0xDC00

/-- Units that close a surrogate pair. -/
def isLowUnit (n : Nat) : Bool := 0xDC00 ≤ n && n < 0xE000

/-- The characters that pieces stand for, or nothing if half of a surrogate pair is alone. -/
def assemble : List Piece → Option (List Char)
  | [] => some []
  | .char c :: ps => (assemble ps).map (c :: ·)
  | .unit high :: .unit low :: ps =>
    if isHighUnit high then
      if isLowUnit low then
        (assemble ps).map (Char.ofNat (0x10000 + (high - 0xD800) * 0x400 + (low - 0xDC00)) :: ·)
      else none
    else if isLowUnit high then none
    else (assemble (.unit low :: ps)).map (Char.ofNat high :: ·)
  | .unit n :: ps =>
    if isHighUnit n || isLowUnit n then none else (assemble ps).map (Char.ofNat n :: ·)

/-- A string literal whose opening quote has been read. -/
def readText (cs : List Char) : Option (Option String × List Char) :=
  (readPieces cs).map fun r => ((assemble r.1).map String.ofList, r.2)

/-- The leading decimal digits and the characters behind them. -/
def spanDigits (cs : List Char) : List Char × List Char :=
  (cs.takeWhile fun c => '0' ≤ c ∧ c ≤ '9', cs.dropWhile fun c => '0' ≤ c ∧ c ≤ '9')

/-- The digits before the point: a single zero, or digits that do not begin with one. -/
def readWhole (cs : List Char) : Option (List Char × List Char) :=
  match spanDigits cs with
  | ([], _) => none
  | ('0' :: _ :: _, _) => none
  | r => some r

/-- The digits behind a point, if there is a point. -/
def readFraction : List Char → Option (List Char × List Char)
  | '.' :: rest => match spanDigits rest with
    | ([], _) => none
    | r => some r
  | cs => some ([], cs)

/-- The digits of an exponent with an optional sign. -/
def readExponentDigits (cs : List Char) : Option (Int × List Char) :=
  let (negative, cs) := match cs with
    | '+' :: rest => (false, rest)
    | '-' :: rest => (true, rest)
    | _ => (false, cs)
  let (digits, rest) := spanDigits cs
  (Text.readNat? digits).map fun n => (if negative then -(n : Int) else n, rest)

/-- The exponent, if there is one. -/
def readExponent : List Char → Option (Option Int × List Char)
  | 'e' :: rest => (readExponentDigits rest).map fun r => (some r.1, r.2)
  | 'E' :: rest => (readExponentDigits rest).map fun r => (some r.1, r.2)
  | cs => some (none, cs)

/-- A number. -/
def readNumber (cs : List Char) : Option (Number × List Char) := do
  let (negative, cs) := match cs with
    | '-' :: rest => (true, rest)
    | _ => (false, cs)
  let (whole, cs) ← readWhole cs
  let (fraction, cs) ← readFraction cs
  let (exponent, cs) ← readExponent cs
  let digits ← Text.readNat? (whole ++ fraction)
  return ({ negative, digits
            exponent := exponent.getD 0 - fraction.length
            whole := fraction.isEmpty && exponent.isNone }, cs)

mutual

/-- One value behind optional white space. -/
def readValue : Nat → List Char → Option (Value × List Char)
  | 0, _ => none
  | fuel + 1, cs =>
    match skipSpace cs with
    | 'n' :: 'u' :: 'l' :: 'l' :: rest => some (.null, rest)
    | 't' :: 'r' :: 'u' :: 'e' :: rest => some (.bool true, rest)
    | 'f' :: 'a' :: 'l' :: 's' :: 'e' :: rest => some (.bool false, rest)
    | '"' :: rest => (readText rest).map fun r => (.text r.1, r.2)
    | '[' :: rest =>
      match skipSpace rest with
      | ']' :: rest => some (.array [], rest)
      | rest => (readItems fuel rest).map fun r => (.array r.1, r.2)
    | '{' :: rest =>
      match skipSpace rest with
      | '}' :: rest => some (.object [], rest)
      | rest => (readMembers fuel rest).map fun r => (.object r.1, r.2)
    | rest => (readNumber rest).map fun r => (.number r.1, r.2)

/-- The values of an array up to its closing bracket, at least one. -/
def readItems : Nat → List Char → Option (List Value × List Char)
  | 0, _ => none
  | fuel + 1, cs => do
    let (v, rest) ← readValue fuel cs
    match skipSpace rest with
    | ',' :: rest => (readItems fuel rest).map fun r => (v :: r.1, r.2)
    | ']' :: rest => some ([v], rest)
    | _ => none

/-- The members of an object up to its closing brace, at least one. -/
def readMembers : Nat → List Char → Option (List (Option String × Value) × List Char)
  | 0, _ => none
  | fuel + 1, cs =>
    match skipSpace cs with
    | '"' :: rest => do
      let (key, rest) ← readText rest
      match skipSpace rest with
      | ':' :: rest => do
        let (v, rest) ← readValue fuel rest
        match skipSpace rest with
        | ',' :: rest => (readMembers fuel rest).map fun r => ((key, v) :: r.1, r.2)
        | '}' :: rest => some ([(key, v)], rest)
        | _ => none
      | _ => none
    | _ => none

end

/-- The value of a whole text. Two steps for each character are always enough. -/
def parseChars (cs : List Char) : Option Value := do
  let (v, rest) ← readValue (2 * cs.length + 2) cs
  if skipSpace rest = [] then some v else none

/-- The value that a JSON text stands for. -/
def parse (s : String) : Option Value :=
  parseChars s.toList

end VisualNovel.Json
