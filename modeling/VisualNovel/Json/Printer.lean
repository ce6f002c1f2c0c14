import VisualNovel.Json.Basic
import VisualNovel.Text.Decimal

/-!
# Writing JSON text

A value is written compactly, without any white space, or spread over lines with
two spaces of indentation for each level. Only quotes, backslashes and control
characters are escaped.
-/

namespace VisualNovel.Json

/-- The digit of a number below sixteen, in lower case. -/
def hexDigit (n : Nat) : Char :=
  Nat.digitChar n

/-- The characters that stand for one character inside a string literal. -/
def escapeChar (c : Char) : List Char :=
  if c = '"' then ['\\', '"']
  else if c = '\\' then ['\\', '\\']
  else if c = '\x08' then ['\\', 'b']
  else if c = '\t' then ['\\', 't']
  else if c = '\n' then ['\\', 'n']
  else if c = '\x0c' then ['\\', 'f']
  else if c = '\r' then ['\\', 'r']
  else if c.toNat < 0x20 then
    ['\\', 'u', '0', '0', hexDigit (c.toNat / 16), hexDigit (c.toNat % 16)]
  else [c]

/-- A string literal; one that stands for no text is written as half of a surrogate pair. -/
def renderText : Option String → List Char
  | some s => '"' :: s.toList.flatMap escapeChar ++ ['"']
  | none => ['"', '\\', 'u', 'd', '8', '0', '0', '"']

/-- A number: whole numbers as they are, others as digits with an exponent. -/
def renderNumber (n : Number) : List Char :=
  let sign := if n.negative then ['-'] else []
  let digits := Nat.toDigits 10 n.digits
  if n.whole then sign ++ digits
  else match n.exponent with
    | .ofNat e => sign ++ digits ++ 'e' :: Nat.toDigits 10 e
    | .negSucc e => sign ++ digits ++ 'e' :: '-' :: Nat.toDigits 10 (e + 1)

/-- How a text is laid out. -/
inductive Style where
  | compact
  | pretty
deriving DecidableEq, Repr

/-- What stands before an item or a closing bracket at a depth. -/
def Style.newline (style : Style) (depth : Nat) : List Char :=
  match style with
  | .compact => []
  | .pretty => '\n' :: List.replicate (2 * depth) ' '

/-- What stands between a key and its value. -/
def Style.colon : Style → List Char
  | .compact => [':']
  | .pretty => [':', ' ']

mutual

/-- A value whose opening bracket stands at a depth. -/
def renderValue (style : Style) (depth : Nat) : Value → List Char
  | .null => ['n', 'u', 'l', 'l']
  | .bool true => ['t', 'r', 'u', 'e']
  | .bool false => ['f', 'a', 'l', 's', 'e']
  | .number n => renderNumber n
  | .text s => renderText s
  | .array [] => ['[', ']']
  | .array (v :: vs) =>
    '[' :: style.newline (depth + 1) ++ renderValue style (depth + 1) v ++
      renderItems style (depth + 1) vs ++ style.newline depth ++ [']']
  | .object [] => ['{', '}']
  | .object ((key, v) :: ms) =>
    '{' :: style.newline (depth + 1) ++ renderText key ++ style.colon ++
      renderValue style (depth + 1) v ++ renderMembers style (depth + 1) ms ++
      style.newline depth ++ ['}']

/-- The items of an array behind its first one. -/
def renderItems (style : Style) (depth : Nat) : List Value → List Char
  | [] => []
  | v :: vs => ',' :: style.newline depth ++ renderValue style depth v ++ renderItems style depth vs

/-- The members of an object behind its first one. -/
def renderMembers (style : Style) (depth : Nat) : List (Option String × Value) → List Char
  | [] => []
  | (key, v) :: ms =>
    ',' :: style.newline depth ++ renderText key ++ style.colon ++ renderValue style depth v ++
      renderMembers style depth ms

end

/-- The text of a value without white space. -/
def compact (v : Value) : String :=
  String.ofList (renderValue .compact 0 v)

/-- The text of a value on indented lines. -/
def pretty (v : Value) : String :=
  String.ofList (renderValue .pretty 0 v)

end VisualNovel.Json
