import VisualNovel.Json.Basic
import VisualNovel.Text.Decimal

/-!
# Values of types as JSON

A type that is stored or exchanged has a codec: what is written for a value, and
which values can be read. Structures are written as objects and read from an
object, whose other keys are ignored, or from the array of their fields. Choices
are written as a name alone, or as an object whose one key is the name.
-/

namespace VisualNovel.Json

/-- How values of a type are written to JSON and read from it. -/
class Codec (α : Type) where
  encode : α → Value
  decode : Value → Option α

export Codec (encode decode)

instance : Codec String where
  encode := .ofString
  decode
    | .text s => s
    | _ => none

instance : Codec Bool where
  encode := .bool
  decode
    | .bool b => some b
    | _ => none

/-- A natural number that is read only up to a limit. -/
def decodeUpTo (limit : Nat) : Value → Option Nat
  | .number n => n.toNat?.filter (· ≤ limit)
  | _ => none

/-- Natural numbers are indexes and counts, which fit into 64 bits. -/
instance : Codec Nat where
  encode := .ofNat
  decode := decodeUpTo Text.maxIndex

/-- Versions, speeds and volumes fit into 32 bits. -/
instance : Codec UInt32 where
  encode n := .ofNat n.toNat
  decode v := (decodeUpTo (UInt32.size - 1) v).map UInt32.ofNat

instance {α : Type} [Codec α] : Codec (Option α) where
  encode
    | none => .null
    | some a => encode a
  decode
    | .null => some none
    | v => (decode v).map some

instance {α : Type} [Codec α] : Codec (List α) where
  encode xs := .array (xs.map encode)
  decode
    | .array vs => vs.mapM decode
    | _ => none

/-- The field values that a JSON value gives to a structure. -/
structure Fields where
  keyed : Bool
  given : List (String × Value)

/-- The members whose key is one of the names; no key may be unreadable. -/
def knownMembers (names : List String) :
    List (Option String × Value) → Option (List (String × Value))
  | [] => some []
  | (none, _) :: _ => none
  | (some key, v) :: ms =>
    (knownMembers names ms).map fun known =>
      if names.contains key then (key, v) :: known else known

/-- Whether no name comes twice. -/
def distinct : List String → Bool
  | [] => true
  | k :: ks => !ks.contains k && distinct ks

/-- The fields of a structure with the given names: an object without a repeated
known key, or an array no longer than the list of names. -/
def Fields.of (names : List String) : Value → Option Fields
  | .object members => do
    let known ← knownMembers names members
    if distinct (known.map (·.1)) then some ⟨true, known⟩ else none
  | .array vs => if vs.length ≤ names.length then some ⟨false, names.zip vs⟩ else none
  | _ => none

/-- The value given to a field. -/
def Fields.get? (fs : Fields) (name : String) : Option Value :=
  (fs.given.find? (·.1 == name)).map (·.2)

/-- A field that has to be there. -/
def Fields.required {α : Type} [Codec α] (fs : Fields) (name : String) : Option α :=
  (fs.get? name).bind decode

/-- A field that may be left out of an object, though not out of an array. -/
def Fields.optional {α : Type} [Codec α] (fs : Fields) (name : String) : Option (Option α) :=
  match fs.get? name with
  | some v => decode v
  | none => if fs.keyed then some none else none

/-- A field with a value of its own where it is left out. -/
def Fields.orElse {α : Type} [Codec α] (fs : Fields) (name : String) (other : α) : Option α :=
  match fs.get? name with
  | some v => decode v
  | none => some other

/-- A choice with the value that belongs to it. -/
abbrev Value.variant (name : String) (v : Value) : Value := .record [(name, v)]

/-- The name of a choice and the value that belongs to it, if there is one. -/
def Value.variant? : Value → Option (String × Option Value)
  | .text (some name) => some (name, none)
  | .object [(some name, v)] => some (name, some v)
  | _ => none

/-- A choice without a value is the name alone, or the name with null. -/
def isBareVariant : Option Value → Bool
  | none => true
  | some .null => true
  | some _ => false

/-- The entry of a table of names that a choice without a value stands for. -/
def decodeName {α : Type} (table : List (String × α)) (v : Value) : Option α := do
  let (name, content) ← v.variant?
  if isBareVariant content then (table.find? (·.1 == name)).map (·.2) else none

end VisualNovel.Json
