import VisualNovel.Disk.Basic

/-!
# What bytes hold

The bytes of a file are text if they are the UTF-8 form of one, and an image if
they begin as a PNG image does: with its signature and a header chunk, which
gives the width and the height as four bytes each, the highest first. All other
bytes are only counted.
-/

namespace VisualNovel.Content

/-- The bytes that every PNG image begins with. -/
def imageSignature : List UInt8 := [0x89, 0x50, 0x4e, 0x47, 0x0d, 0x0a, 0x1a, 0x0a]

/-- The length and the name of the header chunk, which comes next. -/
def imageHeader : List UInt8 := [0x00, 0x00, 0x00, 0x0d, 0x49, 0x48, 0x44, 0x52]

/-- The number that bytes stand for, the highest first. -/
def number (bytes : List UInt8) : Nat := bytes.foldl (fun n b => 256 * n + b.toNat) 0

/-- The width and the height of an image, by its first bytes. -/
def imageSize? (bytes : List UInt8) : Option (Nat × Nat) :=
  let start := imageSignature ++ imageHeader
  let size := bytes.drop start.length
  if start.isPrefixOf bytes && 8 ≤ size.length then
    some (number (size.take 4), number ((size.drop 4).take 4))
  else none

/-- How many bytes of a file are looked at to tell an image. -/
def imageStart : Nat := 24

/-- What the bytes of a file hold. -/
def ofBytes (bytes : ByteArray) : Content :=
  match imageSize? (bytes.extract 0 imageStart).toList with
  | some (width, height) => .image width height bytes.size
  | none =>
    match String.fromUTF8? bytes with
    | some s => .text s
    | none => .binary bytes.size

/-- Two bytes stand for a multiple of 256 and a rest. -/
theorem number_pair (high low : UInt8) : number [high, low] = 256 * high.toNat + low.toNat := by
  simp [number]

end VisualNovel.Content
