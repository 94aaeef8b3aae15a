import PietLang.Picture.Basic
import PietLang.Text.Basic

/-!
# Picture/Pixmap — pictures stored as binary pixmaps

A pixmap starts with `P6`, the width, the height and the greatest channel value as plain numbers,
set apart by blanks and by comments that run to the end of a line.  One blank later follow the
pixels, row by row, with one byte for every channel.
-/

namespace PietLang.Pixmap

/-- Whether a byte is a blank of the header. -/
def isSpace (b : UInt8) : Bool := (0x09 ≤ b && b ≤ 0x0D) || b = 0x20

/-- The bytes after blanks and comments; the flag says whether a comment is open. -/
def skip : Bool → List UInt8 → List UInt8
  | _, [] => []
  | true, b :: bs => skip (b ≠ 0x0A) bs
  | false, b :: bs =>
    if b = 0x23 then skip true bs else if isSpace b then skip false bs else b :: bs

/-- The number at the front, after blanks and comments, and the bytes after it. -/
def number (bs : List UInt8) : Option (Nat × List UInt8) :=
  let isDigit := fun b : UInt8 => 0x30 ≤ b && b ≤ 0x39
  let rest := skip false bs
  match rest.takeWhile isDigit with
  | [] => none
  | ds => some (Decimal.value (ds.map fun b => b.toNat - 0x30), rest.dropWhile isDigit)

/-- The sides given by a header, and the number of bytes that the pixels take at the end. -/
def header (bs : List UInt8) : Option (Nat × Nat × Nat) :=
  match bs with
  | 0x50 :: 0x36 :: bs => do
    let (width, bs) ← number bs
    let (height, bs) ← number bs
    let (greatest, bs) ← number bs
    match bs with
    | b :: pixels =>
      if isSpace b ∧ greatest = 255 then some (width, height, pixels.length) else none
    | [] => none
  | _ => none

/-- The pixels of a pixmap. -/
def decode? (bytes : ByteArray) : Option (Grid Pixel) := do
  let (width, height, available) ← header bytes.toList
  if available < 3 * width * height then none
  else
    let first := bytes.size - available
    let channel := fun i : Nat => (bytes.data[first + i]?).getD 0
    some (Grid.ofFn ⟨width, height⟩ fun p =>
      let i := 3 * (p.y.toNat * width + p.x.toNat)
      .rgb (channel i) (channel (i + 1)) (channel (i + 2)))

end PietLang.Pixmap
