/-!
# Text/Basic — blanks, digits and columns, and integers in decimal

The blanks are the separators and the controls that a text is trimmed of.  The digits of a script
stand together in order, so the code points of the zeros give them all.

Writing and reading integers refuse more than `digitLimit` digits: the written form counts its
digits without the sign, and the read form counts leading zeros too.  What people write may have a
sign in front and blanks around; its digits may be of any script, with single underscores between
them.
-/

namespace PietLang

namespace Text

/-! ## Blanks -/

/-- Whether a character is a blank. -/
def isBlank (c : Char) : Bool :=
  let n := c.toNat
  (0x09 ≤ n && n ≤ 0x0D) || (0x1C ≤ n && n ≤ 0x20) || n == 0x85 || n == 0xA0 || n == 0x1680
    || (0x2000 ≤ n && n ≤ 0x200A) || n == 0x2028 || n == 0x2029 || n == 0x202F || n == 0x205F
    || n == 0x3000

/-- The text without the leading and trailing characters of a class. -/
def trim (p : Char → Bool) (cs : List Char) : List Char :=
  ((cs.dropWhile p).reverse.dropWhile p).reverse

/-! ## Digits -/

/-- The code points of the digits that stand for zero. -/
def zeros : List Nat :=
  [0x30, 0x660, 0x6F0, 0x7C0, 0x966, 0x9E6, 0xA66, 0xAE6, 0xB66, 0xBE6, 0xC66, 0xCE6, 0xD66, 0xDE6,
    0xE50, 0xED0, 0xF20, 0x1040, 0x1090, 0x17E0, 0x1810, 0x1946, 0x19D0, 0x1A80, 0x1A90, 0x1B50,
    0x1BB0, 0x1C40, 0x1C50, 0xA620, 0xA8D0, 0xA900, 0xA9D0, 0xA9F0, 0xAA50, 0xABF0, 0xFF10, 0x104A0,
    0x10D30, 0x11066, 0x110F0, 0x11136, 0x111D0, 0x112F0, 0x11450, 0x114D0, 0x11650, 0x116C0,
    0x11730, 0x118E0, 0x11950, 0x11C50, 0x11D50, 0x11DA0, 0x16A60, 0x16AC0, 0x16B50, 0x1D7CE,
    0x1D7D8, 0x1D7E2, 0x1D7EC, 0x1D7F6, 0x1E140, 0x1E2F0, 0x1E950, 0x1FBF0]

/-- The value of a decimal digit. -/
def digit? (c : Char) : Option Nat :=
  (zeros.find? fun z => z ≤ c.toNat && c.toNat < z + 10).map fun z => c.toNat - z

/-- Whether a character is a decimal digit of some script. -/
def isDigit (c : Char) : Bool := (digit? c).isSome

/-- Whether a character is one of `0` to `9`. -/
def isPlainDigit (c : Char) : Bool := '0' ≤ c && c ≤ '9'

/-- The value of one of `0` to `9`. -/
def plainDigit (c : Char) : Nat := c.toNat - 0x30

/-! ## Parts and columns -/

/-- The parts between the characters of a kind, in order.  There is one part more than there are
such characters, and parts may be empty. -/
def splitWhere (p : Char → Bool) : List Char → List (List Char)
  | [] => [[]]
  | c :: cs =>
    match splitWhere p cs with
    | [] => [[c]]
    | part :: parts => if p c then [] :: part :: parts else (c :: part) :: parts

/-- The parts of a text between the places where a character stands. -/
def split (divider : Char) (s : String) : List String :=
  (splitWhere (· = divider) s.toList).map String.ofList

/-- The text, filled up with spaces on the right to the width of its column; a longer text stays. -/
def leftAligned (width : Nat) (s : String) : String := s.pushn ' ' (width - s.length)

end Text

/-! ## Integers -/

namespace Decimal

/-- The greatest number of digits that is read or written. -/
def digitLimit : Nat := 4300

/-- The decimal digits of a number. -/
def digits (n : Nat) : List Char := Nat.toDigits 10 n

/-- An integer in decimal. -/
def text (n : Int) : String :=
  if n < 0 then "-" ++ String.ofList (digits n.natAbs) else String.ofList (digits n.natAbs)

/-- Whether an integer has few enough digits to be written. -/
def isWritable (n : Int) : Bool := (digits n.natAbs).length ≤ digitLimit

/-- The number that a list of digit values stands for. -/
def value (ds : List Nat) : Nat := ds.foldl (fun n d => 10 * n + d) 0

/-- Splits a leading sign off; `true` stands for minus. -/
def splitSign : List Char → Bool × List Char
  | '-' :: cs => (true, cs)
  | '+' :: cs => (false, cs)
  | cs => (false, cs)

/-- The integer of a sign and a number. -/
def signed (minus : Bool) (n : Nat) : Int := if minus then -n else n

end Decimal

namespace Numeral

/-- Whether a character may stand around a number: the blanks, but for the four separators among the
controls. -/
def isPadding (c : Char) : Bool := Text.isBlank c && !(0x1C ≤ c.toNat && c.toNat ≤ 0x1F)

/-- The values of digits of any script, with single underscores between them. -/
def digitValues : List Char → Option (List Nat)
  | [] => none
  | [c] => (Text.digit? c).map fun d => [d]
  | c :: '_' :: cs =>
    match Text.digit? c, digitValues cs with
    | some d, some ds => some (d :: ds)
    | _, _ => none
  | c :: cs =>
    match Text.digit? c, digitValues cs with
    | some d, some ds => some (d :: ds)
    | _, _ => none

/-- The integer that a text spells. -/
def ofText? (text : String) : Option Int :=
  let (minus, cs) := Decimal.splitSign (Text.trim isPadding text.toList)
  match digitValues cs with
  | none => none
  | some ds =>
    if Decimal.digitLimit < ds.length then none
    else some (Decimal.signed minus (Decimal.value ds))

end Numeral

end PietLang
