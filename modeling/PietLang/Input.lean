import PietLang.Text.Basic
import PietLang.Text.Utf8

/-!
# Input — characters and numbers from a stream of bytes

Both reads take bytes from the same stream and never more than they need: a character takes the
bytes its lead announces, a number takes one line with its line feed.  A read that fails has
consumed what it took.
-/

namespace PietLang

/-- What a read meets at the end of the bytes. -/
inductive Input.Ending where
  /-- The end of the input. -/
  | closed
  /-- An interrupt by the user. -/
  | interrupt
deriving DecidableEq, Repr

/-- A stream of bytes. -/
structure Input where
  /-- The bytes that have not been read. -/
  unread : List UInt8
  /-- The number of bytes that have been read. -/
  consumed : Nat
  ending : Input.Ending
deriving DecidableEq, Repr

/-- Why a read failed. -/
inductive Input.Error where
  /-- No byte was left for a character. -/
  | endOfCharacter
  /-- No byte was left for a number. -/
  | endOfNumber
  /-- No character starts with this byte. -/
  | badLead (b : UInt8)
  /-- The input ended inside a character. -/
  | truncated
  | malformed (f : Utf8.Fault)
  /-- The bytes of a character were decoded to none or to several. -/
  | notSingle (count : Nat)
  /-- A line, trimmed of blanks, is no signed decimal number. -/
  | notNumber (text : String)
  /-- A number has more digits than are read. -/
  | tooManyDigits (count : Nat)
  /-- The user interrupted the read. -/
  | interrupted
deriving DecidableEq, Repr

/-- The text of the error. -/
def Input.Error.message : Input.Error → String
  | .endOfCharacter => "Unexpected end of input while reading a character"
  | .endOfNumber => "Unexpected end of input while reading a number"
  | .badLead b => s!"Invalid UTF-8 leading byte: 0x{Text.hex 2 b.toNat}"
  | .truncated => "Truncated UTF-8 sequence in input"
  | .malformed f => s!"Malformed UTF-8 in input: {f.message}"
  | .notSingle n => s!"ord() expected a character, but string of length {n} found"
  | .notNumber text => s!"Not a number: {Text.quoted text}"
  | .tooManyDigits n =>
    s!"Exceeds the limit ({Decimal.digitLimit} digits) for integer string conversion: "
      ++ s!"value has {n} digits; use sys.set_int_max_str_digits() to increase the limit"
  | .interrupted => "Interrupted"

namespace Input

/-- The stream of the given bytes, of which none has been read. -/
def ofBytes (bs : List UInt8) (ending : Ending) : Input := ⟨bs, 0, ending⟩

/-- The stream after `n` more bytes, or at its end. -/
def advance (i : Input) (n : Nat) : Input :=
  ⟨i.unread.drop n, i.consumed + min n i.unread.length, i.ending⟩

/-- What stops a read that finds no byte, where `e` reports the end of the input. -/
def atEnd (i : Input) (e : Error) : Error :=
  match i.ending with
  | .closed => e
  | .interrupt => .interrupted

/-- The number of bytes that a lead byte announces. -/
def announced? (lead : UInt8) : Option Nat :=
  if lead < 0x80 then some 1
  else if lead < 0xC0 then none
  else if lead < 0xE0 then some 2
  else if lead < 0xF0 then some 3
  else if lead < 0xF8 then some 4
  else none

/-- The single character that the bytes of a whole sequence encode. -/
def decodeCharacter (bs : List UInt8) : Except Error Char :=
  match Utf8.decode bs with
  | .error f => .error (.malformed f)
  | .ok [c] => .ok c
  | .ok cs => .error (.notSingle cs.length)

/-- Reads one character: its lead byte, then the rest in one go. -/
def readChar (i : Input) : Except Error Char × Input :=
  match i.unread with
  | [] => (.error (i.atEnd .endOfCharacter), i)
  | lead :: rest =>
    match announced? lead with
    | none => (.error (.badLead lead), i.advance 1)
    | some n =>
      if rest.length < n - 1 then
        (.error (if rest.isEmpty then i.atEnd .truncated else .truncated), i.advance n)
      else (decodeCharacter (lead :: rest.take (n - 1)), i.advance n)

/-- The bytes of the next line, with its line feed if it has one. -/
def line : List UInt8 → List UInt8
  | [] => []
  | b :: bs => if b = 0x0A then [b] else b :: line bs

/-- The integer that a text without surrounding blanks spells: an optional sign and plain digits. -/
def number (text : List Char) : Except Error Int :=
  let (minus, ds) := Decimal.splitSign text
  if ds.isEmpty || !ds.all Text.isPlainDigit then .error (.notNumber (String.ofList text))
  else if Decimal.digitLimit < ds.length then .error (.tooManyDigits ds.length)
  else .ok (Decimal.signed minus (Decimal.value (ds.map Text.plainDigit)))

/-- The integer on a line. -/
def lineNumber (bs : List UInt8) : Except Error Int :=
  match Utf8.decode bs with
  | .error f => .error (.malformed f)
  | .ok cs => number (Text.trim Text.isBlank cs)

/-- Reads one line and takes it for a number. -/
def readNumber (i : Input) : Except Error Int × Input :=
  match line i.unread with
  | [] => (.error (i.atEnd .endOfNumber), i)
  | l => (lineNumber l, i.advance l.length)

end Input

end PietLang
