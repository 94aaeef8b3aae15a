import PietLang.Text.Quoted

/-!
# Text/Utf8 — strict decoding of UTF-8, byte by byte

A decoder either stands between characters or inside a sequence.  Inside, it knows the bytes that
it has taken, how many are still to come and the range of the next one.  The range of the second
byte is narrower after some leads: that excludes overlong forms, surrogates and code points past
the last.

The bad part of a malformed text starts at a lead byte and ends before the first byte that cannot
continue it.
-/

namespace PietLang.Utf8

/-- Why a sequence is malformed. -/
inductive Reason where
  /-- No sequence starts with this byte. -/
  | invalidStart
  /-- The next byte does not continue the sequence. -/
  | invalidContinuation
  /-- The text ends inside the sequence. -/
  | unexpectedEnd
deriving DecidableEq, Repr

/-- The text of a reason. -/
def Reason.message : Reason → String
  | .invalidStart => "invalid start byte"
  | .invalidContinuation => "invalid continuation byte"
  | .unexpectedEnd => "unexpected end of data"

/-- The first malformed sequence of a text: its place, its first byte and its length in bytes. -/
structure Fault where
  position : Nat
  first : UInt8
  length : Nat
  reason : Reason
deriving DecidableEq, Repr

/-- The text of a fault: a single byte is shown, a longer part is given by its ends. -/
def Fault.message (f : Fault) : String :=
  let what :=
    if f.length ≤ 1 then s!"byte 0x{Text.hex 2 f.first.toNat} in position {f.position}"
    else s!"bytes in position {f.position}-{f.position + f.length - 1}"
  s!"'utf-8' codec can't decode {what}: {f.reason.message}"

/-- A sequence of which some bytes have been taken. -/
structure Sequence where
  /-- The lead byte. -/
  first : UInt8
  /-- The number of bytes taken. -/
  taken : Nat
  /-- The number of bytes that must follow the next one. -/
  more : Nat
  /-- The least next byte. -/
  low : UInt8
  /-- The greatest next byte. -/
  high : UInt8
  /-- The code point so far. -/
  code : Nat
deriving DecidableEq, Repr

/-- The sequence that a lead byte of more than one byte opens. -/
def Sequence.open? (b : UInt8) : Option Sequence :=
  if 0xC2 ≤ b ∧ b ≤ 0xDF then some ⟨b, 1, 0, 0x80, 0xBF, b.toNat - 0xC0⟩
  else if b = 0xE0 then some ⟨b, 1, 1, 0xA0, 0xBF, 0⟩
  else if b = 0xED then some ⟨b, 1, 1, 0x80, 0x9F, 0xD⟩
  else if 0xE1 ≤ b ∧ b ≤ 0xEF then some ⟨b, 1, 1, 0x80, 0xBF, b.toNat - 0xE0⟩
  else if b = 0xF0 then some ⟨b, 1, 2, 0x90, 0xBF, 0⟩
  else if 0xF1 ≤ b ∧ b ≤ 0xF3 then some ⟨b, 1, 2, 0x80, 0xBF, b.toNat - 0xF0⟩
  else if b = 0xF4 then some ⟨b, 1, 2, 0x80, 0x8F, 4⟩
  else none

/-- The code point with the six bits of a continuation byte added. -/
def Sequence.codeWith (s : Sequence) (b : UInt8) : Nat := s.code * 64 + (b.toNat - 0x80)

/-- The sequence that waits for the byte after `b`. -/
def Sequence.next (s : Sequence) (b : UInt8) : Sequence :=
  ⟨s.first, s.taken + 1, s.more - 1, 0x80, 0xBF, s.codeWith b⟩

/-- The fault of a sequence that ends before `position`. -/
def Sequence.fault (s : Sequence) (position : Nat) (reason : Reason) : Fault :=
  ⟨position - s.taken, s.first, s.taken, reason⟩

/-- Decodes the bytes from `position` on, inside the given sequence or between characters. -/
def decodeFrom (position : Nat) : Option Sequence → List UInt8 → Except Fault (List Char)
  | none, [] => .ok []
  | some s, [] => .error (s.fault position .unexpectedEnd)
  | none, b :: bs =>
    if b < 0x80 then (decodeFrom (position + 1) none bs).map (Char.ofNat b.toNat :: ·)
    else
      match Sequence.open? b with
      | some s => decodeFrom (position + 1) (some s) bs
      | none => .error ⟨position, b, 1, .invalidStart⟩
  | some s, b :: bs =>
    if s.low ≤ b ∧ b ≤ s.high then
      if s.more = 0 then
        (decodeFrom (position + 1) none bs).map (Char.ofNat (s.codeWith b) :: ·)
      else decodeFrom (position + 1) (some (s.next b)) bs
    else .error (s.fault position .invalidContinuation)

/-- The characters of a text in UTF-8. -/
def decode (bs : List UInt8) : Except Fault (List Char) := decodeFrom 0 none bs

end PietLang.Utf8
