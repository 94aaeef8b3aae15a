import PietLang.Input
import PietLang.Opcode
import PietLang.Program.Basic

/-!
# Machine/Failure — why an instruction fails

The failures of a running program are those of its input, its divisions and its characters.  The
others say that a number has too many digits to be written, or that the machine was misused.
-/

namespace PietLang

/-- Why an instruction fails. -/
inductive Failure where
  | input (e : Input.Error)
  | divisionByZero (dividend : Int)
  /-- The value is no code point of a character. -/
  | notCharacter (value : Int)
  /-- The value has more digits than are written. -/
  | tooManyDigits
  /-- The opcode does not act on two values. -/
  | notBinary (op : Opcode)
  | program (f : Program.Fault)
deriving DecidableEq, Repr

namespace Failure

/-- The text of the failure. -/
def message : Failure → String
  | .input e => e.message
  | .divisionByZero y => s!"Division by zero ({Decimal.text y} / 0)"
  | .notCharacter v => s!"Not a valid character code point: {Decimal.text v}"
  | .tooManyDigits =>
    s!"Exceeds the limit ({Decimal.digitLimit} digits) for integer string conversion; "
      ++ "use sys.set_int_max_str_digits() to increase the limit"
  | .notBinary op => s!"Not a binary opcode: Opcode.{op.mnemonic.toUpper}"
  | .program f => f.message

/-- The failure that shows the value `v`: a value with too many digits cannot be shown. -/
def showing (v : Int) (f : Failure) : Failure := if Decimal.isWritable v then f else .tooManyDigits

/-- Whether a failure is one of those that are reported to the user. -/
def isReported : Failure → Bool
  | .input (.tooManyDigits _) | .input (.notSingle _) | .input .interrupted => false
  | .input _ | .divisionByZero _ | .notCharacter _ => true
  | .tooManyDigits | .notBinary _ | .program _ => false

end Failure

end PietLang
