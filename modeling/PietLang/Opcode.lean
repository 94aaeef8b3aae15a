import PietLang.Color.Basic

/-!
# Opcode — the instruction that a change of colour selects

The six hue changes and the three lightness changes select one opcode each; no change at all selects
`nop`, and nothing else does.
-/

namespace PietLang

/-- What an opcode takes before it acts. -/
inductive Arity where
  /-- Nothing. -/
  | none
  /-- The top of the stack. -/
  | unary
  /-- The two top values of the stack. -/
  | binary
  /-- Bytes of the input. -/
  | input
deriving DecidableEq, Repr

/-- The name of an arity in upper case. -/
def Arity.name : Arity → String
  | .none => "NONE"
  | .unary => "UNARY"
  | .binary => "BINARY"
  | .input => "INPUT"

/-- The operations of the machine. -/
inductive Opcode where
  | nop
  | push
  | pop
  | add
  | subtract
  | multiply
  | divide
  | mod
  | not
  | greater
  | pointer
  | switch
  | duplicate
  | roll
  | inNumber
  | inChar
  | outNumber
  | outChar
deriving DecidableEq, Repr

namespace Opcode

/-- All opcodes, hue change by hue change. -/
def all : List Opcode :=
  [.nop, .push, .pop, .add, .subtract, .multiply, .divide, .mod, .not, .greater, .pointer, .switch,
    .duplicate, .roll, .inNumber, .inChar, .outNumber, .outChar]

/-- The name of an opcode in a trace. -/
def mnemonic : Opcode → String
  | .nop => "nop"
  | .push => "push"
  | .pop => "pop"
  | .add => "add"
  | .subtract => "subtract"
  | .multiply => "multiply"
  | .divide => "divide"
  | .mod => "mod"
  | .not => "not"
  | .greater => "greater"
  | .pointer => "pointer"
  | .switch => "switch"
  | .duplicate => "duplicate"
  | .roll => "roll"
  | .inNumber => "in_number"
  | .inChar => "in_char"
  | .outNumber => "out_number"
  | .outChar => "out_char"

/-- The opcode with a given name. -/
def ofMnemonic? (name : String) : Option Opcode := all.find? fun op => op.mnemonic = name

/-- What an opcode takes before it acts. -/
def arity : Opcode → Arity
  | .nop | .push => .none
  | .inNumber | .inChar => .input
  | .pop | .not | .pointer | .switch | .duplicate | .outNumber | .outChar => .unary
  | .add | .subtract | .multiply | .divide | .mod | .greater | .roll => .binary

/-- The opcode of a hue change (first) and a lightness change (second). -/
def ofChange : Nat → Nat → Opcode
  | 0, 0 => .nop
  | 0, 1 => .push
  | 0, _ => .pop
  | 1, 0 => .add
  | 1, 1 => .subtract
  | 1, _ => .multiply
  | 2, 0 => .divide
  | 2, 1 => .mod
  | 2, _ => .not
  | 3, 0 => .greater
  | 3, 1 => .pointer
  | 3, _ => .switch
  | 4, 0 => .duplicate
  | 4, 1 => .roll
  | 4, _ => .inNumber
  | _, 0 => .inChar
  | _, 1 => .outNumber
  | _, _ => .outChar

end Opcode

/-- The opcode that a move from `old` to `new` selects. -/
def Color.opcodeTo (old new : Color) : Opcode :=
  .ofChange (old.hueChange new) (old.lightnessChange new)

/-- An opcode with its operand. -/
structure Instruction where
  opcode : Opcode
  operand : Int
deriving DecidableEq, Repr

/-- The instruction that does nothing. -/
def Instruction.idle : Instruction := ⟨.nop, 0⟩

end PietLang
