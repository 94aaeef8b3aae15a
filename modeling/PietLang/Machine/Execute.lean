import PietLang.Machine.Failure
import PietLang.Machine.State

/-!
# Machine/Execute — what each instruction does

An instruction that lacks its operands on the stack does nothing.  One that fails has taken them: a
failure comes together with the state that it left.

Division rounds toward zero, so the remainder has the sign of the dividend.  A roll rotates the top
of the stack: its values move up by the amount, around the depth, and a positive amount buries the
top.
-/

namespace PietLang

/-! ## Arithmetic and rotation -/

/-- The quotient of the magnitudes, negative when just one of the numbers is. -/
def signedQuotient (y x : Int) : Int :=
  if y < 0 ↔ x < 0 then (y.natAbs / x.natAbs : Nat) else -(y.natAbs / x.natAbs : Nat)

/-- The quotient of `y` by `x`, rounded toward zero, and its remainder. -/
def truncatedDivision (y x : Int) : Except Failure (Int × Int) :=
  if x = 0 then .error (.showing y (.divisionByZero y))
  else .ok (signedQuotient y x, y - x * signedQuotient y x)

/-- The stack with its top `depth` values rotated, each `amount` places up and the uppermost ones
below the others.  A depth beyond the stack means the whole stack. -/
def rollStack (amount depth : Int) (stack : List Int) : List Int :=
  let d := (max 0 (min depth stack.length)).toNat
  if d = 0 then stack
  else
    let shift := amount.natAbs % d
    if shift = 0 then stack
    else
      let top := stack.take d
      let rolled :=
        if 0 < amount then top.drop shift ++ top.take shift
        else top.drop (d - shift) ++ top.take (d - shift)
      rolled ++ stack.drop d

namespace Registers

/-- The registers with the direction turned: clockwise by a positive value, the other way by a
negative one. -/
def point (r : Registers) (v : Int) : Registers :=
  { r with dp := r.dp.turn (if 0 ≤ v then .cw else .ccw) v.natAbs }

/-- The registers with the chooser flipped as often as the value says. -/
def switch (r : Registers) (v : Int) : Registers :=
  if v.natAbs % 2 = 0 then r else { r with cc := r.cc.flip }

/-- A turn the other way is a turn by the opposite value. -/
theorem point_eq (r : Registers) (v : Int) : r.point v = { r with dp := r.dp.turn .cw v } := by
  rw [point]
  by_cases hv : 0 ≤ v
  · rw [if_pos hv, Int.natAbs_of_nonneg hv]
  · rw [if_neg hv, Direction.turn, Direction.turn, Int.ofNat_natAbs_of_nonpos (by omega)]
    rw [Int.sub_neg]

theorem switch_eq (r : Registers) (v : Int) :
    r.switch v = { r with cc := if v % 2 = 0 then r.cc else r.cc.flip } := by
  have hparity : v.natAbs % 2 = 0 ↔ v % 2 = 0 := by omega
  rw [switch]
  by_cases hv : v % 2 = 0
  · rw [if_pos (hparity.mpr hv), if_pos hv]
  · rw [if_neg (mt hparity.mp hv), if_neg hv]

end Registers

/-! ## Instructions -/

namespace State

/-- Pushes what a read gives, or fails with the input that the read left. -/
def pushRead (s : State) {α : Type} (value : α → Int) (r : Except Input.Error α × Input) :
    State × Option Failure :=
  match r with
  | (.ok a, i) => ({ s with input := i, stack := value a :: s.stack }, none)
  | (.error e, i) => ({ s with input := i }, some (.input e))

/-- Writes an integer and a space. -/
def writeNumber (s : State) (v : Int) : State × Option Failure :=
  if Decimal.isWritable v then (s.write (Decimal.text v ++ " "), none) else (s, some .tooManyDigits)

/-- Writes the character with code point `v`. -/
def writeChar (s : State) (v : Int) : State × Option Failure :=
  if 0 ≤ v ∧ v.toNat.isValidChar then (s.write (Char.ofNat v.toNat).toString, none)
  else (s, some (.showing v (.notCharacter v)))

/-- Acts on one value, which has been taken off the stack. -/
def unary (s : State) (op : Opcode) (v : Int) : State × Option Failure :=
  match op with
  | .not => (s.push (if v = 0 then 1 else 0), none)
  | .pointer => ({ s with regs := s.regs.point v }, none)
  | .switch => ({ s with regs := s.regs.switch v }, none)
  | .duplicate => ((s.push v).push v, none)
  | .outNumber => s.writeNumber v
  | .outChar => s.writeChar v
  | _ => (s, none)

/-- Acts on two values, which have been taken off the stack: `x` was on top of `y`. -/
def binary (s : State) (op : Opcode) (x y : Int) : State × Option Failure :=
  match op with
  | .add => (s.push (y + x), none)
  | .subtract => (s.push (y - x), none)
  | .multiply => (s.push (y * x), none)
  | .divide =>
    match truncatedDivision y x with
    | .ok (q, _) => (s.push q, none)
    | .error e => (s, some e)
  | .mod =>
    match truncatedDivision y x with
    | .ok (_, r) => (s.push r, none)
    | .error e => (s, some e)
  | .greater => (s.push (if x < y then 1 else 0), none)
  | .roll => ({ s with stack := rollStack x y s.stack }, none)
  | op => (s, some (.notBinary op))

/-- Carries out an instruction: the state that it leaves, and why it failed, if it did. -/
def execute (s : State) (i : Instruction) : State × Option Failure :=
  match i.opcode, i.opcode.arity, s.stack with
  | .push, _, _ => (s.push i.operand, none)
  | .inNumber, _, _ => s.pushRead id s.input.readNumber
  | .inChar, _, _ => s.pushRead (fun c => (c.toNat : Int)) s.input.readChar
  | op, .unary, v :: rest => { s with stack := rest }.unary op v
  | op, .binary, x :: y :: rest => { s with stack := rest }.binary op x y
  | _, _, _ => (s, none)

end State

end PietLang
