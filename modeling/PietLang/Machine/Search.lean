import PietLang.Opcode
import PietLang.Machine.State
import PietLang.Program.Basic

/-!
# Machine/Search — the way to the next instruction

From inside a block the search first moves to the block's exit; then it probes the cell ahead.  Free
space is entered.  A wall, and the outside, is answered by flipping the chooser and turning the
direction in alternation.  A coloured cell is entered and ends the search; the instruction is the
change of colour, with the area of the block that was left as operand, or nothing at all when the
search did not come from a block.

A search that meets registers a second time is stuck.  All registers of a search stand at a cell of
the grid or where the search began, in one of eight attitudes, which bounds the number of probes.
-/

namespace PietLang

/-- A search on its way: the registers, and whether the last probe was answered by a flip. -/
structure Cursor where
  regs : Registers
  flipped : Bool
deriving DecidableEq, Repr

namespace Cursor

/-- Enters free space. -/
def slide (c : Cursor) (p : Coord) : Cursor := ⟨{ c.regs with pc := p }, false⟩

/-- Answers a wall: the first time by flipping the chooser, the second time by turning. -/
def bounce (c : Cursor) : Cursor :=
  if c.flipped then ⟨{ c.regs with dp := c.regs.dp.turn .cw 1 }, false⟩
  else ⟨{ c.regs with cc := c.regs.cc.flip }, true⟩

end Cursor

/-- The outcome of one probe. -/
inductive Probe where
  /-- A coloured cell was entered. -/
  | landed (i : Instruction) (r : Registers)
  /-- The search goes on. -/
  | moved (c : Cursor)
deriving DecidableEq, Repr

namespace Program

/-- The block that the registers stand in, and the registers moved to its exit. -/
def settle (p : Program) (r : Registers) : Except Program.Fault (Option Block × Registers) :=
  match p.blockAt r.pc with
  | .error e => .error e
  | .ok none => .ok (none, r)
  | .ok (some b) =>
    match b.exit r.dp r.cc with
    | .error e => .error (.plane e)
    | .ok q => .ok (some b, { r with pc := q })

/-- The instruction of a move onto a cell of the block `id`, from a block or from elsewhere. -/
def instructionTo (p : Program) (left : Option Block) (id : Nat) :
    Except Program.Fault Instruction :=
  match left with
  | none => .ok .idle
  | some b => (p.block id).map fun b' => ⟨b.color.opcodeTo b'.color, b.area⟩

/-- Probes the cell ahead, having come from the block `left`. -/
def probe (p : Program) (left : Option Block) (c : Cursor) : Except Program.Fault Probe :=
  match c.regs.dp.step p.size c.regs.pc with
  | none => .ok (.moved c.bounce)
  | some q =>
    match p.grid.get q with
    | .error e => .error (.plane e)
    | .ok .white => .ok (.moved (c.slide q))
    | .ok .black => .ok (.moved c.bounce)
    | .ok (.block id) =>
      (p.instructionTo left id).map fun i => .landed i { c.regs with pc := q }

/-- At most `n` probes, none from registers that were `seen`: the instruction found, or `none`
when the search is stuck, and the registers at the end. -/
def search (p : Program) :
    Nat → Std.TreeSet Registers Registers.order → Cursor →
      Except Program.Fault (Option Instruction × Registers)
  | 0, _, _ => .error .unfinished
  | n + 1, seen, c =>
    match p.settle c.regs with
    | .error e => .error e
    | .ok (left, r) =>
      if r ∈ seen then .ok (none, r)
      else
        match p.probe left ⟨r, c.flipped⟩ with
        | .error e => .error e
        | .ok (.landed i r') => .ok (some i, r')
        | .ok (.moved c') => search p n (seen.insert r) c'

/-- A number of probes within which every search ends. -/
def searchBound (p : Program) : Nat := 8 * (p.size.count + 1) + 1

/-- The next instruction, or `none` when the program is stuck, and the registers after the search.
-/
def next (p : Program) (r : Registers) : Except Program.Fault (Option Instruction × Registers) :=
  p.search p.searchBound ∅ ⟨r, false⟩

end Program

end PietLang
