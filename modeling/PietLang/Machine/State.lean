import PietLang.Input
import PietLang.Plane.Direction

/-!
# Machine/State — all that an instruction can read or change

The registers say where the machine stands and which way it looks.  The stack is a list with its top
in front.
-/

namespace PietLang

/-- The number of a sense: counterclockwise comes first. -/
def Turn.index : Turn → Int
  | .ccw => 0
  | .cw => 1

theorem Turn.index_inj {s t : Turn} (h : s.index = t.index) : s = t := by
  revert h
  cases s <;> cases t <;> decide

/-- Where the machine stands, the direction it travels in, and the sense in which it chooses among
the cells of an edge. -/
@[ext]
structure Registers where
  pc : Coord
  dp : Direction
  cc : Turn
deriving DecidableEq, Repr

namespace Registers

/-- A program starts at its top left cell, travels right and chooses counterclockwise. -/
def initial : Registers := ⟨⟨0, 0⟩, .right, .ccw⟩

/-- A total order, for sets of registers. -/
def order : Registers → Registers → Ordering :=
  compareLex (compareOn fun r => r.pc.y)
    (compareLex (compareOn fun r => r.pc.x)
      (compareLex (compareOn fun r => r.dp.quarter) (compareOn fun r => r.cc.index)))

instance : Std.TransCmp order :=
  inferInstanceAs (Std.TransCmp (compareLex _ (compareLex _ (compareLex _ _))))

instance : Std.LawfulEqCmp order where
  eq_of_compare {r s} h := by
    obtain ⟨⟨rx, ry⟩, rd, rt⟩ := r
    obtain ⟨⟨sx, sy⟩, sd, st⟩ := s
    obtain ⟨hy, h⟩ := Ordering.then_eq_eq.mp h
    obtain ⟨hx, h⟩ := Ordering.then_eq_eq.mp h
    obtain ⟨hd, ht⟩ := Ordering.then_eq_eq.mp h
    have hy' : ry = sy := Std.LawfulEqOrd.eq_of_compare hy
    have hx' : rx = sx := Std.LawfulEqOrd.eq_of_compare hx
    have hd' : rd = sd := Direction.quarter_inj (Std.LawfulEqOrd.eq_of_compare hd)
    have ht' : rt = st := Turn.index_inj (Std.LawfulEqOrd.eq_of_compare ht)
    rw [hx', hy', hd', ht']

end Registers

/-- The state of a running machine. -/
structure State where
  regs : Registers
  /-- The values, the top one first. -/
  stack : List Int
  input : Input
  /-- All the text written. -/
  output : String
deriving DecidableEq, Repr

namespace State

/-- The state of a machine that has done nothing. -/
def initial (input : Input) : State := ⟨.initial, [], input, ""⟩

/-- The state with a further value on top. -/
def push (s : State) (v : Int) : State := { s with stack := v :: s.stack }

/-- The state with more text written. -/
def write (s : State) (text : String) : State := { s with output := s.output ++ text }

end State

end PietLang
