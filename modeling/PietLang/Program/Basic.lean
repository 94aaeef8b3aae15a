import PietLang.Color.Basic
import PietLang.Plane.Direction
import PietLang.Plane.Grid
import PietLang.Text.Basic

/-!
# Program/Basic — regions of one colour, and a picture cut into them

The exit of a block is found in two steps: the cells furthest in the direction of travel, and of
these the one furthest in that direction turned once by the chooser.  Only coordinates decide,
never the order in which the cells are listed.

A program is a table of blocks and a grid whose cells are white, black, or the number of a block.
Outside the grid everything is black.
-/

namespace PietLang

/-! ## Blocks -/

namespace Direction

/-- The cell furthest in the direction `d`, and among those the furthest in `d` turned once by
`t`. -/
def corner (d : Direction) (t : Turn) (ps : List Coord) : Except Plane.Error Coord := do
  let side ← d.furthest ps
  match ← (d.turn t 1).furthest side with
  | p :: _ => .ok p
  | [] => .error .noCoordinates

end Direction

/-- A colour block: its colour and its cells, in reading order. -/
structure Block where
  color : Color
  codels : List Coord
deriving DecidableEq, Repr

namespace Block

/-- The block of a colour and a collection of cells: each counts once, in any order. -/
def ofCoords (color : Color) (ps : List Coord) : Block :=
  ⟨color, (Std.TreeSet.ofList ps Coord.readingOrder).toList⟩

/-- The number of cells. -/
def area (b : Block) : Nat := b.codels.length

/-- The cell from which the block is left, for a direction and a chooser. -/
def exit (b : Block) (d : Direction) (t : Turn) : Except Plane.Error Coord := d.corner t b.codels

/-- The cell that a reader meets first. -/
def first (b : Block) : Except Plane.Error Coord :=
  match b.codels with
  | p :: _ => .ok p
  | [] => .error .noCoordinates

end Block

/-! ## Programs -/

/-- A cell of a program. -/
inductive Cell where
  | white
  | black
  | block (id : Nat)
deriving DecidableEq, Repr

/-- The number of a cell: the number of its block, or a mark below zero. -/
def Cell.code : Cell → Int
  | .white => -2
  | .black => -1
  | .block id => id

/-- A picture cut into blocks. -/
structure Program where
  blocks : Array Block
  grid : Grid Cell
deriving DecidableEq

/-- What can be wrong with a program whose table and grid do not fit together, and with a search on
it.  None of it arises on a picture that was cut into its blocks. -/
inductive Program.Fault where
  | plane (e : Plane.Error)
  /-- A cell names a block that the table does not hold. -/
  | unknownBlock (id : Nat)
  /-- A search did not end within its bound. -/
  | unfinished
deriving DecidableEq, Repr

/-- The text of the fault. -/
def Program.Fault.message : Program.Fault → String
  | .plane e => e.message
  | .unknownBlock _ => "tuple index out of range"
  | .unfinished => "Search did not finish"

namespace Program

/-- The sides of the program's grid. -/
def size (p : Program) : Size := p.grid.size

/-- The cell at a place; outside the grid it is black. -/
def cell (p : Program) (q : Coord) : Cell := (p.grid.get? q).getD .black

/-- The block with a given number. -/
def block (p : Program) (id : Nat) : Except Program.Fault Block :=
  match p.blocks[id]? with
  | some b => .ok b
  | none => .error (.unknownBlock id)

/-- The block that holds a place, if one does. -/
def blockAt (p : Program) (q : Coord) : Except Program.Fault (Option Block) :=
  match p.cell q with
  | .block id => (p.block id).map some
  | .white | .black => .ok none

/-- The line that describes a block: number, colour, area and first cell. -/
def describeBlock (id : Nat) (b : Block) : Except Plane.Error String := do
  let p ← b.first
  return "#" ++ Text.leftAligned 4 (toString id) ++ " " ++ Text.leftAligned 14 b.color.name
    ++ " area=" ++ Text.leftAligned 6 (toString b.area) ++ " at " ++ p.text

/-- One line for every block, in order of number. -/
def describe (p : Program) : Except Plane.Error (List String) :=
  (p.blocks.toList.zipIdx).mapM fun (b, id) => describeBlock id b

end Program

end PietLang
