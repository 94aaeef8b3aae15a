import PietLang.Picture.Basic
import PietLang.Program.Basic

/-!
# Program/Segment — cutting a grid of codels into blocks

The connected region of equal values around a cell is found by a fill.  It keeps the cells it has
found and, of these, the ones whose neighbours it has not looked at yet.  Each step looks at the
neighbours of one of them.  A cell is put on that list once, when it is found, so the number of
cells of the grid bounds the number of steps.

To cut a grid, its cells are visited in reading order.  A black one becomes a wall; a coloured one
that no block has claimed opens a new block, which claims its whole region; all others stay white.
So blocks are numbered by their first cells.
-/

namespace PietLang

/-! ## Regions -/

/-- A fill in progress. -/
structure Fill where
  /-- The cells found so far. -/
  found : Std.TreeSet Coord Coord.readingOrder
  /-- The found cells whose neighbours are still to be looked at. -/
  pending : List Coord

namespace Fill

variable {α : Type} [DecidableEq α]

/-- Nothing is found but the cell to start from. -/
def start (p : Coord) : Fill := ⟨(∅ : Std.TreeSet Coord Coord.readingOrder).insert p, [p]⟩

/-- The cells of the grid beside a cell. -/
def neighbours (g : Grid α) (p : Coord) : List Coord :=
  Direction.all.filterMap fun d => d.step g.size p

/-- Takes a cell in, if it holds the value and has not been found before. -/
def visit (g : Grid α) (v : α) (f : Fill) (p : Coord) : Fill :=
  if p ∈ f.found then f
  else if g.get? p = some v then ⟨f.found.insert p, p :: f.pending⟩
  else f

/-- At most `n` steps; nothing is left to do once no cell is pending. -/
def run (g : Grid α) (v : α) : Nat → Fill → Fill
  | 0, f => f
  | n + 1, f =>
    match f.pending with
    | [] => f
    | p :: rest =>
      run g v n ((neighbours g p).foldl (visit g v) ⟨f.found, rest⟩)

end Fill

namespace Grid

variable {α : Type} [DecidableEq α]

/-- The cells that hold `v` and are joined to `p` through neighbours that hold `v`, in reading
order; `p` itself is taken to hold it. -/
def region (g : Grid α) (v : α) (p : Coord) : List Coord :=
  (Fill.run g v g.size.count (Fill.start p)).found.toList

/-- The cells joined to `p` through neighbours of its own value, in reading order. -/
def component (g : Grid α) (p : Coord) : Except Plane.Error (List Coord) :=
  (g.get p).map fun v => g.region v p

end Grid

/-! ## Blocks -/

namespace Program

/-- No blocks, and every cell white. -/
def blank (size : Size) : Program := ⟨#[], Grid.filled size .white⟩

/-- The program with a further block, which claims its cells. -/
def addBlock (p : Program) (b : Block) : Program :=
  let id := p.blocks.size
  ⟨p.blocks.push b, b.codels.foldl (fun g q => g.put q (.block id)) p.grid⟩

/-- What the visit of one cell adds. -/
def visit (raw : Grid Codel) (p : Program) (q : Coord) : Program :=
  match p.cell q, raw.get? q with
  | .white, some .black => ⟨p.blocks, p.grid.put q .black⟩
  | .white, some (.color c) => p.addBlock ⟨c, raw.region (.color c) q⟩
  | _, _ => p

/-- The program of a grid of codels. -/
def segment (raw : Grid Codel) : Program :=
  raw.size.coords.foldl (visit raw) (blank raw.size)

/-- `segment`, refused when a side is negative: there is no grid of white cells to begin with. -/
def ofGrid (raw : Grid Codel) : Except Plane.Error Program := do
  let grid ← Grid.fill raw.size .white
  return raw.size.coords.foldl (visit raw) ⟨#[], grid⟩

theorem ofGrid_eq (raw : Grid Codel) :
    ofGrid raw = if raw.size.width < 0 ∨ raw.size.height < 0 then .error (.negativeSize raw.size)
      else .ok (segment raw) := by
  rw [ofGrid, Grid.fill]
  split <;> rfl

end Program

/-- The program of a picture whose codels are squares of `c` by `c` pixels. -/
def Picture.compile (pic : Picture) (c : Int) : Except Picture.Error Program :=
  (pic.codels c).map Program.segment

end PietLang
