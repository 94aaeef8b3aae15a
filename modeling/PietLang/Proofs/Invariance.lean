import PietLang.Proofs.MovedRun

/-!
# Proofs/Invariance — what a run does not depend on

Three symmetries, and what each of them leaves of a run.  Turning a picture by a quarter turns the
registers with it and changes nothing else (`carries_quarterTurned`).  A black frame shows what the
outside was before, so it only shifts the registers (`carries_framed`).  A shift of all colours
around their cycles is not seen at all (`carries_shiftedColors`).

The last two keep the reading order, so the blocks keep their numbers as well.
-/

namespace PietLang

namespace Symmetry

/-- A rectangle that holds all cells of a picture after the motion shows the moved picture. -/
theorem carries_ofFn {σ : Symmetry} {raw : Grid Codel} {size : Size} (htint : σ.tint = id)
    (hsize : ∀ q ∈ raw.size, σ.place q ∈ size) :
    σ.Carries raw (Grid.ofFn size fun q => raw.codelAt (σ.place.symm q)) := by
  intro q
  rw [Grid.codelAt_ofFn, htint, Codel.recolor_id]
  split
  · rw [σ.place.symm_apply_apply]
  · -- the cell comes from outside, so both pictures are black there
    next hout => rw [Grid.codelAt_of_not_mem (mt (hsize q) hout)]

theorem registers_of_quarters_eq_zero {σ : Symmetry} (h : σ.quarters = 0) (r : Registers) :
    σ.registers r = ⟨σ.place r.pc, r.dp, r.cc⟩ := by
  rw [registers, h, Direction.turn_cw_zero]

end Symmetry

/-! ## A quarter turn -/

/-- The picture turned by a quarter, clockwise. -/
def Grid.quarterTurned (g : Grid Codel) : Grid Codel :=
  ofFn ⟨g.size.height, g.size.width⟩ fun q => g.codelAt ⟨q.y, g.size.height - 1 - q.x⟩

theorem Grid.get?_quarterTurned (g : Grid Codel) (q : Coord) :
    g.quarterTurned.get? ⟨g.size.height - 1 - q.y, q.x⟩ = g.get? q := by
  have hback : (⟨q.x, g.size.height - 1 - (g.size.height - 1 - q.y)⟩ : Coord) = q := by
    ext <;> simp
  rw [quarterTurned, get?_ofFn]
  simp only [Size.mem_iff, hback]
  cases hq : g.get? q with
  | none =>
    have hout := get?_eq_none_iff.mp hq
    rw [Size.mem_iff] at hout
    rw [if_neg (by omega)]
  | some v =>
    have hin := Size.mem_iff.mp (mem_size_of_get? hq)
    rw [if_pos (by omega), codelAt_of_get? hq]

/-- The registers of a machine that is turned with a picture of the given height. -/
def Registers.quarterTurned (height : Int) (r : Registers) : Registers :=
  ⟨⟨height - 1 - r.pc.y, r.pc.x⟩, r.dp.turn .cw 1, r.cc⟩

namespace Symmetry

/-- A quarter turn takes a step to the step in the turned direction. -/
theorem quarterTurn_add_vector (height : Int) (p : Coord) (d : Direction) :
    (⟨height - 1 - (p + d.vector).y, (p + d.vector).x⟩ : Coord)
      = ⟨height - 1 - p.y, p.x⟩ + (d.turn .cw 1).vector := by
  ext <;> cases d <;>
    simp [Direction.vector, Direction.turn, Direction.quarter, Direction.ofQuarter] <;> omega

/-- A quarter turn keeps which of two cells lies further, in the turned direction. -/
theorem reach_quarterTurn_le (height : Int) (d : Direction) (p q : Coord) :
    (d.turn .cw 1).reach ⟨height - 1 - p.y, p.x⟩ ≤ (d.turn .cw 1).reach ⟨height - 1 - q.y, q.x⟩
      ↔ d.reach p ≤ d.reach q := by
  cases d <;> simp [Direction.reach, Direction.axis, Direction.isHorizontal, Direction.turn,
    Direction.quarter, Direction.ofQuarter]
  omega

/-- The quarter turn, clockwise, that brings a rectangle of the given height back to the origin. -/
def quarterTurn (height : Int) : Symmetry where
  place :=
    { toFun := fun q => ⟨height - 1 - q.y, q.x⟩
      invFun := fun q => ⟨q.y, height - 1 - q.x⟩
      left_inv := fun q => by simp
      right_inv := fun q => by simp }
  quarters := 1
  tint := id
  place_add_vector := quarterTurn_add_vector height
  reach_place_le := reach_quarterTurn_le height
  opcodeTo_tint _ _ := rfl

theorem carries_quarterTurned (raw : Grid Codel) :
    (quarterTurn raw.size.height).Carries raw raw.quarterTurned := by
  refine carries_ofFn rfl fun q hq => Size.mem_iff.mpr ?_
  have hin := Size.mem_iff.mp hq
  simp only [quarterTurn, Equiv.coe_fn_mk]
  omega

end Symmetry

/-- **A run turns with its picture**: turned by a quarter, a picture runs from the turned registers
through the same instructions and states, up to the registers, which are the turned ones. -/
theorem Program.run_quarterTurned (raw : Grid Codel) :
    raw.quarterTurned.size = ⟨raw.size.height, raw.size.width⟩ ∧
    (∀ q, raw.quarterTurned.get? ⟨raw.size.height - 1 - q.y, q.x⟩ = raw.get? q) ∧
    ∀ n s, (segment raw.quarterTurned).run n (s.mapRegs (.quarterTurned raw.size.height))
      = ((segment raw).run n s).mapRegs (.quarterTurned raw.size.height) :=
  ⟨rfl, raw.get?_quarterTurned, (Symmetry.carries_quarterTurned raw).mirrors.run⟩

/-! ## A black frame -/

/-- The picture with columns and rows of black on its four sides. -/
def Grid.framed (g : Grid Codel) (left top right bottom : Nat) : Grid Codel :=
  ofFn ⟨left + g.size.width + right, top + g.size.height + bottom⟩ fun q =>
    g.codelAt ⟨q.x - left, q.y - top⟩

/-- The registers at a place that lies `v` further. -/
def Registers.shifted (v : Coord) (r : Registers) : Registers := { r with pc := r.pc + v }

/-- The block with all its cells `v` further. -/
def Block.shifted (v : Coord) (b : Block) : Block := ⟨b.color, b.codels.map (· + v)⟩

namespace Symmetry

theorem shift_add_vector (v p : Coord) (d : Direction) :
    p + d.vector + v = p + v + (d.turn .cw 0).vector := by
  rw [Direction.turn_cw_zero]
  ext <;> simp only [Coord.x_add, Coord.y_add] <;> omega

/-- The motion that brings every cell `v` further. -/
def shift (v : Coord) : Symmetry where
  place :=
    { toFun := fun q => q + v
      invFun := fun q => ⟨q.x - v.x, q.y - v.y⟩
      left_inv := fun q => by ext <;> simp
      right_inv := fun q => by ext <;> simp }
  quarters := 0
  tint := id
  place_add_vector := shift_add_vector v
  reach_place_le d p q := by
    simp only [Direction.turn_cw_zero, Equiv.coe_fn_mk, Direction.reach_add,
      Int.add_le_add_iff_right]
  opcodeTo_tint _ _ := rfl

theorem registers_shift (v : Coord) : (shift v).registers = .shifted v :=
  funext (registers_of_quarters_eq_zero rfl)

theorem keepsOrder_shift (v : Coord) : (shift v).KeepsOrder := by
  intro p q hpq
  simp only [Coord.Before, shift, Equiv.coe_fn_mk, Coord.x_add, Coord.y_add] at hpq ⊢
  omega

theorem carries_framed (raw : Grid Codel) (left top right bottom : Nat) :
    (shift ⟨left, top⟩).Carries raw (raw.framed left top right bottom) := by
  refine carries_ofFn rfl fun q hq => Size.mem_iff.mpr ?_
  have hin := Size.mem_iff.mp hq
  simp only [shift, Equiv.coe_fn_mk, Coord.x_add, Coord.y_add]
  omega

end Symmetry

/-- **A black frame is like the outside**: the blocks keep their numbers and are shifted, and a run
goes through the same instructions and states, up to the registers, which are shifted. -/
theorem Program.run_framed (raw : Grid Codel) (left top right bottom : Nat) :
    (raw.framed left top right bottom).size
      = ⟨left + raw.size.width + right, top + raw.size.height + bottom⟩ ∧
    (∀ q, (raw.framed left top right bottom).codelAt (q + ⟨left, top⟩) = raw.codelAt q) ∧
    (segment (raw.framed left top right bottom)).blocks
      = (segment raw).blocks.map (.shifted ⟨left, top⟩) ∧
    ∀ n s, (segment (raw.framed left top right bottom)).run n (s.mapRegs (.shifted ⟨left, top⟩))
      = ((segment raw).run n s).mapRegs (.shifted ⟨left, top⟩) := by
  have h := Symmetry.carries_framed raw left top right bottom
  refine ⟨rfl, fun q => ?_, ?_, ?_⟩
  · exact (h q).trans (Codel.recolor_id _)
  · exact h.blocks_eq_map (Symmetry.keepsOrder_shift _)
  · rw [← Symmetry.registers_shift]
    exact h.mirrors.run

/-! ## A shift of all colours -/

/-- The picture with every colour `k` hues and `m` lightnesses further. -/
def Grid.shiftedColors (g : Grid Codel) (k m : Int) : Grid Codel :=
  g.map (Codel.recolor (Color.shift k m))

theorem Run.mapRegs_id (r : Run) : r.mapRegs id = r := by
  rw [mapRegs, show State.mapRegs id = id from rfl, Prod.map_id, List.map_id, id]

namespace Symmetry

/-- The shift of all colours, with all cells at their places. -/
def shiftColors (k m : Int) : Symmetry where
  place := .refl Coord
  quarters := 0
  tint := Color.shift k m
  place_add_vector p d := by rw [Direction.turn_cw_zero]; rfl
  reach_place_le d p q := by rw [Direction.turn_cw_zero]; rfl
  opcodeTo_tint := Color.opcodeTo_shift k m

theorem registers_shiftColors (k m : Int) : (shiftColors k m).registers = id :=
  funext (registers_of_quarters_eq_zero rfl)

theorem keepsOrder_shiftColors (k m : Int) : (shiftColors k m).KeepsOrder := id

theorem carries_shiftedColors (raw : Grid Codel) (k m : Int) :
    (shiftColors k m).Carries raw (raw.shiftedColors k m) :=
  fun _ => Grid.codelAt_map_recolor _

end Symmetry

/-- A program's grid is determined by its size and by what a search sees of it. -/
theorem Program.grid_eq_of_cell {p p' : Program} (hsize : p.grid.size = p'.grid.size)
    (h : ∀ q, p.cell q = p'.cell q) : p.grid = p'.grid := by
  refine Grid.eq_of_get?_of_mem hsize fun q hq => ?_
  obtain ⟨a, ha⟩ := Grid.exists_get? hq
  obtain ⟨a', ha'⟩ := Grid.exists_get? (hsize ▸ hq)
  have hcell := h q
  rw [cell, cell, ha, ha', Option.getD_some, Option.getD_some] at hcell
  rw [ha, ha', hcell]

theorem Program.grid_shiftedColors (raw : Grid Codel) (k m : Int) :
    (segment (raw.shiftedColors k m)).grid = (segment raw).grid := by
  have hsize : (segment (raw.shiftedColors k m)).grid.size = (segment raw).grid.size := by
    rw [(scanned_segment _).size_eq, (scanned_segment raw).size_eq]
    rfl
  exact grid_eq_of_cell hsize ((Symmetry.carries_shiftedColors raw k m).cell_place
    (Symmetry.keepsOrder_shiftColors k m))

/-- **A run does not see a shift of all colours**: the cells keep the numbers of their blocks, the
blocks their cells, and a run all its instructions and states. -/
theorem Program.run_shiftedColors (raw : Grid Codel) (k m : Int) :
    (segment (raw.shiftedColors k m)).grid = (segment raw).grid ∧
    (segment (raw.shiftedColors k m)).blocks
      = (segment raw).blocks.map (fun b => ⟨b.color.shift k m, b.codels⟩) ∧
    ∀ n s, (segment (raw.shiftedColors k m)).run n s = (segment raw).run n s := by
  have h := Symmetry.carries_shiftedColors raw k m
  refine ⟨grid_shiftedColors raw k m, ?_, fun n s => ?_⟩
  · have hblocks := h.blocks_eq_map (Symmetry.keepsOrder_shiftColors k m)
    simpa [Symmetry.shiftColors] using hblocks
  · have hrun := h.mirrors.run n s
    rw [Symmetry.registers_shiftColors, Run.mapRegs_id] at hrun
    exact hrun

end PietLang
