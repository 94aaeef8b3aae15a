import PietLang.Proofs.ColorCycle
import PietLang.Proofs.ReadingOrder
import PietLang.Proofs.Search
import Mathlib.Data.List.Sort
import Mathlib.Logic.Equiv.Defs

/-!
# Proofs/Symmetry — motions of the plane that a machine cannot notice

A symmetry moves the cells of the plane, turns the directions with them, and may shift the colours.
It asks for no more than what a search looks at: a step goes to the step in the turned direction, a
cell that lies further still does so, and the change from one colour to another is kept.

So a corner goes to the corner of the turned direction (`exit_block`), although the cells of a block
are listed in another order after the motion, and the cell ahead goes to the cell ahead
(`front_registers`).
-/

namespace PietLang

namespace Block

variable {color : Color} {ps : List Coord} {q : Coord}

@[simp] theorem mem_codels_ofCoords : q ∈ (ofCoords color ps).codels ↔ q ∈ ps := by
  rw [ofCoords, Std.TreeSet.mem_toList, Std.TreeSet.mem_ofList, List.contains_iff_mem]

theorem pairwise_codels_ofCoords (color : Color) (ps : List Coord) :
    (ofCoords color ps).codels.Pairwise Coord.Before := Coord.pairwise_toList _

/-- Cells that are given once each all count. -/
theorem area_ofCoords (h : ps.Nodup) : (ofCoords color ps).area = ps.length := by
  refine List.Perm.length_eq ((List.perm_ext_iff_of_nodup ?_ h).mpr fun q => mem_codels_ofCoords)
  exact (pairwise_codels_ofCoords color ps).nodup

end Block

/-- A motion of the plane, with the turn of the directions and the change of colours that go with
it. -/
structure Symmetry where
  /-- Where a cell goes. -/
  place : Coord ≃ Coord
  /-- How many quarters the directions turn, clockwise. -/
  quarters : Int
  /-- What a colour becomes. -/
  tint : Color → Color
  place_add_vector : ∀ (p : Coord) (d : Direction),
    place (p + d.vector) = place p + (d.turn .cw quarters).vector
  reach_place_le : ∀ (d : Direction) (p q : Coord),
    (d.turn .cw quarters).reach (place p) ≤ (d.turn .cw quarters).reach (place q)
      ↔ d.reach p ≤ d.reach q
  opcodeTo_tint : ∀ a b : Color, (tint a).opcodeTo (tint b) = a.opcodeTo b

namespace Symmetry

variable (σ : Symmetry)

/-- Different colours stay different: no change is selected between them that was not before. -/
theorem tint_injective : Function.Injective σ.tint := by
  intro a b h
  rw [← Color.opcodeTo_eq_nop_iff, ← σ.opcodeTo_tint, Color.opcodeTo_eq_nop_iff]
  exact h

/-! ## Registers and cursors -/

/-- The registers after the motion. -/
def registers (r : Registers) : Registers := ⟨σ.place r.pc, r.dp.turn .cw σ.quarters, r.cc⟩

@[simp] theorem registers_inj {r s : Registers} : σ.registers r = σ.registers s ↔ r = s := by
  constructor
  · intro h
    obtain ⟨p, d, t⟩ := r
    obtain ⟨q, e, u⟩ := s
    obtain ⟨hpc, hdp, hcc⟩ := Registers.mk.inj h
    obtain rfl : p = q := σ.place.injective hpc
    obtain rfl : d = e := Direction.turn_cw_inj hdp
    obtain rfl : t = u := hcc
    rfl
  · rintro rfl
    rfl

/-- **The cell ahead goes to the cell ahead.** -/
theorem front_registers (r : Registers) : (σ.registers r).front = σ.place r.front :=
  (σ.place_add_vector r.pc r.dp).symm

/-- The cursor after the motion. -/
def cursor (c : Cursor) : Cursor := ⟨σ.registers c.regs, c.flipped⟩

theorem cursor_bounce (c : Cursor) : σ.cursor c.bounce = (σ.cursor c).bounce := by
  obtain ⟨r, flipped⟩ := c
  cases flipped with
  | true =>
    simp only [cursor, Cursor.bounce, registers, if_true, Direction.turn_turn_cw r.dp .cw 1]
  | false => rfl

/-! ## Blocks and their corners -/

/-- The block after the motion: its cells are listed anew. -/
def block (b : Block) : Block := .ofCoords (σ.tint b.color) (b.codels.map σ.place)

@[simp] theorem color_block (b : Block) : (σ.block b).color = σ.tint b.color := rfl

@[simp] theorem place_mem_codels_block {b : Block} {q : Coord} :
    σ.place q ∈ (σ.block b).codels ↔ q ∈ b.codels := by
  rw [block, Block.mem_codels_ofCoords, List.mem_map_of_injective σ.place.injective]

theorem mem_codels_block {b : Block} {q : Coord} :
    q ∈ (σ.block b).codels ↔ σ.place.symm q ∈ b.codels := by
  obtain ⟨p, rfl⟩ := σ.place.surjective q
  rw [σ.place_mem_codels_block, σ.place.symm_apply_apply]

theorem area_block {b : Block} (h : b.codels.Nodup) : (σ.block b).area = b.area := by
  rw [block, Block.area_ofCoords (h.map σ.place.injective), List.length_map]
  rfl

/-- **A corner goes to the corner of the turned direction.** -/
theorem exit_block {b : Block} {d : Direction} {t : Turn} {e : Coord} (h : b.exit d t = .ok e) :
    (σ.block b).exit (d.turn .cw σ.quarters) t = .ok (σ.place e) := by
  have hcorner := Direction.corner_eq_ok_iff.mp h
  refine Direction.corner_eq_ok_iff.mpr ⟨σ.place_mem_codels_block.mpr hcorner.mem, ?_, ?_⟩
  · intro q' hq'
    obtain ⟨q, rfl⟩ := σ.place.surjective q'
    rw [σ.reach_place_le]
    exact hcorner.furthest q (σ.place_mem_codels_block.mp hq')
  · intro q' hq' hreach
    obtain ⟨q, rfl⟩ := σ.place.surjective q'
    have hq := σ.place_mem_codels_block.mp hq'
    rw [le_antisymm_iff, σ.reach_place_le, σ.reach_place_le, ← le_antisymm_iff] at hreach
    rw [← Direction.turn_turn_cw, σ.reach_place_le]
    exact hcorner.tie q hq hreach

end Symmetry

end PietLang
