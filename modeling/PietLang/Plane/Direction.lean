import PietLang.Plane.Basic

/-!
# Plane/Direction — the four directions, the two turning senses, and the furthest cells

The directions stand in clockwise order, so a turn is an addition modulo four.  `reach` measures
how far a cell lies in a direction; the furthest cells of a collection are those of greatest
reach, and a corner is found by asking for the furthest twice.
-/

namespace PietLang

/-- A turning sense. -/
inductive Turn where
  | ccw
  | cw
deriving DecidableEq, Repr

/-- The other sense. -/
def Turn.flip : Turn → Turn
  | .ccw => .cw
  | .cw => .ccw

/-- The name of a sense in upper case. -/
def Turn.name : Turn → String
  | .ccw => "COUNTERCLOCKWISE"
  | .cw => "CLOCKWISE"

@[simp] theorem Turn.flip_flip (t : Turn) : t.flip.flip = t := by cases t <;> rfl

/-- The directions, clockwise from the top. -/
inductive Direction where
  | up
  | right
  | down
  | left
deriving DecidableEq, Repr

namespace Direction

/-- All four, clockwise from the top. -/
def all : List Direction := [.up, .right, .down, .left]

/-- The name of a direction in upper case. -/
def name : Direction → String
  | .up => "UP"
  | .right => "RIGHT"
  | .down => "DOWN"
  | .left => "LEFT"

/-- The number of quarter turns from `up`. -/
def quarter : Direction → Int
  | .up => 0
  | .right => 1
  | .down => 2
  | .left => 3

/-- The direction reached from `up` by `n` clockwise quarter turns, for any integer `n`. -/
def ofQuarter (n : Int) : Direction :=
  if n % 4 = 0 then .up else if n % 4 = 1 then .right else if n % 4 = 2 then .down else .left

/-- The direction after `times` quarter turns in the sense `t`. -/
def turn (d : Direction) (t : Turn) (times : Int) : Direction :=
  match t with
  | .cw => ofQuarter (d.quarter + times)
  | .ccw => ofQuarter (d.quarter - times)

@[simp] theorem ofQuarter_quarter (d : Direction) : ofQuarter d.quarter = d := by
  cases d <;> rfl

theorem quarter_inj {d e : Direction} (h : d.quarter = e.quarter) : d = e := by
  rw [← ofQuarter_quarter d, h, ofQuarter_quarter]

@[simp] theorem quarter_ofQuarter (n : Int) : (ofQuarter n).quarter = n % 4 := by
  unfold ofQuarter
  split
  · next h => exact h.symm
  split
  · next h => exact h.symm
  split
  · next h => exact h.symm
  · show (3 : Int) = n % 4
    omega

theorem quarter_mem_range (d : Direction) : 0 ≤ d.quarter ∧ d.quarter < 4 := by
  cases d <;> decide

@[simp] theorem turn_cw_zero (d : Direction) : d.turn .cw 0 = d := by
  rw [turn, Int.add_zero, ofQuarter_quarter]

theorem turn_cw_turn_cw (d : Direction) (m n : Int) :
    (d.turn .cw m).turn .cw n = d.turn .cw (m + n) := by
  refine quarter_inj ?_
  simp only [turn, quarter_ofQuarter]
  omega

/-- A turn and the turn back. -/
@[simp] theorem turn_cw_neg_turn_cw (d : Direction) (n : Int) :
    (d.turn .cw (-n)).turn .cw n = d := by
  rw [turn_cw_turn_cw, Int.add_left_neg, turn_cw_zero]

/-- Turns of either sense commute. -/
theorem turn_turn_cw (d : Direction) (t : Turn) (m n : Int) :
    (d.turn t m).turn .cw n = (d.turn .cw n).turn t m := by
  refine quarter_inj ?_
  cases t <;> simp only [turn, quarter_ofQuarter] <;> omega

theorem turn_cw_inj {d e : Direction} {n : Int} (h : d.turn .cw n = e.turn .cw n) : d = e := by
  have hquarter := congrArg quarter h
  have hd := d.quarter_mem_range
  have he := e.quarter_mem_range
  simp only [turn, quarter_ofQuarter] at hquarter
  exact quarter_inj (by omega)

/-- One step in the direction. -/
def vector : Direction → Coord
  | .up => ⟨0, -1⟩
  | .right => ⟨1, 0⟩
  | .down => ⟨0, 1⟩
  | .left => ⟨-1, 0⟩

/-- Whether the direction changes `x` rather than `y`. -/
def isHorizontal : Direction → Bool
  | .right | .left => true
  | .up | .down => false

/-- The component of `p` that the direction changes. -/
def axis (d : Direction) (p : Coord) : Int := if d.isHorizontal then p.x else p.y

/-- The neighbour of `p`, if it is a cell of the rectangle. -/
def step (d : Direction) (s : Size) (p : Coord) : Option Coord :=
  if p + d.vector ∈ s then some (p + d.vector) else none

/-- How far `p` lies in the direction: the component along it, counted its way. -/
def reach (d : Direction) (p : Coord) : Int :=
  match d with
  | .right | .down => d.axis p
  | .up | .left => -d.axis p

/-- The cells that lie furthest in the direction, in their given order. -/
def furthest (d : Direction) (ps : List Coord) : Except Plane.Error (List Coord) :=
  match (ps.map d.reach).max? with
  | none => .error .noCoordinates
  | some m => .ok (ps.filter fun p => d.reach p = m)

/-- The furthest cells of a collection that has some are those that none lies beyond. -/
theorem exists_furthest {d : Direction} {ps : List Coord} (h : ps ≠ []) :
    ∃ qs, d.furthest ps = .ok qs ∧ qs ≠ [] ∧
      ∀ p, p ∈ qs ↔ p ∈ ps ∧ ∀ q ∈ ps, d.reach q ≤ d.reach p := by
  obtain ⟨m, hm⟩ : ∃ m, (ps.map d.reach).max? = some m := by
    cases hmax : (ps.map d.reach).max? with
    | none => exact absurd (List.map_eq_nil_iff.mp (List.max?_eq_none_iff.mp hmax)) h
    | some m => exact ⟨m, rfl⟩
  obtain ⟨hmem, hmax⟩ := List.max?_eq_some_iff.mp hm
  obtain ⟨p₀, hp₀, hreach⟩ := List.mem_map.mp hmem
  refine ⟨ps.filter fun p => d.reach p = m, by rw [furthest, hm], ?_, ?_⟩
  · exact List.ne_nil_of_mem (List.mem_filter.mpr ⟨hp₀, by simp [hreach]⟩)
  · intro p
    rw [List.mem_filter]
    refine and_congr_right fun hp => ?_
    constructor
    · intro hpm q hq
      rw [of_decide_eq_true hpm]
      exact hmax _ (List.mem_map_of_mem hq)
    · intro hall
      have := hall p₀ hp₀
      exact decide_eq_true (Int.le_antisymm (hmax _ (List.mem_map_of_mem hp)) (hreach ▸ this))

end Direction

end PietLang
