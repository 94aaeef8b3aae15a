import PietLang.Program.Basic
import Mathlib.Data.Finset.Insert
import Mathlib.Data.Int.Order.Basic

/-!
# Proofs/Corner — a corner is the one cell of a collection that none lies beyond

A corner is measured twice: along a direction and, among the cells that are furthest there, along
the direction turned once.  The two measures are the two coordinates up to sign, so at most one cell
is a corner (`IsCorner.unique`), and a collection that has cells has one (`corner_eq_ok_iff`).  A
step in a direction reaches further in it, so the cell ahead of a corner is none of the collection
(`IsCorner.ahead_not_mem`).

Being a corner is a matter of the set of cells and of the vectors of the two directions alone
(`isOutermost_toFinset`), so the exit of a block does not depend on the order in which its cells are
listed.
-/

namespace PietLang

namespace Direction

variable {d : Direction} {t : Turn} {ps : List Coord} {p q e : Coord}

theorem reach_add (d : Direction) (p v : Coord) : d.reach (p + v) = d.reach p + d.reach v := by
  cases d <;> simp only [reach, axis, isHorizontal, Coord.x_add, Coord.y_add, if_true,
    Bool.false_eq_true, if_false] <;> omega

theorem reach_vector (d : Direction) : d.reach d.vector = 1 := by cases d <;> rfl

/-- Reach along a direction and across it determines a cell. -/
theorem eq_of_reach_eq (t : Turn) (h : d.reach p = d.reach q)
    (h' : (d.turn t 1).reach p = (d.turn t 1).reach q) : p = q := by
  obtain ⟨px, py⟩ := p
  obtain ⟨qx, qy⟩ := q
  have hxy : px = qx ∧ py = qy := by
    cases d <;> cases t <;>
      simp [reach, axis, isHorizontal, turn, quarter, ofQuarter] at h h' <;> omega
  rw [hxy.1, hxy.2]

/-- `e` is the cell of `ps` that lies furthest in the direction and, of those that do, furthest in
the direction turned once. -/
structure IsCorner (d : Direction) (t : Turn) (ps : List Coord) (e : Coord) : Prop where
  mem : e ∈ ps
  furthest : ∀ q ∈ ps, d.reach q ≤ d.reach e
  tie : ∀ q ∈ ps, d.reach q = d.reach e → (d.turn t 1).reach q ≤ (d.turn t 1).reach e

theorem IsCorner.unique (hp : IsCorner d t ps p) (hq : IsCorner d t ps q) : p = q := by
  have hreach : d.reach p = d.reach q :=
    le_antisymm (hq.furthest p hp.mem) (hp.furthest q hq.mem)
  exact eq_of_reach_eq t hreach
    (le_antisymm (hq.tie p hp.mem hreach) (hp.tie q hq.mem hreach.symm))

/-- **The cell ahead of a corner is outside.** -/
theorem IsCorner.ahead_not_mem (h : IsCorner d t ps e) : e + d.vector ∉ ps := by
  intro hmem
  have hle := h.furthest _ hmem
  rw [reach_add, reach_vector] at hle
  omega

/-- A collection that has cells has a corner. -/
theorem exists_corner (d : Direction) (t : Turn) (h : ps ≠ []) :
    ∃ e, d.corner t ps = .ok e ∧ IsCorner d t ps e := by
  obtain ⟨side, hside, hne, hmem⟩ := exists_furthest (d := d) h
  obtain ⟨qs, hqs, hqs_ne, hqs_mem⟩ := exists_furthest (d := d.turn t 1) hne
  obtain ⟨e, rest, rfl⟩ := List.exists_cons_of_ne_nil hqs_ne
  obtain ⟨heside, hcross⟩ := (hqs_mem e).mp List.mem_cons_self
  obtain ⟨heps, hfar⟩ := (hmem e).mp heside
  refine ⟨e, by simp only [corner, hside, hqs, bind, Except.bind], heps, hfar, ?_⟩
  intro q hq hreach
  refine hcross q ((hmem q).mpr ⟨hq, fun r hr => ?_⟩)
  rw [hreach]
  exact hfar r hr

/-- **The corner that is found is the corner.** -/
theorem corner_eq_ok_iff : d.corner t ps = .ok e ↔ IsCorner d t ps e := by
  constructor
  · intro h
    have hne : ps ≠ [] := by
      rintro rfl
      cases h
    obtain ⟨q, hq, hcorner⟩ := exists_corner d t hne
    rw [h] at hq
    rw [Except.ok.inj hq]
    exact hcorner
  · intro h
    obtain ⟨q, hq, hcorner⟩ := exists_corner d t (List.ne_nil_of_mem h.mem)
    rw [hq, h.unique hcorner]

/-! ## The corner of a set -/

/-- `q` lies further in the direction than `p`: the way from `p` to `q` leads along its vector. -/
def Beyond (d : Direction) (p q : Coord) : Prop :=
  0 < (q.x - p.x) * d.vector.x + (q.y - p.y) * d.vector.y

theorem beyond_iff : d.Beyond p q ↔ d.reach p < d.reach q := by
  cases d <;> simp only [Beyond, vector, reach, axis, isHorizontal, if_true, Bool.false_eq_true,
    if_false] <;> omega

/-- Neither of two cells lies further in the direction than the other. -/
def Tied (d : Direction) (p q : Coord) : Prop := ¬ d.Beyond p q ∧ ¬ d.Beyond q p

theorem tied_iff : d.Tied p q ↔ d.reach p = d.reach q := by
  rw [Tied, beyond_iff, beyond_iff]
  omega

/-- `e` is a cell of the set that none lies beyond in the direction, and none that is tied with it
there lies beyond in the direction turned once. -/
structure IsOutermost (d : Direction) (t : Turn) (s : Finset Coord) (e : Coord) : Prop where
  mem : e ∈ s
  not_beyond : ∀ q ∈ s, ¬ d.Beyond e q
  not_beyond_of_tied : ∀ q ∈ s, d.Tied e q → ¬ (d.turn t 1).Beyond e q

/-- A corner is a matter of the set of cells, not of their order. -/
theorem isOutermost_toFinset : IsOutermost d t ps.toFinset e ↔ IsCorner d t ps e := by
  constructor
  · intro h
    refine ⟨List.mem_toFinset.mp h.mem, fun q hq => ?_, fun q hq hreach => ?_⟩
    · exact not_lt.mp (mt beyond_iff.mpr (h.not_beyond q (List.mem_toFinset.mpr hq)))
    · exact not_lt.mp (mt beyond_iff.mpr
        (h.not_beyond_of_tied q (List.mem_toFinset.mpr hq) (tied_iff.mpr hreach.symm)))
  · intro h
    refine ⟨List.mem_toFinset.mpr h.mem, fun q hq => ?_, fun q hq htied => ?_⟩
    · exact mt beyond_iff.mp (not_lt.mpr (h.furthest q (List.mem_toFinset.mp hq)))
    · exact mt beyond_iff.mp
        (not_lt.mpr (h.tie q (List.mem_toFinset.mp hq) (tied_iff.mp htied).symm))

end Direction

namespace Block

/-- **The exit of a block is the outermost of its cells**, which there is one of in every set that
has cells.  All listings of the set give it, and the cell ahead of it is outside; without cells
there is no exit. -/
theorem exit_eq_outermost (s : Finset Coord) (d : Direction) (t : Turn) :
    (s.Nonempty → ∃ e, d.IsOutermost t s e ∧ (∀ e', d.IsOutermost t s e' → e' = e) ∧
      (∀ b : Block, b.codels.toFinset = s → b.exit d t = .ok e) ∧ e + d.vector ∉ s) ∧
    ∀ b : Block, b.codels.toFinset = ∅ → b.exit d t = .error .noCoordinates := by
  constructor
  · intro hs
    obtain ⟨ps, -, rfl⟩ := s.exists_list_nodup_eq
    have hne : ps ≠ [] := List.toFinset_nonempty_iff ps |>.mp hs
    obtain ⟨e, -, hcorner⟩ := Direction.exists_corner d t hne
    have he := Direction.isOutermost_toFinset.mpr hcorner
    refine ⟨e, he, fun e' he' => ?_, fun b hb => ?_, fun hmem => ?_⟩
    · exact (Direction.isOutermost_toFinset.mp he').unique hcorner
    · rw [← hb, Direction.isOutermost_toFinset] at he
      exact Direction.corner_eq_ok_iff.mpr he
    · exact hcorner.ahead_not_mem (List.mem_toFinset.mp hmem)
  · intro b hb
    rw [exit, (List.toFinset_eq_empty_iff _).mp hb]
    rfl

end Block

end PietLang
