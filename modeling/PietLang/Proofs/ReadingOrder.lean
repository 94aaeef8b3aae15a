import PietLang.Plane.Grid
import Mathlib.Data.Int.Order.Basic
import Mathlib.Data.List.Nodup
import Mathlib.Order.Compare

/-!
# Proofs/ReadingOrder — the cells of a rectangle are listed in reading order

`Coord.Before` says in coordinates what `Coord.readingOrder` compares: an earlier row, or the same
row further left.  It is a strict order, and `Size.coords` lists a rectangle along it, so a cell
that comes before another stands in front of it in the list (`Size.mem_prefix_iff_before`).  Since
the list has no repetitions, every value of a grid is the value of one cell, and the view determines
the grid (`Grid.eq_of_get?`).
-/

namespace PietLang

namespace Coord

/-- A reader meets `p` before `q`. -/
def Before (p q : Coord) : Prop := p.y < q.y ∨ p.y = q.y ∧ p.x < q.x

theorem readingOrder_eq_lt {p q : Coord} : readingOrder p q = .lt ↔ p.Before q := by
  change (compare p.y q.y).then (compare p.x q.x) = .lt ↔ _
  rw [Ordering.then_eq_lt, compare_lt_iff_lt, compare_eq_iff_eq, compare_lt_iff_lt]
  rfl

theorem Before.irrefl (p : Coord) : ¬ p.Before p := by
  rintro (h | ⟨-, h⟩)
  · exact lt_irrefl _ h
  · exact lt_irrefl _ h

theorem Before.trans {p q r : Coord} (hpq : p.Before q) (hqr : q.Before r) : p.Before r := by
  unfold Before at *
  omega

theorem Before.asymm {p q : Coord} (hpq : p.Before q) : ¬ q.Before p :=
  fun hqp => Before.irrefl p (hpq.trans hqp)

instance : Std.Asymm Before := ⟨fun _ _ hpq => hpq.asymm⟩

/-- A set of cells is listed in reading order. -/
theorem pairwise_toList (s : Std.TreeSet Coord readingOrder) : s.toList.Pairwise Before :=
  Std.TreeSet.ordered_toList.imp readingOrder_eq_lt.mp

end Coord

namespace Size

/-- A row is listed from the left. -/
theorem pairwise_row (s : Size) (y : Nat) : (s.row y).Pairwise Coord.Before := by
  refine List.pairwise_map.mpr (List.pairwise_lt_range.imp fun hab => ?_)
  exact Or.inr ⟨rfl, Int.ofNat_lt.mpr hab⟩

/-- **The cells of a rectangle are listed in reading order.** -/
theorem pairwise_coords (s : Size) : s.coords.Pairwise Coord.Before := by
  refine List.pairwise_flatMap.mpr ⟨fun y _ => s.pairwise_row y, ?_⟩
  refine List.pairwise_lt_range.imp fun {a b} hab p hp q hq => ?_
  have hpy : p.y = a := (mem_row.mp hp).1
  have hqy : q.y = b := (mem_row.mp hq).1
  exact Or.inl (by rw [hpy, hqy]; exact Int.ofNat_lt.mpr hab)

/-- A cell stands at its own place only. -/
theorem offset_of_getElem? {s : Size} {i : Nat} {p : Coord} (h : s.coords[i]? = some p) :
    s.offset p = i := by
  obtain ⟨hi, hp⟩ := List.getElem?_eq_some_iff.mp h
  have hmem : p ∈ s := mem_coords.mp (hp ▸ List.getElem_mem hi)
  obtain ⟨hj, hq⟩ := List.getElem?_eq_some_iff.mp (getElem?_coords_offset hmem)
  exact (s.pairwise_coords.nodup.getElem_inj_iff).mp (hq.trans hp.symm)

/-- Of a rectangle's cells, those in front of `q` in the list are those that come before `q`. -/
theorem mem_prefix_iff_before {s : Size} {before after : List Coord} {q : Coord}
    (h : s.coords = before ++ q :: after) {p : Coord} : p ∈ before ↔ p ∈ s ∧ p.Before q := by
  have hpair : (before ++ q :: after).Pairwise Coord.Before := h ▸ s.pairwise_coords
  obtain ⟨-, hafter, hacross⟩ := List.pairwise_append.mp hpair
  constructor
  · intro hp
    refine ⟨mem_coords.mp (h ▸ List.mem_append_left _ hp), hacross p hp q List.mem_cons_self⟩
  · rintro ⟨hp, hpq⟩
    have hmem : p ∈ before ++ q :: after := h ▸ mem_coords.mpr hp
    rcases List.mem_append.mp hmem with hp' | hp'
    · exact hp'
    · rcases List.mem_cons.mp hp' with rfl | hp'
      · exact absurd hpq (Coord.Before.irrefl p)
      · exact absurd hpq ((List.pairwise_cons.mp hafter).1 p hp').asymm

end Size

namespace Grid

variable {α : Type}

/-- A grid is determined by its size and what it holds in each of its cells. -/
theorem eq_of_get?_of_mem {g g' : Grid α} (hsize : g.size = g'.size)
    (h : ∀ q ∈ g.size, g.get? q = g'.get? q) : g = g' := by
  obtain ⟨size, cells, hcells⟩ := g
  obtain ⟨size', cells', hcells'⟩ := g'
  obtain rfl : size = size' := hsize
  suffices cells = cells' by subst this; rfl
  refine Array.ext (hcells.trans hcells'.symm) fun i hi hi' => ?_
  have hcoords : i < size.coords.length := by rw [Size.length_coords, ← hcells]; exact hi
  have hq : size.coords[i] ∈ size := Size.mem_coords.mp (List.getElem_mem hcoords)
  have hview := h size.coords[i] hq
  rw [get?, get?, if_pos hq, if_pos hq,
    Size.offset_of_getElem? (List.getElem?_eq_getElem hcoords)] at hview
  simpa [hi, hi'] using hview

/-- A grid is determined by its size and its view. -/
theorem eq_of_get? {g g' : Grid α} (hsize : g.size = g'.size)
    (h : ∀ q, g.get? q = g'.get? q) : g = g' :=
  eq_of_get?_of_mem hsize fun q _ => h q

end Grid

end PietLang
