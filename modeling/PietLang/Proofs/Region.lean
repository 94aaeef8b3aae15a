import PietLang.Program.Segment
import PietLang.Proofs.ReadingOrder
import Mathlib.Data.List.Perm.Subperm
import Mathlib.Data.List.Sort

/-!
# Proofs/Region — a fill finds exactly the cells joined to its start

`Grid.Joined` is connection by a path of neighbours that hold one value.  A fill keeps three facts
(`Fill.Inv`): what it has found is joined to the start, what is pending has been found, and a found
cell that is no longer pending has had its neighbours taken in.  Once nothing is pending, the found
cells are therefore closed under neighbours, which makes them the whole region.

Nothing is pending after as many steps as the grid has cells: a step takes one cell off the list,
and every cell it puts there is new, so the found cells outnumber the pending ones by one more after
each step, and they are all cells of the grid.  So a fill comes to its end by itself
(`Fill.run_start`), and what it collects does not depend on the cell of the region that it starts
from (`Grid.region_eq_of_joined`).
-/

namespace PietLang

/-! ## Finite sets -/

namespace TreeSet

variable {α : Type} {cmp : α → α → Ordering} [Std.TransCmp cmp] {s : Std.TreeSet α cmp} {a b : α}

theorem size_insert_of_not_mem (h : b ∉ s) : (s.insert b).size = s.size + 1 := by
  rw [Std.TreeSet.size_insert, if_neg (mt Std.TreeSet.contains_iff_mem.mp h)]

variable [Std.LawfulEqCmp cmp]

theorem mem_insert : a ∈ s.insert b ↔ a = b ∨ a ∈ s := by
  rw [Std.TreeSet.mem_insert, Std.LawfulEqCmp.compare_eq_iff_eq, eq_comm]

/-- A set whose members are all listed is no larger than the list. -/
theorem size_le_length {l : List α} (h : ∀ a ∈ s, a ∈ l) : s.size ≤ l.length := by
  have hnodup : s.toList.Nodup :=
    Std.TreeSet.distinct_toList.imp fun hne heq =>
      hne (Std.LawfulEqCmp.compare_eq_iff_eq.mpr heq)
  have hsub : s.toList ⊆ l := fun a ha => h a (Std.TreeSet.mem_toList.mp ha)
  rw [← Std.TreeSet.length_toList]
  exact (List.subperm_of_subset hnodup hsub).length_le

end TreeSet

/-! ## Neighbours -/

namespace Direction

@[simp] theorem mem_all (d : Direction) : d ∈ all := by cases d <;> decide

theorem vector_turn_two (d : Direction) : (d.turn .cw 2).vector = ⟨-d.vector.x, -d.vector.y⟩ := by
  cases d <;> rfl

/-- A step and the step back. -/
theorem add_vector_add_vector_turn (d : Direction) (p : Coord) :
    p + d.vector + (d.turn .cw 2).vector = p := by
  rw [vector_turn_two]
  exact congrArg₂ Coord.mk (Int.add_neg_cancel_right p.x _) (Int.add_neg_cancel_right p.y _)

end Direction

namespace Grid

variable {α : Type}

/-- A path of neighbouring cells of the grid, all holding `v`, leads from `p` to the cell. -/
inductive Joined (g : Grid α) (v : α) (p : Coord) : Coord → Prop where
  | start (hp : g.get? p = some v) : Joined g v p p
  | step {q : Coord} (d : Direction) (hq : Joined g v p q) (hd : g.get? (q + d.vector) = some v) :
    Joined g v p (q + d.vector)

namespace Joined

variable {g : Grid α} {v : α} {p q r : Coord}

theorem get?_right (h : g.Joined v p q) : g.get? q = some v := by
  cases h with
  | start hp => exact hp
  | step d hq hd => exact hd

theorem trans (hpq : g.Joined v p q) (hqr : g.Joined v q r) : g.Joined v p r := by
  induction hqr with
  | start _ => exact hpq
  | step d _ hd ih => exact ih.step d hd

/-- A path can be walked back. -/
theorem symm (h : g.Joined v p q) : g.Joined v q p := by
  induction h with
  | start hp => exact .start hp
  | @step q d hq hd ih =>
    have hback : q + d.vector + (d.turn .cw 2).vector = q := d.add_vector_add_vector_turn q
    have hone : g.Joined v (q + d.vector) (q + d.vector + (d.turn .cw 2).vector) :=
      (Joined.start hd).step _ (by rw [hback]; exact hq.get?_right)
    rw [hback] at hone
    exact hone.trans ih

end Joined

end Grid

/-! ## One step of a fill -/

namespace Fill

variable {α : Type} {g : Grid α} {v : α}

theorem mem_neighbours {p q : Coord} :
    q ∈ neighbours g p ↔ ∃ d : Direction, q = p + d.vector ∧ q ∈ g.size := by
  simp only [neighbours, List.mem_filterMap, Direction.mem_all, true_and, Direction.step]
  refine exists_congr fun d => ?_
  by_cases hd : p + d.vector ∈ g.size
  · rw [if_pos hd, Option.some.injEq]
    constructor
    · rintro rfl
      exact ⟨rfl, hd⟩
    · rintro ⟨rfl, -⟩
      rfl
  · rw [if_neg hd]
    refine ⟨fun h => absurd h (by simp), ?_⟩
    rintro ⟨rfl, hq⟩
    exact absurd hq hd

variable [DecidableEq α]

theorem mem_found_visit {f : Fill} {p q : Coord} :
    q ∈ (visit g v f p).found ↔ q ∈ f.found ∨ q = p ∧ g.get? q = some v := by
  unfold visit
  split
  · next hp =>
    refine ⟨Or.inl, ?_⟩
    rintro (hq | ⟨rfl, -⟩)
    · exact hq
    · exact hp
  split
  · next hv =>
    rw [TreeSet.mem_insert]
    constructor
    · rintro (rfl | hq)
      · exact Or.inr ⟨rfl, hv⟩
      · exact Or.inl hq
    · rintro (hq | ⟨rfl, -⟩)
      · exact Or.inr hq
      · exact Or.inl rfl
  · next hv =>
    refine ⟨Or.inl, ?_⟩
    rintro (hq | ⟨rfl, hq⟩)
    · exact hq
    · exact absurd hq hv

theorem mem_pending_visit {f : Fill} {p q : Coord} :
    q ∈ (visit g v f p).pending ↔ q ∈ f.pending ∨ q = p ∧ g.get? q = some v ∧ q ∉ f.found := by
  unfold visit
  split
  · next hp =>
    refine ⟨Or.inl, ?_⟩
    rintro (hq | ⟨rfl, -, hq⟩)
    · exact hq
    · exact absurd hp hq
  split
  · next hp hv =>
    rw [List.mem_cons]
    constructor
    · rintro (rfl | hq)
      · exact Or.inr ⟨rfl, hv, hp⟩
      · exact Or.inl hq
    · rintro (hq | ⟨rfl, -⟩)
      · exact Or.inr hq
      · exact Or.inl rfl
  · next hv =>
    refine ⟨Or.inl, ?_⟩
    rintro (hq | ⟨rfl, hq, -⟩)
    · exact hq
    · exact absurd hq hv

/-- A cell that is found becomes pending. -/
theorem size_found_visit (f : Fill) (p : Coord) :
    (visit g v f p).found.size + f.pending.length
      = f.found.size + (visit g v f p).pending.length := by
  unfold visit
  split
  · rfl
  · next hp =>
    split
    · rw [TreeSet.size_insert_of_not_mem hp, List.length_cons]
      omega
    · rfl

/-- Visits, one after another: what they find. -/
theorem mem_found_foldl_visit {q : Coord} : ∀ (ps : List Coord) (f : Fill),
    q ∈ (ps.foldl (visit g v) f).found ↔ q ∈ f.found ∨ q ∈ ps ∧ g.get? q = some v
  | [], f => by simp
  | p :: ps, f => by
    rw [List.foldl_cons, mem_found_foldl_visit ps, mem_found_visit, List.mem_cons]
    tauto

/-- …what they leave to be looked at. -/
theorem mem_pending_foldl_visit {q : Coord} : ∀ (ps : List Coord) (f : Fill),
    q ∈ (ps.foldl (visit g v) f).pending
      ↔ q ∈ f.pending ∨ q ∈ ps ∧ g.get? q = some v ∧ q ∉ f.found
  | [], f => by simp
  | p :: ps, f => by
    rw [List.foldl_cons, mem_pending_foldl_visit ps, mem_pending_visit, mem_found_visit,
      List.mem_cons]
    tauto

/-- …and that one counts as the other. -/
theorem size_found_foldl_visit : ∀ (ps : List Coord) (f : Fill),
    (ps.foldl (visit g v) f).found.size + f.pending.length
      = f.found.size + (ps.foldl (visit g v) f).pending.length
  | [], _ => rfl
  | p :: ps, f => by
    have hone := size_found_visit (g := g) (v := v) f p
    have hrest := size_found_foldl_visit ps (visit g v f p)
    rw [List.foldl_cons]
    omega

/-! ## The whole fill -/

/-- What a fill from `p` keeps. -/
structure Inv (g : Grid α) (v : α) (p : Coord) (f : Fill) : Prop where
  joined : ∀ {q}, q ∈ f.found → g.Joined v p q
  origin : p ∈ f.found
  found : ∀ {q}, q ∈ f.pending → q ∈ f.found
  closed : ∀ {q}, q ∈ f.found → q ∉ f.pending →
    ∀ d : Direction, g.get? (q + d.vector) = some v → q + d.vector ∈ f.found

variable {p : Coord} {f : Fill}

omit [DecidableEq α] in
theorem Inv.initial (hp : g.get? p = some v) : Inv g v p (Fill.start p) := by
  have hmem : ∀ {q}, q ∈ (Fill.start p).found ↔ q = p := by
    intro q
    exact TreeSet.mem_insert.trans (or_iff_left Std.TreeSet.not_mem_emptyc)
  refine ⟨fun hq => ?_, hmem.mpr rfl, fun hq => hmem.mpr (List.mem_singleton.mp hq), ?_⟩
  · rw [hmem.mp hq]
    exact .start hp
  · intro q hq hpending
    exact absurd (List.mem_singleton.mpr (hmem.mp hq)) hpending

/-- **A step keeps the invariant**: the cell taken off the list has its neighbours taken in. -/
theorem Inv.step (h : Inv g v p f) {x : Coord} {rest : List Coord} (hx : f.pending = x :: rest) :
    Inv g v p ((neighbours g x).foldl (visit g v) ⟨f.found, rest⟩) := by
  have hxf : x ∈ f.found := h.found (hx ▸ List.mem_cons_self)
  refine ⟨fun hq => ?_, ?_, fun hq => ?_, fun {q} hq hpending d hd => ?_⟩
  · rcases (mem_found_foldl_visit _ _).mp hq with hq | ⟨hq, hv⟩
    · exact h.joined hq
    · obtain ⟨d, rfl, -⟩ := mem_neighbours.mp hq
      exact (h.joined hxf).step d hv
  · exact (mem_found_foldl_visit _ _).mpr (Or.inl h.origin)
  · rcases (mem_pending_foldl_visit _ _).mp hq with hq | ⟨hq, hv, -⟩
    · exact (mem_found_foldl_visit _ _).mpr (Or.inl (h.found (hx ▸ List.mem_cons_of_mem x hq)))
    · exact (mem_found_foldl_visit _ _).mpr (Or.inr ⟨hq, hv⟩)
  · -- a cell found in this step is pending after it, so `q` was found before
    rw [mem_pending_foldl_visit, not_or] at hpending
    have hqf : q ∈ f.found := by
      rcases (mem_found_foldl_visit _ _).mp hq with hqf | ⟨hqn, hqv⟩
      · exact hqf
      · exact by_contra fun hnew => hpending.2 ⟨hqn, hqv, hnew⟩
    by_cases hqx : q = x
    · subst hqx
      have hnear : q + d.vector ∈ neighbours g q :=
        mem_neighbours.mpr ⟨d, rfl, Grid.mem_size_of_get? hd⟩
      exact (mem_found_foldl_visit _ _).mpr (Or.inr ⟨hnear, hd⟩)
    · have hnot : q ∉ f.pending := by
        rw [hx, List.mem_cons, not_or]
        exact ⟨hqx, hpending.1⟩
      exact (mem_found_foldl_visit _ _).mpr (Or.inl (h.closed hqf hnot d hd))

omit [DecidableEq α] in
/-- A fill finds no more cells than the grid has. -/
theorem Inv.size_found_le (h : Inv g v p f) : f.found.size ≤ g.size.count := by
  rw [← Size.length_coords]
  exact TreeSet.size_le_length fun q hq =>
    Size.mem_coords.mpr (Grid.mem_size_of_get? (h.joined hq).get?_right)

/-- **A fill that is given enough steps keeps the invariant and leaves nothing pending.** -/
theorem Inv.run : ∀ (n : Nat) {f : Fill}, Inv g v p f →
    f.pending.length + g.size.count ≤ n + f.found.size →
      Inv g v p (Fill.run g v n f) ∧ (Fill.run g v n f).pending = []
  | 0, f, h, hn => by
    have hle := h.size_found_le
    exact ⟨h, List.eq_nil_of_length_eq_zero (by show f.pending.length = 0; omega)⟩
  | n + 1, f, h, hn => by
    rw [Fill.run]
    split
    · next hnil => exact ⟨h, hnil⟩
    · next x rest hx =>
      have hcount := size_found_foldl_visit (g := g) (v := v) (neighbours g x) ⟨f.found, rest⟩
      have hlength : f.pending.length = rest.length + 1 := by rw [hx, List.length_cons]
      exact (h.step hx).run n (by simp only at hcount; omega)

omit [DecidableEq α] in
/-- Once nothing is pending, the found cells are the region. -/
theorem Inv.mem_found_iff (h : Inv g v p f) (hnil : f.pending = []) {q : Coord} :
    q ∈ f.found ↔ g.Joined v p q := by
  refine ⟨h.joined, fun hq => ?_⟩
  induction hq with
  | start _ => exact h.origin
  | step d _ hd ih => exact h.closed ih (by rw [hnil]; exact List.not_mem_nil) d hd

/-- **A fill finds the region and stops**: from a cell that holds `v`, nothing is left to look at
after as many steps as the grid has cells, and what has been found is all that is joined to it. -/
theorem run_start (hp : g.get? p = some v) {n : Nat} (hn : g.size.count ≤ n) :
    (Fill.run g v n (Fill.start p)).pending = [] ∧
      ∀ q, q ∈ (Fill.run g v n (Fill.start p)).found ↔ g.Joined v p q := by
  have hpending : (Fill.start p).pending.length = 1 := rfl
  have hfound : (Fill.start p).found.size = 1 :=
    TreeSet.size_insert_of_not_mem Std.TreeSet.not_mem_emptyc
  obtain ⟨hinv, hnil⟩ := (Inv.initial hp).run n (by omega)
  exact ⟨hnil, fun q => hinv.mem_found_iff hnil⟩

end Fill

namespace Grid

variable {α : Type} [DecidableEq α] {g : Grid α} {v : α} {p q : Coord}

/-- **The region of a cell that holds `v` is all that is joined to it.** -/
theorem mem_region (hp : g.get? p = some v) : q ∈ g.region v p ↔ g.Joined v p q := by
  rw [region, Std.TreeSet.mem_toList]
  exact (Fill.run_start hp (Nat.le_refl _)).2 q

/-- A region is listed in reading order. -/
theorem pairwise_region (g : Grid α) (v : α) (p : Coord) :
    (g.region v p).Pairwise Coord.Before := Coord.pairwise_toList _

/-- Cells that are joined have one region. -/
theorem region_eq_of_joined (h : g.Joined v p q) : g.region v p = g.region v q := by
  refine (g.pairwise_region v p).eq_of_mem_iff (g.pairwise_region v q) fun r => ?_
  rw [mem_region h.symm.get?_right, mem_region h.get?_right]
  exact ⟨fun hr => h.symm.trans hr, fun hr => h.trans hr⟩

theorem component_of_get? (hp : g.get? p = some v) : g.component p = .ok (g.region v p) := by
  rw [component, get, hp]
  rfl

/-- **The component of a cell is exactly what is joined to it through its own value**, each cell
once, and it is the component of each of its cells.  The fill that collects it comes to its end,
however many more steps it is given.  Outside the grid there is no component. -/
theorem component_eq_joined (g : Grid α) (p : Coord) :
    (p ∈ g.size → ∃ v qs, g.get? p = some v ∧ g.component p = .ok qs ∧ qs.Nodup ∧
      (∀ q, q ∈ qs ↔ g.Joined v p q) ∧ (∀ q ∈ qs, g.component q = .ok qs) ∧
      ∀ n, g.size.count ≤ n → (Fill.run g v n (Fill.start p)).pending = [] ∧
        (Fill.run g v n (Fill.start p)).found.toList = qs) ∧
    (p ∉ g.size → g.component p = .error (.outside p)) := by
  constructor
  · intro hin
    obtain ⟨v, hp⟩ := exists_get? hin
    refine ⟨v, g.region v p, hp, component_of_get? hp, (g.pairwise_region v p).nodup,
      fun q => mem_region hp, fun q hq => ?_, fun n hn => ?_⟩
    · have hjoined := (mem_region hp).mp hq
      rw [component_of_get? hjoined.get?_right, region_eq_of_joined hjoined]
    · obtain ⟨hnil, hfound⟩ := Fill.run_start hp hn
      refine ⟨hnil, ?_⟩
      refine (Coord.pairwise_toList _).eq_of_mem_iff (g.pairwise_region v p) fun q => ?_
      rw [Std.TreeSet.mem_toList, hfound, mem_region hp]
  · intro hout
    rw [component, get, get?_eq_none_iff.mpr hout]
    rfl

end Grid

end PietLang
