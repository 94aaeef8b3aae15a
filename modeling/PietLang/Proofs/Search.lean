import PietLang.Machine.Search
import PietLang.Proofs.Corner
import PietLang.Proofs.Segmentation

/-!
# Proofs/Search — on a cut picture a search cannot fail, and it ends within its bound

On a program whose table and grid fit together (`Program.Consistent`) no look-up of a search fails,
so an iteration is a plain function of the cursor, `Program.advance`, and the search is that
function repeated until it lands or the settled registers repeat (`search_succ`).

It ends because every iteration that goes on adds registers that were not seen before
(`iterate_eq_again`), and all of them stand on the grid or where the search began, in one of eight
attitudes (`Reaches.le`).
-/

namespace PietLang

/-- The cell ahead. -/
def Registers.front (r : Registers) : Coord := r.pc + r.dp.vector

theorem Cursor.pc_bounce (c : Cursor) : c.bounce.regs.pc = c.regs.pc := by
  rw [bounce]
  split <;> rfl

namespace Program

/-! ## Look-ups that succeed -/

/-- The table and the grid fit together: the cells with a number are those of the block that has
it. -/
structure Consistent (p : Program) : Prop where
  known : ∀ {q : Coord} {id : Nat}, p.cell q = .block id → ∃ b, p.blocks[id]? = some b
  mem_codels : ∀ {q : Coord} {id : Nat} {b : Block}, p.blocks[id]? = some b →
    (q ∈ b.codels ↔ p.cell q = .block id)

variable {p : Program} {q : Coord} {r : Registers} {c : Cursor} {id : Nat} {b : Block}

theorem cell_eq_iff {k : Cell} (hk : k ≠ .black) : p.cell q = k ↔ p.grid.get? q = some k := by
  rw [cell]
  cases h : p.grid.get? q with
  | none => simp [hk.symm]
  | some k' => simp

theorem consistent_segment (raw : Grid Codel) : (segment raw).Consistent := by
  have h := scanned_segment raw
  refine ⟨fun hq => ?_, fun hb => ?_⟩
  · rw [cell_eq_iff (by simp)] at hq
    obtain ⟨b, hb, -⟩ := h.block_iff.mp hq
    exact ⟨b, hb⟩
  · rw [cell_eq_iff (by simp), h.mem_codels_iff hb]

/-- The block that holds a place. -/
def home (p : Program) (q : Coord) : Option Block :=
  match p.cell q with
  | .block id => p.blocks[id]?
  | .white | .black => none

theorem home_eq_some (hp : p.Consistent) :
    p.home q = some b ↔ ∃ id : Nat, p.blocks[id]? = some b ∧ q ∈ b.codels := by
  rw [home]
  cases hq : p.cell q with
  | block id =>
    constructor
    · exact fun hb => ⟨id, hb, (hp.mem_codels hb).mpr hq⟩
    · rintro ⟨j, hb, hqb⟩
      rw [hp.mem_codels hb, hq] at hqb
      rw [Cell.block.inj hqb]
      exact hb
  | white | black =>
    refine ⟨fun h => absurd h (by simp), ?_⟩
    rintro ⟨j, hb, hqb⟩
    rw [hp.mem_codels hb, hq] at hqb
    cases hqb

theorem blockAt_eq (hp : p.Consistent) : p.blockAt q = .ok (p.home q) := by
  rw [blockAt, home]
  cases hq : p.cell q with
  | block id =>
    obtain ⟨b, hb⟩ := hp.known hq
    simp only [block, hb]
    rfl
  | white | black => rfl

/-- The registers moved to the exit of the block they stand in. -/
def settled (p : Program) (r : Registers) : Registers :=
  match p.home r.pc with
  | none => r
  | some b =>
    match b.exit r.dp r.cc with
    | .ok q => { r with pc := q }
    | .error _ => r

theorem settled_of_home_eq_none (h : p.home r.pc = none) : p.settled r = r := by
  rw [settled, h]

/-- A block has an exit, which is one of its cells. -/
theorem exists_exit (hp : p.Consistent) (hb : p.home q = some b) (d : Direction) (t : Turn) :
    ∃ e, b.exit d t = .ok e ∧ p.home e = some b := by
  obtain ⟨id, hid, hq⟩ := (home_eq_some hp).mp hb
  obtain ⟨e, hexit, hcorner⟩ := Direction.exists_corner d t (List.ne_nil_of_mem hq)
  exact ⟨e, hexit, (home_eq_some hp).mpr ⟨id, hid, hcorner.mem⟩⟩

theorem settled_of_exit (hb : p.home r.pc = some b) {e : Coord} (he : b.exit r.dp r.cc = .ok e) :
    p.settled r = { r with pc := e } := by
  simp only [settled, hb, he]

@[simp] theorem dp_settled : (p.settled r).dp = r.dp := by
  rw [settled]
  split
  · rfl
  · split <;> rfl

@[simp] theorem cc_settled : (p.settled r).cc = r.cc := by
  rw [settled]
  split
  · rfl
  · split <;> rfl

theorem dp_cc_eq_of_settled_eq {r' : Registers} (h : p.settled r = p.settled r') :
    r.dp = r'.dp ∧ r.cc = r'.cc := by
  constructor
  · rw [← dp_settled (p := p) (r := r), h, dp_settled]
  · rw [← cc_settled (p := p) (r := r), h, cc_settled]

/-- The exit of a block is inside it. -/
theorem home_settled (hp : p.Consistent) : p.home (p.settled r).pc = p.home r.pc := by
  cases hb : p.home r.pc with
  | none => rw [settled_of_home_eq_none hb, hb]
  | some b =>
    obtain ⟨e, he, hhome⟩ := exists_exit hp hb r.dp r.cc
    rw [settled_of_exit hb he]
    exact hhome

/-- **Settling succeeds.** -/
theorem settle_eq (hp : p.Consistent) : p.settle r = .ok (p.home r.pc, p.settled r) := by
  rw [settle, blockAt_eq hp]
  cases hb : p.home r.pc with
  | none => simp only [settled_of_home_eq_none hb]
  | some b =>
    obtain ⟨e, he, -⟩ := exists_exit hp hb r.dp r.cc
    simp only [he, settled_of_exit hb he]

/-! ## An iteration as a function -/

/-- The instruction of a move onto a cell of the block `id`, from the block `left` or from
elsewhere. -/
def crossing (p : Program) (left : Option Block) (id : Nat) : Instruction :=
  match left, p.blocks[id]? with
  | some b, some b' => ⟨b.color.opcodeTo b'.color, b.area⟩
  | _, _ => .idle

/-- What an iteration makes of a cursor. -/
def advance (p : Program) (c : Cursor) : Probe :=
  let r := p.settled c.regs
  match p.cell r.front with
  | .white => .moved (Cursor.slide ⟨r, c.flipped⟩ r.front)
  | .black => .moved (Cursor.bounce ⟨r, c.flipped⟩)
  | .block id => .landed (p.crossing (p.home r.pc) id) { r with pc := r.front }

theorem advance_of_white (h : p.cell (p.settled c.regs).front = .white) :
    p.advance c = .moved (Cursor.slide ⟨p.settled c.regs, c.flipped⟩ (p.settled c.regs).front) := by
  rw [advance, h]

theorem advance_of_black (h : p.cell (p.settled c.regs).front = .black) :
    p.advance c = .moved (Cursor.bounce ⟨p.settled c.regs, c.flipped⟩) := by
  rw [advance, h]

theorem advance_of_block (h : p.cell (p.settled c.regs).front = .block id) :
    p.advance c = .landed (p.crossing (p.home (p.settled c.regs).pc) id)
      { p.settled c.regs with pc := (p.settled c.regs).front } := by
  rw [advance, h]

/-- **An iteration that goes on** has entered free space or met a wall… -/
theorem advance_eq_moved {c' : Cursor} (h : p.advance c = .moved c') :
    p.cell (p.settled c.regs).front = .white ∧
        c' = Cursor.slide ⟨p.settled c.regs, c.flipped⟩ (p.settled c.regs).front ∨
      p.cell (p.settled c.regs).front = .black ∧
        c' = Cursor.bounce ⟨p.settled c.regs, c.flipped⟩ := by
  cases hahead : p.cell (p.settled c.regs).front with
  | white => exact Or.inl ⟨rfl, Probe.moved.inj (h.symm.trans (advance_of_white hahead))⟩
  | black => exact Or.inr ⟨rfl, Probe.moved.inj (h.symm.trans (advance_of_black hahead))⟩
  | block id =>
    rw [advance_of_block hahead] at h
    cases h

/-- …and one that lands has entered a block. -/
theorem advance_eq_landed {i : Instruction} {ρ : Registers} (h : p.advance c = .landed i ρ) :
    ∃ id, p.cell (p.settled c.regs).front = .block id ∧
      i = p.crossing (p.home (p.settled c.regs).pc) id ∧
      ρ = { p.settled c.regs with pc := (p.settled c.regs).front } := by
  cases hahead : p.cell (p.settled c.regs).front with
  | white =>
    rw [advance_of_white hahead] at h
    cases h
  | black =>
    rw [advance_of_black hahead] at h
    cases h
  | block id =>
    obtain ⟨rfl, rfl⟩ := Probe.landed.inj (h.symm.trans (advance_of_block hahead))
    exact ⟨id, rfl, rfl, rfl⟩

theorem instructionTo_eq (hp : p.Consistent) (hq : p.cell q = .block id) (left : Option Block) :
    p.instructionTo left id = .ok (p.crossing left id) := by
  obtain ⟨b, hb⟩ := hp.known hq
  cases left with
  | none => simp [instructionTo, crossing]
  | some a =>
    simp only [instructionTo, block, crossing, hb]
    rfl

/-- **A probe succeeds**: what it finds is the cell ahead, which is black outside the grid. -/
theorem probe_settled (hp : p.Consistent) :
    p.probe (p.home c.regs.pc) ⟨p.settled c.regs, c.flipped⟩ = .ok (p.advance c) := by
  rw [← home_settled hp]
  by_cases hin : (p.settled c.regs).front ∈ p.size
  · have hstep : (p.settled c.regs).dp.step p.size (p.settled c.regs).pc
        = some (p.settled c.regs).front := if_pos hin
    obtain ⟨k, hk⟩ := Grid.exists_get? (g := p.grid) hin
    have hcell : p.cell (p.settled c.regs).front = k := by rw [cell, hk]; rfl
    have hget : p.grid.get (p.settled c.regs).front = .ok k := by rw [Grid.get, hk]
    cases k with
    | white => simp only [probe, hstep, hget, advance_of_white hcell]
    | black => simp only [probe, hstep, hget, advance_of_black hcell]
    | block id =>
      simp only [probe, hstep, hget, advance_of_block hcell, instructionTo_eq hp hcell]
      rfl
  · have hstep : (p.settled c.regs).dp.step p.size (p.settled c.regs).pc = none := if_neg hin
    have hcell : p.cell (p.settled c.regs).front = .black := by
      rw [cell, Grid.get?_eq_none_iff.mpr hin]
      rfl
    simp only [probe, hstep, advance_of_black hcell]

/-! ## The loop -/

end Program

/-- A search between two iterations: the registers that it has seen, and its cursor. -/
structure Search where
  seen : Std.TreeSet Registers Registers.order
  cursor : Cursor

/-- The outcome of one iteration of a search. -/
inductive Iteration where
  /-- The search is over. -/
  | returned (out : Option Instruction × Registers)
  /-- The search goes on. -/
  | again (s : Search)

namespace Program

variable {p : Program} {q o : Coord} {r : Registers} {c : Cursor} {s s' : Search} {n k : Nat}

/-- One iteration of a search. -/
def iterate (p : Program) (s : Search) : Except Program.Fault Iteration :=
  match p.settle s.cursor.regs with
  | .error e => .error e
  | .ok (left, r) =>
    if r ∈ s.seen then .ok (.returned (none, r))
    else
      match p.probe left ⟨r, s.cursor.flipped⟩ with
      | .error e => .error e
      | .ok (.landed i r') => .ok (.returned (some i, r'))
      | .ok (.moved c) => .ok (.again ⟨s.seen.insert r, c⟩)

/-- A bounded search repeats the iteration. -/
theorem search_succ_iterate :
    p.search (n + 1) s.seen s.cursor =
      match p.iterate s with
      | .error e => .error e
      | .ok (.returned out) => .ok out
      | .ok (.again s') => p.search n s'.seen s'.cursor := by
  rw [search, iterate]
  cases p.settle s.cursor.regs with
  | error e => rfl
  | ok out =>
    obtain ⟨left, r⟩ := out
    by_cases hseen : r ∈ s.seen
    · simp only [if_pos hseen]
    · simp only [if_neg hseen]
      cases p.probe left ⟨r, s.cursor.flipped⟩ with
      | error e => rfl
      | ok found => cases found <;> rfl

/-- After `k` iterations that go on, the search from `r` stands so. -/
inductive Reaches (p : Program) (r : Registers) : Nat → Search → Prop where
  | start : Reaches p r 0 ⟨∅, ⟨r, false⟩⟩
  | again {k : Nat} {s s' : Search} (h : Reaches p r k s) (hs : p.iterate s = .ok (.again s')) :
    Reaches p r (k + 1) s'

theorem iterate_eq (hp : p.Consistent) (s : Search) :
    p.iterate s = .ok (if p.settled s.cursor.regs ∈ s.seen
      then .returned (none, p.settled s.cursor.regs)
      else match p.advance s.cursor with
        | .landed i r => .returned (some i, r)
        | .moved c => .again ⟨s.seen.insert (p.settled s.cursor.regs), c⟩) := by
  rw [iterate, settle_eq hp]
  by_cases hseen : p.settled s.cursor.regs ∈ s.seen
  · simp only [if_pos hseen]
  · simp only [if_neg hseen, probe_settled hp]
    cases p.advance s.cursor <;> rfl

/-- **The search repeats `advance`** until it lands or the settled registers have been seen. -/
theorem search_succ (hp : p.Consistent) (n : Nat) (seen : Std.TreeSet Registers Registers.order)
    (c : Cursor) :
    p.search (n + 1) seen c =
      if p.settled c.regs ∈ seen then .ok (none, p.settled c.regs)
      else
        match p.advance c with
        | .landed i r => .ok (some i, r)
        | .moved c' => p.search n (seen.insert (p.settled c.regs)) c' := by
  rw [search_succ_iterate (s := ⟨seen, c⟩), iterate_eq hp]
  by_cases hseen : p.settled c.regs ∈ seen
  · simp only [if_pos hseen]
  · simp only [if_neg hseen]
    cases p.advance c <;> rfl

/-- **An iteration returns or goes on.** -/
theorem iterate_cases (hp : p.Consistent) (s : Search) :
    (∃ out, p.iterate s = .ok (.returned out)) ∨ ∃ s', p.iterate s = .ok (.again s') := by
  rw [iterate_eq hp]
  split
  · exact Or.inl ⟨_, rfl⟩
  · cases p.advance s.cursor with
    | landed i r => exact Or.inl ⟨_, rfl⟩
    | moved c => exact Or.inr ⟨_, rfl⟩

/-- **An iteration that goes on** has come to registers that were not seen, and adds them. -/
theorem iterate_eq_again (hp : p.Consistent) (h : p.iterate s = .ok (.again s')) :
    p.settled s.cursor.regs ∉ s.seen ∧ s'.seen = s.seen.insert (p.settled s.cursor.regs) ∧
      p.advance s.cursor = .moved s'.cursor := by
  rw [iterate_eq hp] at h
  split at h
  · cases h
  · next hnew =>
    cases hadvance : p.advance s.cursor with
    | landed i r =>
      rw [hadvance] at h
      cases h
    | moved c =>
      rw [hadvance] at h
      obtain rfl := Iteration.again.inj (Except.ok.inj h)
      exact ⟨hnew, rfl, rfl⟩

/-! ## The bound -/

/-- The registers at a cell of the rectangle or at `o`. -/
def registersWithin (s : Size) (o : Coord) : List Registers :=
  (o :: s.coords).flatMap fun q =>
    Direction.all.flatMap fun d => [⟨q, d, .ccw⟩, ⟨q, d, .cw⟩]

theorem length_registersWithin (s : Size) (o : Coord) :
    (registersWithin s o).length = 8 * (s.count + 1) := by
  have hplace : ∀ q : Coord, (Direction.all.flatMap fun d =>
      ([⟨q, d, .ccw⟩, ⟨q, d, .cw⟩] : List Registers)).length = 8 := fun _ => rfl
  rw [registersWithin, List.length_flatMap]
  simp only [hplace, List.map_const', List.length_cons, Size.length_coords,
    List.sum_replicate_nat]
  exact Nat.mul_comm _ _

theorem mem_registersWithin {s : Size} {o : Coord} (h : r.pc ∈ s ∨ r.pc = o) :
    r ∈ registersWithin s o := by
  obtain ⟨q, d, t⟩ := r
  have hq : q ∈ o :: s.coords := by
    rcases h with h | h
    · exact List.mem_cons_of_mem o (Size.mem_coords.mpr h)
    · exact List.mem_cons.mpr (Or.inl h)
  refine List.mem_flatMap.mpr ⟨q, hq, List.mem_flatMap.mpr ⟨d, d.mem_all, ?_⟩⟩
  cases t <;> simp

/-- There are no more registers than that to be seen. -/
theorem size_seen_le {s : Size} {o : Coord} {seen : Std.TreeSet Registers Registers.order}
    (h : ∀ ρ ∈ seen, ρ.pc ∈ s ∨ ρ.pc = o) : seen.size ≤ 8 * (s.count + 1) := by
  rw [← length_registersWithin s o]
  exact TreeSet.size_le_length fun ρ hρ => mem_registersWithin (h ρ hρ)

theorem mem_size_of_cell_ne_black (h : p.cell q ≠ .black) : q ∈ p.size := by
  by_contra hq
  rw [cell, Grid.get?_eq_none_iff.mpr hq] at h
  exact h rfl

/-- Settling leads to the grid, or nowhere. -/
theorem pc_settled (hp : p.Consistent) : (p.settled r).pc ∈ p.size ∨ (p.settled r).pc = r.pc := by
  cases hb : p.home r.pc with
  | none => exact Or.inr (by rw [settled_of_home_eq_none hb])
  | some b =>
    rw [← home_settled hp] at hb
    obtain ⟨id, hid, hq⟩ := (home_eq_some hp).mp hb
    rw [hp.mem_codels hid] at hq
    exact Or.inl (mem_size_of_cell_ne_black (by rw [hq]; simp))

/-- An iteration that goes on stays on the grid or where it stood. -/
theorem pc_of_advance_eq_moved {c' : Cursor} (h : p.advance c = .moved c') :
    c'.regs.pc ∈ p.size ∨ c'.regs.pc = (p.settled c.regs).pc := by
  obtain ⟨hahead, rfl⟩ | ⟨-, rfl⟩ := advance_eq_moved h
  · exact Or.inl (mem_size_of_cell_ne_black (by simp [Cursor.slide, hahead]))
  · exact Or.inr (Cursor.pc_bounce _)

/-- All registers of a search stand on the grid, or at `o`. -/
structure Within (p : Program) (o : Coord) (s : Search) : Prop where
  seen : ∀ ρ ∈ s.seen, ρ.pc ∈ p.size ∨ ρ.pc = o
  cursor : s.cursor.regs.pc ∈ p.size ∨ s.cursor.regs.pc = o

theorem Within.settled (h : p.Within o s) (hp : p.Consistent) :
    (p.settled s.cursor.regs).pc ∈ p.size ∨ (p.settled s.cursor.regs).pc = o := by
  rcases pc_settled (r := s.cursor.regs) hp with hin | heq
  · exact Or.inl hin
  · rw [heq]
    exact h.cursor

/-- An iteration does not lead away from there. -/
theorem Within.again (h : p.Within o s) (hp : p.Consistent) (hs : p.iterate s = .ok (.again s')) :
    p.Within o s' := by
  obtain ⟨-, hseen, hadvance⟩ := iterate_eq_again hp hs
  refine ⟨fun ρ hρ => ?_, ?_⟩
  · rw [hseen] at hρ
    rcases TreeSet.mem_insert.mp hρ with rfl | hρ
    · exact h.settled hp
    · exact h.seen ρ hρ
  · rcases pc_of_advance_eq_moved hadvance with hin | heq
    · exact Or.inl hin
    · rw [heq]
      exact h.settled hp

theorem Reaches.within (h : p.Reaches r k s) (hp : p.Consistent) : p.Within r.pc s := by
  induction h with
  | start => exact ⟨by simp, Or.inr rfl⟩
  | again _ hs ih => exact ih.again hp hs

/-- Each iteration has added registers that were new. -/
theorem Reaches.size_seen (h : p.Reaches r k s) (hp : p.Consistent) : s.seen.size = k := by
  induction h with
  | start => rfl
  | again _ hs ih =>
    obtain ⟨hnew, hseen, -⟩ := iterate_eq_again hp hs
    rw [hseen, TreeSet.size_insert_of_not_mem hnew, ih]

/-- **Only so many iterations go on.** -/
theorem Reaches.le (h : p.Reaches r k s) (hp : p.Consistent) : k ≤ 8 * (p.size.count + 1) := by
  rw [← h.size_seen hp]
  exact size_seen_le (h.within hp).seen

/-- A bounded search returns what one of its iterations returns, or all of them go on. -/
theorem Reaches.search (hp : p.Consistent) (n : Nat) : ∀ {k : Nat} {s : Search}, p.Reaches r k s →
    (∃ m s' out, m < k + n ∧ p.Reaches r m s' ∧ p.iterate s' = .ok (.returned out) ∧
      p.search n s.seen s.cursor = .ok out) ∨ ∃ s', p.Reaches r (k + n) s' := by
  induction n with
  | zero => exact fun {k s} h => Or.inr ⟨s, h⟩
  | succ n ih =>
    intro k s h
    rcases iterate_cases hp s with ⟨out, hs⟩ | ⟨s', hs⟩
    · exact Or.inl ⟨k, s, out, by omega, h, hs, by rw [search_succ_iterate, hs]⟩
    · rcases ih (h.again hs) with ⟨m, t, out, hm, ht, hout, hsearch⟩ | ⟨t, ht⟩
      · exact Or.inl ⟨m, t, out, by omega, ht, hout, by rw [search_succ_iterate, hs]; exact hsearch⟩
      · exact Or.inr ⟨t, by rw [Nat.add_right_comm] at ht; exact ht⟩

/-- **A search returns within its bound.** -/
theorem exists_return (hp : p.Consistent) (r : Registers) :
    ∃ k s out, k < p.searchBound ∧ p.Reaches r k s ∧ p.iterate s = .ok (.returned out) ∧
      p.next r = .ok out := by
  rcases Reaches.search hp p.searchBound (.start (p := p) (r := r)) with
    ⟨k, s, out, hk, hs, hout, hnext⟩ | ⟨s, hs⟩
  · exact ⟨k, s, out, by omega, hs, hout, hnext⟩
  · have hle := hs.le hp
    rw [searchBound] at hle
    omega

/-- **The search for an instruction has an answer, from any registers.** -/
theorem exists_next (hp : p.Consistent) (r : Registers) : ∃ out, p.next r = .ok out := by
  obtain ⟨k, s, out, -, -, -, hout⟩ := exists_return hp r
  exact ⟨out, hout⟩

end Program

end PietLang
