import PietLang.Proofs.ColorCycle
import PietLang.Proofs.StuckSearch

/-!
# Proofs/Crossing — only a slide is silent

A search ends with a probe that enters a colour.  If it looked out of a block, then it has crossed
from one block into another, and three facts make that an instruction: the cell ahead of a corner is
outside its block (`Direction.IsCorner.ahead_not_mem`), blocks of one colour do not touch
(`Scanned.color_ne_of_touch`), and `nop` stands only between equal colours.  If it did not, it came
through free space or began outside the blocks, and it is silent.

Which of the two it was is settled by the way: a search that has left the blocks stays outside until
it ends (`home_trail_eq_none_iff`).
-/

namespace PietLang

theorem Size.natCast_count {s : Size} {q : Coord} (hq : q ∈ s) :
    (s.count : Int) = s.width * s.height := by
  obtain ⟨h0, h1, h2, h3⟩ := mem_iff.mp hq
  rw [count, Int.natCast_mul, Int.toNat_of_nonneg (by omega), Int.toNat_of_nonneg (by omega)]

namespace Block

variable {raw : Grid Codel} {b : Block} {f : Coord}

theorem Fills.area_pos (h : b.Fills raw f) : 0 < b.area :=
  List.length_pos_of_mem h.startsAt.1

/-- A block has no more cells than the picture. -/
theorem Fills.area_le (h : b.Fills raw f) : b.area ≤ raw.size.count := by
  have hsub : b.codels ⊆ raw.size.coords := fun q hq =>
    Size.mem_coords.mpr (Grid.mem_size_of_get? (h.get?_raw hq))
  rw [← Size.length_coords]
  exact (List.subperm_of_subset h.pairwise.nodup hsub).length_le

end Block

namespace Program

variable {raw : Grid Codel} {visited : List Coord} {p : Program} {q : Coord} {d : Direction}
  {a b : Block} {c c' : Cursor} {i j n : Nat}

/-! ## The way of a search -/

/-- The search from `r` stands in free space after one of its first `n` iterations. -/
def SlidesWithin (p : Program) (r : Registers) (n : Nat) : Prop :=
  ∃ m ≤ n, ∃ c, p.wander m ⟨r, false⟩ = .ok (.moved c) ∧ p.cell c.regs.pc = .white

/-- An iteration that goes on and stands outside the blocks was there before, or has entered free
space. -/
theorem home_or_white_of_advance (hp : p.Consistent) (h : p.advance c = .moved c')
    (hout : p.home c'.regs.pc = none) :
    p.home c.regs.pc = none ∨ p.cell c'.regs.pc = .white := by
  obtain ⟨hahead, rfl⟩ | ⟨-, rfl⟩ := advance_eq_moved h
  · exact Or.inr hahead
  · rw [Cursor.pc_bounce] at hout
    exact Or.inl ((home_settled hp).symm.trans hout)

/-- **A search stands outside the blocks if it began there or has entered free space**, and only
then: once outside it stays outside. -/
theorem home_trail_eq_none_iff (hp : p.Consistent) (hc : p.Steady c)
    (h : p.trail n c = some c') :
    p.home c'.regs.pc = none ↔
      p.home c.regs.pc = none ∨
        ∃ m ≤ n, ∃ c₁, p.trail m c = some c₁ ∧ p.cell c₁.regs.pc = .white := by
  constructor
  · intro hout
    induction n generalizing c with
    | zero =>
      obtain rfl := Option.some.inj h
      exact Or.inl hout
    | succ n ih =>
      cases hadvance : p.advance c with
      | landed i r =>
        rw [trail_succ_of_landed hadvance] at h
        cases h
      | moved c₁ =>
        rw [trail_succ_of_moved hadvance] at h
        rcases ih (steady_of_advance_eq_moved hadvance) h with hnone | ⟨m, hm, c₂, hc₂, hwhite⟩
        · rcases home_or_white_of_advance hp hadvance hnone with hnone | hwhite
          · exact Or.inl hnone
          · exact Or.inr ⟨1, by omega, c₁, trail_succ_of_moved hadvance, hwhite⟩
        · exact Or.inr ⟨m + 1, by omega, c₂, (trail_succ_of_moved hadvance).trans hc₂, hwhite⟩
  · -- from the cursor that stands outside, the phase lemma keeps the rest of the way outside
    have hstays : ∀ {m c₁}, p.Steady c₁ → p.home c₁.regs.pc = none → p.trail m c₁ = some c' →
        p.home c'.regs.pc = none := by
      intro m c₁ hsteady hnone htrail
      obtain ⟨-, ⟨hhome, -⟩ | ⟨hin, -⟩⟩ := phase_trail hp m hsteady htrail
      · exact hhome.trans hnone
      · exact absurd hnone hin
    rintro (hnone | ⟨m, hm, c₁, hc₁, hwhite⟩)
    · exact hstays hc hnone h
    · obtain ⟨c₂, hc₂, hrest⟩ := trail_of_le h hm
      obtain rfl := Option.some.inj (hc₁.symm.trans hc₂)
      exact hstays (phase_trail hp m hc hc₁).1 (home_of_cell_eq_white hwhite) hrest

/-! ## From block to block -/

/-- **Two blocks of one colour do not touch.** -/
theorem Scanned.color_ne_of_touch (h : Scanned raw visited p) (ha : p.blocks[i]? = some a)
    (hb : p.blocks[j]? = some b) (hq : q ∈ a.codels) (hout : q + d.vector ∉ a.codels)
    (hin : q + d.vector ∈ b.codels) : a.color ≠ b.color := by
  intro hcolor
  obtain ⟨f, -, hf⟩ := h.fills ha
  obtain ⟨e, -, he⟩ := h.fills hb
  refine hout ((h.mem_codels_iff_joined ha hq).mpr ?_)
  refine (Grid.Joined.start (hf.get?_raw hq)).step d ?_
  rw [hcolor]
  exact he.get?_raw hin

/-- `i` is the instruction of a move from `q`, in the block `b`, to `q'` in the block `b'`. -/
structure Crosses (p : Program) (q q' : Coord) (b b' : Block) (i : Instruction) : Prop where
  /-- The two blocks have different numbers… -/
  numbers : ∃ id id' : Nat, id ≠ id' ∧ p.cell q = .block id ∧ p.blocks[id]? = some b ∧
    p.cell q' = .block id' ∧ p.blocks[id']? = some b'
  /-- …and different colours, whose change is the opcode. -/
  color_ne : b.color ≠ b'.color
  opcode_eq : i.opcode = b.color.opcodeTo b'.color
  opcode_ne : i.opcode ≠ .nop
  /-- The operand is the area of the block that is left. -/
  operand_eq : i.operand = b.area
  one_le : 1 ≤ i.operand
  le_area : i.operand ≤ p.size.width * p.size.height

/-- What lies ahead of the corner of a block is in another block, or in none. -/
theorem front_settled_not_mem (hp : p.Consistent) (hb : p.home c.regs.pc = some b) :
    (p.settled c.regs).front ∉ b.codels := by
  obtain ⟨e, he, -⟩ := exists_exit hp hb c.regs.dp c.regs.cc
  rw [settled_of_exit hb he]
  exact (Direction.corner_eq_ok_iff.mp he).ahead_not_mem

/-- **A landing out of a block is a crossing.** -/
theorem crosses_of_advance {ι : Instruction} {ρ : Registers}
    (h : (segment raw).advance c = .landed ι ρ)
    (hb : (segment raw).home (settled (segment raw) c.regs).pc = some b) :
    ∃ b', (segment raw).Crosses (settled (segment raw) c.regs).pc ρ.pc b b' ι := by
  have hp := consistent_segment raw
  have hscan := scanned_segment raw
  obtain ⟨id, hid, hq⟩ := (home_eq_some hp).mp hb
  obtain ⟨f, -, hf⟩ := hscan.fills hid
  obtain ⟨id', hahead, rfl, rfl⟩ := advance_eq_landed h
  obtain ⟨b', hid'⟩ := hp.known hahead
  have hout : (settled (segment raw) c.regs).front ∉ b.codels :=
    front_settled_not_mem hp ((home_settled hp).symm.trans hb)
  have hcolor : b.color ≠ b'.color :=
    hscan.color_ne_of_touch hid hid' hq hout ((hp.mem_codels hid').mpr hahead)
  have hne : id ≠ id' := by
    rintro rfl
    exact hcolor (congrArg Block.color (Option.some.inj (hid.symm.trans hid')))
  have hcross : (segment raw).crossing (some b) id' = ⟨b.color.opcodeTo b'.color, b.area⟩ := by
    simp only [crossing, hid']
  rw [hb, hcross]
  refine ⟨b', ⟨id, id', hne, (hp.mem_codels hid).mp hq, hid, hahead, hid'⟩, hcolor, rfl,
    mt Color.opcodeTo_eq_nop_iff.mp hcolor, rfl, Int.ofNat_le.mpr hf.area_pos, ?_⟩
  calc (b.area : Int)
      ≤ raw.size.count := Int.ofNat_le.mpr hf.area_le
    _ = raw.size.width * raw.size.height := Size.natCast_count (Grid.mem_size_of_get? hf.color)
    _ = (segment raw).size.width * (segment raw).size.height := by rw [size, hscan.size_eq]

/-! ## The last probe -/

/-- After `n` iterations the search from `r` stands at `σ`, in the block `left` or outside, and its
probe from there finds `ι` and lands at `ρ`. -/
structure LastProbe (p : Program) (r : Registers) (n : Nat) (left : Option Block) (σ : Registers)
    (ι : Instruction) (ρ : Registers) : Prop where
  lands : ∃ c, p.wander n ⟨r, false⟩ = .ok (.moved c) ∧ p.settle c.regs = .ok (left, σ) ∧
    p.probe left ⟨σ, c.flipped⟩ = .ok (.landed ι ρ)
  stands : p.blockAt σ.pc = .ok left

/-- A landing from outside the blocks is idle. -/
theorem eq_idle_of_advance {ι : Instruction} {ρ : Registers} (h : p.advance c = .landed ι ρ)
    (hnone : p.home (p.settled c.regs).pc = none) : ι = .idle := by
  obtain ⟨id, -, rfl, -⟩ := advance_eq_landed h
  rw [hnone]
  rfl

theorem lastProbe_of_trail (hp : p.Consistent) {r ρ : Registers} {ι : Instruction}
    (h : p.trail n ⟨r, false⟩ = some c) (hland : p.advance c = .landed ι ρ) :
    p.LastProbe r n (p.home (p.settled c.regs).pc) (p.settled c.regs) ι ρ where
  lands := by
    refine ⟨c, ((wander_eq hp n _).1 c).mpr h, ?_, ?_⟩
    · rw [settle_eq hp, home_settled hp]
    · rw [home_settled hp, probe_settled hp, hland]
  stands := blockAt_eq hp

/-- **Only slides are silent.**  An instruction is `nop`, with the operand zero, exactly when the
last probe looked from outside the blocks, which is when the search began there or came through free
space; else it is that of a crossing. -/
theorem silent_iff_slid (raw : Grid Codel) (r ρ : Registers) (ι : Instruction)
    (h : (segment raw).next r = .ok (some ι, ρ)) :
    ∃ n left σ, (segment raw).LastProbe r n left σ ι ρ ∧
      (ι.opcode = .nop ↔ ι.operand = 0) ∧ (ι.operand = 0 ↔ left = none) ∧
      (left = none ↔ (segment raw).blockAt r.pc = .ok none ∨ (segment raw).SlidesWithin r n) ∧
      ∀ b, left = some b → ∃ b', (segment raw).Crosses σ.pc ρ.pc b b' ι := by
  have hp := consistent_segment raw
  obtain ⟨n, c, htrail, hland⟩ := (next_eq_some_iff hp).mp h
  have hway : (segment raw).home (settled (segment raw) c.regs).pc = none ↔
      (segment raw).blockAt r.pc = .ok none ∨ (segment raw).SlidesWithin r n := by
    rw [home_settled hp, blockAt_eq hp, Except.ok.injEq,
      home_trail_eq_none_iff hp (steady_of_flipped_eq_false rfl) htrail]
    simp only [SlidesWithin, (wander_eq hp _ _).1]
  refine ⟨n, _, _, lastProbe_of_trail hp htrail hland, ?_, ?_, hway,
    fun b hb => crosses_of_advance hland hb⟩
  all_goals
    cases hleft : (segment raw).home (settled (segment raw) c.regs).pc with
    | none => simp [eq_idle_of_advance hland hleft, Instruction.idle]
    | some b =>
      obtain ⟨b', hcross⟩ := crosses_of_advance hland hleft
      have hpos := hcross.one_le
      have hne := hcross.opcode_ne
      simp only [reduceCtorEq, iff_false, hne, false_iff]
      omega

/-- Three red codels around a wall, and two green ones beside them. -/
def bend : Grid Codel where
  size := ⟨3, 2⟩
  cells := #[.color ⟨.red, .normal⟩, .color ⟨.red, .normal⟩, .color ⟨.green, .normal⟩,
    .color ⟨.red, .normal⟩, .black, .color ⟨.green, .normal⟩]
  size_cells := rfl

/-- …where the first search crosses from the red block into the green one. -/
theorem crosses_bend :
    (segment bend).next .initial = .ok (some ⟨.divide, 3⟩, ⟨⟨2, 0⟩, .right, .ccw⟩) ∧
      ∃ b b' σ, (segment bend).Crosses σ ⟨2, 0⟩ b b' ⟨.divide, 3⟩ := by
  have hnext : (segment bend).next .initial = .ok (some ⟨.divide, 3⟩, ⟨⟨2, 0⟩, .right, .ccw⟩) := by
    decide +kernel
  refine ⟨hnext, ?_⟩
  obtain ⟨n, left, σ, -, -, hzero, -, hcross⟩ := silent_iff_slid bend _ _ _ hnext
  cases left with
  | none => exact absurd (hzero.mpr rfl) (by decide)
  | some b =>
    obtain ⟨b', hb'⟩ := hcross b rfl
    exact ⟨b, b', σ.pc, hb'⟩

end Program

end PietLang
