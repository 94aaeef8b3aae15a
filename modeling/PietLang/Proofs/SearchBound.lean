import PietLang.Proofs.SearchRules

/-!
# Proofs/SearchBound — how long a search can take

Every iteration that goes on adds registers, of which there are only so many, so the number of
iterations is bounded by the size of the grid (`Reaches.le`).

In front of a wall a much smaller bound holds.  A search that does not get away from a wall stays in
its block, or where it stands, and goes through the eight attitudes; eight answers lead back to the
first one (`Cursor.bounce_eight`), which has been seen by then.  That the search moves to the exit
of its block before every probe makes no difference to this: the exit depends on the attitude alone
(`poised_bounce_poised`).
-/

namespace PietLang

/-- **Eight walls lead back to the first attitude.** -/
theorem Cursor.bounce_eight (c : Cursor) : bounce^[8] c = c := by
  obtain ⟨⟨q, d, t⟩, flipped⟩ := c
  cases d <;> cases t <;> cases flipped <;> rfl

namespace Program

variable {p : Program} {s s' : Search}

/-! ## In front of a wall -/

/-- The cursor from which an iteration probes: moved to the exit of its block. -/
def poised (p : Program) (c : Cursor) : Cursor := ⟨p.settled c.regs, c.flipped⟩

/-- To move to the exit before an answer to a wall makes no difference after it. -/
theorem poised_bounce_poised (hp : p.Consistent) (c : Cursor) :
    p.poised (p.poised c).bounce = p.poised c.bounce := by
  cases hb : p.home c.regs.pc with
  | none =>
    have hstays : p.poised c = c := by rw [poised, settled_of_home_eq_none hb]
    rw [hstays]
  | some b =>
    have hhome : p.home (p.settled c.regs).pc = some b := (home_settled hp).trans hb
    obtain ⟨r, flipped⟩ := c
    cases flipped with
    | true =>
      refine congrArg (Cursor.mk · false) (settled_congr hp hb hhome ?_ cc_settled)
      exact congrArg (Direction.turn · .cw 1) dp_settled
    | false =>
      refine congrArg (Cursor.mk · true) (settled_congr hp hb hhome dp_settled ?_)
      exact congrArg Turn.flip cc_settled

/-- An iteration that goes on after its probe was blocked: the cell ahead is black, or outside the
grid. -/
structure Blocked (p : Program) (s s' : Search) : Prop where
  again : p.iterate s = .ok (.again s')
  wall : ∃ left ρ, p.settle s.cursor.regs = .ok (left, ρ) ∧ p.cell ρ.front = .black

theorem Blocked.cursor_eq (h : p.Blocked s s') (hp : p.Consistent) :
    s'.cursor = (p.poised s.cursor).bounce := by
  obtain ⟨-, -, hadvance⟩ := iterate_eq_again hp h.again
  obtain ⟨left, ρ, hsettle, hblack⟩ := h.wall
  rw [settle_eq hp] at hsettle
  obtain ⟨-, rfl⟩ := Prod.mk.inj (Except.ok.inj hsettle)
  exact Probe.moved.inj (hadvance.symm.trans (advance_of_black hblack))

/-- Probes that are all blocked go through the answers in order. -/
theorem poised_of_blocked (hp : p.Consistent) {s : Nat → Search} : ∀ (m : Nat),
    (∀ j < m, p.Blocked (s j) (s (j + 1))) →
      p.poised (s m).cursor = p.poised (Cursor.bounce^[m] (s 0).cursor)
  | 0, _ => rfl
  | m + 1, h => by
    rw [(h m (Nat.lt_succ_self m)).cursor_eq hp, poised_of_blocked hp m fun j hj => h j (by omega),
      poised_bounce_poised hp, Function.iterate_succ_apply']

/-- What an iteration has seen, the later ones have seen. -/
theorem mem_seen_of_blocked (hp : p.Consistent) {s : Nat → Search} {ρ : Registers}
    (hρ : ρ ∈ (s 0).seen) : ∀ (m : Nat), (∀ j < m, p.Blocked (s j) (s (j + 1))) → ρ ∈ (s m).seen
  | 0, _ => hρ
  | m + 1, h => by
    obtain ⟨-, hseen, -⟩ := iterate_eq_again hp (h m (Nat.lt_succ_self m)).again
    rw [hseen]
    exact TreeSet.mem_insert.mpr (Or.inr (mem_seen_of_blocked hp hρ m fun j hj => h j (by omega)))

/-- **No more than eight probes in a row are blocked.** -/
theorem le_eight_of_blocked (hp : p.Consistent) {s : Nat → Search} {m : Nat}
    (h : ∀ j < m, p.Blocked (s j) (s (j + 1))) : m ≤ 8 := by
  by_contra hlt
  -- the ninth probe would start from the registers of the first, which the first has added
  obtain ⟨-, hfirst, -⟩ := iterate_eq_again hp (h 0 (by omega)).again
  obtain ⟨hnew, -, -⟩ := iterate_eq_again hp (h 8 (by omega)).again
  have hsame : p.poised (s 8).cursor = p.poised (s 0).cursor := by
    rw [poised_of_blocked hp 8 fun j hj => h j (by omega), Cursor.bounce_eight]
  have hsettled : p.settled (s 8).cursor.regs = p.settled (s 0).cursor.regs :=
    congrArg Cursor.regs hsame
  have hadded : p.settled (s 0).cursor.regs ∈ (s 1).seen := by
    rw [hfirst]
    exact TreeSet.mem_insert.mpr (Or.inl rfl)
  rw [hsettled] at hnew
  exact hnew (mem_seen_of_blocked hp (s := fun j => s (j + 1)) hadded 7
    fun j hj => h (j + 1) (by omega))

/-! ## The bounds together -/

/-- Registers that a search returns stand where all its registers do. -/
theorem Within.returned {o : Coord} {out : Option Instruction × Registers} (h : p.Within o s)
    (hp : p.Consistent) (hs : p.iterate s = .ok (.returned out)) :
    out.2.pc ∈ p.size ∨ out.2.pc = o := by
  rw [iterate_eq hp] at hs
  split at hs
  · obtain rfl := Iteration.returned.inj (Except.ok.inj hs)
    exact h.settled hp
  · cases hadvance : p.advance s.cursor with
    | moved c =>
      rw [hadvance] at hs
      cases hs
    | landed i ρ =>
      rw [hadvance] at hs
      obtain rfl := Iteration.returned.inj (Except.ok.inj hs)
      obtain ⟨id, hahead, -, rfl⟩ := advance_eq_landed hadvance
      exact Or.inl (mem_size_of_cell_ne_black (by rw [hahead]; simp))

/-- **A search ends.**  Each iteration returns, or adds registers that were not seen before; all of
them stand on the grid or where the search began.  So no more than eight iterations for every cell
and eight for the start go on, the next one at the latest returns, and what it returns is the
answer.  No more than eight probes in a row are blocked. -/
theorem search_ends (raw : Grid Codel) (r : Registers) :
    (∀ k s, (segment raw).Reaches r k s →
      k ≤ 8 * (raw.size.count + 1) ∧
      (∀ ρ ∈ s.seen, ρ.pc ∈ raw.size ∨ ρ.pc = r.pc) ∧
      (s.cursor.regs.pc ∈ raw.size ∨ s.cursor.regs.pc = r.pc) ∧
      ((∃ out, (segment raw).iterate s = .ok (.returned out)) ∨
        ∃ ρ s', (segment raw).iterate s = .ok (.again s') ∧ ρ ∉ s.seen ∧
          s'.seen = s.seen.insert ρ)) ∧
    (∃ k s out, k + 1 ≤ 8 * (raw.size.count + 1) + 1 ∧ (segment raw).Reaches r k s ∧
      (segment raw).iterate s = .ok (.returned out) ∧ (segment raw).next r = .ok out ∧
      (out.2.pc ∈ raw.size ∨ out.2.pc = r.pc)) ∧
    ∀ m (s : Nat → Search), (∀ j < m, (segment raw).Blocked (s j) (s (j + 1))) → m ≤ 8 := by
  have hp := consistent_segment raw
  have hsize : (segment raw).size = raw.size := (scanned_segment raw).size_eq
  refine ⟨fun k s hs => ?_, ?_, fun m s => le_eight_of_blocked hp⟩
  · have hwithin := hs.within hp
    have hle := hs.le hp
    rw [hsize] at hle
    refine ⟨hle, hsize ▸ hwithin.seen, hsize ▸ hwithin.cursor, ?_⟩
    rcases iterate_cases hp s with hout | ⟨s', hs'⟩
    · exact Or.inl hout
    · obtain ⟨hnew, hseen, -⟩ := iterate_eq_again hp hs'
      exact Or.inr ⟨_, s', hs', hnew, hseen⟩
  · obtain ⟨k, s, out, hk, hs, hout, hnext⟩ := exists_return hp r
    rw [searchBound, hsize] at hk
    exact ⟨k, s, out, hk, hs, hout, hnext, hsize ▸ (hs.within hp).returned hp hout⟩

end Program

end PietLang
