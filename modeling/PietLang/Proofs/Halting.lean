import PietLang.Proofs.Landing
import PietLang.Proofs.SearchRules
import Mathlib.Data.List.Chain

/-!
# Proofs/Halting — a machine that has halted stays as it is

A slide that gets stuck has the shape of the letter rho: it comes along a tail, goes once round a
ring, and stops where it meets the ring again.  That place is on the ring, so a second slide from
there, which remembers nothing, goes round the same ring and stops at the same place
(`Slide.stuck_again`).

From inside a block there is no tail: the eight attempts begin and end at the same exit.
-/

namespace PietLang

namespace Program

variable {p : Program} {r ρ a b : Registers} {passed : List Registers}
  {out : Option Instruction × Registers}

/-! ## Round the ring -/

/-- A slide goes from `a` to `b`: through free space, or round at a wall. -/
def Glides (p : Program) (a b : Registers) : Prop :=
  p.cell a.front = .white ∧ b = a.forward ∨ p.cell a.front = .black ∧ b = a.turned

/-- What a slide has passed, the latest first, is the way that it came. -/
abbrev Came (p : Program) (r : Registers) (passed : List Registers) : Prop :=
  (r :: passed).IsChain fun b a => p.Glides a b

/-- A slide begins earlier: what it does from `b`, it does from the registers before. -/
theorem Slide.of_glides (hnew : a ∉ passed) (hstep : p.Glides a b)
    (h : p.Slide (a :: passed) b out) : p.Slide passed a out := by
  obtain ⟨hahead, rfl⟩ | ⟨hahead, rfl⟩ := hstep
  · exact .enter hnew hahead h
  · exact .turn hnew hahead h

/-- …and so all the way back to where it came from. -/
theorem Slide.of_came : ∀ (way : List Registers) {b : Registers}, p.Came b (way ++ [a]) →
    (way ++ [a]).Nodup → p.Slide (way ++ [a]) b out → p.Slide [] a out
  | [], b, hcame, _, h => .of_glides List.not_mem_nil (List.isChain_cons_cons.mp hcame).1 h
  | c :: way, b, hcame, hnodup, h => by
    obtain ⟨hstep, hcame⟩ := List.isChain_cons_cons.mp hcame
    obtain ⟨hnew, hnodup⟩ := List.nodup_cons.mp hnodup
    exact of_came way hcame hnodup (.of_glides hnew hstep h)

/-- The way from a repetition back to itself is a ring. -/
theorem Slide.stuck_of_mem (hcame : p.Came r passed) (hnodup : passed.Nodup) (hmem : r ∈ passed) :
    p.Slide [] r (none, r) := by
  obtain ⟨ring, tail, rfl⟩ := List.mem_iff_append.mp hmem
  have hpassed : ring ++ r :: tail = (ring ++ [r]) ++ tail := by simp
  rw [hpassed] at hnodup
  have hring : p.Came r (ring ++ [r]) := by
    rw [Came, hpassed, ← List.cons_append] at hcame
    exact hcame.left_of_append
  exact .of_came ring hring (List.nodup_append.mp hnodup).1 (.stuck (by simp))

/-- **A slide that is stuck stays where it is**, outside the blocks. -/
theorem Slide.stuck_again (h : p.Slide passed r out) (hcame : p.Came r passed)
    (hnodup : passed.Nodup) (hhome : p.home r.pc = none) (hstuck : out.1 = none) :
    p.Slide [] out.2 (none, out.2) ∧ p.home out.2.pc = none := by
  induction h with
  | stuck hmem => exact ⟨.stuck_of_mem hcame hnodup hmem, hhome⟩
  | land _ _ => exact absurd hstuck (by simp)
  | enter hnew hahead _ ih =>
    exact ih (hcame.cons_cons (Or.inl ⟨hahead, rfl⟩)) (hnodup.cons hnew)
      (home_of_cell_eq_white hahead) hstuck
  | turn hnew hahead _ ih =>
    exact ih (hcame.cons_cons (Or.inr ⟨hahead, rfl⟩)) (hnodup.cons hnew) hhome hstuck

/-! ## Searches -/

theorem home_of_blockAt (hp : p.Consistent) {q : Coord} {found : Option Block}
    (h : p.blockAt q = .ok found) : p.home q = found := by
  rw [blockAt_eq hp] at h
  exact Except.ok.inj h

/-- **By the rules, a search from where one got stuck is stuck at once in the same place.** -/
theorem Seeks.stuck_again (hp : p.Consistent) (h : p.Seeks r out) (hstuck : out.1 = none) :
    p.Seeks out.2 (none, out.2) := by
  -- a slide starts with nothing passed
  have hslide : ∀ {s : Registers}, p.home s.pc = none → p.Slide [] s out →
      p.Seeks out.2 (none, out.2) := by
    intro s hs hslide
    obtain ⟨hagain, hhome⟩ := hslide.stuck_again (.singleton s) .nil hs hstuck
    exact .slide (by rw [blockAt_eq hp, hhome]) hagain
  cases h with
  | shut hb hwalls he =>
    obtain ⟨e, he', hhome⟩ := exists_exit hp (home_of_blockAt hp hb) r.dp r.cc
    obtain rfl := Except.ok.inj (he.symm.trans he')
    exact .shut (by rw [blockAt_eq hp, hhome]) hwalls he
  | cross _ _ _ _ => exact absurd hstuck (by simp)
  | leave _ _ ht hrest => exact hslide (home_of_cell_eq_white ht) hrest
  | slide hb hrest => exact hslide (home_of_blockAt hp hb) hrest

/-- The outcome of the rules is that of the search. -/
theorem next_of_seeks (hp : p.Consistent) (h : p.Seeks r out) : p.next r = .ok out := by
  obtain ⟨found, hfound⟩ := exists_next hp r
  rw [hfound, (seeks_of_next hp hfound).unique h]

/-- **A search from where one got stuck is stuck there.** -/
theorem next_of_stuck (hp : p.Consistent) (h : p.next r = .ok (none, ρ)) :
    p.next ρ = .ok (none, ρ) :=
  next_of_seeks hp ((seeks_of_next hp h).stuck_again hp rfl)

/-! ## Runs -/

/-- A run halts at registers where the search is stuck. -/
theorem next_final_of_halted (hp : p.Consistent) (n : Nat) : ∀ {s : State},
    (p.run n s).ending = .halted →
      p.next (p.run n s).final.regs = .ok (none, (p.run n s).final.regs) := by
  induction n with
  | zero =>
    intro s h
    exact absurd h (by simp [run])
  | succ n ih =>
    intro s h
    obtain ⟨s', hround⟩ | ⟨i, landed, -, hround | ⟨why, hround⟩⟩ := round_cases hp s
    · simp only [run, hround]
      obtain ⟨r, hnext, rfl⟩ := round_eq_stuck_iff.mp hround
      exact next_of_stuck hp hnext
    · simp only [run, hround] at h ⊢
      exact ih h
    · simp only [run, hround] at h
      exact absurd h (by simp)

/-- **A machine that has halted stays as it is.**  A search that was stuck is stuck again and leaves
the registers alone; a run from a state in which a run has halted carries nothing out and ends in
that state. -/
theorem run_of_halted (raw : Grid Codel) :
    (∀ r ρ, (segment raw).next r = .ok (none, ρ) → (segment raw).next ρ = .ok (none, ρ)) ∧
    ∀ n s, ((segment raw).run n s).ending = .halted →
      ∀ m, (segment raw).run (m + 1) ((segment raw).run n s).final
        = ⟨[], ((segment raw).run n s).final, .halted⟩ := by
  have hp := consistent_segment raw
  refine ⟨fun r ρ => next_of_stuck hp, fun n s hhalted m => ?_⟩
  rw [run, round, next_final_of_halted hp n hhalted]

/-- Free space of three by three cells, whose border is a ring. -/
def courtyard : Grid Codel := Grid.filled ⟨3, 3⟩ .white

/-- From its middle a machine comes to the ring by a tail, and does not go back to it. -/
theorem run_of_halted_in_courtyard :
    let middle : State := ⟨⟨⟨1, 1⟩, .right, .ccw⟩, [5], Input.ofBytes [0x37] .closed, "a"⟩
    let ring : State := { middle with regs := ⟨⟨2, 1⟩, .down, .cw⟩ }
    (segment courtyard).run 1 middle = ⟨[], ring, .halted⟩ ∧
      (segment courtyard).run 3 ring = ⟨[], ring, .halted⟩ := by
  intro middle ring
  have hhalted : (segment courtyard).run 1 middle = ⟨[], ring, .halted⟩ := by decide +kernel
  have hagain := (run_of_halted courtyard).2 1 middle (by rw [hhalted]) 2
  rw [hhalted] at hagain
  exact ⟨hhalted, hagain⟩

end Program

end PietLang
