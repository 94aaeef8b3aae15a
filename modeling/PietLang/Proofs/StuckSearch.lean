import PietLang.Proofs.Search

/-!
# Proofs/StuckSearch — a search is stuck exactly when it would go on for ever

A search remembers registers, but an iteration also depends on whether the last wall was answered by
a flip, and that is not remembered.  It need not be: registers that repeat in one search repeat with
the same answer (`flipped_eq_of_settled_eq`), so a repetition is a repetition of the whole cursor,
and the search without memory goes round for ever.

Two invariants give this.  An answer to a wall changes either the direction by a quarter, or the
chooser, and in the same way the flag, so the parity of the three together, `Cursor.twist`, stays.
Entering free space could disturb it, since it clears the flag; but outside the blocks a flag that
is set means that the cell ahead is a wall (`Program.Steady`), so there the flag is clear already.
It does disturb it on the way out of a block, which happens once and never comes back.
-/

namespace PietLang

/-! ## The parity of a cursor -/

namespace Direction

theorem quarter_turn_cw_one (d : Direction) : (d.turn .cw 1).quarter % 2 = (d.quarter + 1) % 2 := by
  cases d <;> decide

end Direction

theorem Turn.index_flip (t : Turn) : t.flip.index = 1 - t.index := by cases t <;> rfl

/-- The parity of direction, chooser and flag together. -/
def Cursor.twist (c : Cursor) : Int :=
  (c.regs.dp.quarter + c.regs.cc.index + if c.flipped then 1 else 0) % 2

theorem Cursor.twist_bounce (c : Cursor) : c.bounce.twist = c.twist := by
  obtain ⟨⟨q, d, t⟩, flipped⟩ := c
  cases flipped with
  | true =>
    have hd := d.quarter_turn_cw_one
    simp only [twist, bounce, if_true, Bool.false_eq_true, if_false]
    omega
  | false =>
    have ht := t.index_flip
    simp only [twist, bounce, if_true, Bool.false_eq_true, if_false]
    omega

/-- Registers and parity determine the flag. -/
theorem Cursor.flipped_eq_of_twist_eq {c c' : Cursor} (hdp : c.regs.dp = c'.regs.dp)
    (hcc : c.regs.cc = c'.regs.cc) (h : c.twist = c'.twist) : c.flipped = c'.flipped := by
  rw [twist, twist, hdp, hcc] at h
  cases hc : c.flipped <;> cases hc' : c'.flipped <;> simp [hc, hc'] at h ⊢ <;> omega

namespace Program

variable {p : Program} {c c' c₁ c₂ : Cursor} {i : Instruction} {r : Registers} {j k n : Nat}

/-! ## The search without memory -/

/-- At most `n` iterations of the search, whatever registers repeat. -/
def wander (p : Program) : Nat → Cursor → Except Program.Fault Probe
  | 0, c => .ok (.moved c)
  | n + 1, c =>
    match p.settle c.regs with
    | .error e => .error e
    | .ok (left, r) =>
      match p.probe left ⟨r, c.flipped⟩ with
      | .error e => .error e
      | .ok (.landed i r') => .ok (.landed i r')
      | .ok (.moved c') => wander p n c'

/-- The cursor after `n` iterations, if none of them landed. -/
def trail (p : Program) : Nat → Cursor → Option Cursor
  | 0, c => some c
  | n + 1, c =>
    match p.advance c with
    | .landed _ _ => none
    | .moved c' => trail p n c'

theorem trail_succ_of_moved (h : p.advance c = .moved c') : p.trail (n + 1) c = p.trail n c' := by
  rw [trail, h]

theorem trail_succ_of_landed (h : p.advance c = .landed i r) : p.trail (n + 1) c = none := by
  rw [trail, h]

/-- **The search without memory follows the trail**, and an iteration that lands ends it. -/
theorem wander_eq (hp : p.Consistent) : ∀ (n : Nat) (c : Cursor),
    (∀ c', p.wander n c = .ok (.moved c') ↔ p.trail n c = some c') ∧
      ∀ i r, p.wander n c = .ok (.landed i r)
        ↔ ∃ k < n, ∃ c', p.trail k c = some c' ∧ p.advance c' = .landed i r
  | 0, c => by simp [wander, trail]
  | n + 1, c => by
    rw [wander, settle_eq hp]
    simp only [probe_settled hp]
    cases hadvance : p.advance c with
    | landed i r =>
      refine ⟨fun c' => by simp [trail_succ_of_landed hadvance], fun i' r' => ?_⟩
      constructor
      · intro h
        obtain ⟨rfl, rfl⟩ := Probe.landed.inj (Except.ok.inj h)
        exact ⟨0, Nat.succ_pos n, c, rfl, hadvance⟩
      · rintro ⟨k, -, c', hk, hc'⟩
        cases k with
        | zero =>
          obtain rfl := Option.some.inj hk
          rw [hadvance] at hc'
          rw [hc']
        | succ k =>
          rw [trail_succ_of_landed hadvance] at hk
          cases hk
    | moved c₁ =>
      obtain ⟨hmoved, hlanded⟩ := wander_eq hp n c₁
      refine ⟨fun c' => by rw [trail_succ_of_moved hadvance, hmoved], fun i r => ?_⟩
      rw [hlanded]
      constructor
      · rintro ⟨k, hk, c', htrail, hc'⟩
        exact ⟨k + 1, Nat.succ_lt_succ hk, c', by rw [trail_succ_of_moved hadvance, htrail], hc'⟩
      · rintro ⟨k, hk, c', htrail, hc'⟩
        cases k with
        | zero =>
          obtain rfl := Option.some.inj htrail
          rw [hadvance] at hc'
          cases hc'
        | succ k =>
          rw [trail_succ_of_moved hadvance] at htrail
          exact ⟨k, Nat.lt_of_succ_lt_succ hk, c', htrail, hc'⟩

theorem trail_add (p : Program) : ∀ (m n : Nat) (c : Cursor),
    p.trail (m + n) c = (p.trail m c).bind (p.trail n)
  | 0, n, c => by rw [Nat.zero_add]; rfl
  | m + 1, n, c => by
    rw [Nat.add_right_comm]
    cases hadvance : p.advance c with
    | landed i r => rw [trail_succ_of_landed hadvance, trail_succ_of_landed hadvance]; rfl
    | moved c' => rw [trail_succ_of_moved hadvance, trail_succ_of_moved hadvance, trail_add]

theorem trail_of_le (hk : p.trail k c = some c') (hjk : j ≤ k) :
    ∃ c₁, p.trail j c = some c₁ ∧ p.trail (k - j) c₁ = some c' := by
  rw [← Nat.add_sub_of_le hjk, trail_add] at hk
  exact Option.bind_eq_some_iff.mp hk

/-- The cursor that lands is the last of the trail. -/
theorem le_of_advance_eq_landed (hj : p.trail j c = some c₁) (hland : p.advance c₁ = .landed i r)
    (hk : p.trail k c = some c₂) : k ≤ j := by
  by_contra hlt
  rw [show k = j + (k - j - 1 + 1) by omega, trail_add, hj] at hk
  rw [show (some c₁).bind (p.trail (k - j - 1 + 1)) = p.trail (k - j - 1 + 1) c₁ from rfl,
    trail_succ_of_landed hland] at hk
  cases hk

/-- **A trail on which an iteration repeats has no end.** -/
theorem exists_trail_of_repeat (hjk : j < k) (hj : p.trail j c = some c₁)
    (hk : p.trail k c = some c₂) (h : p.advance c₁ = p.advance c₂) (n : Nat) :
    ∃ c', p.trail n c = some c' := by
  induction n using Nat.strongRecOn with
  | ind n ih =>
    rcases Nat.lt_or_ge k n with hlt | hle
    · obtain ⟨t, rfl⟩ : ∃ t, n = k + (t + 1) := ⟨n - k - 1, by omega⟩
      have hsame : p.trail (t + 1) c₂ = p.trail (t + 1) c₁ := by rw [trail, trail, h]
      obtain ⟨c', hc'⟩ := ih (j + (t + 1)) (by omega)
      refine ⟨c', ?_⟩
      rw [trail_add, hj] at hc'
      rw [trail_add, hk]
      exact hsame.trans hc'
    · obtain ⟨c', hc', -⟩ := trail_of_le hk hle
      exact ⟨c', hc'⟩

/-! ## The flag is determined -/

/-- Outside the blocks, a flag that is set means that the cell ahead is a wall. -/
def Steady (p : Program) (c : Cursor) : Prop :=
  p.home c.regs.pc = none → c.flipped = true → p.cell c.regs.front = .black

theorem home_of_cell_eq_white {q : Coord} (h : p.cell q = .white) : p.home q = none := by
  rw [home, h]

theorem steady_of_advance_eq_moved (h : p.advance c = .moved c') : p.Steady c' := by
  intro hhome hflipped
  obtain ⟨-, rfl⟩ | ⟨hahead, rfl⟩ := advance_eq_moved h
  · cases hflipped
  · -- the flag was set just now, so neither place nor direction has changed
    rw [Cursor.bounce] at hflipped ⊢
    split at hflipped
    · cases hflipped
    · next hclear =>
      rw [if_neg hclear]
      exact hahead

/-- **An iteration stays in its block, or outside, and keeps the parity; or it leaves.** -/
theorem phase_advance (hp : p.Consistent) (hc : p.Steady c) (h : p.advance c = .moved c') :
    p.home c'.regs.pc = p.home c.regs.pc ∧ c'.twist = c.twist ∨
      p.home c.regs.pc ≠ none ∧ p.home c'.regs.pc = none := by
  have htwist : (⟨p.settled c.regs, c.flipped⟩ : Cursor).twist = c.twist := by
    simp only [Cursor.twist, dp_settled, cc_settled]
  obtain ⟨hahead, rfl⟩ | ⟨hahead, rfl⟩ := advance_eq_moved h
  · have hout : p.home (p.settled c.regs).front = none := home_of_cell_eq_white hahead
    cases hhome : p.home c.regs.pc with
    | some b => exact Or.inr ⟨by simp, hout⟩
    | none =>
      rw [settled_of_home_eq_none hhome] at hahead hout ⊢
      have hclear : c.flipped = false := by
        by_contra hset
        rw [hc hhome (by simpa using hset)] at hahead
        cases hahead
      refine Or.inl ⟨hout, ?_⟩
      simp [Cursor.twist, Cursor.slide, hclear]
  · refine Or.inl ⟨?_, ?_⟩
    · rw [Cursor.pc_bounce]
      exact home_settled hp
    · rw [Cursor.twist_bounce, htwist]

/-- …and so does every number of iterations. -/
theorem phase_trail (hp : p.Consistent) : ∀ (n : Nat) {c c' : Cursor}, p.Steady c →
    p.trail n c = some c' → p.Steady c' ∧
      (p.home c'.regs.pc = p.home c.regs.pc ∧ c'.twist = c.twist ∨
        p.home c.regs.pc ≠ none ∧ p.home c'.regs.pc = none)
  | 0, c, c', hc, h => by
    obtain rfl := Option.some.inj h
    exact ⟨hc, Or.inl ⟨rfl, rfl⟩⟩
  | n + 1, c, c', hc, h => by
    cases hadvance : p.advance c with
    | landed i r =>
      rw [trail_succ_of_landed hadvance] at h
      cases h
    | moved c₁ =>
      rw [trail_succ_of_moved hadvance] at h
      obtain ⟨hsteady, hphase⟩ := phase_trail hp n (steady_of_advance_eq_moved hadvance) h
      refine ⟨hsteady, ?_⟩
      rcases phase_advance hp hc hadvance with ⟨hhome, htwist⟩ | ⟨hin, hout⟩
      · rw [← hhome, ← htwist]
        exact hphase
      · rcases hphase with ⟨hhome, -⟩ | ⟨hin', -⟩
        · exact Or.inr ⟨hin, hhome.trans hout⟩
        · exact absurd hout hin'

/-- **Registers that repeat repeat with their flag.** -/
theorem flipped_eq_of_settled_eq (hp : p.Consistent) (hc : p.Steady c) (hjk : j ≤ k)
    (hj : p.trail j c = some c₁) (hk : p.trail k c = some c₂)
    (h : p.settled c₁.regs = p.settled c₂.regs) : c₁.flipped = c₂.flipped := by
  obtain ⟨c', hc', hbetween⟩ := trail_of_le hk hjk
  obtain rfl : c₁ = c' := Option.some.inj (hj.symm.trans hc')
  obtain ⟨hsteady, -⟩ := phase_trail hp j hc hj
  have hhome : p.home c₁.regs.pc = p.home c₂.regs.pc := by
    rw [← home_settled hp, h, home_settled hp]
  obtain ⟨hdp, hcc⟩ := dp_cc_eq_of_settled_eq h
  obtain ⟨-, ⟨-, htwist⟩ | ⟨hin, hout⟩⟩ := phase_trail hp (k - j) hsteady hbetween
  · exact Cursor.flipped_eq_of_twist_eq hdp hcc htwist.symm
  · exact absurd (hhome.trans hout) hin

theorem advance_eq_of_settled_eq (h : p.settled c₁.regs = p.settled c₂.regs)
    (hflipped : c₁.flipped = c₂.flipped) : p.advance c₁ = p.advance c₂ := by
  rw [advance, advance, h, hflipped]

/-! ## What a search finds -/

/-- **A search follows the trail to a repetition or to a landing.** -/
theorem search_eq_ok (hp : p.Consistent) {c₀ : Cursor} {out : Option Instruction × Registers} :
    ∀ (n : Nat) {seen : Std.TreeSet Registers Registers.order} {c : Cursor} {k : Nat},
      p.trail k c₀ = some c →
      (∀ ρ ∈ seen, ∃ j < k, ∃ c', p.trail j c₀ = some c' ∧ p.settled c'.regs = ρ) →
      p.search n seen c = .ok out →
        (∃ j k c₁ c₂, j < k ∧ p.trail j c₀ = some c₁ ∧ p.trail k c₀ = some c₂ ∧
          p.settled c₁.regs = p.settled c₂.regs ∧ out = (none, p.settled c₂.regs)) ∨
        ∃ k c₁ i r, p.trail k c₀ = some c₁ ∧ p.advance c₁ = .landed i r ∧ out = (some i, r)
  | 0, seen, c, k, _, _, h => by cases h
  | n + 1, seen, c, k, hk, hseen, h => by
    rw [search_succ hp] at h
    split at h
    · next hmem =>
      obtain ⟨j, hj, c₁, hc₁, heq⟩ := hseen _ hmem
      exact Or.inl ⟨j, k, c₁, c, hj, hc₁, hk, heq, (Except.ok.inj h).symm⟩
    · cases hadvance : p.advance c with
      | landed i r =>
        rw [hadvance] at h
        exact Or.inr ⟨k, c, i, r, hk, hadvance, (Except.ok.inj h).symm⟩
      | moved c' =>
        rw [hadvance] at h
        refine search_eq_ok hp n (k := k + 1) ?_ (fun ρ hρ => ?_) h
        · rw [trail_add, hk]
          exact trail_succ_of_moved hadvance
        · rcases TreeSet.mem_insert.mp hρ with rfl | hρ
          · exact ⟨k, Nat.lt_succ_self k, c, hk, rfl⟩
          · obtain ⟨j, hj, hc₁⟩ := hseen ρ hρ
            exact ⟨j, Nat.lt_succ_of_lt hj, hc₁⟩

theorem steady_of_flipped_eq_false (h : c.flipped = false) : p.Steady c := by
  intro _ hset
  rw [h] at hset
  cases hset

/-- A search that is stuck is on a trail without end. -/
theorem exists_trail_of_stuck (hp : p.Consistent) {ρ : Registers} (h : p.next r = .ok (none, ρ))
    (n : Nat) : ∃ c, p.trail n ⟨r, false⟩ = some c := by
  rcases search_eq_ok hp (k := 0) _ rfl (by simp) h with
    ⟨j, k, c₁, c₂, hjk, hj, hk, heq, -⟩ | ⟨k, c₁, i, ρ', -, -, hout⟩
  · have hflipped := flipped_eq_of_settled_eq hp (steady_of_flipped_eq_false rfl)
      (Nat.le_of_lt hjk) hj hk heq
    exact exists_trail_of_repeat hjk hj hk (advance_eq_of_settled_eq heq hflipped) n
  · cases hout

/-- **A search lands where the trail lands.** -/
theorem next_eq_some_iff (hp : p.Consistent) {ρ : Registers} :
    p.next r = .ok (some i, ρ)
      ↔ ∃ k c, p.trail k ⟨r, false⟩ = some c ∧ p.advance c = .landed i ρ := by
  constructor
  · intro h
    rcases search_eq_ok hp (k := 0) _ rfl (by simp) h with
      ⟨j, k, c₁, c₂, -, -, -, -, hout⟩ | ⟨k, c₁, i', ρ', hk, hland, hout⟩
    · cases hout
    · obtain ⟨hi, rfl⟩ := Prod.mk.inj hout
      obtain rfl := Option.some.inj hi
      exact ⟨k, c₁, hk, hland⟩
  · rintro ⟨k, c, hk, hland⟩
    obtain ⟨⟨found, ρ'⟩, hout⟩ := exists_next hp r
    cases found with
    | none =>
      obtain ⟨c', hc'⟩ := exists_trail_of_stuck hp hout (k + 1)
      have := le_of_advance_eq_landed hk hland hc'
      omega
    | some i' =>
      rcases search_eq_ok hp (k := 0) _ rfl (by simp) hout with
        ⟨j, k, c₁, c₂, -, -, -, -, hout'⟩ | ⟨k', c₁, i'', ρ'', hk', hland', hout'⟩
      · cases hout'
      · obtain rfl : k = k' := Nat.le_antisymm
          (le_of_advance_eq_landed hk' hland' hk) (le_of_advance_eq_landed hk hland hk')
        obtain rfl : c = c₁ := Option.some.inj (hk.symm.trans hk')
        obtain ⟨rfl, rfl⟩ := Probe.landed.inj (hland.symm.trans hland')
        rw [hout, hout']

/-- **A search is stuck exactly when the search without memory never lands**, and it lands where
that one does; registers never repeat with another flag. -/
theorem next_eq_none_iff_never_lands (raw : Grid Codel) (r : Registers) :
    ((∃ ρ, (segment raw).next r = .ok (none, ρ))
      ↔ ∀ n i ρ, (segment raw).wander n ⟨r, false⟩ ≠ .ok (.landed i ρ)) ∧
    (∀ i ρ, (segment raw).next r = .ok (some i, ρ)
      ↔ ∃ n, (segment raw).wander n ⟨r, false⟩ = .ok (.landed i ρ)) ∧
    ∀ m n c c' left left' ρ, m < n →
      (segment raw).wander m ⟨r, false⟩ = .ok (.moved c) →
      (segment raw).wander n ⟨r, false⟩ = .ok (.moved c') →
      (segment raw).settle c.regs = .ok (left, ρ) →
      (segment raw).settle c'.regs = .ok (left', ρ) → c.flipped = c'.flipped := by
  have hp := consistent_segment raw
  have hlands : ∀ i ρ, (segment raw).next r = .ok (some i, ρ)
      ↔ ∃ n, (segment raw).wander n ⟨r, false⟩ = .ok (.landed i ρ) := by
    intro i ρ
    rw [next_eq_some_iff hp]
    constructor
    · rintro ⟨k, c, hk, hland⟩
      exact ⟨k + 1, ((wander_eq hp (k + 1) _).2 i ρ).mpr ⟨k, Nat.lt_succ_self k, c, hk, hland⟩⟩
    · rintro ⟨n, hn⟩
      obtain ⟨k, -, c, hk, hland⟩ := ((wander_eq hp n _).2 i ρ).mp hn
      exact ⟨k, c, hk, hland⟩
  refine ⟨⟨?_, ?_⟩, hlands, ?_⟩
  · rintro ⟨ρ, hstuck⟩ n i ρ' hland
    rw [(hlands i ρ').mpr ⟨n, hland⟩] at hstuck
    cases hstuck
  · intro hnever
    obtain ⟨⟨found, ρ⟩, hout⟩ := exists_next hp r
    cases found with
    | none => exact ⟨ρ, hout⟩
    | some i =>
      obtain ⟨n, hn⟩ := (hlands i ρ).mp hout
      exact absurd hn (hnever n i ρ)
  · intro m n c c' left left' ρ hmn hm hn hsettle hsettle'
    rw [settle_eq hp] at hsettle hsettle'
    have hsettled := (Prod.mk.inj (Except.ok.inj hsettle)).2
    have hsettled' := (Prod.mk.inj (Except.ok.inj hsettle')).2
    exact flipped_eq_of_settled_eq hp (steady_of_flipped_eq_false rfl) (Nat.le_of_lt hmn)
      (((wander_eq hp m _).1 c).mp hm) (((wander_eq hp n _).1 c').mp hn)
      (hsettled.trans hsettled'.symm)

end Program

end PietLang
