import PietLang.Proofs.StuckSearch
import Mathlib.Data.Nat.Find
import Mathlib.Logic.Function.Iterate

/-!
# Proofs/SearchRules — a search is eight attempts to leave a block, or a slide

The rules of a search, said without its flag.  From inside a block there are eight attempts, one for
each direction and chooser in a fixed order; the first that does not meet a wall decides
(`Program.Seeks`).  Outside the blocks the search slides: it goes straight on through free space,
and a wall turns the direction and flips the chooser, both at once (`Program.Slide`).

The search takes two iterations for a turn of the slide.  What it remembers in between is told from
what the slide passes by its parity, and it stands behind registers that the slide has passed
(`Program.Shadows`), so the two stop at the same repetition.
-/

namespace PietLang

namespace Registers

/-- Where the attempt `k` to leave a block looks: two attempts in each direction, and a flip of the
chooser before every second one. -/
def attempt (r : Registers) (k : Nat) : Registers :=
  ⟨r.pc, r.dp.turn .cw (k / 2 : Nat), Turn.flip^[(k + 1) / 2] r.cc⟩

/-- The registers with the other chooser. -/
def flip (r : Registers) : Registers := { r with cc := r.cc.flip }

@[simp] theorem flip_flip (r : Registers) : r.flip.flip = r := by
  simp only [flip, Turn.flip_flip]

/-- The registers after a wall that is met outside the blocks. -/
def turned (r : Registers) : Registers := ⟨r.pc, r.dp.turn .cw 1, r.cc.flip⟩

/-- The registers one cell further. -/
def forward (r : Registers) : Registers := { r with pc := r.front }

end Registers

namespace Program

/-- A slide from `r`, which has passed some registers before, ends so. -/
inductive Slide (p : Program) : List Registers → Registers → Option Instruction × Registers → Prop
    where
  /-- It comes back to registers that it has passed. -/
  | stuck {passed : List Registers} {r : Registers} (h : r ∈ passed) : Slide p passed r (none, r)
  /-- It enters a colour, and no instruction comes of it. -/
  | land {passed : List Registers} {r : Registers} {id : Nat} (h : r ∉ passed)
    (hahead : p.cell r.front = .block id) : Slide p passed r (some .idle, r.forward)
  /-- It enters free space. -/
  | enter {passed : List Registers} {r : Registers} {out : Option Instruction × Registers}
    (h : r ∉ passed) (hahead : p.cell r.front = .white)
    (hrest : Slide p (r :: passed) r.forward out) : Slide p passed r out
  /-- It meets a wall. -/
  | turn {passed : List Registers} {r : Registers} {out : Option Instruction × Registers}
    (h : r ∉ passed) (hahead : p.cell r.front = .black)
    (hrest : Slide p (r :: passed) r.turned out) : Slide p passed r out

/-- The attempt `k` to leave the block `b` looks at `t`, from the exit of its direction and
chooser. -/
def LooksAt (b : Block) (r : Registers) (k : Nat) (t : Coord) : Prop :=
  ∃ e, b.exit (r.attempt k).dp (r.attempt k).cc = .ok e ∧ t = e + (r.attempt k).dp.vector

/-- The attempt `k` is the first that does not meet a wall, and looks at `t`. -/
structure Leaves (p : Program) (b : Block) (r : Registers) (k : Nat) (t : Coord) : Prop where
  lt : k < 8
  walls : ∀ j < k, ∃ s, LooksAt b r j s ∧ p.cell s = .black
  looksAt : LooksAt b r k t
  ahead : p.cell t ≠ .black

/-- A search from `r` ends so. -/
inductive Seeks (p : Program) (r : Registers) : Option Instruction × Registers → Prop where
  /-- All attempts to leave the block meet a wall. -/
  | shut {b : Block} {e : Coord} (hb : p.blockAt r.pc = .ok (some b))
    (hwalls : ∀ k < 8, ∃ s, LooksAt b r k s ∧ p.cell s = .black)
    (he : b.exit r.dp r.cc = .ok e) : Seeks p r (none, { r with pc := e })
  /-- The block is left for another. -/
  | cross {b b' : Block} {k id : Nat} {t : Coord} (hb : p.blockAt r.pc = .ok (some b))
    (hk : p.Leaves b r k t) (ht : p.cell t = .block id) (hb' : p.block id = .ok b') :
    Seeks p r (some ⟨b.color.opcodeTo b'.color, b.area⟩, { r.attempt k with pc := t })
  /-- The block is left for free space. -/
  | leave {b : Block} {k : Nat} {t : Coord} {out : Option Instruction × Registers}
    (hb : p.blockAt r.pc = .ok (some b)) (hk : p.Leaves b r k t) (ht : p.cell t = .white)
    (hslide : p.Slide [] { r.attempt k with pc := t } out) : Seeks p r out
  /-- The search begins outside the blocks. -/
  | slide {out : Option Instruction × Registers} (hb : p.blockAt r.pc = .ok none)
    (hslide : p.Slide [] r out) : Seeks p r out

variable {p : Program} {r ρ : Registers} {c : Cursor} {n : Nat}
  {seen : Std.TreeSet Registers Registers.order} {passed : List Registers}
  {out : Option Instruction × Registers}

/-! ## The slide -/

/-- The parity of direction and chooser. -/
abbrev parity (ρ : Registers) : Int := (⟨ρ, false⟩ : Cursor).twist

theorem parity_turned (ρ : Registers) : parity ρ.turned = parity ρ := by
  have hd := ρ.dp.quarter_turn_cw_one
  have ht := ρ.cc.index_flip
  simp only [parity, Cursor.twist, Registers.turned, Bool.false_eq_true, if_false]
  omega

theorem parity_flip (ρ : Registers) : parity ρ.flip ≠ parity ρ := by
  have ht := ρ.cc.index_flip
  simp only [parity, Cursor.twist, Registers.flip, Bool.false_eq_true, if_false]
  omega

/-- Outside the blocks, the search remembers what the slide has passed and, of the other parity,
only what stands behind it by a flip. -/
structure Shadows (p : Program) (π : Int) (seen : Std.TreeSet Registers Registers.order)
    (passed : List Registers) : Prop where
  same : ∀ {ρ : Registers}, p.home ρ.pc = none → parity ρ = π → (ρ ∈ seen ↔ ρ ∈ passed)
  other : ∀ {ρ : Registers}, p.home ρ.pc = none → parity ρ ≠ π → ρ ∈ seen →
    ρ.flip ∈ seen

theorem Shadows.enter (h : p.Shadows (parity r) seen passed) :
    p.Shadows (parity r) (seen.insert r) (r :: passed) where
  same hhome hparity := by rw [TreeSet.mem_insert, List.mem_cons, h.same hhome hparity]
  other hhome hparity hmem := by
    rcases TreeSet.mem_insert.mp hmem with rfl | hmem
    · exact absurd rfl hparity
    · exact TreeSet.mem_insert.mpr (Or.inr (h.other hhome hparity hmem))

theorem Shadows.turn (h : p.Shadows (parity r) seen passed) :
    p.Shadows (parity r.turned) ((seen.insert r).insert r.flip)
      (r :: passed) := by
  rw [parity_turned]
  refine ⟨fun {ρ} hhome hparity => ?_, fun {ρ} hhome hparity hmem => ?_⟩
  · rw [TreeSet.mem_insert, h.enter.same hhome hparity]
    refine or_iff_right ?_
    rintro rfl
    exact parity_flip r hparity
  · rcases TreeSet.mem_insert.mp hmem with rfl | hmem
    · exact TreeSet.mem_insert.mpr (Or.inr (TreeSet.mem_insert.mpr (Or.inl r.flip_flip)))
    · exact TreeSet.mem_insert.mpr (Or.inr (h.enter.other hhome hparity hmem))

/-- Two iterations of the search make one turn of the slide. -/
theorem search_turn (hp : p.Consistent) (hhome : p.home r.pc = none) (hnew : r ∉ seen)
    (hflip : r.flip ∉ seen) (hahead : p.cell r.front = .black) :
    p.search (n + 2) seen ⟨r, false⟩
      = p.search n ((seen.insert r).insert r.flip) ⟨r.turned, false⟩ := by
  have hfirst : p.advance ⟨r, false⟩ = .moved ⟨r.flip, true⟩ := by
    have hsettled := settled_of_home_eq_none hhome
    rw [advance_of_black (by rw [hsettled]; exact hahead), hsettled]
    rfl
  have hsettled : p.settled r.flip = r.flip :=
    settled_of_home_eq_none hhome
  have hsecond : p.advance ⟨r.flip, true⟩ = .moved ⟨r.turned, false⟩ := by
    rw [advance_of_black (by rw [hsettled]; exact hahead), hsettled]
    rfl
  have hne : r.flip ≠ r := fun h => parity_flip r (congrArg parity h)
  rw [search_succ hp, settled_of_home_eq_none hhome, if_neg hnew, hfirst]
  simp only
  rw [search_succ hp, hsettled, if_neg fun h => ?_, hsecond]
  exact (TreeSet.mem_insert.mp h).elim hne hflip

/-- **The search slides outside the blocks.** -/
theorem slide_of_search (hp : p.Consistent) (n : Nat) :
    ∀ {r : Registers} {seen : Std.TreeSet Registers Registers.order} {passed : List Registers},
      p.home r.pc = none → p.Shadows (parity r) seen passed →
        p.search n seen ⟨r, false⟩ = .ok out → p.Slide passed r out := by
  induction n using Nat.strongRecOn with
  | ind n ih =>
    intro r seen passed hhome hshadows h
    obtain _ | n := n
    · cases h
    by_cases hmem : r ∈ seen
    · rw [search_succ hp, settled_of_home_eq_none hhome, if_pos hmem] at h
      rw [← Except.ok.inj h]
      exact .stuck ((hshadows.same hhome rfl).mp hmem)
    have hnew : r ∉ passed := mt (hshadows.same hhome rfl).mpr hmem
    have hsettled : p.settled r = r := settled_of_home_eq_none hhome
    cases hahead : p.cell r.front with
    | block id =>
      rw [search_succ hp, hsettled, if_neg hmem,
        advance_of_block (by rw [hsettled]; exact hahead)] at h
      rw [← Except.ok.inj h, hsettled, hhome]
      exact .land hnew hahead
    | white =>
      rw [search_succ hp, hsettled, if_neg hmem,
        advance_of_white (by rw [hsettled]; exact hahead), hsettled] at h
      exact .enter hnew hahead
        (ih n (Nat.lt_succ_self n) (home_of_cell_eq_white hahead) hshadows.enter h)
    | black =>
      have hflip : r.flip ∉ seen := by
        intro hflip
        have hback := hshadows.other (ρ := r.flip) hhome (parity_flip r) hflip
        rw [r.flip_flip] at hback
        exact hmem hback
      obtain _ | n := n
      · rw [search_succ hp, hsettled, if_neg hmem,
          advance_of_black (by rw [hsettled]; exact hahead)] at h
        cases h
      rw [search_turn hp hhome hmem hflip hahead] at h
      exact .turn hnew hahead (ih n (by omega) hhome hshadows.turn h)

end Program

/-! ## The order of the attempts -/

namespace Registers

@[simp] theorem attempt_zero (r : Registers) : r.attempt 0 = r := by
  obtain ⟨q, d, t⟩ := r
  cases d <;> rfl

/-- After eight attempts it is the turn of the first again. -/
@[simp] theorem attempt_eight (r : Registers) : r.attempt 8 = r := by
  obtain ⟨q, d, t⟩ := r
  cases d <;> cases t <;> rfl

theorem attempt_succ_of_even (r : Registers) {k : Nat} (hk : k % 2 = 0) :
    r.attempt (k + 1) = (r.attempt k).flip := by
  have hdp : (k + 1) / 2 = k / 2 := by omega
  have hcc : (k + 1 + 1) / 2 = (k + 1) / 2 + 1 := by omega
  simp only [attempt, flip, hdp, hcc, Function.iterate_succ_apply']

theorem attempt_succ_of_odd (r : Registers) {k : Nat} (hk : k % 2 = 1) :
    r.attempt (k + 1) = { r.attempt k with dp := (r.attempt k).dp.turn .cw 1 } := by
  have hdp : (k + 1) / 2 = k / 2 + 1 := by omega
  have hcc : (k + 1 + 1) / 2 = (k + 1) / 2 := by omega
  simp only [attempt, hcc, Direction.turn_cw_turn_cw]
  rw [hdp, Int.natCast_add, Int.natCast_one]

/-- The eight attempts differ. -/
theorem attempt_injective (r : Registers) : ∀ j < 8, ∀ k < 8,
    (r.attempt j).dp = (r.attempt k).dp → (r.attempt j).cc = (r.attempt k).cc → j = k := by
  obtain ⟨q, d, t⟩ := r
  simp only [attempt]
  cases d <;> cases t <;> decide

end Registers

namespace Program

variable {p : Program} {r : Registers} {b : Block} {c : Cursor} {k n : Nat} {t : Coord}
  {out : Option Instruction × Registers}

/-- In one block, direction and chooser decide the exit. -/
theorem settled_congr (hp : p.Consistent) {s : Registers} (hr : p.home r.pc = some b)
    (hs : p.home s.pc = some b) (hdp : s.dp = r.dp) (hcc : s.cc = r.cc) :
    p.settled s = p.settled r := by
  obtain ⟨e, he, -⟩ := exists_exit hp hr r.dp r.cc
  rw [settled_of_exit hr he, settled_of_exit hs (by rw [hdp, hcc]; exact he)]
  simp only [hdp, hcc]

theorem looksAt_iff (hp : p.Consistent) (hb : p.home r.pc = some b) :
    LooksAt b r k t ↔ t = (p.settled (r.attempt k)).front := by
  obtain ⟨e, he, -⟩ := exists_exit hp hb (r.attempt k).dp (r.attempt k).cc
  rw [settled_of_exit (r := r.attempt k) hb he]
  constructor
  · rintro ⟨e', he', rfl⟩
    rw [he] at he'
    rw [Except.ok.inj he']
    rfl
  · exact fun ht => ⟨e, he, ht⟩

/-- The search stands before the attempt `k`. -/
structure AtAttempt (p : Program) (b : Block) (r : Registers) (k : Nat) (c : Cursor) : Prop where
  home : p.home c.regs.pc = some b
  dp : c.regs.dp = (r.attempt k).dp
  cc : c.regs.cc = (r.attempt k).cc
  flipped : c.flipped = decide (k % 2 = 1)

theorem AtAttempt.settled_eq (h : p.AtAttempt b r k c) (hp : p.Consistent)
    (hb : p.home r.pc = some b) : p.settled c.regs = p.settled (r.attempt k) :=
  settled_congr hp (r := r.attempt k) hb h.home h.dp h.cc

/-- A wall leads from one attempt to the next. -/
theorem AtAttempt.bounce (h : p.AtAttempt b r k c) (hp : p.Consistent) :
    p.AtAttempt b r (k + 1) (Cursor.bounce ⟨p.settled c.regs, c.flipped⟩) := by
  have hhome : p.home (p.settled c.regs).pc = some b := (home_settled hp).trans h.home
  rcases Nat.mod_two_eq_zero_or_one k with hk | hk
  · have hclear : c.flipped = false := by rw [h.flipped, hk]; rfl
    have hodd : (k + 1) % 2 = 1 := by omega
    have hnext := r.attempt_succ_of_even hk
    rw [Cursor.bounce, hclear]
    refine ⟨hhome, ?_, ?_, by rw [hodd]; rfl⟩
    · rw [hnext]
      exact dp_settled.trans h.dp
    · rw [hnext]
      exact congrArg Turn.flip (cc_settled.trans h.cc)
  · have hset : c.flipped = true := by rw [h.flipped, hk]; rfl
    have heven : (k + 1) % 2 = 0 := by omega
    have hnext := r.attempt_succ_of_odd hk
    rw [Cursor.bounce, hset]
    refine ⟨hhome, ?_, ?_, by rw [heven]; rfl⟩
    · rw [hnext]
      exact congrArg (fun d => Direction.turn d .cw 1) (dp_settled.trans h.dp)
    · rw [hnext]
      exact cc_settled.trans h.cc

/-- The registers of the attempts before the eighth are new to the search. -/
theorem settled_attempt_ne (hk : k < 8) {j : Nat} (hj : j < k) :
    p.settled (r.attempt k) ≠ p.settled (r.attempt j) := by
  intro heq
  obtain ⟨hdp, hcc⟩ := dp_cc_eq_of_settled_eq heq
  have := r.attempt_injective k hk j (by omega) hdp hcc
  omega

/-- **While walls are met, the search goes through the attempts in order.** -/
theorem search_attempts (hp : p.Consistent) (hb : p.home r.pc = some b) : ∀ (k : Nat), k ≤ 8 →
    (∀ j < k, p.cell (p.settled (r.attempt j)).front = .black) → ∀ (n : Nat),
      ∃ seen c, p.search (n + k) ∅ ⟨r, false⟩ = p.search n seen c ∧ p.AtAttempt b r k c ∧
        ∀ ρ, ρ ∈ seen ↔ ∃ j < k, ρ = p.settled (r.attempt j)
  | 0, _, _, n => by
    refine ⟨∅, ⟨r, false⟩, rfl, ⟨hb, ?_, ?_, rfl⟩, by simp⟩
    · rw [r.attempt_zero]
    · rw [r.attempt_zero]
  | k + 1, hk, hwalls, n => by
    obtain ⟨seen, c, hsearch, hat, hseen⟩ := search_attempts hp hb k (by omega)
      (fun j hj => hwalls j (by omega)) (n + 1)
    have hsettled := hat.settled_eq hp hb
    have hnew : p.settled c.regs ∉ seen := by
      rw [hsettled, hseen]
      rintro ⟨j, hj, heq⟩
      exact settled_attempt_ne (by omega) hj heq
    have hahead : p.cell (p.settled c.regs).front = .black := by
      rw [hsettled]
      exact hwalls k (Nat.lt_succ_self k)
    refine ⟨seen.insert (p.settled c.regs), _, ?_, hat.bounce hp, fun ρ => ?_⟩
    · rw [← Nat.succ_add_eq_add_succ n k, hsearch, search_succ hp, if_neg hnew,
        advance_of_black hahead]
    · rw [TreeSet.mem_insert, hseen, hsettled]
      constructor
      · rintro (rfl | ⟨j, hj, rfl⟩)
        · exact ⟨k, Nat.lt_succ_self k, rfl⟩
        · exact ⟨j, Nat.lt_succ_of_lt hj, rfl⟩
      · rintro ⟨j, hj, rfl⟩
        rcases Nat.lt_succ_iff_lt_or_eq.mp hj with hj | rfl
        · exact Or.inr ⟨j, hj, rfl⟩
        · exact Or.inl rfl

/-! ## The search keeps the rules -/

/-- Registers seen inside a block do not concern the slide. -/
theorem shadows_nil {π : Int} {seen : Std.TreeSet Registers Registers.order}
    (h : ∀ ρ ∈ seen, p.home ρ.pc ≠ none) : p.Shadows π seen [] where
  same hhome _ := iff_of_false (fun hmem => h _ hmem hhome) List.not_mem_nil
  other hhome _ hmem := absurd hhome (h _ hmem)

theorem looksAt_settled (hp : p.Consistent) (hb : p.home r.pc = some b)
    (h : p.cell (p.settled (r.attempt k)).front = .black) :
    ∃ s, LooksAt b r k s ∧ p.cell s = .black :=
  ⟨_, (looksAt_iff hp hb).mpr rfl, h⟩

/-- From a block whose attempts all fail the search is stuck, at the exit of the first. -/
theorem search_of_shut (hp : p.Consistent) (hb : p.home r.pc = some b)
    (hwalls : ∀ k < 8, p.cell (p.settled (r.attempt k)).front = .black) :
    p.search (n + 9) ∅ ⟨r, false⟩ = .ok (none, p.settled r) := by
  obtain ⟨seen, c, hsearch, hat, hseen⟩ := search_attempts hp hb 8 (Nat.le_refl 8) hwalls (n + 1)
  have hsettled : p.settled c.regs = p.settled r := by rw [hat.settled_eq hp hb, r.attempt_eight]
  have hmem : p.settled c.regs ∈ seen :=
    (hseen _).mpr ⟨0, by omega, by rw [hsettled, r.attempt_zero]⟩
  rw [show n + 9 = n + 1 + 8 from rfl, hsearch, search_succ hp, if_pos hmem, hsettled]

/-- The first attempt that meets no wall decides what the search does. -/
theorem search_of_open (hp : p.Consistent) (hb : p.home r.pc = some b) (hk : k < 8)
    (hwalls : ∀ j < k, p.cell (p.settled (r.attempt j)).front = .black)
    (hopen : p.cell (p.settled (r.attempt k)).front ≠ .black) :
    ∃ seen, (∀ ρ ∈ seen, p.home ρ.pc ≠ none) ∧
      p.search (n + 1 + k) ∅ ⟨r, false⟩ =
        match p.cell (p.settled (r.attempt k)).front with
        | .block id => .ok (some (p.crossing (some b) id), (p.settled (r.attempt k)).forward)
        | .white | .black => p.search n seen ⟨(p.settled (r.attempt k)).forward, false⟩ := by
  obtain ⟨seen, c, hsearch, hat, hseen⟩ := search_attempts hp hb k (by omega) hwalls (n + 1)
  have hsettled := hat.settled_eq hp hb
  have hhome : ∀ j, p.home (p.settled (r.attempt j)).pc = some b := fun j =>
    (home_settled hp).trans hb
  have hnew : p.settled c.regs ∉ seen := by
    rw [hsettled, hseen]
    rintro ⟨j, hj, heq⟩
    exact settled_attempt_ne hk hj heq
  refine ⟨seen.insert (p.settled c.regs), fun ρ hρ => ?_, ?_⟩
  · rcases TreeSet.mem_insert.mp hρ with rfl | hρ
    · rw [hsettled, hhome]
      simp
    · obtain ⟨j, -, rfl⟩ := (hseen ρ).mp hρ
      rw [hhome]
      simp
  · rw [hsearch, search_succ hp, if_neg hnew]
    cases hahead : p.cell (p.settled (r.attempt k)).front with
    | black => exact absurd hahead hopen
    | white =>
      rw [advance_of_white (by rw [hsettled]; exact hahead)]
      simp only [hsettled]
      rfl
    | block id =>
      rw [advance_of_block (by rw [hsettled]; exact hahead)]
      simp only [hsettled, hhome]
      rfl

theorem nine_le_searchBound (p : Program) : 9 ≤ p.searchBound := by
  rw [searchBound]
  omega

/-- If not all attempts meet a wall, there is a first that does not. -/
theorem exists_first_open (h : ¬ ∀ k < 8, p.cell (p.settled (r.attempt k)).front = .black) :
    ∃ k < 8, p.cell (p.settled (r.attempt k)).front ≠ .black ∧
      ∀ j < k, p.cell (p.settled (r.attempt j)).front = .black := by
  have hex : ∃ k, k < 8 ∧ p.cell (p.settled (r.attempt k)).front ≠ .black := by
    simpa only [not_forall, exists_prop] using h
  obtain ⟨hlt, hopen⟩ := Nat.find_spec hex
  refine ⟨Nat.find hex, hlt, hopen, fun j hj => ?_⟩
  by_contra hblack
  exact Nat.find_min hex hj ⟨Nat.lt_trans hj hlt, hblack⟩

theorem forward_settled (p : Program) (s : Registers) :
    (p.settled s).forward = { s with pc := (p.settled s).front } := by
  simp only [Registers.forward, dp_settled, cc_settled]

/-- **What a search finds, the rules give.** -/
theorem seeks_of_next (hp : p.Consistent) (h : p.next r = .ok out) : p.Seeks r out := by
  cases hb : p.home r.pc with
  | none =>
    refine .slide (by rw [blockAt_eq hp, hb]) (slide_of_search hp _ hb (shadows_nil ?_) h)
    simp
  | some b =>
    have hbound := nine_le_searchBound p
    have hat : p.blockAt r.pc = .ok (some b) := by rw [blockAt_eq hp, hb]
    by_cases hall : ∀ k < 8, p.cell (p.settled (r.attempt k)).front = .black
    · obtain ⟨e, he, -⟩ := exists_exit hp hb r.dp r.cc
      obtain ⟨n, hn⟩ : ∃ n, p.searchBound = n + 9 := ⟨p.searchBound - 9, by omega⟩
      rw [next, hn, search_of_shut hp hb hall, settled_of_exit hb he] at h
      rw [← Except.ok.inj h]
      exact .shut hat (fun k hk => looksAt_settled hp hb (hall k hk)) he
    · obtain ⟨k, hk, hopen, hwalls⟩ := exists_first_open hall
      obtain ⟨n, hn⟩ : ∃ n, p.searchBound = n + 1 + k := ⟨p.searchBound - 1 - k, by omega⟩
      obtain ⟨seen, hseen, hsearch⟩ := search_of_open (n := n) hp hb hk hwalls hopen
      have hleaves : p.Leaves b r k (p.settled (r.attempt k)).front :=
        ⟨hk, fun j hj => looksAt_settled hp hb (hwalls j hj), (looksAt_iff hp hb).mpr rfl, hopen⟩
      rw [next, hn, hsearch] at h
      rw [forward_settled] at h
      cases hahead : p.cell (p.settled (r.attempt k)).front with
      | black => exact absurd hahead hopen
      | white =>
        rw [hahead] at h
        exact .leave hat hleaves hahead
          (slide_of_search hp n (home_of_cell_eq_white hahead) (shadows_nil hseen) h)
      | block id =>
        rw [hahead] at h
        obtain ⟨b', hb'⟩ := hp.known hahead
        have hcross : p.crossing (some b) id = ⟨b.color.opcodeTo b'.color, b.area⟩ := by
          simp only [crossing, hb']
        rw [← Except.ok.inj h, hcross]
        exact .cross hat hleaves hahead (by rw [block, hb'])

/-! ## The rules decide -/

theorem Slide.unique {passed : List Registers} {out' : Option Instruction × Registers}
    (h : p.Slide passed r out) (h' : p.Slide passed r out') : out = out' := by
  induction h generalizing out' with
  | stuck hmem =>
    cases h' with
    | stuck _ => rfl
    | land hnew _ => exact absurd hmem hnew
    | enter hnew _ _ => exact absurd hmem hnew
    | turn hnew _ _ => exact absurd hmem hnew
  | land hnew hahead =>
    cases h' with
    | stuck hmem => exact absurd hmem hnew
    | land _ _ => rfl
    | enter _ hahead' _ => rw [hahead] at hahead'; cases hahead'
    | turn _ hahead' _ => rw [hahead] at hahead'; cases hahead'
  | enter hnew hahead _ ih =>
    cases h' with
    | stuck hmem => exact absurd hmem hnew
    | land _ hahead' => rw [hahead] at hahead'; cases hahead'
    | enter _ _ hrest => exact ih hrest
    | turn _ hahead' _ => rw [hahead] at hahead'; cases hahead'
  | turn hnew hahead _ ih =>
    cases h' with
    | stuck hmem => exact absurd hmem hnew
    | land _ hahead' => rw [hahead] at hahead'; cases hahead'
    | enter _ hahead' _ => rw [hahead] at hahead'; cases hahead'
    | turn _ _ hrest => exact ih hrest

theorem LooksAt.unique {s : Coord} (hs : LooksAt b r k s) (ht : LooksAt b r k t) : s = t := by
  obtain ⟨e, he, rfl⟩ := hs
  obtain ⟨e', he', rfl⟩ := ht
  rw [he] at he'
  rw [Except.ok.inj he']

/-- An attempt that meets no wall is not among those that do. -/
theorem Leaves.not_wall (h : p.Leaves b r k t)
    (hwall : ∃ s, LooksAt b r k s ∧ p.cell s = .black) : False := by
  obtain ⟨s, hs, hblack⟩ := hwall
  rw [hs.unique h.looksAt] at hblack
  exact h.ahead hblack

theorem Leaves.unique {k' : Nat} {t' : Coord} (h : p.Leaves b r k t) (h' : p.Leaves b r k' t') :
    k = k' ∧ t = t' := by
  obtain rfl : k = k' := by
    rcases Nat.lt_trichotomy k k' with hlt | heq | hlt
    · exact absurd (h'.walls k hlt) h.not_wall
    · exact heq
    · exact absurd (h.walls k' hlt) h'.not_wall
  exact ⟨rfl, h.looksAt.unique h'.looksAt⟩

theorem Seeks.unique {out' : Option Instruction × Registers} (h : p.Seeks r out)
    (h' : p.Seeks r out') : out = out' := by
  have hsame : ∀ {b b' : Block}, p.blockAt r.pc = .ok (some b) →
      p.blockAt r.pc = .ok (some b') → b = b' := fun hb hb' =>
    Option.some.inj (Except.ok.inj (hb.symm.trans hb'))
  cases h with
  | shut hb hwalls he =>
    cases h' with
    | shut hb' _ he' =>
      obtain rfl := hsame hb hb'
      rw [he] at he'
      rw [Except.ok.inj he']
    | cross hb' hk _ _ =>
      obtain rfl := hsame hb hb'
      exact absurd (hwalls _ hk.lt) hk.not_wall
    | leave hb' hk _ _ =>
      obtain rfl := hsame hb hb'
      exact absurd (hwalls _ hk.lt) hk.not_wall
    | slide hb' _ => rw [hb] at hb'; cases hb'
  | cross hb hk ht hid =>
    cases h' with
    | shut hb' hwalls _ =>
      obtain rfl := hsame hb hb'
      exact absurd (hwalls _ hk.lt) hk.not_wall
    | cross hb' hk' ht' hid' =>
      obtain rfl := hsame hb hb'
      obtain ⟨rfl, rfl⟩ := hk.unique hk'
      obtain rfl := Cell.block.inj (ht.symm.trans ht')
      obtain rfl := Except.ok.inj (hid.symm.trans hid')
      rfl
    | leave hb' hk' ht' _ =>
      obtain rfl := hsame hb hb'
      obtain ⟨rfl, rfl⟩ := hk.unique hk'
      rw [ht] at ht'
      cases ht'
    | slide hb' _ => rw [hb] at hb'; cases hb'
  | leave hb hk ht hslide =>
    cases h' with
    | shut hb' hwalls _ =>
      obtain rfl := hsame hb hb'
      exact absurd (hwalls _ hk.lt) hk.not_wall
    | cross hb' hk' ht' _ =>
      obtain rfl := hsame hb hb'
      obtain ⟨rfl, rfl⟩ := hk.unique hk'
      rw [ht] at ht'
      cases ht'
    | leave hb' hk' _ hslide' =>
      obtain rfl := hsame hb hb'
      obtain ⟨rfl, rfl⟩ := hk.unique hk'
      exact hslide.unique hslide'
    | slide hb' _ => rw [hb] at hb'; cases hb'
  | slide hb hslide =>
    cases h' with
    | shut hb' _ _ => rw [hb] at hb'; cases hb'
    | cross hb' _ _ _ => rw [hb] at hb'; cases hb'
    | leave hb' _ _ _ => rw [hb] at hb'; cases hb'
    | slide _ hslide' => exact hslide.unique hslide'

/-- **A search gives what its rules give**: from any registers the rules have an outcome, and it is
the one that the search finds. -/
theorem next_eq_ok_iff_seeks (raw : Grid Codel) (r : Registers) :
    (∃ out, (segment raw).Seeks r out) ∧
      ∀ out, (segment raw).next r = .ok out ↔ (segment raw).Seeks r out := by
  have hp := consistent_segment raw
  obtain ⟨found, hfound⟩ := exists_next hp r
  have hseeks := seeks_of_next hp hfound
  refine ⟨⟨found, hseeks⟩, fun out => ⟨seeks_of_next hp, fun hout => ?_⟩⟩
  rw [hfound, hseeks.unique hout]

end Program

end PietLang
