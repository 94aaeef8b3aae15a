import PietLang.Machine.Run
import PietLang.Proofs.MovedPicture

/-!
# Proofs/MovedRun — a run goes with its picture

A symmetry carries a run of one picture to the run of the other, round by round.  The search is the
part that has to be told: its iterations go to iterations (`Mirrors.advance`), and it remembers the
moved registers, so both searches stop at the same repetition (`Mirrors.search`).  The two pictures
may differ in size, and the searches in their bounds; they are compared by their answers.

The instructions see of the registers only the direction and the chooser, and change them in a way
that commutes with a turn (`State.execute_mapRegs`).
-/

namespace PietLang

/-- The state with other registers. -/
def State.mapRegs (f : Registers → Registers) (s : State) : State := { s with regs := f s.regs }

/-- The round with other registers in all its states. -/
def Round.mapRegs (f : Registers → Registers) : Round → Round
  | .stuck s => .stuck (s.mapRegs f)
  | .done i landed after => .done i (landed.mapRegs f) (after.mapRegs f)
  | .failed i landed after why => .failed i (landed.mapRegs f) (after.mapRegs f) why
  | .broken why => .broken why

/-- The run with other registers in all its states, and the same instructions and end. -/
def Run.mapRegs (f : Registers → Registers) (r : Run) : Run :=
  ⟨r.trace.map (Prod.map id (State.mapRegs f)), r.final.mapRegs f, r.ending⟩

/-! ## Instructions -/

namespace State

variable (σ : Symmetry) (s : State)

theorem pushRead_mapRegs {α : Type} (value : α → Int) (r : Except Input.Error α × Input) :
    (s.mapRegs σ.registers).pushRead value r
      = Prod.map (mapRegs σ.registers) id (s.pushRead value r) := by
  obtain ⟨read, i⟩ := r
  cases read <;> rfl

theorem writeNumber_mapRegs (v : Int) :
    (s.mapRegs σ.registers).writeNumber v
      = Prod.map (mapRegs σ.registers) id (s.writeNumber v) := by
  rw [writeNumber, writeNumber]
  split <;> rfl

theorem writeChar_mapRegs (v : Int) :
    (s.mapRegs σ.registers).writeChar v = Prod.map (mapRegs σ.registers) id (s.writeChar v) := by
  rw [writeChar, writeChar]
  split <;> rfl

theorem unary_mapRegs (op : Opcode) (v : Int) :
    (s.mapRegs σ.registers).unary op v = Prod.map (mapRegs σ.registers) id (s.unary op v) := by
  cases op with
  | pointer =>
    -- the direction is turned by the motion and by the instruction, in either order
    simp only [unary, mapRegs, Symmetry.registers, Prod.map, id, Registers.point_eq,
      Direction.turn_turn_cw s.regs.dp .cw σ.quarters v]
  | switch =>
    simp only [unary, mapRegs, Symmetry.registers, Prod.map, id, Registers.switch_eq]
  | outNumber => exact s.writeNumber_mapRegs σ v
  | outChar => exact s.writeChar_mapRegs σ v
  | _ => rfl

theorem binary_mapRegs (op : Opcode) (x y : Int) :
    (s.mapRegs σ.registers).binary op x y
      = Prod.map (mapRegs σ.registers) id (s.binary op x y) := by
  cases op with
  | divide | mod =>
    simp only [binary]
    split <;> rfl
  | _ => rfl

/-- **An instruction does the same after the motion.** -/
theorem execute_mapRegs (i : Instruction) :
    (s.mapRegs σ.registers).execute i = Prod.map (mapRegs σ.registers) id (s.execute i) := by
  have hstack : (s.mapRegs σ.registers).stack = s.stack := rfl
  rw [execute, execute, hstack]
  split
  · rfl
  · exact s.pushRead_mapRegs σ _ _
  · exact s.pushRead_mapRegs σ _ _
  · next v rest _ _ _ _ _ => exact unary_mapRegs σ { s with stack := rest } i.opcode v
  · next x y rest _ _ _ _ _ => exact binary_mapRegs σ { s with stack := rest } i.opcode x y
  · rfl

end State

/-! ## The search -/

namespace Symmetry

open Program

variable {σ : Symmetry} {p p' : Program} {raw raw' : Grid Codel} {q : Coord} {k : Nat} {c : Cursor}

/-- What a search sees on `p'` after the motion is what it sees on `p`. -/
structure Mirrors (σ : Symmetry) (p p' : Program) : Prop where
  consistent : p.Consistent
  consistent' : p'.Consistent
  white : ∀ {q : Coord}, p.cell q = .white → p'.cell (σ.place q) = .white
  black : ∀ {q : Coord}, p.cell q = .black → p'.cell (σ.place q) = .black
  home : ∀ q : Coord, p'.home (σ.place q) = (p.home q).map σ.block
  area : ∀ {q : Coord} {b : Block}, p.home q = some b → (σ.block b).area = b.area

theorem Carries.mirrors (h : σ.Carries raw raw') : σ.Mirrors (segment raw) (segment raw') where
  consistent := consistent_segment raw
  consistent' := consistent_segment raw'
  white := h.cell_eq_white
  black := h.cell_eq_black
  home := h.home_place
  area hb := σ.area_block (pairwise_codels_of_home hb).nodup

/-- A block goes to a block, perhaps of another number. -/
theorem Mirrors.block (h : σ.Mirrors p p') (hq : p.cell q = .block k) :
    ∃ k', p'.cell (σ.place q) = .block k' ∧ p'.blocks[k']? = (p.blocks[k]?).map σ.block := by
  obtain ⟨b, hb⟩ := h.consistent.known hq
  have hhome : p.home q = some b := by
    rw [Program.home, hq]
    exact hb
  have hhome' := h.home q
  rw [hhome] at hhome'
  obtain ⟨k', hb', hmem⟩ := (home_eq_some h.consistent').mp hhome'
  exact ⟨k', (h.consistent'.mem_codels hb').mp hmem, by rw [hb', hb, Option.map_some]⟩

theorem Mirrors.settled (h : σ.Mirrors p p') (r : Registers) :
    p'.settled (σ.registers r) = σ.registers (p.settled r) := by
  have hhome := h.home r.pc
  cases hb : p.home r.pc with
  | none =>
    rw [hb] at hhome
    rw [settled_of_home_eq_none hb, settled_of_home_eq_none hhome]
  | some b =>
    rw [hb] at hhome
    obtain ⟨e, he, -⟩ := exists_exit h.consistent hb r.dp r.cc
    rw [settled_of_exit hb he, settled_of_exit hhome (σ.exit_block he)]
    rfl

theorem Mirrors.crossing (h : σ.Mirrors p p') {k' : Nat}
    (hk : p'.blocks[k']? = (p.blocks[k]?).map σ.block) :
    p'.crossing (p'.home (σ.place q)) k' = p.crossing (p.home q) k := by
  rw [h.home q]
  cases ha : p.home q with
  | none => simp only [Option.map_none, Program.crossing]
  | some a =>
    cases hb : p.blocks[k]? with
    | none =>
      rw [hb, Option.map_none] at hk
      simp only [Option.map_some, Program.crossing, hk, hb]
    | some b =>
      rw [hb, Option.map_some] at hk
      simp only [Option.map_some, Program.crossing, hk, hb, color_block, σ.opcodeTo_tint,
        h.area ha]

/-- The outcome of a probe after the motion. -/
def probe (σ : Symmetry) : Probe → Probe
  | .landed i r => .landed i (σ.registers r)
  | .moved c => .moved (σ.cursor c)

/-- **An iteration goes to an iteration.** -/
theorem Mirrors.advance (h : σ.Mirrors p p') (c : Cursor) :
    p'.advance (σ.cursor c) = σ.probe (p.advance c) := by
  have hsettled : p'.settled (σ.cursor c).regs = σ.registers (p.settled c.regs) :=
    h.settled c.regs
  have hfront : (p'.settled (σ.cursor c).regs).front = σ.place (p.settled c.regs).front := by
    rw [hsettled, σ.front_registers]
  cases hahead : p.cell (p.settled c.regs).front with
  | white =>
    have hahead' := h.white hahead
    rw [← hfront] at hahead'
    rw [advance_of_white hahead, advance_of_white hahead', hfront, hsettled]
    rfl
  | black =>
    have hahead' := h.black hahead
    rw [← hfront] at hahead'
    rw [advance_of_black hahead, advance_of_black hahead', hsettled, probe, σ.cursor_bounce]
    rfl
  | block k =>
    obtain ⟨k', hahead', hk⟩ := h.block hahead
    rw [← hfront] at hahead'
    rw [advance_of_block hahead, advance_of_block hahead', hfront, hsettled, probe]
    exact congrArg₂ Probe.landed (h.crossing hk) rfl

/-- **A search goes to a search**: from the moved cursor, and with the moved registers seen, it ends
alike, whatever bounds the two have. -/
theorem Mirrors.search (h : σ.Mirrors p p') {n n' : Nat}
    {seen seen' : Std.TreeSet Registers Registers.order} {c : Cursor}
    {out out' : Option Instruction × Registers}
    (hseen : ∀ ρ, σ.registers ρ ∈ seen' ↔ ρ ∈ seen) (hout : p.search n seen c = .ok out)
    (hout' : p'.search n' seen' (σ.cursor c) = .ok out') : out' = (out.1, σ.registers out.2) := by
  -- neither bound is used up, since both searches have an answer
  induction n generalizing n' seen seen' c with
  | zero => cases hout
  | succ n ih =>
    obtain _ | n' := n'
    · cases hout'
    have hsettled : p'.settled (σ.cursor c).regs = σ.registers (p.settled c.regs) :=
      h.settled c.regs
    rw [search_succ h.consistent] at hout
    rw [search_succ h.consistent', hsettled, h.advance] at hout'
    by_cases hmem : p.settled c.regs ∈ seen
    · rw [if_pos hmem] at hout
      rw [if_pos ((hseen _).mpr hmem)] at hout'
      rw [← Except.ok.inj hout, ← Except.ok.inj hout']
    rw [if_neg hmem] at hout
    rw [if_neg (mt (hseen _).mp hmem)] at hout'
    cases hadvance : p.advance c with
    | landed i r =>
      rw [hadvance] at hout hout'
      rw [← Except.ok.inj hout, ← Except.ok.inj hout']
    | moved c₁ =>
      rw [hadvance] at hout hout'
      refine ih (fun ρ => ?_) hout hout'
      rw [TreeSet.mem_insert, TreeSet.mem_insert, σ.registers_inj, hseen]

theorem Mirrors.next (h : σ.Mirrors p p') (r : Registers) :
    p'.next (σ.registers r) = (p.next r).map (Prod.map id σ.registers) := by
  obtain ⟨out, hout⟩ := exists_next h.consistent r
  obtain ⟨out', hout'⟩ := exists_next h.consistent' (σ.registers r)
  rw [hout, hout', h.search (c := ⟨r, false⟩) (by simp) hout hout']
  rfl

/-! ## Rounds and runs -/

/-- **A round goes to a round**… -/
theorem Mirrors.round (h : σ.Mirrors p p') (s : State) :
    p'.round (s.mapRegs σ.registers) = (p.round s).mapRegs σ.registers := by
  obtain ⟨⟨found, r⟩, hout⟩ := exists_next h.consistent s.regs
  have hout' : p'.next (s.mapRegs σ.registers).regs = .ok (found, σ.registers r) := by
    rw [show (s.mapRegs σ.registers).regs = σ.registers s.regs from rfl, h.next, hout]
    rfl
  rw [Program.round, Program.round, hout, hout']
  cases found with
  | none => rfl
  | some i =>
    have hexecute := State.execute_mapRegs σ { s with regs := r } i
    rcases hafter : State.execute { s with regs := r } i with ⟨after, failure⟩
    rw [hafter] at hexecute
    simp only [hafter]
    rw [show ({ s.mapRegs σ.registers with regs := σ.registers r } : State)
      = State.mapRegs σ.registers { s with regs := r } from rfl, hexecute]
    cases failure <;> rfl

/-- …and a run to a run. -/
theorem Mirrors.run (h : σ.Mirrors p p') (n : Nat) (s : State) :
    p'.run n (s.mapRegs σ.registers) = (p.run n s).mapRegs σ.registers := by
  induction n generalizing s with
  | zero => rfl
  | succ n ih =>
    rw [Program.run, Program.run, h.round]
    cases p.round s with
    | stuck s' => rfl
    | done i landed after =>
      simp only [Round.mapRegs, ih]
      rfl
    | failed i landed after why => rfl
    | broken why => rfl

end Symmetry

end PietLang
