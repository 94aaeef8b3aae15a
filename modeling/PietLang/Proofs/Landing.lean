import PietLang.Machine.Run
import PietLang.Proofs.StuckSearch

/-!
# Proofs/Landing — a run on a cut picture never breaks, and every instruction is met on colour

A search that finds an instruction has stepped onto a coloured cell (`exists_cell_of_next_eq_some`).
Carrying the instruction out may turn the pointer or the chooser and may fail, but it never moves
the machine (`State.pc_execute`).  So the machine stands in a block after every search that found
something, and still does when the next search begins.

A search that finds nothing gives no such promise: it stops where its registers repeat, and that may
be in free space.
-/

namespace PietLang

/-! ## Instructions stay in place -/

namespace State

variable (s : State)

theorem regs_pushRead {α : Type} (value : α → Int) (r : Except Input.Error α × Input) :
    (s.pushRead value r).1.regs = s.regs := by
  obtain ⟨read, i⟩ := r
  cases read <;> rfl

theorem regs_writeNumber (v : Int) : (s.writeNumber v).1.regs = s.regs := by
  rw [writeNumber]
  split <;> rfl

theorem regs_writeChar (v : Int) : (s.writeChar v).1.regs = s.regs := by
  rw [writeChar]
  split <;> rfl

theorem pc_unary (op : Opcode) (v : Int) : (s.unary op v).1.regs.pc = s.regs.pc := by
  cases op with
  | switch => rw [unary, Registers.switch_eq]
  | outNumber => exact congrArg Registers.pc (s.regs_writeNumber v)
  | outChar => exact congrArg Registers.pc (s.regs_writeChar v)
  | _ => rfl

theorem regs_binary (op : Opcode) (x y : Int) : (s.binary op x y).1.regs = s.regs := by
  cases op with
  | divide | mod =>
    simp only [binary]
    split <;> rfl
  | _ => rfl

/-- **An instruction does not move the machine**, whether it fails or not. -/
theorem pc_execute (i : Instruction) : (s.execute i).1.regs.pc = s.regs.pc := by
  unfold execute
  split
  · rfl
  · rw [regs_pushRead]
  · rw [regs_pushRead]
  · rw [pc_unary]
  · rw [regs_binary]
  · rfl

end State

namespace Program

variable {p : Program} {q : Coord} {r : Registers} {s t : State} {i : Instruction} {id : Nat}

/-! ## Where a search lands -/

theorem exists_cell_of_advance_eq_landed {c : Cursor} (h : p.advance c = .landed i r) :
    ∃ id, p.cell r.pc = .block id := by
  obtain ⟨id, hahead, -, rfl⟩ := advance_eq_landed h
  exact ⟨id, hahead⟩

/-- **A search that finds an instruction stands on a coloured cell.** -/
theorem exists_cell_of_next_eq_some (hp : p.Consistent) {ρ : Registers}
    (h : p.next r = .ok (some i, ρ)) : ∃ id, p.cell ρ.pc = .block id := by
  obtain ⟨k, c, -, hland⟩ := (next_eq_some_iff hp).mp h
  exact exists_cell_of_advance_eq_landed hland

/-- …which is a coloured codel of the picture. -/
theorem exists_color_of_cell_eq_block {raw : Grid Codel} (h : (segment raw).cell q = .block id) :
    q ∈ raw.size ∧ ∃ c, raw.get? q = some (.color c) := by
  rw [cell_eq_iff (by simp)] at h
  obtain ⟨c, hc⟩ := (scanned_segment raw).block_iff_raw.mp ⟨id, h⟩
  exact ⟨Grid.mem_size_of_get? hc, c, hc⟩

theorem exists_blockAt_of_cell_eq_block (hp : p.Consistent) (h : p.cell q = .block id) :
    ∃ b, p.blockAt q = .ok (some b) := by
  obtain ⟨b, hb⟩ := hp.known h
  refine ⟨b, ?_⟩
  rw [blockAt_eq hp, home, h]
  exact congrArg Except.ok hb

/-! ## Rounds and runs -/

/-- **What a round can do**: its search finds nothing, or it lands on colour and the instruction is
carried out or fails. -/
theorem round_cases (hp : p.Consistent) (s : State) :
    (∃ s', p.round s = .stuck s') ∨
      ∃ i landed, (∃ id, p.cell landed.regs.pc = .block id) ∧
        (p.round s = .done i landed (landed.execute i).1 ∨
          ∃ why, p.round s = .failed i landed (landed.execute i).1 why) := by
  obtain ⟨⟨found, r⟩, hnext⟩ := exists_next hp s.regs
  rw [round, hnext]
  cases found with
  | none => exact Or.inl ⟨_, rfl⟩
  | some i =>
    refine Or.inr ⟨i, { s with regs := r }, exists_cell_of_next_eq_some hp hnext, ?_⟩
    rcases hexecute : State.execute { s with regs := r } i with ⟨after, failure⟩
    cases failure with
    | none => exact Or.inl (by simp only [hexecute])
    | some why => exact Or.inr ⟨why, by simp only [hexecute]⟩

/-- The states of at most `n` rounds, each with what the search of its round found: the state after
every search, and the state after every instruction, whether it failed or not. -/
def history (p : Program) : Nat → State → List (Option Instruction × State)
  | 0, _ => []
  | n + 1, s =>
    match p.round s with
    | .stuck s' => [(none, s')]
    | .done i landed after => (some i, landed) :: (some i, after) :: history p n after
    | .failed i landed after _ => [(some i, landed), (some i, after)]
    | .broken _ => []

/-- **Where an instruction was found, the machine stands in a block**: after the search, and after
the instruction. -/
theorem exists_blockAt_of_mem_history (hp : p.Consistent) : ∀ (n : Nat) {s : State},
    (some i, t) ∈ p.history n s → ∃ b, p.blockAt t.regs.pc = .ok (some b)
  | 0, s, h => by cases h
  | n + 1, s, h => by
    rw [history] at h
    obtain ⟨s', hround⟩ | ⟨j, landed, ⟨id, hcell⟩, hround⟩ := round_cases hp s
    · rw [hround] at h
      simp at h
    have hlanded : ∃ b, p.blockAt landed.regs.pc = .ok (some b) :=
      exists_blockAt_of_cell_eq_block hp hcell
    have hafter : ∃ b, p.blockAt (landed.execute j).1.regs.pc = .ok (some b) := by
      rw [State.pc_execute]
      exact hlanded
    obtain hround | ⟨why, hround⟩ := hround
    · rw [hround, List.mem_cons, List.mem_cons] at h
      rcases h with h | h | h
      · exact (Prod.mk.inj h).2 ▸ hlanded
      · exact (Prod.mk.inj h).2 ▸ hafter
      · exact exists_blockAt_of_mem_history hp n h
    · rw [hround, List.mem_pair] at h
      rcases h with h | h
      · exact (Prod.mk.inj h).2 ▸ hlanded
      · exact (Prod.mk.inj h).2 ▸ hafter

/-- A run on a consistent program does not break. -/
theorem ending_run_ne_broken (hp : p.Consistent) (why : Fault) : ∀ (n : Nat) (s : State),
    (p.run n s).ending ≠ .broken why
  | 0, s => by simp [run]
  | n + 1, s => by
    rw [run]
    obtain ⟨s', hround⟩ | ⟨i, landed, -, hround | ⟨why', hround⟩⟩ := round_cases hp s
    · rw [hround]
      simp
    · rw [hround]
      exact ending_run_ne_broken hp why n _
    · rw [hround]
      simp

/-- A search that found nothing is the end of its run. -/
theorem eq_final_of_mem_history (hp : p.Consistent) : ∀ (n : Nat) {s : State},
    (none, t) ∈ p.history n s → (p.run n s).ending = .halted ∧ t = (p.run n s).final
  | 0, s, h => by cases h
  | n + 1, s, h => by
    rw [history] at h
    rw [run]
    obtain ⟨s', hround⟩ | ⟨i, landed, -, hround | ⟨why, hround⟩⟩ := round_cases hp s
    · rw [hround, List.mem_singleton] at h
      rw [hround]
      exact ⟨rfl, (Prod.mk.inj h).2⟩
    · rw [hround] at h ⊢
      refine eq_final_of_mem_history hp n ?_
      simpa using h
    · rw [hround] at h
      simp at h

/-- **Searches do not fail, and land on colour.**  No run breaks; wherever an instruction was found,
the machine stands in a block, also after the instruction; only the search that ends a run may leave
it elsewhere. -/
theorem lands_on_color (raw : Grid Codel) :
    (∀ r, ∃ out, (segment raw).next r = .ok out) ∧
    (∀ r i ρ, (segment raw).next r = .ok (some i, ρ) →
      ρ.pc ∈ raw.size ∧ ∃ c, raw.get? ρ.pc = some (.color c)) ∧
    ∀ n s,
      (∀ why, ((segment raw).run n s).ending ≠ .broken why) ∧
      (∀ i t, (some i, t) ∈ (segment raw).history n s →
        ∃ b, (segment raw).blockAt t.regs.pc = .ok (some b)) ∧
      ∀ t, (none, t) ∈ (segment raw).history n s →
        ((segment raw).run n s).ending = .halted ∧ t = ((segment raw).run n s).final := by
  have hp := consistent_segment raw
  refine ⟨exists_next hp, fun r i ρ hnext => ?_, fun n s => ⟨fun why => ?_, fun i t ht => ?_,
    fun t ht => ?_⟩⟩
  · obtain ⟨id, hcell⟩ := exists_cell_of_next_eq_some hp hnext
    exact exists_color_of_cell_eq_block hcell
  · exact ending_run_ne_broken hp why n s
  · exact exists_blockAt_of_mem_history hp n ht
  · exact eq_final_of_mem_history hp n ht

/-- Two coloured codels, and free space that leads a search round. -/
def trap : Grid Codel where
  size := ⟨4, 2⟩
  cells := #[.color ⟨.red, .normal⟩, .color ⟨.green, .normal⟩, .white, .white,
    .black, .black, .white, .white]
  size_cells := rfl

/-- …where a run ends outside every block, though it has carried out an instruction. -/
theorem stuck_in_trap : ∃ i landed after final,
    (segment trap).history 2 (State.initial ⟨[], 0, .closed⟩)
      = [(some i, landed), (some i, after), (none, final)] ∧
    (segment trap).blockAt final.regs.pc = .ok none := by
  let start := State.initial ⟨[], 0, .closed⟩
  let crossed : State := { start with regs := ⟨⟨1, 0⟩, .right, .ccw⟩ }
  refine ⟨⟨.divide, 1⟩, crossed, crossed, { start with regs := ⟨⟨2, 0⟩, .right, .ccw⟩ }, ?_, ?_⟩
  · decide +kernel
  · rfl

end Program

end PietLang
