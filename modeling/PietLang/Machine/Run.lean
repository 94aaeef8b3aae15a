import PietLang.Machine.Execute
import PietLang.Machine.Search

/-!
# Machine/Run — rounds of search and execution

A round looks for the next instruction and carries it out.  A run is a number of rounds, and ends
early when the program is stuck or an instruction fails.
-/

namespace PietLang

/-- The outcome of one round. -/
inductive Round where
  /-- No instruction can be reached. -/
  | stuck (s : State)
  /-- An instruction was found at `landed` and left `after`. -/
  | done (i : Instruction) (landed after : State)
  /-- An instruction was found at `landed`, and failed. -/
  | failed (i : Instruction) (landed after : State) (why : Failure)
  /-- The search itself failed. -/
  | broken (why : Program.Fault)
deriving DecidableEq, Repr

/-- How a run ended. -/
inductive Ending where
  /-- The program was stuck. -/
  | halted
  /-- All rounds were done. -/
  | limit
  | failed (i : Instruction) (why : Failure)
  | broken (why : Program.Fault)
deriving DecidableEq, Repr

/-- A run: the instructions carried out, each with the state it left, the state at the end, and how
the end came. -/
structure Run where
  trace : List (Instruction × State)
  final : State
  ending : Ending
deriving DecidableEq, Repr

namespace Program

/-- One round from a state. -/
def round (p : Program) (s : State) : Round :=
  match p.next s.regs with
  | .error e => .broken e
  | .ok (none, r) => .stuck { s with regs := r }
  | .ok (some i, r) =>
    let landed := { s with regs := r }
    match landed.execute i with
    | (after, none) => .done i landed after
    | (after, some why) => .failed i landed after why

variable {p : Program} {s t landed after : State} {i : Instruction} {why : Failure}

theorem round_eq_stuck_iff :
    p.round s = .stuck t ↔ ∃ r, p.next s.regs = .ok (none, r) ∧ t = { s with regs := r } := by
  rw [round]
  split
  · simp [*]
  · simp [*, eq_comm]
  · dsimp only
    split <;> simp [*]

theorem round_eq_done_iff :
    p.round s = .done i landed after ↔ ∃ r, p.next s.regs = .ok (some i, r) ∧
      landed = { s with regs := r } ∧ landed.execute i = (after, none) := by
  rw [round]
  split
  · simp [*]
  · simp [*]
  · dsimp only
    split <;> grind

theorem round_eq_failed_iff :
    p.round s = .failed i landed after why ↔ ∃ r, p.next s.regs = .ok (some i, r) ∧
      landed = { s with regs := r } ∧ landed.execute i = (after, some why) := by
  rw [round]
  split
  · simp [*]
  · simp [*]
  · dsimp only
    split <;> grind

/-- At most `n` rounds from a state. -/
def run (p : Program) : Nat → State → Run
  | 0, s => ⟨[], s, .limit⟩
  | n + 1, s =>
    match p.round s with
    | .stuck s' => ⟨[], s', .halted⟩
    | .done i _ s' =>
      let r := run p n s'
      ⟨(i, s') :: r.trace, r.final, r.ending⟩
    | .failed i _ s' why => ⟨[], s', .failed i why⟩
    | .broken why => ⟨[], s, .broken why⟩

theorem run_of_stuck (n : Nat) (h : p.round s = .stuck t) : p.run (n + 1) s = ⟨[], t, .halted⟩ := by
  rw [run, h]

theorem run_of_done (n : Nat) (h : p.round s = .done i landed after) :
    p.run (n + 1) s
      = ⟨(i, after) :: (p.run n after).trace, (p.run n after).final, (p.run n after).ending⟩ := by
  rw [run, h]

theorem run_of_failed (n : Nat) (h : p.round s = .failed i landed after why) :
    p.run (n + 1) s = ⟨[], after, .failed i why⟩ := by
  rw [run, h]

theorem run_of_broken (n : Nat) {fault : Fault} (h : p.round s = .broken fault) :
    p.run (n + 1) s = ⟨[], s, .broken fault⟩ := by
  rw [run, h]

end Program

end PietLang
