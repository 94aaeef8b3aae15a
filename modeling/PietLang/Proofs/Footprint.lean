import Mathlib.Algebra.Ring.Int.Parity
import PietLang.Proofs.Failures
import PietLang.Proofs.Roll

/-!
# Proofs/Footprint — what an instruction may change

An instruction first takes its operands off the stack and then acts, so one that fails has taken
them already, and nothing else of the state is lost but what a read has consumed (`Fails.execute`).

One that does not fail does one of seven kinds of things (`Acts`): nothing, for want of operands;
put results in the place of its operands; turn the pointer; flip the chooser; roll the stack; push
what it read; or write.  That every instruction does one of them (`acts_of_execute`) is the only
place that goes through the opcodes; the footprint of an instruction is read off its kind.
-/

namespace PietLang

namespace Opcode

/-- By how much an opcode that has its operands changes the depth of the stack. -/
def depthChange : Opcode → Int
  | .push | .inNumber | .inChar | .duplicate => 1
  | .nop | .not => 0
  | .pop | .pointer | .switch | .outNumber | .outChar => -1
  | .add | .subtract | .multiply | .divide | .mod | .greater => -1
  | .roll => -2

/-- The opcodes that put results in the place of their operands and do nothing else. -/
def isPlain : Opcode → Bool
  | .nop | .push | .pop | .not | .duplicate => true
  | .add | .subtract | .multiply | .divide | .mod | .greater => true
  | _ => false

theorem arity_eq_none_iff {op : Opcode} : op.arity = .none ↔ op = .nop ∨ op = .push := by
  cases op <;> decide

theorem arity_eq_input_iff {op : Opcode} : op.arity = .input ↔ op = .inNumber ∨ op = .inChar := by
  cases op <;> decide

end Opcode

theorem Turn.flip_ne (t : Turn) : t.flip ≠ t := by
  rcases t with _ | _ <;> decide

/-! ## Instructions that fail -/

/-- A number is written unless it has more digits than the limit. -/
theorem Decimal.isWritable_eq_false_iff {n : Int} :
    isWritable n = false ↔ 10 ^ digitLimit ≤ n.natAbs := by
  have hdigits := @Nat.length_toDigits_le_iff 10 n.natAbs digitLimit (by decide) (by decide)
  rw [isWritable, decide_eq_false_iff_not, digits, hdigits, Nat.not_lt]

namespace State

variable {s t : State} {i : Instruction} {op : Opcode} {why : Failure}

/-- An instruction that lacks operands does nothing. -/
theorem execute_of_short (h : s.stack.length < i.opcode.operands) : s.execute i = (s, none) := by
  rw [execute]
  split
  · next hop => simp [hop, Opcode.operands, Opcode.arity] at h
  · next hop => simp [hop, Opcode.operands, Opcode.arity] at h
  · next hop => simp [hop, Opcode.operands, Opcode.arity] at h
  · next harity hstack _ _ _ => simp [Opcode.operands, harity, hstack] at h
  · next harity hstack _ _ _ =>
    simp only [Opcode.operands, harity, hstack, List.length_cons] at h
    omega
  · rfl

theorem not_isValidChar_iff {v : Int} : ¬ (0 ≤ v ∧ v.toNat.isValidChar) ↔
    v < 0 ∨ 0x10FFFF < v ∨ 0xD800 ≤ v ∧ v ≤ 0xDFFF := by
  rw [Nat.isValidChar]
  omega

/-- The conditions under which an opcode fails. -/
def Refuses (s : State) : Opcode → Prop
  | .inNumber => ∃ e, s.input.readNumber.1 = .error e
  | .inChar => ∃ e, s.input.readChar.1 = .error e
  | .divide | .mod => ∃ y rest, s.stack = 0 :: y :: rest
  | .outChar =>
    ∃ v rest, s.stack = v :: rest ∧ (v < 0 ∨ 0x10FFFF < v ∨ 0xD800 ≤ v ∧ v ≤ 0xDFFF)
  | .outNumber => ∃ v rest, s.stack = v :: rest ∧ 10 ^ Decimal.digitLimit ≤ v.natAbs
  | _ => False

theorem exists_fails_iff : (∃ why, s.Fails i why) ↔ s.Refuses i.opcode := by
  constructor
  · rintro ⟨why, ⟨hop, h⟩ | ⟨hop, h⟩ | ⟨hop | hop, hstack⟩ | ⟨hop, hstack, hv⟩ | ⟨hop, hstack, hv⟩⟩
    · rw [hop]
      exact ⟨_, h⟩
    · rw [hop]
      exact ⟨_, h⟩
    · rw [hop]
      exact ⟨_, _, hstack⟩
    · rw [hop]
      exact ⟨_, _, hstack⟩
    · rw [hop]
      exact ⟨_, _, hstack, Decimal.isWritable_eq_false_iff.mp hv⟩
    · rw [hop]
      exact ⟨_, _, hstack, not_isValidChar_iff.mp hv⟩
  · intro h
    unfold Refuses at h
    split at h
    · next hop =>
      obtain ⟨e, he⟩ := h
      exact ⟨_, .readNumber hop he⟩
    · next hop =>
      obtain ⟨e, he⟩ := h
      exact ⟨_, .readChar hop he⟩
    · next hop =>
      obtain ⟨y, rest, hstack⟩ := h
      exact ⟨_, .division (Or.inl hop) hstack⟩
    · next hop =>
      obtain ⟨y, rest, hstack⟩ := h
      exact ⟨_, .division (Or.inr hop) hstack⟩
    · next hop =>
      obtain ⟨v, rest, hstack, hv⟩ := h
      exact ⟨_, .writeChar hop hstack (not_isValidChar_iff.mpr hv)⟩
    · next hop =>
      obtain ⟨v, rest, hstack, hv⟩ := h
      exact ⟨_, .writeNumber hop hstack (Decimal.isWritable_eq_false_iff.mpr hv)⟩
    · exact h.elim

/-- An instruction that fails had its operands. -/
theorem Fails.operands_le (h : s.Fails i why) : i.opcode.operands ≤ s.stack.length := by
  refine Nat.le_of_not_lt fun hshort => ?_
  have hnone := h.execute.symm.trans (execute_of_short hshort)
  cases congrArg Prod.snd hnone

/-- No instruction is misused: whatever acts on two values is meant to. -/
theorem Fails.ne_notBinary (h : s.Fails i why) (op : Opcode) : why ≠ .notBinary op := by
  rcases h with ⟨hop, h⟩ | ⟨hop, h⟩ | ⟨hop, hstack⟩ | ⟨hop, hstack, hv⟩ | ⟨hop, hstack, hv⟩
  · simp
  · simp
  · rw [Failure.showing]
    split <;> simp
  · simp
  · rw [Failure.showing]
    split <;> simp

theorem inputAfter_of_ne (s : State) (hop : op.arity ≠ .input) : s.inputAfter op = s.input := by
  unfold inputAfter
  split
  · exact absurd rfl hop
  · exact absurd rfl hop
  · rfl

/-- **When an instruction fails, and what it leaves then.**  A read fails where the input has
nothing of its kind, a division where the divisor is zero, and writing where the value is no
character or has too many digits; no other instruction fails, and none for being misused.  One that
fails has taken its operands off the stack and left the registers and the output alone, and only a
read has moved on in the input. -/
theorem execute_fails_iff_refuses (s : State) (i : Instruction) :
    ((∃ why, (s.execute i).2 = some why) ↔ s.Refuses i.opcode) ∧
    (∀ t why, s.execute i = (t, some why) →
      t.regs = s.regs ∧ t.output = s.output ∧
      (∃ lost, lost.length = i.opcode.operands ∧ s.stack = lost ++ t.stack) ∧
      (i.opcode.arity ≠ .input → t.input = s.input)) ∧
    ∀ op, (s.execute i).2 ≠ some (.notBinary op) := by
  refine ⟨?_, ?_, ?_⟩
  · rw [← exists_fails_iff]
    exact exists_congr fun _ => execute_eq_some_iff
  · intro t why h
    have hfails : s.Fails i why := execute_eq_some_iff.mp (congrArg Prod.snd h)
    obtain rfl : s.spent i.opcode = t := congrArg Prod.fst (hfails.execute.symm.trans h)
    refine ⟨rfl, rfl, ⟨s.stack.take i.opcode.operands, ?_, ?_⟩, s.inputAfter_of_ne⟩
    · rw [List.length_take, Nat.min_eq_left hfails.operands_le]
    · exact (List.take_append_drop _ _).symm
  · intro op h
    exact (execute_eq_some_iff.mp h).ne_notBinary op rfl

/-- A division of 7 by zero takes both and leaves the 9 below them. -/
theorem divide_seven_by_zero :
    let s : State := ⟨.initial, [0, 7, 9], .ofBytes [0x31] .closed, "so far"⟩
    let t : State := { s with stack := [9] }
    s.execute ⟨.divide, 1⟩ = (t, some (.divisionByZero 7)) ∧ s.Refuses .divide ∧
      ∃ lost, lost.length = 2 ∧ s.stack = lost ++ t.stack := by
  intro s t
  have hfails : s.execute ⟨.divide, 1⟩ = (t, some (.divisionByZero 7)) := by decide +kernel
  obtain ⟨hiff, hleft, -⟩ := execute_fails_iff_refuses s ⟨.divide, 1⟩
  obtain ⟨-, -, hlost, -⟩ := hleft t _ hfails
  exact ⟨hfails, hiff.mp ⟨_, congrArg Prod.snd hfails⟩, hlost⟩

/-! ## Instructions that do not fail -/

/-- The kinds of things that an instruction does if it does not fail, from `s` to `t`. -/
inductive Acts (s : State) (op : Opcode) (t : State) : Prop
  /-- It lacks operands and does nothing. -/
  | idle (hshort : s.stack.length < op.operands) (ht : t = s)
  /-- It puts results in the place of its operands. -/
  | replace (results : List Int) (hop : op.isPlain = true)
    (henough : op.operands ≤ s.stack.length)
    (hlength : (results.length : Int) = op.operands + op.depthChange)
    (ht : t = { s with stack := results ++ s.stack.drop op.operands })
  | turn (v : Int) (rest : List Int) (hop : op = .pointer) (hstack : s.stack = v :: rest)
    (ht : t = { s with stack := rest, regs := { s.regs with dp := s.regs.dp.turn .cw v } })
  | choose (v : Int) (rest : List Int) (hop : op = .switch) (hstack : s.stack = v :: rest)
    (ht : t = { s with
      stack := rest, regs := { s.regs with cc := if Odd v then s.regs.cc.flip else s.regs.cc } })
  | roll (x y : Int) (rest : List Int) (hop : op = .roll) (hstack : s.stack = x :: y :: rest)
    (ht : t = { s with stack := rollStack x y rest })
  /-- It pushes what it has read. -/
  | read (v : Int) (rest : Input) (hop : op = .inNumber ∨ op = .inChar)
    (ht : t = { s with input := rest, stack := v :: s.stack })
  | write (v : Int) (rest : List Int) (text : String) (hop : op = .outNumber ∨ op = .outChar)
    (hstack : s.stack = v :: rest) (ht : t = { s with stack := rest, output := s.output ++ text })

theorem acts_of_unary {v : Int} {rest : List Int} (hop : op.arity = .unary)
    (hstack : s.stack = v :: rest) (h : { s with stack := rest }.unary op v = (t, none)) :
    s.Acts op t := by
  have hdrop : s.stack.drop 1 = rest := by rw [hstack]; rfl
  have henough : 1 ≤ s.stack.length := by simp [hstack]
  cases op with
  | pop =>
    obtain rfl := (Prod.mk.inj h).1
    exact .replace [] rfl henough rfl (by rw [← hdrop]; rfl)
  | not =>
    obtain rfl := (Prod.mk.inj h).1
    exact .replace [if v = 0 then 1 else 0] rfl henough rfl (by rw [← hdrop]; rfl)
  | duplicate =>
    obtain rfl := (Prod.mk.inj h).1
    exact .replace [v, v] rfl henough rfl (by rw [← hdrop]; rfl)
  | pointer =>
    rw [unary, Registers.point_eq] at h
    exact .turn v rest rfl hstack (Prod.mk.inj h).1.symm
  | switch =>
    refine .choose v rest rfl hstack ?_
    rw [unary, Registers.switch_eq] at h
    rw [← (Prod.mk.inj h).1]
    by_cases hv : v % 2 = 0
    · rw [if_pos hv, if_neg (Int.not_odd_iff.mpr hv)]
    · rw [if_neg hv, if_pos (Int.odd_iff.mpr (by omega))]
  | outNumber =>
    rw [unary, writeNumber] at h
    split at h
    · exact .write v rest _ (Or.inl rfl) hstack (Prod.mk.inj h).1.symm
    · cases h
  | outChar =>
    rw [unary, writeChar] at h
    split at h
    · exact .write v rest _ (Or.inr rfl) hstack (Prod.mk.inj h).1.symm
    · cases h
  | _ => cases hop

theorem acts_of_binary {x y : Int} {rest : List Int} (hop : op.arity = .binary)
    (hstack : s.stack = x :: y :: rest) (h : { s with stack := rest }.binary op x y = (t, none)) :
    s.Acts op t := by
  have hdrop : s.stack.drop 2 = rest := by rw [hstack]; rfl
  have henough : 2 ≤ s.stack.length := by simp [hstack]
  cases op with
  | add | subtract | multiply | greater =>
    obtain rfl := (Prod.mk.inj h).1
    exact .replace [_] rfl henough rfl (by rw [← hdrop]; rfl)
  | divide | mod =>
    rw [binary] at h
    split at h
    · obtain rfl := (Prod.mk.inj h).1
      exact .replace [_] rfl henough rfl (by rw [← hdrop]; rfl)
    · cases h
  | roll => exact .roll x y rest rfl hstack (Prod.mk.inj h).1.symm
  | _ => cases hop

/-- **Whatever an instruction does, it is of one of the kinds.** -/
theorem acts_of_execute (h : s.execute i = (t, none)) : s.Acts i.opcode t := by
  by_cases hshort : s.stack.length < i.opcode.operands
  · rw [execute_of_short hshort] at h
    exact .idle hshort (Prod.mk.inj h).1.symm
  have henough := Nat.not_lt.mp hshort
  rcases harity : i.opcode.arity with _ | _ | _ | _ <;>
    simp only [Opcode.operands, harity] at henough
  · rcases Opcode.arity_eq_none_iff.mp harity with hop | hop
    · rw [hop]
      refine .replace [] rfl (Nat.zero_le _) rfl ?_
      simp only [execute, hop, Opcode.arity] at h
      exact (Prod.mk.inj h).1.symm
    · rw [hop]
      refine .replace [i.operand] rfl (Nat.zero_le _) rfl ?_
      simp only [execute, hop] at h
      exact (Prod.mk.inj h).1.symm
  · obtain ⟨v, rest, hstack⟩ := List.exists_cons_of_length_pos henough
    rw [execute_unary harity hstack] at h
    exact acts_of_unary harity hstack h
  · obtain ⟨x, rest, hstack⟩ := List.exists_cons_of_length_pos (Nat.lt_of_succ_lt henough)
    rw [hstack] at henough
    obtain ⟨y, rest, rfl⟩ := List.exists_cons_of_length_pos (Nat.lt_of_succ_lt_succ henough)
    rw [execute_binary harity hstack] at h
    exact acts_of_binary harity hstack h
  · rcases Opcode.arity_eq_input_iff.mp harity with hop | hop
    · rw [execute_inNumber s hop] at h
      obtain ⟨n, hread⟩ := eq_ok_of_pushRead h
      rw [hread] at h
      exact .read n t.input (Or.inl hop) (Prod.mk.inj h).1.symm
    · rw [execute_inChar s hop] at h
      obtain ⟨c, hread⟩ := eq_ok_of_pushRead h
      rw [hread] at h
      exact .read c.toNat t.input (Or.inr hop) (Prod.mk.inj h).1.symm

/-! ## Footprints -/

/-- The values of a stack below those that an opcode takes; for a roll, below those that it
reaches. -/
def untouched : Opcode → List Int → List Int
  | .roll, _ :: y :: rest => rest.drop (rollReach y rest)
  | op, stack => stack.drop op.operands

theorem untouched_of_ne_roll (hop : op ≠ .roll) (stack : List Int) :
    untouched op stack = stack.drop op.operands := by
  unfold untouched
  split
  · exact absurd rfl hop
  · rfl

/-- What an instruction that has its operands may change, from `s` to `t`. -/
structure Footprint (s : State) (op : Opcode) (t : State) : Prop where
  depth : (t.stack.length : Int) = s.stack.length + op.depthChange
  below : untouched op s.stack <:+ t.stack
  pc : t.regs.pc = s.regs.pc
  dp : op ≠ .pointer → t.regs.dp = s.regs.dp
  turned : op = .pointer → ∀ v rest, s.stack = v :: rest →
    t.regs.dp.quarter = (s.regs.dp.quarter + v) % 4
  cc : op ≠ .switch → t.regs.cc = s.regs.cc
  flipped : op = .switch → ∀ v rest, s.stack = v :: rest →
    (t.regs.cc = s.regs.cc.flip ↔ Odd v)
  input : op ≠ .inNumber → op ≠ .inChar → t.input = s.input
  output : op ≠ .outNumber → op ≠ .outChar → t.output = s.output
  appended : ∃ text, t.output = s.output ++ text

/-- The footprint of an instruction that leaves the registers alone. -/
theorem Footprint.of_regs (hregs : t.regs = s.regs) (hpointer : op ≠ .pointer)
    (hswitch : op ≠ .switch)
    (depth : (t.stack.length : Int) = s.stack.length + op.depthChange)
    (below : untouched op s.stack <:+ t.stack)
    (input : op ≠ .inNumber → op ≠ .inChar → t.input = s.input)
    (output : op ≠ .outNumber → op ≠ .outChar → t.output = s.output)
    (appended : ∃ text, t.output = s.output ++ text) : s.Footprint op t where
  depth := depth
  below := below
  pc := congrArg Registers.pc hregs
  dp := fun _ => congrArg Registers.dp hregs
  turned := fun h => absurd h hpointer
  cc := fun _ => congrArg Registers.cc hregs
  flipped := fun h => absurd h hswitch
  input := input
  output := output
  appended := appended

/-- The stack with one operand taken off, where nothing is put in its place. -/
theorem depth_of_cons {v : Int} {rest : List Int} (hstack : s.stack = v :: rest)
    (hop : op.depthChange = -1) : (rest.length : Int) = s.stack.length + op.depthChange := by
  rw [hstack, List.length_cons, hop]
  omega

theorem below_of_cons {v : Int} {rest : List Int} (hstack : s.stack = v :: rest)
    (hop : op.arity = .unary) : untouched op s.stack <:+ rest := by
  have hroll : op ≠ .roll := by
    rintro rfl
    cases hop
  rw [untouched_of_ne_roll hroll, Opcode.operands, hop, hstack]
  exact List.suffix_rfl

/-- **Whatever kind of thing an instruction does, it keeps to its footprint.** -/
theorem Acts.footprint (h : s.Acts op t) (henough : op.operands ≤ s.stack.length) :
    s.Footprint op t := by
  have happended : ∃ text, s.output = s.output ++ text := ⟨"", String.append_empty.symm⟩
  rcases h with ⟨hshort, rfl⟩ | ⟨results, hop, -, hlength, rfl⟩ | ⟨v, rest, rfl, hstack, rfl⟩
    | ⟨v, rest, rfl, hstack, rfl⟩ | ⟨x, y, rest, rfl, hstack, rfl⟩ | ⟨v, rest, hop, rfl⟩
    | ⟨v, rest, text, hop, hstack, rfl⟩
  · omega
  · -- the opcodes with a footprint of their own are not plain
    have hne {op' : Opcode} (hplain : op'.isPlain = false) : op ≠ op' := by
      rintro rfl
      exact absurd hop (by rw [hplain]; simp)
    refine .of_regs rfl (hne rfl) (hne rfl) ?_ ?_ (fun _ _ => rfl) (fun _ _ => rfl) happended
    · simp only [List.length_append, List.length_drop]
      omega
    · rw [untouched_of_ne_roll (hne rfl)]
      exact List.suffix_append _ _
  · refine ⟨depth_of_cons hstack rfl, below_of_cons hstack rfl, rfl, fun h => absurd rfl h, ?_,
      fun _ => rfl, nofun, fun _ _ => rfl, fun _ _ => rfl, happended⟩
    rintro - v' rest' hstack'
    obtain ⟨rfl, rfl⟩ := List.cons.inj (hstack.symm.trans hstack')
    exact Direction.quarter_ofQuarter _
  · refine ⟨depth_of_cons hstack rfl, below_of_cons hstack rfl, rfl, fun _ => rfl, nofun,
      fun h => absurd rfl h, ?_, fun _ _ => rfl, fun _ _ => rfl, happended⟩
    rintro - v' rest' hstack'
    obtain ⟨rfl, rfl⟩ := List.cons.inj (hstack.symm.trans hstack')
    by_cases hv : Odd v
    · simp [hv]
    · simp [hv, s.regs.cc.flip_ne.symm]
  · refine .of_regs rfl nofun nofun ?_ ?_ (fun _ _ => rfl) (fun _ _ => rfl) happended
    · simp only [hstack, length_rollStack, List.length_cons, Opcode.depthChange]
      omega
    · rw [hstack, untouched, ← drop_rollStack x]
      exact List.drop_suffix _ _
  · rcases hop with rfl | rfl
    · exact .of_regs rfl nofun nofun rfl (List.suffix_cons v s.stack) (fun h => absurd rfl h)
        (fun _ _ => rfl) happended
    · exact .of_regs rfl nofun nofun rfl (List.suffix_cons v s.stack) (fun _ h => absurd rfl h)
        (fun _ _ => rfl) happended
  · rcases hop with rfl | rfl
    · exact .of_regs rfl nofun nofun (depth_of_cons hstack rfl) (below_of_cons hstack rfl)
        (fun _ _ => rfl) (fun h => absurd rfl h) ⟨text, rfl⟩
    · exact .of_regs rfl nofun nofun (depth_of_cons hstack rfl) (below_of_cons hstack rfl)
        (fun _ _ => rfl) (fun _ h => absurd rfl h) ⟨text, rfl⟩

/-- **An instruction that does not fail keeps to its footprint.**  If it lacks operands it changes
nothing.  Otherwise the stack deepens by the change of its opcode and stays as it was below what it
takes or rolls, the machine does not move, only the pointer and the chooser are turned by their
opcodes, only reads consume input, and only writing adds to the output. -/
theorem execute_leaves_footprint (s t : State) (i : Instruction) (h : s.execute i = (t, none)) :
    (s.stack.length < i.opcode.operands → t = s) ∧
      (i.opcode.operands ≤ s.stack.length → s.Footprint i.opcode t) := by
  constructor
  · intro hshort
    rw [execute_of_short hshort] at h
    exact (Prod.mk.inj h).1.symm
  · exact (acts_of_execute h).footprint

/-- A roll of depth 2 over three values rolls two of them and leaves the third. -/
theorem roll_two_of_three :
    let s : State := ⟨.initial, [1, 2, 10, 20, 30], .ofBytes [] .closed, ""⟩
    let t : State := { s with stack := [20, 10, 30] }
    s.execute ⟨.roll, 0⟩ = (t, none) ∧ untouched .roll s.stack = [30] ∧ s.Footprint .roll t := by
  intro s t
  have hroll : s.execute ⟨.roll, 0⟩ = (t, none) := by decide +kernel
  exact ⟨hroll, rfl, (execute_leaves_footprint s t _ hroll).2 (by decide)⟩

end State

end PietLang
