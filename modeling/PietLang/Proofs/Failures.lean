import PietLang.Proofs.Landing
import PietLang.Proofs.Lookahead
import PietLang.Proofs.ReadBack

/-!
# Proofs/Failures — which failures of a run are reported

An instruction fails because a read fails, because it divides by zero, or because it cannot write a
value; nothing else can go wrong (`State.execute_eq_some_iff`).  By then it has taken its operands
(`State.Fails.execute`).  On an input that is not interrupted all of these are reported to the user
but one: that a number has too many digits.

Such a number is met in three places.  It is read from a line, it is written, or it is shown by a
failure that would have been reported without it.
-/

namespace PietLang

/-- The failure says that a number has too many digits. -/
def Failure.isDigitLimit : Failure → Bool
  | .input (.tooManyDigits _) | .tooManyDigits => true
  | _ => false

/-- How many values an opcode takes off the stack before it acts. -/
def Opcode.operands (op : Opcode) : Nat :=
  match op.arity with
  | .none | .input => 0
  | .unary => 1
  | .binary => 2

/-- A failure that shows a value is itself, unless the value has too many digits to be shown. -/
theorem Failure.showing_cases (v : Int) (f : Failure) :
    Decimal.isWritable v = true ∧ showing v f = f ∨
      Decimal.isWritable v = false ∧ (showing v f).isDigitLimit = true := by
  rw [showing]
  split
  · next hv => exact Or.inl ⟨hv, rfl⟩
  · next hv => exact Or.inr ⟨by simpa using hv, rfl⟩

/-! ## Reads -/

namespace Input

variable {i : Input} {e : Error}

/-- The next line holds a number that has more digits than are read. -/
def HasLongNumber (i : Input) : Prop :=
  ∃ l : NumberLine, Utf8.decode (line i.unread) = .ok l.chars ∧
    Decimal.digitLimit < l.digits.length

theorem NumberLine.chars_ne_nil (l : NumberLine) : l.chars ≠ [] := by
  simp [chars, l.digits_ne_nil]

theorem atEnd_of_closed (hclosed : i.ending = .closed) (e : Error) : i.atEnd e = e := by
  rw [atEnd, hclosed]

/-- **A character that cannot be read is reported.** -/
theorem isReported_of_readChar (hclosed : i.ending = .closed) (h : i.readChar.1 = .error e) :
    (Failure.input e).isReported = true := by
  rw [readChar] at h
  split at h
  · rw [atEnd_of_closed hclosed] at h
    obtain rfl := Except.error.inj h
    rfl
  split at h
  · obtain rfl := Except.error.inj h
    rfl
  next hlead =>
  split at h
  · rw [atEnd_of_closed hclosed, ite_self] at h
    obtain rfl := Except.error.inj h
    rfl
  next hlength =>
  obtain ⟨c, hdecode, -⟩ | ⟨f, hdecode⟩ :=
    decodeCharacter_cases (announced?_eq_length_take hlead hlength)
  · rw [hdecode] at h
    cases h
  · rw [hdecode] at h
    obtain rfl := Except.error.inj h
    rfl

/-- **A number line is read as its value, unless it has too many digits.** -/
theorem readNumber_of_numberLine {l : NumberLine}
    (hdecode : Utf8.decode (line i.unread) = .ok l.chars) :
    i.readNumber.1 =
      if Decimal.digitLimit < l.digits.length then .error (.tooManyDigits l.digits.length)
      else .ok l.value := by
  rw [readNumber]
  split
  · next hline =>
    rw [hline] at hdecode
    exact absurd (Except.ok.inj hdecode).symm l.chars_ne_nil
  · simp only [lineNumber, hdecode, l.number_chars]

/-- **A line that is no number line is reported.** -/
theorem exists_reported_of_not_numberLine (hclosed : i.ending = .closed)
    (hnot : ∀ l : NumberLine, Utf8.decode (line i.unread) ≠ .ok l.chars) :
    ∃ e, i.readNumber.1 = .error e ∧ (Failure.input e).isReported = true := by
  rw [readNumber]
  split
  · exact ⟨.endOfNumber, by rw [atEnd_of_closed hclosed], rfl⟩
  rw [lineNumber]
  split
  · exact ⟨_, rfl, rfl⟩
  next cs hdecode =>
  rcases exists_numberLine cs with ⟨l, rfl⟩ | hnumber
  · exact absurd hdecode (hnot l)
  · exact ⟨_, hnumber, rfl⟩

/-- A number that has too many digits cannot be read. -/
theorem readNumber_of_long {l : NumberLine} (hdecode : Utf8.decode (line i.unread) = .ok l.chars)
    (hlong : Decimal.digitLimit < l.digits.length) :
    i.readNumber.1 = .error (.tooManyDigits l.digits.length) := by
  rw [readNumber_of_numberLine hdecode, if_pos hlong]

/-- **A number that cannot be read is reported, unless it has too many digits.** -/
theorem readNumber_cases (hclosed : i.ending = .closed) (h : i.readNumber.1 = .error e) :
    (Failure.input e).isReported = true ∧ ¬ i.HasLongNumber ∨
      (Failure.input e).isDigitLimit = true ∧ i.HasLongNumber := by
  by_cases hlong : i.HasLongNumber
  · obtain ⟨l, hdecode, hdigits⟩ := hlong
    obtain rfl := Except.error.inj (h.symm.trans (readNumber_of_long hdecode hdigits))
    exact Or.inr ⟨rfl, l, hdecode, hdigits⟩
  · have hnot (l : NumberLine) : Utf8.decode (line i.unread) ≠ .ok l.chars := by
      intro hdecode
      rw [readNumber_of_numberLine hdecode] at h
      split at h
      · next hdigits => exact hlong ⟨l, hdecode, hdigits⟩
      · cases h
    obtain ⟨e', herror, hreported⟩ := exists_reported_of_not_numberLine hclosed hnot
    obtain rfl := Except.error.inj (h.symm.trans herror)
    exact Or.inl ⟨hreported, hlong⟩

end Input

/-! ## Instructions -/

namespace State

variable {s : State} {i : Instruction} {why : Failure}

theorem execute_unary {v : Int} {rest : List Int} (harity : i.opcode.arity = .unary)
    (hstack : s.stack = v :: rest) :
    s.execute i = { s with stack := rest }.unary i.opcode v := by
  obtain ⟨op, operand⟩ := i
  cases op with
  | pop | not | pointer | switch | duplicate | outNumber | outChar =>
    simp only [execute, Opcode.arity, hstack]
  | _ => cases harity

theorem execute_binary {x y : Int} {rest : List Int} (harity : i.opcode.arity = .binary)
    (hstack : s.stack = x :: y :: rest) :
    s.execute i = { s with stack := rest }.binary i.opcode x y := by
  obtain ⟨op, operand⟩ := i
  cases op with
  | add | subtract | multiply | divide | mod | greater | roll =>
    simp only [execute, Opcode.arity, hstack]
  | _ => cases harity

/-- The causes for which an instruction fails. -/
inductive Fails (s : State) (i : Instruction) : Failure → Prop
  | readNumber {e : Input.Error} (hop : i.opcode = .inNumber)
    (h : s.input.readNumber.1 = .error e) : Fails s i (.input e)
  | readChar {e : Input.Error} (hop : i.opcode = .inChar)
    (h : s.input.readChar.1 = .error e) : Fails s i (.input e)
  | division {y : Int} {rest : List Int} (hop : i.opcode = .divide ∨ i.opcode = .mod)
    (hstack : s.stack = 0 :: y :: rest) : Fails s i (.showing y (.divisionByZero y))
  | writeNumber {v : Int} {rest : List Int} (hop : i.opcode = .outNumber)
    (hstack : s.stack = v :: rest) (hv : Decimal.isWritable v = false) : Fails s i .tooManyDigits
  | writeChar {v : Int} {rest : List Int} (hop : i.opcode = .outChar)
    (hstack : s.stack = v :: rest) (hv : ¬ (0 ≤ v ∧ v.toNat.isValidChar)) :
    Fails s i (.showing v (.notCharacter v))

/-- The input that an opcode leaves: only the reads move on. -/
def inputAfter (s : State) : Opcode → Input
  | .inNumber => s.input.readNumber.2
  | .inChar => s.input.readChar.2
  | _ => s.input

/-- The state that an instruction leaves when it fails: it has taken its operands. -/
def spent (s : State) (op : Opcode) : State :=
  { s with stack := s.stack.drop op.operands, input := s.inputAfter op }

theorem pushRead_of_error {α : Type} {value : α → Int} {r : Except Input.Error α × Input}
    {e : Input.Error} (h : r.1 = .error e) :
    s.pushRead value r = ({ s with input := r.2 }, some (.input e)) := by
  obtain ⟨read, j⟩ := r
  obtain rfl : read = .error e := h
  rfl

/-- An instruction that has a cause to fail does so, and leaves the state that failing leaves. -/
theorem Fails.execute (h : s.Fails i why) : s.execute i = (s.spent i.opcode, some why) := by
  rcases h with ⟨hop, h⟩ | ⟨hop, h⟩ | ⟨hop | hop, hstack⟩ | ⟨hop, hstack, hv⟩ | ⟨hop, hstack, hv⟩
  · rw [execute_inNumber s hop, pushRead_of_error h, hop]
    rfl
  · rw [execute_inChar s hop, pushRead_of_error h, hop]
    rfl
  · rw [execute_binary (by rw [hop]; rfl) hstack, hop, spent, hstack]
    rfl
  · rw [execute_binary (by rw [hop]; rfl) hstack, hop, spent, hstack]
    rfl
  · rw [execute_unary (by rw [hop]; rfl) hstack, hop, spent, hstack, unary, State.writeNumber, hv]
    rfl
  · rw [execute_unary (by rw [hop]; rfl) hstack, hop, spent, hstack, unary, State.writeChar,
      if_neg hv]
    rfl

theorem pushRead_eq_some_iff {α : Type} {value : α → Int} {r : Except Input.Error α × Input} :
    (s.pushRead value r).2 = some why ↔ ∃ e, r.1 = .error e ∧ why = .input e := by
  obtain ⟨_ | _, _⟩ := r <;> simp [pushRead, eq_comm]

theorem unary_eq_some_iff {op : Opcode} {v : Int} : (s.unary op v).2 = some why ↔
    op = .outNumber ∧ Decimal.isWritable v = false ∧ why = .tooManyDigits ∨
      op = .outChar ∧ ¬ (0 ≤ v ∧ v.toNat.isValidChar) ∧ why = .showing v (.notCharacter v) := by
  cases op with
  | outNumber =>
    simp only [unary, writeNumber]
    split <;> simp [*, eq_comm]
  | outChar =>
    simp only [unary, writeChar]
    split
    · next hv => simp [hv]
    · next hv => simp only [hv, reduceCtorEq, false_and, false_or, not_false_eq_true, true_and,
        Option.some.injEq, eq_comm]
  | _ => simp [unary]

/-- Every opcode that takes two values acts on them, so only a division can fail. -/
theorem binary_eq_some_iff {op : Opcode} {x y : Int} (hop : op.arity = .binary) :
    (s.binary op x y).2 = some why ↔
      (op = .divide ∨ op = .mod) ∧ x = 0 ∧ why = .showing y (.divisionByZero y) := by
  cases op with
  | divide | mod =>
    by_cases hx : x = 0 <;> simp [binary, truncatedDivision, hx, eq_comm]
  | add | subtract | multiply | greater | roll => simp [binary]
  | _ => cases hop

/-- **When an instruction fails, and why.** -/
theorem execute_eq_some_iff : (s.execute i).2 = some why ↔ s.Fails i why := by
  constructor
  · intro h
    rw [execute] at h
    split at h
    · cases h
    · next hop =>
      obtain ⟨e, hread, rfl⟩ := pushRead_eq_some_iff.mp h
      exact .readNumber hop hread
    · next hop =>
      obtain ⟨e, hread, rfl⟩ := pushRead_eq_some_iff.mp h
      exact .readChar hop hread
    · next hstack _ _ _ =>
      obtain ⟨hop, hv, rfl⟩ | ⟨hop, hv, rfl⟩ := unary_eq_some_iff.mp h
      · exact .writeNumber hop hstack hv
      · exact .writeChar hop hstack hv
    · next harity hstack _ _ _ =>
      obtain ⟨hop, rfl, rfl⟩ := (binary_eq_some_iff harity).mp h
      exact .division hop hstack
    · cases h
  · intro h
    exact congrArg Prod.snd h.execute

/-- The instruction meets a number that has too many digits: it reads the number, writes it or its
character, or divides it by zero. -/
def MeetsLong (s : State) : Opcode → Prop
  | .inNumber => s.input.HasLongNumber
  | .outNumber | .outChar => ∃ v rest, s.stack = v :: rest ∧ Decimal.isWritable v = false
  | .divide | .mod => ∃ y rest, s.stack = 0 :: y :: rest ∧ Decimal.isWritable y = false
  | _ => False

/-- **A failure is reported, unless the instruction meets a number that has too many digits.** -/
theorem Fails.reported_or_long (h : s.Fails i why) (hclosed : s.input.ending = .closed) :
    why.isReported = true ∧ ¬ s.MeetsLong i.opcode ∨
      why.isDigitLimit = true ∧ s.MeetsLong i.opcode := by
  rcases h with ⟨hop, h⟩ | ⟨hop, h⟩ | @⟨y, rest, hop, hstack⟩ | ⟨hop, hstack, hv⟩
    | @⟨v, rest, hop, hstack, hv⟩
  · rw [hop]
    exact Input.readNumber_cases hclosed h
  · rw [hop]
    exact Or.inl ⟨Input.isReported_of_readChar hclosed h, id⟩
  · have hmeets : s.MeetsLong i.opcode ↔ Decimal.isWritable y = false := by
      rcases hop with hop | hop <;> simp [MeetsLong, hop, hstack]
    rw [hmeets]
    obtain ⟨hy, hshown⟩ | ⟨hy, hlimit⟩ := Failure.showing_cases y (.divisionByZero y)
    · exact Or.inl ⟨by rw [hshown]; rfl, by simp [hy]⟩
    · exact Or.inr ⟨hlimit, hy⟩
  · rw [hop]
    exact Or.inr ⟨rfl, _, _, hstack, hv⟩
  · rw [hop]
    obtain ⟨hv, hshown⟩ | ⟨hv, hlimit⟩ := Failure.showing_cases v (.notCharacter v)
    · exact Or.inl ⟨by rw [hshown]; rfl, by simp [MeetsLong, hstack, hv]⟩
    · exact Or.inr ⟨hlimit, _, _, hstack, hv⟩

end State

/-! ## Runs -/

namespace Program

variable {p : Program} {i : Instruction} {why : Failure}

/-- A run that failed did so in a round of its own, after rounds that were all done. -/
theorem exists_failing_round (n : Nat) : ∀ {s : State}, (p.run n s).ending = .failed i why →
    ∃ m < n, (p.run m s).ending = .limit ∧
      ∃ landed, p.round (p.run m s).final = .failed i landed (p.run n s).final why := by
  induction n with
  | zero =>
    intro s h
    cases h
  | succ n ih =>
    intro s h
    rcases hround : p.round s with t | ⟨j, landed, after⟩ | ⟨j, landed, after, cause⟩ | fault
    · rw [run_of_stuck n hround] at h
      cases h
    · rw [run_of_done n hround] at h ⊢
      obtain ⟨m, hm, hlimit, hfailed⟩ := ih h
      refine ⟨m + 1, Nat.succ_lt_succ hm, ?_⟩
      rw [run_of_done m hround]
      exact ⟨hlimit, hfailed⟩
    · rw [run_of_failed n hround] at h ⊢
      cases h
      exact ⟨0, n.succ_pos, rfl, landed, hround⟩
    · rw [run_of_broken n hround] at h
      cases h

/-- **What stops a run is reported, unless it is a number with too many digits.**  On an input that
is not interrupted, no search fails; and if the run fails, it is in a round whose instruction either
fails with an error that is reported, or meets a number of more than `Decimal.digitLimit` digits and
fails for that. -/
theorem reported_or_meetsLong (raw : Grid Codel) (n : Nat) (s : State)
    (hclosed : s.input.ending = .closed) :
    (∀ fault, ((segment raw).run n s).ending ≠ .broken fault) ∧
    ∀ i why, ((segment raw).run n s).ending = .failed i why →
      ∃ m < n, ((segment raw).run m s).ending = .limit ∧
        ∃ landed, (segment raw).round ((segment raw).run m s).final
            = .failed i landed ((segment raw).run n s).final why ∧
          (why.isReported = true ∧ ¬ landed.MeetsLong i.opcode ∨
            why.isDigitLimit = true ∧ landed.MeetsLong i.opcode) := by
  refine ⟨fun fault => ending_run_ne_broken (consistent_segment raw) fault n s,
    fun i why hfailed => ?_⟩
  obtain ⟨m, hm, hlimit, landed, hround⟩ := exists_failing_round n hfailed
  refine ⟨m, hm, hlimit, landed, hround, ?_⟩
  obtain ⟨r, -, rfl, hexecute⟩ := round_eq_failed_iff.mp hround
  obtain ⟨bs, hfollows⟩ := (segment raw).exists_follows_final m s
  have hfails := State.execute_eq_some_iff.mp (congrArg Prod.snd hexecute)
  exact hfails.reported_or_long (hfollows.ending.trans hclosed)

/-- A row that reads a number and then divides by it. -/
def quotient : Grid Codel where
  size := ⟨4, 1⟩
  cells := #[.color ⟨.red, .normal⟩, .color ⟨.blue, .light⟩, .color ⟨.red, .light⟩, .black]
  size_cells := rfl

/-- Where a zero is read for the divisor, the failure of the second round is reported. -/
theorem reported_zero_divisor :
    let s : State := ⟨.initial, [7], .ofBytes [0x30, 0x0A] .closed, ""⟩
    let why : Failure := .divisionByZero 7
    ((segment quotient).run 2 s).ending = .failed ⟨.divide, 1⟩ why ∧
      ∃ m < 2, ((segment quotient).run m s).ending = .limit ∧
        ∃ landed, (segment quotient).round ((segment quotient).run m s).final
            = .failed ⟨.divide, 1⟩ landed ((segment quotient).run 2 s).final why ∧
          (why.isReported = true ∧ ¬ landed.MeetsLong .divide ∨
            why.isDigitLimit = true ∧ landed.MeetsLong .divide) := by
  intro s why
  have hfailed : ((segment quotient).run 2 s).ending = .failed ⟨.divide, 1⟩ why := by decide +kernel
  exact ⟨hfailed, (reported_or_meetsLong quotient 2 s rfl).2 _ _ hfailed⟩

/-- The line of a number of `n + 1` ones. -/
def repunit (n : Nat) : Input.NumberLine where
  before := []
  sign := .none
  digits := List.replicate (n + 1) '1'
  after := ['\n']
  all_before := rfl
  all_after := rfl
  digits_ne_nil := List.cons_ne_nil _ _
  all_digits := by
    rw [List.all_replicate]
    exact if_neg n.succ_ne_zero

theorem encode_repunit (n : Nat) :
    Utf8.encode (repunit n).chars = List.replicate (n + 1) 0x31 ++ [0x0A] := by
  have hone : String.utf8EncodeChar '1' = [0x31] := by decide
  have hfeed : Utf8.encode ['\n'] = [0x0A] := by decide
  have hchars : (repunit n).chars = List.replicate (n + 1) '1' ++ ['\n'] := rfl
  rw [hchars, Utf8.encode_append, hfeed, Utf8.encode, List.flatMap_replicate, hone,
    List.flatten_replicate_singleton]

theorem decode_line_repunit (n : Nat) :
    Utf8.decode (Input.line (List.replicate (n + 1) 0x31 ++ [0x0A])) = .ok (repunit n).chars := by
  have hones : 0x0A ∉ List.replicate (n + 1) (0x31 : UInt8) := by simp [List.mem_replicate]
  have hline := Input.line_append hones []
  rw [List.append_nil] at hline
  rw [hline, ← encode_repunit, Utf8.decode_encode]

/-- The first round on the row reads, and so fails on a number that has too many digits. -/
theorem exists_failed_of_hasLongNumber {input : Input} (h : input.HasLongNumber) : ∃ why,
    ((segment quotient).run 1 (State.initial input)).ending = .failed ⟨.inNumber, 1⟩ why ∧
      why.isReported = false := by
  let across : Registers := ⟨⟨1, 0⟩, .right, .ccw⟩
  let landed : State := { State.initial input with regs := across }
  have hnext : (segment quotient).next .initial = .ok (some ⟨.inNumber, 1⟩, across) := by
    decide +kernel
  obtain ⟨l, hdecode, hlong⟩ := h
  have hfails : (landed.execute ⟨.inNumber, 1⟩).2 = some (.input (.tooManyDigits _)) :=
    State.execute_eq_some_iff.mpr (.readNumber rfl (Input.readNumber_of_long hdecode hlong))
  have hround : (segment quotient).round (State.initial input)
      = .failed ⟨.inNumber, 1⟩ landed (landed.execute ⟨.inNumber, 1⟩).1 _ :=
    round_eq_failed_iff.mpr ⟨across, hnext, rfl, Prod.ext rfl hfails⟩
  exact ⟨_, congrArg Run.ending (run_of_failed 0 hround), rfl⟩

/-- …but where a number of 4301 digits is read, the failure is not reported. -/
theorem not_reported_repunit : ∃ why,
    ((segment quotient).run 1
      (State.initial (.ofBytes (List.replicate 4301 0x31 ++ [0x0A]) .closed))).ending
        = .failed ⟨.inNumber, 1⟩ why ∧ why.isReported = false := by
  have hlong : Decimal.digitLimit < (repunit 4300).digits.length := by
    rw [repunit, List.length_replicate]
    decide
  exact exists_failed_of_hasLongNumber ⟨repunit 4300, decode_line_repunit 4300, hlong⟩

end Program

end PietLang
