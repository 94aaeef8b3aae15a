import PietLang.Machine.Run
import PietLang.Program.Segment
import PietLang.Proofs.Reading

/-!
# Proofs/Lookahead — bytes that were not read cannot change a run

A run that was not stopped by a failure, and has left some of its input unread, does the same on any
other input that begins with the bytes it has read.

Only the two reads look at the input.  Each of them has taken its bytes in the sense of
`Input.Takes`: for a character always, for a number because something is left after it, which is so
at the end of the run and therefore after every read before (`Program.exists_follows_final`).
-/

namespace PietLang

namespace Input

variable {α : Type} {read : Input → Except Error α × Input} {a : α} {bs bs' cs : List UInt8}
  {i j : Input} {c : Nat}

/-- The stream has been read out of the bytes `bs`. -/
def Within (bs : List UInt8) (i : Input) : Prop :=
  ∃ done, bs = done ++ i.unread ∧ i.consumed = done.length

theorem within_ofBytes (bs : List UInt8) (ending : Ending) : Within bs (ofBytes bs ending) :=
  ⟨[], rfl, rfl⟩

theorem Within.follows (h : Within bs i) (hread : i.Follows cs j) : Within bs j := by
  obtain ⟨done, hbs, hconsumed⟩ := h
  refine ⟨done ++ cs, ?_, ?_⟩
  · rw [hbs, hread.unread, List.append_assoc]
  · rw [hread.consumed, hconsumed, List.length_append]

theorem Within.unread_ne_nil (h : Within bs i) (hlt : i.consumed < bs.length) : i.unread ≠ [] := by
  obtain ⟨done, rfl, hconsumed⟩ := h
  intro hnil
  rw [hnil, List.append_nil] at hlt
  omega

/-- The stream of other bytes, at the same place. -/
def onto (bs : List UInt8) (ending : Ending) (i : Input) : Input :=
  ⟨bs.drop i.consumed, i.consumed, ending⟩

/-- Bytes that were taken are taken from every other stream that has them at the same place. -/
theorem Takes.onto (h : Takes read cs a) (hi : Within bs i) (hread : i.Follows cs j)
    (hc : j.consumed ≤ c) (hagree : bs.take c <+: bs') (ending : Ending) :
    read (i.onto bs' ending) = (.ok a, j.onto bs' ending) := by
  obtain ⟨done, hbs, hconsumed⟩ := hi
  have hprefix : done ++ cs <+: bs' := by
    refine List.IsPrefix.trans (List.prefix_take_iff.mpr ⟨⟨j.unread, ?_⟩, ?_⟩) hagree
    · rw [hbs, hread.unread, List.append_assoc]
    · rw [List.length_append, ← hconsumed, ← hread.consumed]
      exact hc
  obtain ⟨rest, rfl⟩ := hprefix
  have hi' : i.onto (done ++ cs ++ rest) ending = ⟨cs ++ rest, i.consumed, ending⟩ := by
    rw [Input.onto, hconsumed, List.append_assoc, List.drop_left]
  have hj' : j.onto (done ++ cs ++ rest) ending = ⟨rest, i.consumed + cs.length, ending⟩ := by
    rw [Input.onto, hread.consumed, hconsumed, ← List.length_append, List.drop_left]
  rw [hi', hj']
  exact h rest i.consumed ending

end Input

/-- The state with another input. -/
def State.mapInput (f : Input → Input) (s : State) : State := { s with input := f s.input }

/-- The run with another input in all its states, and the same instructions and end. -/
def Run.mapInput (f : Input → Input) (r : Run) : Run :=
  ⟨r.trace.map (Prod.map id (State.mapInput f)), r.final.mapInput f, r.ending⟩

/-! ## Instructions -/

namespace State

variable {s after : State} {i : Instruction} {bs bs' : List UInt8} {c : Nat}

theorem unary_mapInput (f : Input → Input) (s : State) (op : Opcode) (v : Int) :
    (s.mapInput f).unary op v = Prod.map (mapInput f) id (s.unary op v) := by
  cases op with
  | outNumber =>
    simp only [unary, writeNumber]
    split <;> rfl
  | outChar =>
    simp only [unary, writeChar]
    split <;> rfl
  | _ => rfl

theorem binary_mapInput (f : Input → Input) (s : State) (op : Opcode) (x y : Int) :
    (s.mapInput f).binary op x y = Prod.map (mapInput f) id (s.binary op x y) := by
  cases op with
  | divide | mod =>
    simp only [binary]
    split <;> rfl
  | _ => rfl

theorem pushRead_mapInput {α : Type} (f : Input → Input) (s : State) (value : α → Int)
    (r : Except Input.Error α × Input) :
    (s.mapInput f).pushRead value (Prod.map id f r)
      = Prod.map (mapInput f) id (s.pushRead value r) := by
  obtain ⟨_ | _, _⟩ := r <;> rfl

/-- **An instruction does the same on another input if the reads do.** -/
theorem execute_mapInput (f : Input → Input) (s : State) (i : Instruction)
    (hnumber : i.opcode = .inNumber → (f s.input).readNumber = Prod.map id f s.input.readNumber)
    (hchar : i.opcode = .inChar → (f s.input).readChar = Prod.map id f s.input.readChar) :
    (s.mapInput f).execute i = Prod.map (mapInput f) id (s.execute i) := by
  have hstack : (s.mapInput f).stack = s.stack := rfl
  have hinput : (s.mapInput f).input = f s.input := rfl
  rw [execute, execute, hstack, hinput]
  split
  · rfl
  · next _ _ hop => rw [hnumber hop, pushRead_mapInput]
  · next _ _ hop => rw [hchar hop, pushRead_mapInput]
  · next v rest _ _ _ _ _ => exact unary_mapInput f { s with stack := rest } i.opcode v
  · next x y rest _ _ _ _ _ => exact binary_mapInput f { s with stack := rest } i.opcode x y
  · rfl

/-- An instruction that does not read leaves the input alone. -/
theorem input_execute (s : State) (hnumber : i.opcode ≠ .inNumber) (hchar : i.opcode ≠ .inChar) :
    (s.execute i).1.input = s.input :=
  congrArg (fun out => out.1.input) (execute_mapInput (fun _ => s.input) s i
    (fun h => absurd h hnumber) (fun h => absurd h hchar))

theorem execute_inNumber (s : State) (h : i.opcode = .inNumber) :
    s.execute i = s.pushRead id s.input.readNumber := by
  simp only [execute, h]

theorem execute_inChar (s : State) (h : i.opcode = .inChar) :
    s.execute i = s.pushRead (fun c => (c.toNat : Int)) s.input.readChar := by
  simp only [execute, h]

theorem input_pushRead {α : Type} (s : State) (value : α → Int)
    (r : Except Input.Error α × Input) : (s.pushRead value r).1.input = r.2 := by
  obtain ⟨_ | _, _⟩ := r <;> rfl

theorem eq_ok_of_pushRead {α : Type} {value : α → Int} {r : Except Input.Error α × Input}
    (h : s.pushRead value r = (after, none)) : ∃ a, r = (.ok a, after.input) := by
  obtain ⟨_ | a, j⟩ := r
  · cases h
  · obtain rfl := (Prod.mk.inj h).1
    exact ⟨a, rfl⟩

/-- What an instruction leaves of the input follows what it found. -/
theorem exists_follows_execute (s : State) (i : Instruction) :
    ∃ bs, s.input.Follows bs (s.execute i).1.input := by
  by_cases hnumber : i.opcode = .inNumber
  · rw [execute_inNumber s hnumber, input_pushRead]
    exact s.input.exists_follows_readNumber
  by_cases hchar : i.opcode = .inChar
  · rw [execute_inChar s hchar, input_pushRead]
    exact s.input.exists_follows_readChar
  · rw [input_execute s hnumber hchar]
    exact ⟨[], .refl _⟩

/-- **An instruction that did not fail does the same on another input** that agrees with what has
been read, if something is left. -/
theorem execute_onto (h : s.execute i = (after, none)) (hs : s.input.Within bs)
    (hmore : after.input.unread ≠ []) (hc : after.input.consumed ≤ c) (hagree : bs.take c <+: bs')
    (ending : Input.Ending) :
    (s.mapInput (.onto bs' ending)).execute i = (after.mapInput (.onto bs' ending), none) := by
  rw [execute_mapInput, h]
  · rfl
  · intro hop
    rw [execute_inNumber s hop] at h
    obtain ⟨n, hread⟩ := eq_ok_of_pushRead h
    obtain ⟨cs, hfollows, htakes⟩ := Input.exists_takes_of_readNumber hread hmore
    rw [hread]
    exact htakes.onto hs hfollows hc hagree ending
  · intro hop
    rw [execute_inChar s hop] at h
    obtain ⟨v, hread⟩ := eq_ok_of_pushRead h
    obtain ⟨cs, hfollows, htakes⟩ := Input.exists_takes_of_readChar hread
    rw [hread]
    exact htakes.onto hs hfollows hc hagree ending

end State

/-! ## Runs -/

namespace Program

variable {p : Program} {bs bs' : List UInt8} {c : Nat}

/-- What a run leaves of the input follows what it found. -/
theorem exists_follows_final (p : Program) (n : Nat) : ∀ s : State,
    ∃ bs, s.input.Follows bs (p.run n s).final.input := by
  induction n with
  | zero =>
    intro s
    exact ⟨[], .refl _⟩
  | succ n ih =>
    intro s
    rcases hround : p.round s with t | ⟨i, landed, after⟩ | ⟨i, landed, after, why⟩ | fault
    · rw [run_of_stuck n hround]
      obtain ⟨r, -, rfl⟩ := round_eq_stuck_iff.mp hround
      exact ⟨[], .refl _⟩
    · rw [run_of_done n hround]
      obtain ⟨r, -, rfl, hexecute⟩ := round_eq_done_iff.mp hround
      obtain ⟨bs, hfirst⟩ := State.exists_follows_execute { s with regs := r } i
      rw [hexecute] at hfirst
      obtain ⟨cs, hrest⟩ := ih after
      exact ⟨bs ++ cs, hfirst.trans hrest⟩
    · rw [run_of_failed n hround]
      obtain ⟨r, -, rfl, hexecute⟩ := round_eq_failed_iff.mp hround
      obtain ⟨bs, hfirst⟩ := State.exists_follows_execute { s with regs := r } i
      rw [hexecute] at hfirst
      exact ⟨bs, hfirst⟩
    · rw [run_of_broken n hround]
      exact ⟨[], .refl _⟩

/-- **A run that did not fail does the same on another input** that agrees with what has been read,
if something is left. -/
theorem run_onto (ending : Input.Ending) (hagree : bs.take c <+: bs') (hc : c < bs.length)
    (n : Nat) : ∀ {s : State}, s.input.Within bs → (p.run n s).final.input.consumed = c →
      (p.run n s).ending = .halted ∨ (p.run n s).ending = .limit →
        p.run n (s.mapInput (.onto bs' ending)) = (p.run n s).mapInput (.onto bs' ending) := by
  induction n with
  | zero =>
    intro s _ _ _
    rfl
  | succ n ih =>
    intro s hs hfinal hending
    rcases hround : p.round s with t | ⟨i, landed, after⟩ | ⟨i, landed, after, why⟩ | fault
    · obtain ⟨r, hnext, rfl⟩ := round_eq_stuck_iff.mp hround
      have hround' : p.round (s.mapInput (.onto bs' ending))
          = .stuck (State.mapInput (.onto bs' ending) { s with regs := r }) :=
        round_eq_stuck_iff.mpr ⟨r, hnext, rfl⟩
      rw [run_of_stuck n hround, run_of_stuck n hround']
      rfl
    · obtain ⟨r, hnext, rfl, hexecute⟩ := round_eq_done_iff.mp hround
      rw [run_of_done n hround] at hfinal hending
      -- what is read later is not less, so something is left already now
      obtain ⟨later, hlater⟩ := p.exists_follows_final n after
      have hle : after.input.consumed ≤ c := by
        rw [← hfinal, hlater.consumed]
        exact Nat.le_add_right _ _
      obtain ⟨now, hnow⟩ := State.exists_follows_execute { s with regs := r } i
      rw [hexecute] at hnow
      have hafter : after.input.Within bs := hs.follows hnow
      have hmore : after.input.unread ≠ [] := hafter.unread_ne_nil (Nat.lt_of_le_of_lt hle hc)
      have hround' : p.round (s.mapInput (.onto bs' ending))
          = .done i (State.mapInput (.onto bs' ending) { s with regs := r })
            (after.mapInput (.onto bs' ending)) :=
        round_eq_done_iff.mpr
          ⟨r, hnext, rfl, State.execute_onto hexecute hs hmore hle hagree ending⟩
      rw [run_of_done n hround, run_of_done n hround', ih hafter hfinal hending]
      rfl
    · rw [run_of_failed n hround] at hending
      exact absurd hending (by simp)
    · rw [run_of_broken n hround] at hending
      exact absurd hending (by simp)

/-- **Bytes that were not read cannot change a run.**  If a run has not failed and has read some of
the bytes, but not all of them, then on any bytes that begin with those it carries out the same
instructions, with the same registers, stack and output after each, has read as many bytes after
each, and ends the same way. -/
theorem run_of_agree (raw : Grid Codel) (n : Nat) (r : Registers) (stack : List Int)
    (output : String) (bs bs' : List UInt8) (ending ending' : Input.Ending) (run : Run)
    (hrun : (segment raw).run n ⟨r, stack, .ofBytes bs ending, output⟩ = run)
    (hending : run.ending = .halted ∨ run.ending = .limit)
    (hc : run.final.input.consumed < bs.length)
    (hagree : bs.take run.final.input.consumed <+: bs') :
    (segment raw).run n ⟨r, stack, .ofBytes bs' ending', output⟩
      = run.mapInput (.onto bs' ending') := by
  subst hrun
  exact run_onto ending' hagree hc n (Input.within_ofBytes bs ending) rfl hending

/-- A row that reads a character and then a number. -/
def questions : Grid Codel where
  size := ⟨4, 1⟩
  cells := #[.color ⟨.red, .normal⟩, .color ⟨.magenta, .normal⟩, .color ⟨.cyan, .light⟩, .black]
  size_cells := rfl

/-- Two reads leave the last byte.  Without it they do the same, though the input then ends. -/
theorem run_of_agree_in_questions :
    let start (bs : List UInt8) (ending : Input.Ending) : State :=
      ⟨.initial, [], .ofBytes bs ending, ""⟩
    let run := (segment questions).run 2 (start [0xC3, 0xA9, 0x37, 0x0A, 0x38] .closed)
    run.ending = .limit ∧ run.final.stack = [7, 0xE9] ∧ run.final.input.consumed = 4 ∧
      (segment questions).run 2 (start [0xC3, 0xA9, 0x37, 0x0A] .interrupt)
        = run.mapInput (.onto [0xC3, 0xA9, 0x37, 0x0A] .interrupt) := by
  intro start run
  have hending : run.ending = .limit := by decide +kernel
  have hstack : run.final.stack = [7, 0xE9] := by decide +kernel
  have hconsumed : run.final.input.consumed = 4 := by decide +kernel
  refine ⟨hending, hstack, hconsumed, ?_⟩
  refine run_of_agree questions 2 .initial [] "" [0xC3, 0xA9, 0x37, 0x0A, 0x38] _ .closed .interrupt
    run rfl (Or.inr hending) ?_ ?_
  · rw [hconsumed]
    decide
  · rw [hconsumed]
    exact List.prefix_rfl

end Program

end PietLang
