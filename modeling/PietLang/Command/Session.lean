import PietLang.Command.Options
import PietLang.Machine.Run
import PietLang.Program.Segment
import PietLang.Source.Basic

/-!
# Command/Session — the command from its arguments to its report

Every entry of the journal belongs to a part of the work and has a level.  All entries are shown on
request; those of the running machine can be asked for alone.

`start` does all that comes before the first instruction; `advance` does one round.  A session
that has ended is a report: what was written where, and the exit code, or a cause that the command
does not answer for.
-/

namespace PietLang.Command

/-! ## The journal -/

/-- Something that happened. -/
inductive Entry where
  | fetching (url : String)
  | classified (size : Size) (codelSize : Int)
  | segmented (size : Size) (blocks : Nat)
  /-- An instruction is about to be carried out. -/
  | executing (i : Instruction) (s : State)
  | stuck (r : Registers)
  | halted (steps depth : Nat)
  | finished (steps : Nat) (stack : List Int)
deriving DecidableEq, Repr

namespace Entry

/-- The level of an entry. -/
def level : Entry → String
  | .fetching _ | .halted .. | .finished .. => "INFO"
  | .classified .. | .segmented .. | .executing .. | .stuck _ => "DEBUG"

/-- The part of the work that an entry belongs to. -/
def part : Entry → String
  | .fetching _ => "piet.loader"
  | .classified .. => "piet.classify"
  | .segmented .. => "piet.program"
  | .executing .. | .stuck _ | .halted .. => "piet.engine"
  | .finished .. => "piet_interpreter"

/-- Whether an entry is one of the running machine. -/
def isMachine (e : Entry) : Bool := e.part = "piet.engine"

/-- A stack as text, its top last: `[1, -2]`. -/
def stackText (stack : List Int) : String :=
  "[" ++ ", ".intercalate (stack.reverse.map Decimal.text) ++ "]"

/-- Registers as text, with the numbers of the direction and the chooser. -/
def registersText (r : Registers) : String :=
  s!"Registers(pc={r.pc.text}, dp=<Direction.{r.dp.name}: {r.dp.quarter}>, "
    ++ s!"cc=<Rotation.{r.cc.name}: {r.cc.index}>)"

/-- What an entry says. -/
def message : Entry → String
  | .fetching url => s!"Fetching {url}"
  | .classified s c => s!"Classified {s.width}x{s.height} codels (codel size {c})"
  | .segmented s n => s!"Segmented {s.width}x{s.height} grid into {n} blocks"
  | .executing i s =>
    Text.leftAligned 10 i.opcode.mnemonic ++ " operand="
      ++ Text.leftAligned 4 (Decimal.text i.operand)
      ++ s!" pc={s.regs.pc.text} dp={s.regs.dp.name} cc={s.regs.cc.name} stack={stackText s.stack}"
  | .stuck r => s!"Stuck at {registersText r}"
  | .halted steps depth => s!"Program halted after {steps} instructions (stack depth {depth})"
  | .finished steps stack => s!"Executed {steps} instructions, final stack: {stackText stack}"

/-- The line of an entry. -/
def line (e : Entry) : String := s!"{e.level} {e.part}: {e.message}\n"

end Entry

/-! ## Sessions -/

/-- A cause that the command does not answer for. -/
inductive Crash where
  /-- The codel size was left without a value. -/
  | noCodelSize
  | source (e : Raised)
  | picture (e : Picture.Error)
  | plane (e : Plane.Error)
  | failure (f : Failure)
deriving DecidableEq, Repr

/-- The text of the cause. -/
def Crash.message : Crash → String
  | .noCodelSize => "'<' not supported between instances of 'list' and 'int'"
  | .source e => e.message
  | .picture e => e.message
  | .plane e => e.message
  | .failure f => f.message

/-- How the command ended. -/
structure Report where
  stdout : String
  stderr : String
  /-- The exit code, unless the command was stopped by a cause that it does not answer for. -/
  exit : Except Crash Nat

/-- A program that is being run. -/
structure Session where
  options : Options
  program : Program
  state : State
  /-- The number of instructions carried out. -/
  steps : Nat
  /-- The lines noted so far. -/
  notes : String

/-- A session, or the report that it ended with. -/
inductive Progress where
  | running (s : Session)
  | ended (r : Report)

namespace Options

/-- Whether an entry of the journal is shown. -/
def shows (o : Options) (e : Entry) : Bool := o.verbose || (o.trace && e.isMachine)

/-- The lines of the entries that are shown. -/
def note (o : Options) (es : List Entry) : String :=
  String.join ((es.filter o.shows).map Entry.line)

end Options

namespace Session

/-- The report of a session that ends with the exit code `code`, with more lines at the end. -/
def ended (s : Session) (notes : String) (code : Nat) : Progress :=
  .ended ⟨s.state.output, s.notes ++ notes, .ok code⟩

/-- The report of a session that ends with a failure. -/
def failed (s : Session) (f : Failure) : Progress :=
  if f = .input .interrupted then s.ended "\n[Interrupted]\n" 130
  else if f.isReported then s.ended s!"Error: {f.message}\n" 1
  else .ended ⟨s.state.output, s.notes, .error (.failure f)⟩

/-- The session with further entries noted. -/
def note (s : Session) (es : List Entry) : Session :=
  { s with notes := s.notes ++ s.options.note es }

/-- One round of a session. -/
def advance (s : Session) : Progress :=
  match s.program.round s.state with
  | .stuck t =>
    let s := s.note
      [.stuck t.regs, .halted s.steps t.stack.length, .finished s.steps t.stack]
    { s with state := t }.ended "" 0
  | .done i landed t =>
    let s := s.note [.executing i landed]
    .running { s with state := t, steps := s.steps + 1 }
  | .failed i landed t why =>
    let s := s.note [.executing i landed]
    { s with state := t }.failed why
  | .broken why => s.failed (.program why)

/-- Whether the next round would find too few bytes in the input. -/
def isStarved (s : Session) : Bool :=
  match s.program.round s.state with
  | .failed _ _ _ (.input .endOfCharacter) => true
  | .failed _ _ _ (.input .endOfNumber) => true
  | .failed _ _ _ (.input .truncated) => true
  | _ => false

/-- The session with further bytes at the end of its input. -/
def feed (s : Session) (bs : List UInt8) : Session :=
  { s with state.input.unread := s.state.input.unread ++ bs }

/-- What a session has written and noted, and the session without it. -/
def drain (s : Session) : String × String × Session :=
  (s.state.output, s.notes, { s with state.output := "", notes := "" })

end Session

/-- The progress after at most `n` more rounds. -/
def Progress.after : Nat → Progress → Progress
  | n + 1, .running s => after n s.advance
  | _, p => p

/-- The list of blocks that is printed instead of running a program. -/
def dump (source : String) (p : Program) : Except Plane.Error String := do
  let lines ← p.describe
  let title :=
    s!"{source}: {p.size.width}x{p.size.height} codels, {p.blocks.size} color blocks"
  return String.join ((title :: lines).map fun line => line ++ "\n")

/-- Starts to run a program, or prints its blocks. -/
def launch (o : Options) (p : Program) (input : Input) (notes : String) : Progress :=
  if o.dump then
    match dump o.image p with
    | .ok text => .ended ⟨text, notes, .ok 0⟩
    | .error e => .ended ⟨"", notes, .error (.plane e)⟩
  else .running ⟨o, p, .initial input, 0, notes⟩

variable {α β : Type}

/-- Loads the picture that was chosen.  Of the errors that are raised only those of this program are
reported. -/
def load (o : Options) (reach : Source.Reach α β) (input : Input) : Progress :=
  let fetching := if Source.isUrl o.image then o.note [.fetching o.image] else ""
  match Source.load reach o.image with
  | .error e =>
    if e.kind.IsA .piet then .ended ⟨"", fetching ++ s!"Error: {e.message}\n", .ok 1⟩
    else .ended ⟨"", fetching, .error (.source e)⟩
  | .ok pic =>
    match pic.codels o.codelSize with
    | .error e => .ended ⟨"", fetching, .error (.picture e)⟩
    | .ok raw =>
      let notes := fetching ++ o.note [.classified raw.size o.codelSize]
      match Program.ofGrid raw with
      | .error e => .ended ⟨"", notes, .error (.plane e)⟩
      | .ok p => launch o p input (notes ++ o.note [.segmented raw.size p.blocks.size])

/-- The command up to its first instruction. -/
def start (arguments : List String) (reach : Source.Reach α β) (input : Input) : Progress :=
  match Options.parse arguments with
  | .error .help => .ended ⟨help, "", .ok 0⟩
  | .error (.error text) => .ended ⟨"", complaint text, .ok 2⟩
  | .error .noCodelSize => .ended ⟨"", "", .error .noCodelSize⟩
  | .ok o => load o reach input

end PietLang.Command
