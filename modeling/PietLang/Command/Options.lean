import PietLang.Command.Argument
import PietLang.Text.Basic

/-!
# Command/Options — how the command is used, and the choices that a command line makes

Arguments are acted on from left to right.  The first value is the picture; further values and
unknown options are gathered, and reported when all arguments are known to be well formed.
-/

namespace PietLang.Command

/-! ## Help -/

/-- The name under which the command speaks of itself. -/
def programName : String := "piet_interpreter.py"

/-- The usage in one line. -/
def usage : String :=
  s!"usage: {programName} [-h] [-c CODEL_SIZE] [--dump] [-v] [--trace] image\n"

/-- What follows the usage in the help. -/
def manual : List String :=
  ["",
    "Piet esoteric language interpreter",
    "",
    "positional arguments:",
    "  image                 Program image path or http(s) URL",
    "",
    "options:",
    "  -h, --help            show this help message and exit",
    "  -c CODEL_SIZE, --codel-size CODEL_SIZE",
    "                        Pixels per codel edge (default: 1)",
    "  --dump                Print the color blocks and exit",
    "  -v, --verbose         Debug logging to stderr",
    "  --trace               Log every executed instruction",
    "",
    "Piet Programming Language Interpreter",
    "",
    "Decode a Piet program image into color blocks and run it.",
    "",
    "Examples:",
    "    # Run a program drawn with 1x1 pixel codels",
    "    python3 piet_interpreter.py hello.png",
    "",
    "    # Program scaled up so every codel is 10x10 pixels",
    "    python3 piet_interpreter.py -c 10 hello_big.png",
    "",
    "    # Fetch the image over HTTP",
    "    python3 piet_interpreter.py https://example.org/piet/hello.png",
    "",
    "    # List the color blocks without running",
    "    python3 piet_interpreter.py --dump hello.png",
    "",
    "    # Log every executed instruction to stderr",
    "    python3 piet_interpreter.py --trace fizzbuzz.png"]

/-- The whole help. -/
def help : String := usage ++ String.join (manual.map fun line => line ++ "\n")

/-- What is said about arguments that cannot be understood. -/
def complaint (text : String) : String := usage ++ s!"{programName}: error: {text}\n"

/-! ## Choices -/

/-- The choices of a command line. -/
structure Options where
  image : String
  codelSize : Int
  dump : Bool
  verbose : Bool
  trace : Bool
deriving DecidableEq, Repr

/-- Why a command line leads to no choices. -/
inductive Stop where
  /-- The help was asked for. -/
  | help
  | error (text : String)
  /-- The codel size was left without a value. -/
  | noCodelSize
deriving DecidableEq, Repr

/-- A thing that an option asks for. -/
inductive Action where
  | flag (f : Flag)
  | codelSize (text : String)
deriving DecidableEq, Repr

/-- What an option and the letters joined to it ask for. -/
structure Cluster where
  actions : List Action
  /-- Whether the value after the option is used up. -/
  takesNext : Bool
deriving DecidableEq, Repr

namespace Cluster

/-- What is said about a text joined to an option that takes none. -/
def ignored (f : Flag) (joined : List Char) : String :=
  s!"argument {(Opt.flag f).label}: ignored explicit argument {Text.quoted (String.ofList joined)}"

/-- What an option asks for that no text is joined to, where `next` is the value after it. -/
def ofAlone (next : Option String) : Opt → Except String Cluster
  | .flag f => .ok ⟨[.flag f], false⟩
  | .codelSize =>
    match next with
    | some v => .ok ⟨[.codelSize v], true⟩
    | none => .error s!"argument {Opt.codelSize.label}: expected one argument"

/-- What an option asks for that a text is joined to.  The letters behind a short flag are further
short options, of which the last may have a text joined in its turn. -/
def ofJoined (next : Option String) (short : Bool) :
    (joined : List Char) → Opt → Except String Cluster
  | joined, .codelSize => .ok ⟨[.codelSize (String.ofList joined)], false⟩
  | [], .flag f => .error (ignored f [])
  | c :: cs, .flag f =>
    match if short then Opt.ofSpelling? (String.ofList ['-', c]) else none with
    | none => .error (ignored f (c :: cs))
    | some o =>
      let inner := if cs.isEmpty then ofAlone next o else ofJoined next short cs o
      inner.map fun k => { k with actions := .flag f :: k.actions }

/-- What an option asks for. -/
def ofOption (next : Option String) (o : Opt) (short : Bool) :
    Option (List Char) → Except String Cluster
  | none => ofAlone next o
  | some joined => ofJoined next short joined o

end Cluster

/-- The choices made so far. -/
structure Draft where
  image : Option String
  /-- The codel size, unless its value was dropped. -/
  codelSize : Option Int
  dump : Bool
  verbose : Bool
  trace : Bool
  /-- Arguments that nobody knows, the last one first. -/
  extras : List String
deriving DecidableEq, Repr

namespace Draft

/-- What holds when nothing is said. -/
def initial : Draft := ⟨none, some 1, false, false, false, []⟩

/-- Adds an argument that nobody knows. -/
def extra (d : Draft) (text : String) : Draft := { d with extras := text :: d.extras }

/-- Does what an option asks for.  Two dashes are no value, even where one must stand. -/
def act (d : Draft) : Action → Except Stop Draft
  | .flag .help => .error .help
  | .flag .dump => .ok { d with dump := true }
  | .flag .verbose => .ok { d with verbose := true }
  | .flag .trace => .ok { d with trace := true }
  | .codelSize "--" => .ok { d with codelSize := none }
  | .codelSize text =>
    match Numeral.ofText? text with
    | some n => .ok { d with codelSize := some n }
    | none =>
      .error (.error s!"argument {Opt.codelSize.label}: invalid int value: {Text.quoted text}")

/-- Takes the picture, or gathers a further value. -/
def value (d : Draft) (text : String) : Draft :=
  match d.image with
  | none => { d with image := some text }
  | some _ => d.extra text

/-- Acts on the arguments from left to right.  A divider beside the picture is dropped. -/
def walk : List Argument → Draft → Except Stop Draft
  | [], d => .ok d
  | .value text :: .divider :: rest, d =>
    if d.image.isNone then walk rest (d.value text)
    else walk rest ((d.value text).extra "--")
  | .value text :: rest, d => walk rest (d.value text)
  | .divider :: .value text :: rest, d =>
    if d.image.isNone then walk rest (d.value text)
    else walk rest ((d.extra "--").value text)
  | .divider :: rest, d => walk rest (d.extra "--")
  | .unknown text :: rest, d => walk rest (d.extra text)
  | .option o short joined :: .value text :: rest, d =>
    match Cluster.ofOption (some text) o short joined with
    | .error e => .error (.error e)
    | .ok k =>
      match k.actions.foldlM act d with
      | .error e => .error e
      | .ok d => if k.takesNext then walk rest d else walk (.value text :: rest) d
  | .option o short joined :: rest, d =>
    match Cluster.ofOption none o short joined with
    | .error e => .error (.error e)
    | .ok k =>
      match k.actions.foldlM act d with
      | .error e => .error e
      | .ok d => walk rest d

/-- The choices, once all arguments have been acted on. -/
def finish (d : Draft) : Except Stop Options :=
  match d.image, d.extras, d.codelSize with
  | none, _, _ => .error (.error "the following arguments are required: image")
  | some _, text :: texts, _ =>
    .error (.error ("unrecognized arguments: " ++ " ".intercalate (text :: texts).reverse))
  | some _, [], none => .error .noCodelSize
  | some image, [], some n =>
    if n < 1 then .error (.error "Codel size must be >= 1")
    else .ok ⟨image, n, d.dump, d.verbose, d.trace⟩

end Draft

/-- The choices of a command line. -/
def Options.parse (texts : List String) : Except Stop Options := do
  match Argument.ofTexts texts with
  | .error e => .error (.error e)
  | .ok arguments =>
    let d ← Draft.walk arguments .initial
    d.finish

end PietLang.Command
