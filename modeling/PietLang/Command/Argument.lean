import PietLang.Text.Basic
import PietLang.Text.Quoted

/-!
# Command/Argument — what each argument of a command line is

Before any argument is acted on, each is read on its own: as an option, with or without a text
joined to it, as a value, as the divider after which everything is a value, or as an option that
nobody knows. A text is joined by an equals sign, or to a short option at once.  A long option may
be cut short as long as one option alone starts so.  What looks like a negative number, and what
has a space in it, is a value.
-/

namespace PietLang.Command

/-- The options that take no value. -/
inductive Flag where
  | help
  | dump
  | verbose
  | trace
deriving DecidableEq, Repr

/-- The options. -/
inductive Opt where
  | flag (f : Flag)
  | codelSize
deriving DecidableEq, Repr

namespace Opt

/-- The ways to write the options. -/
def spellings : List (String × Opt) :=
  [("-h", .flag .help), ("--help", .flag .help), ("-c", .codelSize), ("--codel-size", .codelSize),
    ("--dump", .flag .dump), ("-v", .flag .verbose), ("--verbose", .flag .verbose),
    ("--trace", .flag .trace)]

/-- All ways to write an option, as one name. -/
def label (o : Opt) : String :=
  "/".intercalate ((spellings.filter fun s => s.2 = o).map fun s => s.1)

/-- The option with a given spelling. -/
def ofSpelling? (s : String) : Option Opt := spellings.lookup s

end Opt

/-- What an argument is. -/
inductive Argument where
  | value (text : String)
  /-- The two dashes after which everything is a value. -/
  | divider
  /-- An option, whether it was written with a single dash, and what is joined to it. -/
  | option (o : Opt) (short : Bool) (joined : Option (List Char))
  /-- An option that nobody knows. -/
  | unknown (text : String)
deriving DecidableEq, Repr

namespace Argument

/-- Splits a text at its first equals sign. -/
def splitEquals : List Char → List Char × Option (List Char)
  | [] => ([], none)
  | '=' :: cs => ([], some cs)
  | c :: cs =>
    let (name, joined) := splitEquals cs
    (c :: name, joined)

/-- The text without a line feed at its end. -/
def dropLineFeed (cs : List Char) : List Char :=
  if cs.getLast? = some '\n' then cs.dropLast else cs

/-- Whether what follows a dash makes a negative number: digits, perhaps with a point before the
last of them. -/
def isNumber (cs : List Char) : Bool :=
  let body := dropLineFeed cs
  let rest := body.dropWhile Text.isDigit
  match rest with
  | [] => !body.isEmpty
  | '.' :: ds => !ds.isEmpty && ds.all Text.isDigit
  | _ => false

/-- What an argument is that starts with a dash and is not the spelling of an option. -/
def ofDashed (text : String) (rest : List Char) : Argument :=
  if isNumber rest || rest.contains ' ' then .value text else .unknown text

/-- The option, with its full spelling, that an argument with a single dash starts with. -/
def ofShort (text : String) (c : Char) (cs : List Char) : Argument :=
  match Opt.ofSpelling? (String.ofList ['-', c]) with
  | some o => .option o true (some cs)
  | none => ofDashed text (c :: cs)

/-- The options that start with the given letters, two dashes included. -/
def candidates (name : List Char) : List (String × Opt) :=
  Opt.spellings.filter fun s => name.isPrefixOf s.1.toList

/-- What is said about letters with which several options start. -/
def ambiguity (text : String) (found : List (String × Opt)) : String :=
  s!"ambiguous option: {text} could match " ++ ", ".intercalate (found.map fun s => s.1)

/-- What an argument with two dashes is, whose letters are cut short or belong to no option. -/
def ofLong (text : String) (rest : List Char) : Except String Argument :=
  let (name, joined) := splitEquals text.toList
  match candidates name with
  | [] => .ok (ofDashed text rest)
  | [(_, o)] => .ok (.option o false joined)
  | found => .error (ambiguity text found)

/-- Whether a spelling has a single dash. -/
def isShort (s : List Char) : Bool := s.length = 2

/-- What an argument is, or why it cannot be told. -/
def ofText (text : String) : Except String Argument :=
  match text.toList with
  | '-' :: c :: cs =>
    match Opt.ofSpelling? text, splitEquals text.toList with
    | some o, _ => .ok (.option o (isShort text.toList) none)
    | none, (name, joined) =>
      match Opt.ofSpelling? (String.ofList name), joined with
      | some o, some cs => .ok (.option o (isShort name) (some cs))
      | _, _ => if c = '-' then ofLong text (c :: cs) else .ok (ofShort text c cs)
  | _ => .ok (.value text)

/-- What the arguments of a command line are. -/
def ofTexts : List String → Except String (List Argument)
  | [] => .ok []
  | "--" :: texts => .ok (.divider :: texts.map .value)
  | text :: texts =>
    match ofText text, ofTexts texts with
    | .ok a, .ok rest => .ok (a :: rest)
    | .error e, _ => .error e
    | _, .error e => .error e

end Argument

end PietLang.Command
