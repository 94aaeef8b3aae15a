import PietLang.Text.Basic
import PietLang.Text.Quoted

/-!
# Web/Url — addresses on the web, in the form that is sent

An address is taken apart, each part is brought into its normal form, and the parts are put together
again.  The scheme and the host are written small, the port is left out where the scheme implies it,
dots among the segments of the path are resolved, and characters that a part may not hold are
written as bytes.

A host is an address of version 4, an address of version 6 in brackets, or a name.  What is shaped
like one of the first two must be one.  Four numbers count as the first shape whatever character
divides them, but only points divide a valid one.
-/

namespace PietLang

/-! ## Characters by the bytes of their UTF-8 form

The percent sign may stand everywhere, so what is written in bytes already is kept. -/

namespace Percent

/-- A byte as a percent sign and two upper-case hexadecimal digits. -/
def byte (b : UInt8) : String := "%" ++ (Text.hex 2 b.toNat).toUpper

/-- A character as its bytes. -/
def char (c : Char) : String := String.join ((String.utf8EncodeChar c).map byte)

/-- The text with all characters but the safe ones written as bytes. -/
def encode (isSafe : Char → Bool) (s : String) : String :=
  String.join (s.toList.map fun c => if isSafe c then c.toString else char c)

end Percent

/-! ## Hosts -/

namespace Host

/-- Whether a text is made of four numbers with single characters of any kind between them.  A
digit may divide two numbers as well, so a run of digits can make up for dividers that lack. -/
def isFourNumbers (cs : List Char) : Bool :=
  let runs := (Text.splitWhere (fun c => !Text.isPlainDigit c) cs).map List.length
  let spare := runs.foldl (fun total n => total + (n - 1) / 2) 0
  runs.all (1 ≤ ·) && runs.length ≤ 4 && 4 - runs.length ≤ spare

/-- Whether a text is a number below 256 without needless zeros. -/
def isByte (s : String) : Bool :=
  let cs := s.toList
  !cs.isEmpty && cs.length ≤ 3 && cs.all Text.isPlainDigit
    && (cs.length = 1 || cs.head? ≠ some '0')
    && Decimal.value (cs.map Text.plainDigit) < 256

/-- Whether a text is an address of four bytes. -/
def isIPv4 (s : String) : Bool :=
  let parts := Text.split '.' s
  parts.length = 4 && parts.all isByte

/-- Whether a character is a hexadecimal digit. -/
def isHexDigit (c : Char) : Bool :=
  Text.isPlainDigit c || ('a' ≤ c && c ≤ 'f') || ('A' ≤ c && c ≤ 'F')

/-- Whether a text is a group: one to four hexadecimal digits. -/
def isGroup (s : String) : Bool :=
  !s.toList.isEmpty && s.toList.length ≤ 4 && s.toList.all isHexDigit

/-- The parts between colons, where four bytes at the end count as two groups. -/
def splitGroups (s : String) : List String :=
  let parts := Text.split ':' s
  match parts.getLast? with
  | some last => if isIPv4 last then parts.dropLast ++ ["0", "0"] else parts
  | none => parts

/-- The groups before or after a gap; a colon at the very end belongs to the gap. -/
def besideGap (groups : List String) : List String := if groups = [""] then [] else groups

/-- Whether the parts between colons make eight groups, or fewer around one gap. -/
def areGroups (parts : List String) : Bool :=
  let inner := (parts.drop 1).dropLast
  if inner.contains "" then
    let before := parts.take (1 + (inner.takeWhile (· ≠ "")).length)
    let after := parts.drop (before.length + 1)
    let groups := besideGap before ++ besideGap after
    groups.length ≤ 7 && groups.all isGroup
  else parts.length = 8 && parts.all isGroup

/-- Whether a text is an address of eight groups, perhaps with a zone after a percent sign. -/
def isIPv6 (s : String) : Bool :=
  match Text.split '%' s with
  | [address] => areGroups (splitGroups address)
  | [address, zone] => zone ≠ "" && areGroups (splitGroups address)
  | _ => false

/-- Why a host is none. -/
inductive Error where
  | notIPv4 (host : String)
  | notIPv6 (host : String)
  | notName (host : String)
deriving DecidableEq, Repr

/-- The text of the error. -/
def Error.message : Host.Error → String
  | .notIPv4 host => s!"Invalid IPv4 address: {Text.quoted host}"
  | .notIPv6 host => s!"Invalid IPv6 address: {Text.quoted host}"
  | .notName host => s!"Invalid IDNA hostname: {Text.quoted host}"

/-- Whether a character may stand in a name as it is. -/
def isSafe (c : Char) : Bool :=
  c.isAlphanum || "-._~!$&'()*+,;=\"`\x7b\x7d%|\\".toList.contains c

/-- What stands between square brackets, if nothing stands around them. -/
def bracketed? : List Char → Option (List Char)
  | '[' :: cs => if cs.getLast? = some ']' then some cs.dropLast else none
  | _ => none

/-- A name in the form that it is looked up in, where `encode?` gives the form of a name in another
script. -/
def name (encode? : String → Option String) (s : String) : Except Host.Error String :=
  if s.toList.all fun c => c.toNat < 0x80 then .ok (Percent.encode isSafe s.toLower)
  else
    match encode? s with
    | some t => .ok t
    | none => .error (.notName s)

/-- A host in the form that it is looked up in, without brackets. -/
def normal (encode? : String → Option String) (s : String) : Except Host.Error String :=
  if isFourNumbers s.toList then
    if isIPv4 s then .ok s else .error (.notIPv4 s)
  else
    match bracketed? s.toList with
    | some cs =>
      let groups := String.ofList cs
      if isIPv6 groups then .ok groups else .error (.notIPv6 s)
    | none => name encode? s

end Host

/-! ## Addresses -/

/-- The ways to ask for an address. -/
inductive Scheme where
  | http
  | https
deriving DecidableEq, Repr

namespace Scheme

/-- The scheme as it is written. -/
def name : Scheme → String
  | .http => "http"
  | .https => "https"

/-- The port that is asked where no other is given. -/
def port : Scheme → Int
  | .http => 80
  | .https => 443

/-- The scheme of an address. -/
def ofAddress (s : String) : Scheme := if s.startsWith "https:" then .https else .http

end Scheme

/-- An address in normal form. -/
structure Url where
  scheme : Scheme
  userinfo : String
  /-- The host, without brackets. -/
  host : String
  /-- The port at the host, unless the scheme implies it. -/
  port : Option Int
  path : String
  query : Option String
  fragment : Option String
deriving DecidableEq, Repr

namespace Url

/-- Why an address is none. -/
inductive Error where
  | tooLong
  | control (c : Char) (position : Nat)
  | host (e : Host.Error)
  | port (text : String)
deriving DecidableEq, Repr

/-- The text of the error. -/
def Error.message : Url.Error → String
  | .tooLong => "URL too long"
  | .control c position =>
    s!"Invalid non-printable ASCII character in URL, {Text.quoted c.toString} at position "
      ++ s!"{position}."
  | .host e => e.message
  | .port text => s!"Invalid port: {Text.quoted text}"

/-! ## Characters -/

/-- Whether a character is a control. -/
def isControl (c : Char) : Bool := c.toNat < 0x20 || c.toNat = 0x7F

/-- Whether a character is one of those that may stand in an address at all. -/
def isPlain (c : Char) : Bool := !isControl c && c.toNat < 0x7F

/-- Whether a character may stand in a fragment. -/
def isFragment (c : Char) : Bool := isPlain c && !" \"<>`".toList.contains c

/-- Whether a character may stand in a query. -/
def isQuery (c : Char) : Bool := isPlain c && !" \"#<>".toList.contains c

/-- Whether a character may stand in a path. -/
def isPath (c : Char) : Bool := isQuery c && !"?`\x7b\x7d".toList.contains c

/-- Whether a character may stand before the host. -/
def isUserinfo (c : Char) : Bool := isPath c && !"/;=@[\\]^|".toList.contains c

/-! ## Parts -/

/-- The characters before the last one of a kind and those after it, if there is one. -/
def splitLast (c : Char) (cs : List Char) : Option (List Char × List Char) :=
  match cs.reverse.dropWhile (· ≠ c) with
  | [] => none
  | _ :: before => some (before.reverse, (cs.reverse.takeWhile (· ≠ c)).reverse)

/-- The host and what follows it.  A host in brackets ends with the last bracket, any other one
before a colon. -/
def splitHost (cs : List Char) : List Char × List Char :=
  match cs.head?, splitLast ']' cs with
  | some '[', some (host, rest) => (host ++ [']'], rest)
  | _, _ => cs.span (· ≠ ':')

/-- The port that a text names. -/
def port? (scheme : Scheme) (text : String) : Except Url.Error (Option Int) :=
  if text = "" then .ok none
  else
    match Numeral.ofText? text with
    | none => .error (.port text)
    | some n => .ok (if n = scheme.port then none else some n)

/-- The segments of a path, the last one first, with dots resolved: a single dot is left out, and
two dots take the segment before them away. -/
def resolve (segments : List String) : List String :=
  segments.foldl
    (fun done s =>
      if s = "." then done
      else if s = ".." then (if done = [""] then done else done.tail)
      else s :: done)
    []

/-- A path with dots resolved. -/
def resolvePath (path : String) : String :=
  "/".intercalate (resolve (Text.split '/' path)).reverse

/-- What follows a sign, if the text starts with it. -/
def after? (sign : Char) : List Char → Option (List Char)
  | [] => none
  | c :: cs => if c = sign then some cs else none

/-- The address after its scheme and two slashes, taken apart. -/
def ofRest (encode? : String → Option String) (scheme : Scheme) (cs : List Char) :
    Except Url.Error Url := do
  let (authority, cs) := cs.span fun c => c ≠ '/' && c ≠ '?' && c ≠ '#'
  let (path, cs) := cs.span fun c => c ≠ '?' && c ≠ '#'
  let query := (after? '?' cs).map fun q => q.takeWhile (· ≠ '#')
  let fragment := after? '#' (cs.dropWhile (· ≠ '#'))
  let (userinfo, place) := (splitLast '@' authority).getD ([], authority)
  let (host, tail) := splitHost place
  let host ← (Host.normal encode? (String.ofList host)).mapError .host
  let port ← port? scheme (String.ofList ((after? ':' tail).getD tail))
  return {
    scheme, host, port
    userinfo := Percent.encode isUserinfo (String.ofList userinfo)
    path := Percent.encode isPath (resolvePath (String.ofList path))
    query := query.map fun q => Percent.encode isQuery (String.ofList q)
    fragment := fragment.map fun f => Percent.encode isFragment (String.ofList f) }

/-- The greatest length of an address. -/
def maxLength : Nat := 65536

/-- An address in normal form. -/
def ofText (encode? : String → Option String) (s : String) : Except Url.Error Url :=
  let cs := s.toList
  if maxLength < cs.length then .error .tooLong
  else
    match cs.span fun c => !isControl c with
    | (before, c :: _) => .error (.control c before.length)
    | _ =>
      let scheme := Scheme.ofAddress s
      ofRest encode? scheme (cs.drop (scheme.name.length + 3))

/-! ## Text -/

/-- The part of an address that says who is asked. -/
def authority (u : Url) : String :=
  (if u.userinfo = "" then "" else u.userinfo ++ "@")
    ++ (if u.host.toList.contains ':' then "[" ++ u.host ++ "]" else u.host)
    ++ match u.port with
      | none => ""
      | some n => ":" ++ Decimal.text n

/-- An address as it is written. -/
def text (u : Url) : String :=
  u.scheme.name ++ ":" ++ (if u.authority = "" then "" else "//" ++ u.authority) ++ u.path
    ++ ((u.query.map fun q => "?" ++ q).getD "")
    ++ ((u.fragment.map fun f => "#" ++ f).getD "")

end Url

end PietLang
