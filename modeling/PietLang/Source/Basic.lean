import PietLang.Picture.Basic
import PietLang.Text.Quoted

/-!
# Source/Basic — pictures by name

A source is the path of a file, or an address on the web when it starts like one.  What stands under
a path, the client that asks the web and the decoder of pictures are given from outside, and the
client and the decoder may raise any error.

Errors come in classes, and a class may belong to another.  A guarded step raises the errors of some
classes again as failures to load, which are reported to the user, and lets all others pass.
Fetching and decoding are guarded, each for classes of its own; opening a file is not.
-/

namespace PietLang

/-! ## Errors -/

/-- The classes of errors. -/
inductive ErrorClass where
  /-- All errors. -/
  | any
  /-- The errors of this program, which the command reports to the user. -/
  | piet
  /-- A picture could not be loaded. -/
  | imageLoad
  /-- A request on the web failed. -/
  | http
  /-- A request got no answer. -/
  | transport
  /-- The status of an answer is no success. -/
  | status
  /-- An address is none. -/
  | invalidUrl
  /-- The system refused an operation. -/
  | os
  | fileNotFound
  | isADirectory
  /-- Bytes are no picture. -/
  | unidentifiedImage
  /-- A class that belongs to no other one here. -/
  | other (name : String)
deriving DecidableEq, Repr

namespace ErrorClass

/-- A class and all that it belongs to, the narrowest first. -/
def lineage : ErrorClass → List ErrorClass
  | .any => [.any]
  | .piet => [.piet, .any]
  | .imageLoad => [.imageLoad, .piet, .any]
  | .http => [.http, .any]
  | .transport => [.transport, .http, .any]
  | .status => [.status, .http, .any]
  | .invalidUrl => [.invalidUrl, .any]
  | .os => [.os, .any]
  | .fileNotFound => [.fileNotFound, .os, .any]
  | .isADirectory => [.isADirectory, .os, .any]
  | .unidentifiedImage => [.unidentifiedImage, .os, .any]
  | .other name => [.other name, .any]

/-- An error of the class `c` is one of the class `d`. -/
def IsA (c d : ErrorClass) : Prop := d ∈ c.lineage

instance (c d : ErrorClass) : Decidable (c.IsA d) := inferInstanceAs (Decidable (d ∈ c.lineage))

end ErrorClass

/-- An error that was raised. -/
structure Raised where
  kind : ErrorClass
  message : String
deriving DecidableEq, Repr

namespace Source

/-- A failure to load. -/
def loadError (message : String) : Raised := ⟨.imageLoad, message⟩

/-- An error of the system about a file, with the number that it has there. -/
def systemError (kind : ErrorClass) (number : Nat) (what name : String) : Raised :=
  ⟨kind, s!"[Errno {number}] {what}: {Text.quoted name}"⟩

/-- A step whose errors of the classes `caught` are raised again as failures to load, with `what` in
front of their texts. -/
def guarded {α : Type} (caught : List ErrorClass) (what : String) (step : Except Raised α) :
    Except Raised α :=
  match step with
  | .ok a => .ok a
  | .error e =>
    if ∃ c ∈ caught, e.kind.IsA c then .error (loadError (what ++ e.message)) else .error e

/-! ## What is given from outside -/

/-- An answer from the web. -/
structure Answer (α β : Type) where
  /-- The address that answered, after all redirections. -/
  address : α
  status : Int
  content : β
deriving DecidableEq, Repr

/-- A client for the web, with addresses in `α` and contents in `β`. -/
structure Client (α β : Type) where
  /-- The address that a text names. -/
  parse : String → Except Raised α
  /-- The answer to a request. -/
  send : α → Except Raised (Answer α β)
  /-- Raises an error unless the status of an answer is a success. -/
  check : Answer α β → Except Raised Unit

/-- The answer from an address: the text is parsed first, and then the address is asked. -/
def Client.get {α β : Type} (c : Client α β) (url : String) : Except Raised (Answer α β) := do
  let address ← c.parse url
  c.send address

/-- What stands under a name. -/
inductive File (β : Type) where
  | content (b : β)
  | directory
deriving DecidableEq, Repr

/-- All that is within reach of the program. -/
structure Reach (α β : Type) where
  file? : String → Option (File β)
  client : Client α β
  /-- The pixels that bytes hold. -/
  decode : β → Except Raised (Grid Pixel)

/-! ## Loading -/

variable {α β : Type}

/-- Whether a source is an address on the web. -/
def isUrl (source : String) : Bool := source.startsWith "http://" || source.startsWith "https://"

/-- The content of the answer from an address. -/
def fetch (r : Reach α β) (url : String) : Except Raised β :=
  guarded [.http] "Failed to fetch image: " do
    let answer ← r.client.get url
    r.client.check answer
    return answer.content

/-- The content of a file, as the system gives it. -/
def openFile (r : Reach α β) (name : String) : Except Raised β :=
  match r.file? name with
  | some (.content b) => .ok b
  | some .directory => .error (systemError .isADirectory 21 "Is a directory" name)
  | none => .error (systemError .fileNotFound 2 "No such file or directory" name)

/-- The content of a source. -/
def read (r : Reach α β) (source : String) : Except Raised β :=
  if isUrl source then fetch r source
  else if (r.file? source).isNone then .error (loadError s!"Image file not found: {source}")
  else openFile r source

/-- The picture of a source. -/
def load (r : Reach α β) (source : String) : Except Raised Picture := do
  let bytes ← read r source
  guarded [.unidentifiedImage, .os] "Failed to open image: " do
    let pixels ← r.decode bytes
    return Picture.ofPixels pixels

end Source

end PietLang
