import PietLang.Command.Session
import PietLang.Picture.Pixmap
import PietLang.Web.Client

/-!
# Main — the command

Files are read from the disk, where pictures are binary pixmaps; no address on the web answers.
Input is taken from the terminal only when the program asks for it, a line at a time, and output
is shown as soon as it is written.
-/

namespace PietLang.Terminal

/-- What stands under a path on the disk. -/
def file? (path : String) : IO (Option (Source.File ByteArray)) := do
  try
    return some (.content (← IO.FS.readBinFile path))
  catch
    | .inappropriateType .. => return some .directory
    | _ => return none

/-- The pixels of a pixmap. -/
def decode (bytes : ByteArray) : Except Raised (Grid Pixel) :=
  match Pixmap.decode? bytes with
  | some pixels => .ok pixels
  | none => .error ⟨.unidentifiedImage, "cannot identify image file <_io.BytesIO object>"⟩

/-- A client whose requests are never answered. -/
def client : Source.Client Url ByteArray where
  parse := Web.parse fun _ => none
  send _ := .error ⟨.transport, "connection refused"⟩
  check := Web.check

/-- The bytes up to the next line feed, or to the end. -/
partial def readLine (stdin : IO.FS.Stream) (taken : List UInt8) : IO (List UInt8) := do
  match (← stdin.read 1).toList with
  | [] => return taken.reverse
  | b :: _ => if b = 0x0A then return (b :: taken).reverse else readLine stdin (b :: taken)

/-- Shows what has been written and noted. -/
def put (out notes : String) : IO Unit := do
  let stdout ← IO.getStdout
  let stderr ← IO.getStderr
  stdout.putStr out
  stdout.flush
  stderr.putStr notes
  stderr.flush

/-- Carries a session to its end; `closed` says that no more input will come. -/
partial def serve (closed : Bool) (p : Command.Progress) : IO UInt32 := do
  match p with
  | .ended r =>
    put r.stdout r.stderr
    match r.exit with
    | .ok code => return code.toUInt32
    | .error c =>
      put "" (c.message ++ "\n")
      return 1
  | .running s =>
    if !closed && s.isStarved then
      let bs ← readLine (← IO.getStdin) []
      serve bs.isEmpty (.running (s.feed bs))
    else
      let (out, notes, s) := s.drain
      put out notes
      serve closed s.advance

/-- The command with its arguments. -/
def command (arguments : List String) : IO UInt32 := do
  let found ← match Command.Options.parse arguments with
    | .ok o => if Source.isUrl o.image then pure none else file? o.image
    | .error _ => pure none
  serve false (Command.start arguments ⟨fun _ => found, client, decode⟩ (.ofBytes [] .closed))

end PietLang.Terminal

def main (arguments : List String) : IO UInt32 := PietLang.Terminal.command arguments
