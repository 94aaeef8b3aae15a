import PietLang.Source.Basic
import PietLang.Text.Basic

/-!
# Source/Folder — files by their paths

A folder lists what stands below it.  A path leads through it from name to name: an empty name and
a single dot stay, two dots go up, and any other name goes down.  Every name but the last must lead
on from a directory.  Of what lies above the folder only directories are known, and no way leads
down from them again.
-/

namespace PietLang.Source

/-- What stands below a directory, each by the names that lead to it. -/
structure Folder (β : Type) where
  entries : List (List String × File β)

namespace Folder

variable {β : Type}

/-- The names that a path is made of. -/
def names (path : String) : List String := Text.split '/' path

/-- Whether a name of a path stays where it is. -/
def stays (name : String) : Bool := name = "" || name = "."

/-- The folder with the given paths in it. -/
def ofPaths (files : List (String × File β)) : Folder β :=
  ⟨files.map fun f => ((names f.1).filter fun n => !stays n, f.2)⟩

/-- Where a path has led. -/
inductive Place where
  /-- To the end of a way down, the last name first. -/
  | below (way : List String)
  /-- Out of the folder. -/
  | above
deriving DecidableEq, Repr

/-- What stands at the end of a way down.  A way that others go on from ends in a directory. -/
def entry? (f : Folder β) (way : List String) : Option (File β) :=
  match f.entries.lookup way.reverse with
  | some file => some file
  | none =>
    if way.isEmpty || f.entries.any (fun e => way.reverse.isPrefixOf e.1) then some .directory
    else none

/-- What stands at a place. -/
def file? (f : Folder β) : Place → Option (File β)
  | .above => some .directory
  | .below way => f.entry? way

/-- The place that a name leads to from a directory. -/
def Place.step (name : String) : Place → Option Place
  | .above => if stays name || name = ".." then some .above else none
  | .below way =>
    if stays name then some (.below way)
    else if name = ".." then
      match way with
      | [] => some .above
      | _ :: up => some (.below up)
    else some (.below (name :: way))

/-- The place that some names lead to. -/
def walk (f : Folder β) : List String → Place → Option Place
  | [], p => some p
  | name :: rest, p =>
    match f.file? p with
    | some .directory => (p.step name).bind (walk f rest)
    | _ => none

/-- What stands under a path. -/
def find? (f : Folder β) (path : String) : Option (File β) :=
  if path = "" then none
  else
    let start := if path.startsWith "/" then .above else .below []
    (f.walk (names path) start).bind f.file?

end Folder

end PietLang.Source
