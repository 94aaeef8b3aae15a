/-!
# Color/Basic — the eighteen colours, and what one cell of a scanned picture holds

A colour is a hue and a lightness, each on a cycle.  The change from one colour to another is the
pair of distances around the two cycles; it does not move when both colours are shifted together.

A codel is a colour or a number.  Two numbers have names, `black` and `white`; every other number
stands for no colour at all and is walked through like white.
-/

namespace PietLang

/-- The hues, in the order of their cycle. -/
inductive Hue where
  | red
  | yellow
  | green
  | cyan
  | blue
  | magenta
deriving DecidableEq, Repr

/-- The lightnesses, in the order of their cycle. -/
inductive Lightness where
  | light
  | normal
  | dark
deriving DecidableEq, Repr

namespace Hue

/-- The hues in order. -/
def all : List Hue := [.red, .yellow, .green, .cyan, .blue, .magenta]

/-- The place on the cycle. -/
def index : Hue → Nat
  | .red => 0
  | .yellow => 1
  | .green => 2
  | .cyan => 3
  | .blue => 4
  | .magenta => 5

/-- The name in lower case. -/
def name : Hue → String
  | .red => "red"
  | .yellow => "yellow"
  | .green => "green"
  | .cyan => "cyan"
  | .blue => "blue"
  | .magenta => "magenta"

end Hue

namespace Lightness

/-- The lightnesses in order. -/
def all : List Lightness := [.light, .normal, .dark]

/-- The place on the cycle. -/
def index : Lightness → Nat
  | .light => 0
  | .normal => 1
  | .dark => 2

/-- The name in lower case. -/
def name : Lightness → String
  | .light => "light"
  | .normal => "normal"
  | .dark => "dark"

end Lightness

/-- A colour: a hue and a lightness. -/
structure Color where
  hue : Hue
  lightness : Lightness
deriving DecidableEq, Repr

namespace Color

/-- The eighteen colours. -/
def all : List Color :=
  Hue.all.flatMap fun h => Lightness.all.map fun l => ⟨h, l⟩

/-- The name of a colour: `light red`. -/
def name (c : Color) : String := s!"{c.lightness.name} {c.hue.name}"

/-- The steps around the cycle of hues that lead from `old` to `new`. -/
def hueChange (old new : Color) : Nat := (new.hue.index + 6 - old.hue.index) % 6

/-- The steps around the cycle of lightnesses that lead from `old` to `new`. -/
def lightnessChange (old new : Color) : Nat :=
  (new.lightness.index + 3 - old.lightness.index) % 3

end Color

/-- What one cell of a scanned picture holds. -/
inductive Codel where
  | color (c : Color)
  | mark (n : Int)
deriving DecidableEq, Repr

namespace Codel

/-- The mark of a wall. -/
@[match_pattern] def black : Codel := .mark (-1)

/-- The mark of free space. -/
@[match_pattern] def white : Codel := .mark (-2)

end Codel

end PietLang
