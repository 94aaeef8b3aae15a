import PietLang.Color.Basic

/-!
# Color/Palette — colours as red, green and blue

The palette lists the triples of the eighteen colours.  Reading a triple back is exact: only those
of the palette name a colour.
-/

namespace PietLang

/-- A pixel value by channels. -/
structure Rgb where
  red : Int
  green : Int
  blue : Int
deriving DecidableEq, Repr

namespace Color

/-- The palette, entry by entry. -/
def palette : List (Rgb × Color) :=
  [(⟨0xFF, 0xC0, 0xC0⟩, ⟨.red, .light⟩),
    (⟨0xFF, 0x00, 0x00⟩, ⟨.red, .normal⟩),
    (⟨0xC0, 0x00, 0x00⟩, ⟨.red, .dark⟩),
    (⟨0xFF, 0xFF, 0xC0⟩, ⟨.yellow, .light⟩),
    (⟨0xFF, 0xFF, 0x00⟩, ⟨.yellow, .normal⟩),
    (⟨0xC0, 0xC0, 0x00⟩, ⟨.yellow, .dark⟩),
    (⟨0xC0, 0xFF, 0xC0⟩, ⟨.green, .light⟩),
    (⟨0x00, 0xFF, 0x00⟩, ⟨.green, .normal⟩),
    (⟨0x00, 0xC0, 0x00⟩, ⟨.green, .dark⟩),
    (⟨0xC0, 0xFF, 0xFF⟩, ⟨.cyan, .light⟩),
    (⟨0x00, 0xFF, 0xFF⟩, ⟨.cyan, .normal⟩),
    (⟨0x00, 0xC0, 0xC0⟩, ⟨.cyan, .dark⟩),
    (⟨0xC0, 0xC0, 0xFF⟩, ⟨.blue, .light⟩),
    (⟨0x00, 0x00, 0xFF⟩, ⟨.blue, .normal⟩),
    (⟨0x00, 0x00, 0xC0⟩, ⟨.blue, .dark⟩),
    (⟨0xFF, 0xC0, 0xFF⟩, ⟨.magenta, .light⟩),
    (⟨0xFF, 0x00, 0xFF⟩, ⟨.magenta, .normal⟩),
    (⟨0xC0, 0x00, 0xC0⟩, ⟨.magenta, .dark⟩)]

/-- The triple of a colour. -/
def rgb (c : Color) : Rgb :=
  ((palette.find? fun entry => entry.2 = c).map Prod.fst).getD ⟨0x00, 0x00, 0x00⟩

/-- The colour of a triple of the palette. -/
def ofRgb? (t : Rgb) : Option Color := palette.lookup t

end Color

end PietLang
