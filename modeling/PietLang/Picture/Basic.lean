import PietLang.Color.Palette
import PietLang.Plane.Grid

/-!
# Picture/Basic — pictures, and the codels that they show

The channels of a pixel are first moved to one of three levels, so that a colour slightly off
still counts.  The levels then name a colour by their two extremes, which give the lightness, and
by the channels at the upper extreme, which give the hue.  What names no colour is black when all
levels are zero, and white otherwise.

An array of samples has its last index fastest.  To classify all of its pixels, every channel is
given the index of its level, and the three indices select one of 27 codels that are computed
beforehand.

A picture may store grey values and opacity; only its red, green and blue count.  When codels are
squares of pixels, the top left pixel of each square stands for it, and what is left over at the
right and at the bottom is dropped.
-/

namespace PietLang

/-- Why pixels cannot be read as codels. -/
inductive Picture.Error where
  /-- A pixel without channels has no level. -/
  | noChannels
  /-- A pixel needs three channels. -/
  | fewChannels (count : Nat)
  /-- The samples are not pixels in rows. -/
  | badShape (shape : List Nat)
  /-- A codel is at least one pixel wide. -/
  | badCodelSize (size : Int)
deriving DecidableEq, Repr

/-- The lengths of the sides as text: `(2, 2)`, and `(4,)` for a single one. -/
def Picture.shapeText : List Nat → String
  | [n] => s!"({n},)"
  | shape => "(" ++ ", ".intercalate (shape.map toString) ++ ")"

/-- The text of the error. -/
def Picture.Error.message : Picture.Error → String
  | .noChannels => "min() arg is an empty sequence"
  | .fewChannels n => s!"not enough values to unpack (expected 3, got {n})"
  | .badShape shape => s!"Expected an (H, W, 3) array, got shape {Picture.shapeText shape}"
  | .badCodelSize n => s!"Codel size must be >= 1, got {n}"

/-! ## Pixels -/

namespace Channel

/-- The values from which on a channel is at its second and third level. -/
def thresholds : List Int := [0x60, 0xE0]

/-- The level that a value is moved to. -/
def quantize (v : Int) : Int := if v < 0x60 then 0x00 else if v < 0xE0 then 0xC0 else 0xFF

end Channel

/-- Which of red, green and blue are at the high level. -/
def Hue.channels : Hue → Bool × Bool × Bool
  | .red => (true, false, false)
  | .yellow => (true, true, false)
  | .green => (false, true, false)
  | .cyan => (false, true, true)
  | .blue => (false, false, true)
  | .magenta => (true, false, true)

/-- The low and the high level of the channels. -/
def Lightness.levels : Lightness → Int × Int
  | .light => (0xC0, 0xFF)
  | .normal => (0x00, 0xFF)
  | .dark => (0x00, 0xC0)

/-- The lightness whose levels are the two given ones. -/
def Lightness.ofLevels? (low high : Int) : Option Lightness :=
  Lightness.all.find? fun l => l.levels = (low, high)

/-- The hue whose channels at the high level are the given ones. -/
def Hue.ofChannels? (pattern : List Bool) : Option Hue :=
  Hue.all.find? fun h => [h.channels.1, h.channels.2.1, h.channels.2.2] = pattern

namespace Codel

/-- The codel of a list of levels whose least is `low` and whose greatest is `high`. -/
def ofExtremes (low high : Int) (levels : List Int) : Codel :=
  if levels.any fun v => v ≠ low && v ≠ high then .white
  else if low = 0x00 ∧ high = 0x00 then .black
  else if low = 0xFF ∧ high = 0xFF then .white
  else
    match Lightness.ofLevels? low high, Hue.ofChannels? (levels.map fun v => v = high) with
    | some l, some h => .color ⟨h, l⟩
    | _, _ => .white

/-- The codel of a list of levels, of any length but zero. -/
def ofLevels (levels : List Int) : Except Picture.Error Codel :=
  match levels.min?, levels.max? with
  | some low, some high => .ok (ofExtremes low high levels)
  | _, _ => .error .noChannels

/-- The codel of a pixel; channels after the third have no influence. -/
def ofChannels : List Int → Except Picture.Error Codel
  | r :: g :: b :: _ =>
    ofLevels [Channel.quantize r, Channel.quantize g, Channel.quantize b]
  | channels => .error (.fewChannels channels.length)

end Codel

/-! ## Arrays of pixels -/

/-- An array of numbers with any number of sides, the last index fastest. -/
structure Samples where
  shape : List Nat
  data : Array Int
deriving DecidableEq, Repr

namespace Channel

/-- The three levels. -/
def levels : List Int := [0x00, 0xC0, 0xFF]

/-- The index of the level that a value is moved to: the number of thresholds it has reached. -/
def levelIndex (v : Int) : Nat := thresholds.countP fun t => t ≤ v

end Channel

namespace Codel

/-- The codel of three levels. -/
def ofTriple (r g b : Int) : Codel := ofExtremes (min r (min g b)) (max r (max g b)) [r, g, b]

/-- The codels of all triples of levels: the one with indices `i`, `j` and `k` is at `9i + 3j +
k`. -/
def table : Array Codel :=
  (Channel.levels.flatMap fun r => Channel.levels.flatMap fun g => Channel.levels.map fun b =>
    ofTriple r g b).toArray

/-- The codel of three channels, from the table. -/
def lookup (r g b : Int) : Codel :=
  table.getD (9 * Channel.levelIndex r + 3 * Channel.levelIndex g + Channel.levelIndex b) .white

end Codel

namespace Samples

/-- The sample at an index into the data. -/
def sample (a : Samples) (i : Nat) : Int := a.data.getD i 0

/-- The codels of an array of pixels in rows, each with three channels or more. -/
def classify (a : Samples) : Except Picture.Error (Grid Codel) :=
  match a.shape with
  | [h, w, c] =>
    if c < 3 then .error (.badShape a.shape)
    else
      .ok (Grid.ofFn ⟨w, h⟩ fun p =>
        let i := (p.y.toNat * w + p.x.toNat) * c
        Codel.lookup (a.sample i) (a.sample (i + 1)) (a.sample (i + 2)))
  | shape => .error (.badShape shape)

end Samples

/-! ## Pictures -/

/-- A pixel as it is stored. -/
inductive Pixel where
  | rgb (red green blue : UInt8)
  | rgba (red green blue alpha : UInt8)
  | gray (value : UInt8)
  | grayAlpha (value alpha : UInt8)
deriving DecidableEq, Repr

/-- The channels of a pixel: grey is the same in all three, and opacity is dropped. -/
def Pixel.toRgb : Pixel → Rgb
  | .rgb r g b | .rgba r g b _ => ⟨r.toNat, g.toNat, b.toNat⟩
  | .gray v | .grayAlpha v _ => ⟨v.toNat, v.toNat, v.toNat⟩

/-- A decoded picture. -/
abbrev Picture := Grid Rgb

namespace Picture

/-- The picture of stored pixels. -/
def ofPixels (g : Grid Pixel) : Picture := g.map Pixel.toRgb

/-- How many places of a side a slice takes: the first place and every `step`-th after it, of those
before `stop`. -/
def sliceLength (side stop step : Int) : Int := (min stop side + step - 1) / step

/-- The `i`-th place that a slice takes is before its stop and in the side. -/
theorem lt_sliceLength_iff {side stop step i : Int} (hstep : 0 < step) :
    i < sliceLength side stop step ↔ i * step < stop ∧ i * step < side := by
  rw [sliceLength, ← Int.add_one_le_iff, Int.le_ediv_iff_mul_le hstep, Int.add_mul, Int.one_mul]
  omega

/-- The pixels in every `step`-th column and row, of those before `stop`. -/
def slice (pic : Picture) (stop : Size) (step : Int) : Picture :=
  Grid.ofFn ⟨sliceLength pic.size.width stop.width step,
      sliceLength pic.size.height stop.height step⟩ fun p =>
    (pic.get? ⟨p.x * step, p.y * step⟩).getD ⟨0, 0, 0⟩

/-- The picture with one pixel for every square of `c` by `c`. -/
def downsample (pic : Picture) (c : Int) : Except Picture.Error Picture :=
  if c < 1 then .error (.badCodelSize c)
  else
    let w := pic.size.width / c
    let h := pic.size.height / c
    .ok (pic.slice ⟨w * c, h * c⟩ c)

/-- The channels of all pixels as one array, with the sides height, width and three. -/
def samples (pic : Picture) : Samples where
  shape := [pic.size.height.toNat, pic.size.width.toNat, 3]
  data := (pic.values.flatMap fun p => [p.red, p.green, p.blue]).toArray

/-- The codels of a picture whose codels are squares of `c` by `c` pixels. -/
def codels (pic : Picture) (c : Int) : Except Picture.Error (Grid Codel) := do
  let small ← pic.downsample c
  small.samples.classify

end Picture

end PietLang
