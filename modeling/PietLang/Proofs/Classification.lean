import PietLang.Program.Segment
import PietLang.Proofs.ReadingOrder

/-!
# Proofs/Classification — a picture is classified pixel by pixel, and read back as what it shows

The codels of a picture are found all at once: its channels are laid out in one array, three to a
pixel, and the indices of three levels select an entry of a table.  The table has at each place the
codel of the levels that lead there (`Codel.lookup_eq`), and the array has the channels of a pixel
at the place of its cell (`Picture.sample_samples`).  So the codel of a cell is that of one pixel
alone: the one at the cell itself (`Picture.classify_samples`), or, where codels are squares of
pixels, the one at the top left of its square (`Picture.exists_codels`).

A colour, white and black each have a triple of channels, and the codel of that triple is the one
that was painted (`Codel.ofTriple_of_paint?`).  A picture shows a grid when the top left pixel of
each square has channels near the triple of the square's codel, near meaning of the same levels
(`Picture.Renders`).  All other pixels are free: those inside the squares and those of the squares
that are cut off at the right and at the bottom.
-/

namespace PietLang

namespace Channel

theorem levelIndex_lt (v : Int) : levelIndex v < 3 := Nat.lt_succ_of_le List.countP_le_length

/-- The index of a level leads to the level. -/
theorem getD_levels (v : Int) : levels.getD (levelIndex v) 0 = quantize v := by
  have hcount : levelIndex v = (if 0x60 ≤ v then 1 else 0) + if 0xE0 ≤ v then 1 else 0 := by
    simp only [levelIndex, thresholds, List.countP_cons, List.countP_nil, decide_eq_true_eq]
    omega
  by_cases hlow : v < 0x60
  · rw [hcount, if_neg (by omega), if_neg (by omega), quantize, if_pos hlow]
    rfl
  by_cases hmiddle : v < 0xE0
  · rw [hcount, if_pos (by omega), if_neg (by omega), quantize, if_neg hlow, if_pos hmiddle]
    rfl
  · rw [hcount, if_pos (by omega), if_pos (by omega), quantize, if_neg hlow, if_neg hmiddle]
    rfl

end Channel

namespace Codel

/-- The table at three indices. -/
theorem getD_table : ∀ i < 3, ∀ j < 3, ∀ k < 3, table.getD (9 * i + 3 * j + k) .white =
    ofTriple (Channel.levels.getD i 0) (Channel.levels.getD j 0) (Channel.levels.getD k 0) := by
  decide

/-- **The table holds the codel of the levels.** -/
theorem lookup_eq (r g b : Int) :
    lookup r g b = ofTriple (Channel.quantize r) (Channel.quantize g) (Channel.quantize b) := by
  rw [lookup, getD_table _ (Channel.levelIndex_lt r) _ (Channel.levelIndex_lt g) _
    (Channel.levelIndex_lt b)]
  simp only [Channel.getD_levels]

theorem ofLevels_of_extremes {levels : List Int} {low high : Int} (hmin : levels.min? = some low)
    (hmax : levels.max? = some high) : ofLevels levels = .ok (ofExtremes low high levels) := by
  rw [ofLevels, hmin, hmax]

theorem ofLevels_triple (r g b : Int) : ofLevels [r, g, b] = .ok (ofTriple r g b) := by
  have hmin : [r, g, b].min? = some (min r (min g b)) := by rw [← Int.min_assoc]; rfl
  have hmax : [r, g, b].max? = some (max r (max g b)) := by rw [← Int.max_assoc]; rfl
  exact ofLevels_of_extremes hmin hmax

/-- **The codel from the table is that of the pixel**, whatever channels follow the third. -/
theorem ofChannels_eq_lookup (r g b : Int) (rest : List Int) :
    ofChannels (r :: g :: b :: rest) = .ok (lookup r g b) := by
  rw [ofChannels, ofLevels_triple, lookup_eq]

end Codel

/-- The pixel with its channels moved to their levels. -/
def Rgb.quantized (p : Rgb) : Rgb :=
  ⟨Channel.quantize p.red, Channel.quantize p.green, Channel.quantize p.blue⟩

/-- The channels of a pixel in order. -/
def Rgb.channels (p : Rgb) : List Int := [p.red, p.green, p.blue]

/-- The codel of a pixel. -/
def Rgb.codel (p : Rgb) : Codel := Codel.lookup p.red p.green p.blue

theorem Rgb.codel_eq (p : Rgb) :
    p.codel = Codel.ofTriple p.quantized.red p.quantized.green p.quantized.blue :=
  Codel.lookup_eq p.red p.green p.blue

/-! ## The array of samples -/

namespace Picture

variable {pic : Picture} {q : Coord} {px : Rgb} {c : Int}

/-- **The channels of a pixel stand at the place of its cell.** -/
theorem sample_samples (h : pic.get? q = some px) :
    pic.samples.sample (pic.size.offset q * 3) = px.red ∧
      pic.samples.sample (pic.size.offset q * 3 + 1) = px.green ∧
      pic.samples.sample (pic.size.offset q * 3 + 2) = px.blue := by
  have hcell : pic.values[pic.size.offset q]? = some px := by
    rw [Grid.get?, if_pos (Grid.mem_size_of_get? h)] at h
    rw [Grid.values, Array.getElem?_toList, h]
  have hsample : ∀ k < 3, pic.samples.sample (pic.size.offset q * 3 + k)
      = ([px.red, px.green, px.blue][k]?).getD 0 := by
    intro k hk
    have hentry := getElem?_flatMap_of_length (f := fun p : Rgb => [p.red, p.green, p.blue])
      hk (fun _ _ => rfl) hcell
    rw [Samples.sample, samples, Array.getD_eq_getD_getElem?, List.getElem?_toArray, hentry]
  exact ⟨hsample 0 (by omega), hsample 1 (by omega), hsample 2 (by omega)⟩

/-- **Classification goes pixel by pixel.** -/
theorem classify_samples (hwidth : 0 ≤ pic.size.width) (hheight : 0 ≤ pic.size.height) :
    pic.samples.classify = .ok (pic.map Rgb.codel) := by
  have hsize : (⟨pic.size.width.toNat, pic.size.height.toNat⟩ : Size) = pic.size := by
    rw [Int.toNat_of_nonneg hwidth, Int.toNat_of_nonneg hheight]
  refine congrArg Except.ok (Grid.eq_of_get?_of_mem hsize fun q hcell => ?_)
  have hq : q ∈ pic.size := hsize ▸ hcell
  obtain ⟨px, hpx⟩ := Grid.exists_get? hq
  obtain ⟨hred, hgreen, hblue⟩ := sample_samples hpx
  rw [Grid.get?_ofFn, hsize, if_pos hq, Grid.get?_map, hpx, Option.map_some, ← Size.offset_eq hq]
  simp only [hred, hgreen, hblue, Rgb.codel]

/-! ## Squares of pixels -/

/-- The top left pixel of a square is in the picture. -/
theorem mem_size_of_square (hc : 1 ≤ c)
    (hq : q ∈ (⟨pic.size.width / c, pic.size.height / c⟩ : Size)) :
    (⟨q.x * c, q.y * c⟩ : Coord) ∈ pic.size := by
  obtain ⟨hx, hwidth, hy, hheight⟩ := Size.mem_iff.mp hq
  exact Size.mem_iff.mpr ⟨Int.mul_nonneg hx (by omega), Int.mul_lt_of_lt_ediv (by omega) hwidth,
    Int.mul_nonneg hy (by omega), Int.mul_lt_of_lt_ediv (by omega) hheight⟩

/-- A slice up to the last whole square takes as many places as there are whole squares. -/
theorem sliceLength_whole (side : Int) (hc : 1 ≤ c) :
    sliceLength side (side / c * c) c = side / c := by
  have hle : side / c * c ≤ side := Int.ediv_mul_le side (by omega)
  have hrest : (c - 1) / c = 0 := Int.ediv_eq_zero_of_lt (by omega) (by omega)
  rw [sliceLength, Int.min_eq_left hle, Int.add_sub_assoc, Int.mul_add_ediv_right _ _ (by omega),
    hrest, Int.add_zero]

/-- A place that a slice takes is in the picture, so its filler is never met. -/
theorem get?_slice {stop : Size} (hc : 1 ≤ c) (hq : q ∈ (pic.slice stop c).size) :
    (pic.slice stop c).get? q = pic.get? ⟨q.x * c, q.y * c⟩ := by
  obtain ⟨hx, hwidth, hy, hheight⟩ := Size.mem_iff.mp hq
  have hplace : (⟨q.x * c, q.y * c⟩ : Coord) ∈ pic.size :=
    Size.mem_iff.mpr ⟨Int.mul_nonneg hx (by omega), ((lt_sliceLength_iff (by omega)).mp hwidth).2,
      Int.mul_nonneg hy (by omega), ((lt_sliceLength_iff (by omega)).mp hheight).2⟩
  obtain ⟨px, hpx⟩ := Grid.exists_get? hplace
  rw [hpx]
  exact Grid.get?_ofFn.trans ((if_pos hq).trans (by rw [hpx, Option.getD_some]))

/-- A picture that is thinned out keeps the top left pixel of every whole square. -/
theorem exists_downsample (pic : Picture) (hc : 1 ≤ c) :
    ∃ small, pic.downsample c = .ok small ∧
      small.size = ⟨pic.size.width / c, pic.size.height / c⟩ ∧
      ∀ q ∈ small.size, small.get? q = pic.get? ⟨q.x * c, q.y * c⟩ := by
  refine ⟨_, if_neg (by omega), ?_, fun q hq => get?_slice hc hq⟩
  rw [slice, Grid.size_ofFn, sliceLength_whole _ hc, sliceLength_whole _ hc]

/-- **The codel of a cell is that of the top left pixel of its square.** -/
theorem exists_codels (hc : 1 ≤ c) (hwidth : 0 ≤ pic.size.width) (hheight : 0 ≤ pic.size.height) :
    ∃ g, pic.codels c = .ok g ∧ g.size = ⟨pic.size.width / c, pic.size.height / c⟩ ∧
      ∀ q ∈ g.size, g.get? q = (pic.get? ⟨q.x * c, q.y * c⟩).map Rgb.codel := by
  obtain ⟨small, hsmall, hsize, hget⟩ := pic.exists_downsample hc
  have hclassify : small.samples.classify = .ok (small.map Rgb.codel) :=
    classify_samples (by rw [hsize]; exact Int.ediv_nonneg hwidth (by omega))
      (by rw [hsize]; exact Int.ediv_nonneg hheight (by omega))
  refine ⟨small.map Rgb.codel, ?_, hsize, fun q hq => ?_⟩
  · rw [codels, hsmall]
    exact hclassify
  · rw [Grid.get?_map, hget q hq]

end Picture

/-! ## Pictures that show a grid -/

namespace Codel

/-- The triple in which a codel is painted; a number other than white and black has none. -/
def paint? : Codel → Option Rgb
  | .color c => some c.rgb
  | .white => some ⟨0xFF, 0xFF, 0xFF⟩
  | .black => some ⟨0x00, 0x00, 0x00⟩
  | .mark _ => none

/-- **A triple of the palette is classified as what it paints.** -/
theorem ofTriple_of_paint? {v : Codel} {t : Rgb} (h : v.paint? = some t) :
    ofTriple t.red t.green t.blue = v := by
  unfold paint? at h
  split at h
  · next c =>
    obtain rfl := Option.some.inj h
    obtain ⟨hue, lightness⟩ := c
    cases hue <;> cases lightness <;> rfl
  · obtain rfl := Option.some.inj h
    rfl
  · obtain rfl := Option.some.inj h
    rfl
  · cases h

end Codel

namespace Picture

variable {pic : Picture} {c : Int} {g : Grid Codel}

/-- The picture shows the grid, in squares of `c` by `c` pixels. -/
structure Renders (pic : Picture) (c : Int) (g : Grid Codel) : Prop where
  one_le : 1 ≤ c
  width_nonneg : 0 ≤ pic.size.width
  height_nonneg : 0 ≤ pic.size.height
  /-- There is a cell for every whole square. -/
  size_eq : g.size = ⟨pic.size.width / c, pic.size.height / c⟩
  /-- The top left pixel of a square has the levels of the triple in which its codel is painted. -/
  painted : ∀ q ∈ g.size, ∃ v ∈ g.get? q, ∃ px ∈ pic.get? ⟨q.x * c, q.y * c⟩,
    v.paint? = some px.quantized

/-- **A picture that shows a grid is read back as that grid**, and compiled to the program that the
grid is cut into. -/
theorem compile_of_renders (h : pic.Renders c g) :
    pic.codels c = .ok g ∧ pic.compile c = .ok (Program.segment g) := by
  obtain ⟨g', hcodels, hsize, hget⟩ := exists_codels h.one_le h.width_nonneg h.height_nonneg
  obtain rfl : g' = g := by
    refine Grid.eq_of_get? (hsize.trans h.size_eq.symm) fun q => ?_
    by_cases hq : q ∈ g.size
    · obtain ⟨v, hv, px, hpx, hpaint⟩ := h.painted q hq
      rw [hget q (by rw [hsize, ← h.size_eq]; exact hq), hpx, hv, Option.map_some, px.codel_eq,
        Codel.ofTriple_of_paint? hpaint]
    · rw [Grid.get?_eq_none_iff.mpr hq,
        Grid.get?_eq_none_iff.mpr (by rw [hsize, ← h.size_eq]; exact hq)]
  exact ⟨hcodels, by rw [compile, hcodels]; rfl⟩

/-- Two by two codels, one of them white and one black. -/
def mosaic : Grid Codel where
  size := ⟨2, 2⟩
  cells := #[.color ⟨.red, .light⟩, .white, .black, .color ⟨.cyan, .dark⟩]
  size_cells := rfl

/-- The codels in squares of two by two pixels, with a row and a column too many, and every channel
off its triple. -/
def blurredMosaic : Picture := Grid.ofFn ⟨5, 5⟩ fun q =>
  if q = ⟨0, 0⟩ then ⟨0xE0, 0xDF, 0x60⟩
  else if q = ⟨2, 0⟩ then ⟨0xE0, 0xFE, 0xF0⟩
  else if q = ⟨0, 2⟩ then ⟨0x5F, 0x01, 0x30⟩
  else if q = ⟨2, 2⟩ then ⟨0x5F, 0x60, 0xDF⟩
  else ⟨60 * q.x, 255 - 40 * q.y, 7⟩

theorem compile_blurredMosaic :
    blurredMosaic.Renders 2 mosaic ∧ blurredMosaic.codels 2 = .ok mosaic ∧
      blurredMosaic.compile 2 = .ok (Program.segment mosaic) := by
  have hpainted : ∀ q ∈ mosaic.size.coords, ∃ v ∈ mosaic.get? q,
      ∃ px ∈ blurredMosaic.get? ⟨q.x * 2, q.y * 2⟩, v.paint? = some px.quantized := by
    decide
  have hrenders : blurredMosaic.Renders 2 mosaic :=
    ⟨by decide, by decide, by decide, by decide,
      fun q hq => hpainted q (Size.mem_coords.mpr hq)⟩
  exact ⟨hrenders, compile_of_renders hrenders⟩

end Picture

end PietLang
