import Mathlib.Algebra.Group.Nat.Defs
import PietLang.Proofs.Classification

/-!
# Proofs/Sampling — classifying all pixels at once gives what each pixel gives alone

An array of samples is classified through the table, and the codel of a cell is found from three
samples in a row.  Where these stand is a matter of layout: an index has one number for every side,
and a step along a side skips all samples of the sides after it (`Samples.place`).  With every index
in its place (`Samples.place_lt`), the three samples are the first channels of the pixel at the
cell (`Samples.exists_pixel_eq`).

A picture is first thinned out to one pixel for every square, so there the codel of a cell is that
of the top left pixel of its square.
-/

namespace PietLang

namespace Samples

variable {a : Samples} {h w c x y : Nat}

/-- The place of an index in the data, where the last number runs fastest. -/
def place : List Nat → List Nat → Nat
  | _ :: shape, i :: index => i * shape.prod + place shape index
  | _, _ => 0

/-- The sample at an index, which has one number for every side, less than the side. -/
def get? (a : Samples) (index : List Nat) : Option Int := a.data[place a.shape index]?

/-- There is a sample for every index and no other. -/
def IsFull (a : Samples) : Prop := a.data.size = a.shape.prod

/-- The channels of the pixel in a row and a column. -/
def pixel (a : Samples) (y x : Nat) : List Int :=
  (List.range (a.shape.getD 2 0)).filterMap fun k => a.get? [y, x, k]

theorem place_lt {shape index : List Nat} (h : List.Forall₂ (· < ·) index shape) :
    place shape index < shape.prod := by
  induction h with
  | nil => exact Nat.one_pos
  | @cons i side index shape hi _ ih =>
    -- all samples of the sides after this one fit in before the next step along it
    rw [place, List.prod_cons]
    calc i * shape.prod + place shape index
      _ < i * shape.prod + shape.prod := Nat.add_lt_add_left ih _
      _ = (i + 1) * shape.prod := (Nat.succ_mul i _).symm
      _ ≤ side * shape.prod := Nat.mul_le_mul_right _ hi

/-- The channels of a pixel stand one after the other. -/
theorem pixel_eq (hshape : a.shape = [h, w, c]) (hfull : a.IsFull) (hy : y < h) (hx : x < w) :
    a.pixel y x = (List.range c).map fun k => a.sample ((y * w + x) * c + k) := by
  rw [pixel, hshape]
  refine List.filterMap_eq_map_iff_forall_eq_some.mpr fun k hk => ?_
  have hindex : List.Forall₂ (· < ·) [y, x, k] a.shape := by
    rw [hshape]
    exact .cons hy (.cons hx (.cons (List.mem_range.mp hk) .nil))
  have hplace : place a.shape [y, x, k] = (y * w + x) * c + k := by
    simp only [hshape, place, List.prod_cons, List.prod_nil, Nat.mul_one, Nat.add_zero,
      Nat.add_mul, Nat.mul_assoc, Nat.add_assoc]
  have hlt := place_lt hindex
  rw [← hfull, hplace] at hlt
  rw [get?, hplace, sample, Array.getD_eq_getD_getElem?, Array.getElem?_eq_getElem hlt,
    Option.getD_some]

/-- A pixel begins with the three samples that its cell is classified by. -/
theorem exists_pixel_eq (hshape : a.shape = [h, w, c]) (hc : 3 ≤ c) (hfull : a.IsFull) (hy : y < h)
    (hx : x < w) : ∃ rest, a.pixel y x = a.sample ((y * w + x) * c) ::
      a.sample ((y * w + x) * c + 1) :: a.sample ((y * w + x) * c + 2) :: rest := by
  obtain ⟨c, rfl⟩ := Nat.exists_eq_add_of_le' hc
  rw [pixel_eq hshape hfull hy hx, List.range_succ_eq_map, List.range_succ_eq_map,
    List.range_succ_eq_map]
  exact ⟨_, rfl⟩

/-- **An array is classified pixel by pixel.** -/
theorem exists_classify (hshape : a.shape = [h, w, c]) (hc : 3 ≤ c) (hfull : a.IsFull) :
    ∃ g, a.classify = .ok g ∧ g.size = ⟨w, h⟩ ∧ ∀ y < h, ∀ x < w,
      ∃ v, g.get? ⟨x, y⟩ = some v ∧ Codel.ofChannels (a.pixel y x) = .ok v := by
  rw [classify, hshape]
  refine ⟨_, if_neg (Nat.not_lt.mpr hc), rfl, fun y hy x hx => ?_⟩
  obtain ⟨rest, hpixel⟩ := exists_pixel_eq hshape hc hfull hy hx
  have hcell : (⟨x, y⟩ : Coord) ∈ (⟨w, h⟩ : Size) :=
    Size.mem_iff.mpr ⟨by simp, by simpa using hx, by simp, by simpa using hy⟩
  refine ⟨_, Grid.get?_ofFn.trans (if_pos hcell), ?_⟩
  rw [hpixel, Codel.ofChannels_eq_lookup]
  rfl

/-- An array of another shape is refused. -/
theorem classify_of_badShape (hother : ¬ ∃ h w c, a.shape = [h, w, c] ∧ 3 ≤ c) :
    a.classify = .error (.badShape a.shape) := by
  rw [classify]
  split
  · next h w c hshape =>
    have hc : c < 3 := Nat.lt_of_not_le fun hc => hother ⟨h, w, c, hshape, hc⟩
    rw [if_pos hc, hshape]
  · rfl

end Samples

namespace Picture

variable {pic : Picture} {w h : Nat} {c : Int}

/-- **A picture is classified by the top left pixels of its squares.** -/
theorem exists_codels_ofChannels (hsize : pic.size = ⟨w, h⟩) (hc : 1 ≤ c) :
    ∃ g, pic.codels c = .ok g ∧ g.size = ⟨w / c, h / c⟩ ∧ ∀ q ∈ g.size, ∃ v px,
      g.get? q = some v ∧ pic.get? ⟨q.x * c, q.y * c⟩ = some px ∧
        Codel.ofChannels px.channels = .ok v := by
  have hwidth : 0 ≤ pic.size.width := by simp [hsize]
  have hheight : 0 ≤ pic.size.height := by simp [hsize]
  obtain ⟨g, hcodels, hg, hget⟩ := exists_codels hc hwidth hheight
  refine ⟨g, hcodels, by rw [hg, hsize], fun q hq => ?_⟩
  obtain ⟨px, hpx⟩ := Grid.exists_get? (mem_size_of_square hc (hg ▸ hq))
  refine ⟨px.codel, px, ?_, hpx, Codel.ofChannels_eq_lookup _ _ _ []⟩
  rw [hget q hq, hpx, Option.map_some]

/-- **Classifying all pixels at once gives what each pixel gives alone.**  An array with three sides
and at least three channels becomes a grid with the codel of each pixel at its column and row, and
an array of another shape is refused.  A picture in squares of `c` by `c` pixels becomes a grid with
a cell for every whole square, which holds the codel of the top left pixel, and a size of less than
one pixel is refused. -/
theorem classify_pixelwise :
    (∀ (a : Samples) (h w c : Nat), a.shape = [h, w, c] → 3 ≤ c → a.IsFull →
      ∃ g, a.classify = .ok g ∧ g.size = ⟨w, h⟩ ∧ ∀ y < h, ∀ x < w,
        ∃ v, g.get? ⟨x, y⟩ = some v ∧ Codel.ofChannels (a.pixel y x) = .ok v) ∧
    (∀ a : Samples, (¬ ∃ h w c, a.shape = [h, w, c] ∧ 3 ≤ c) →
      a.classify = .error (.badShape a.shape)) ∧
    (∀ (pic : Picture) (w h : Nat) (c : Int), pic.size = ⟨w, h⟩ → 1 ≤ c →
      ∃ g, pic.codels c = .ok g ∧ g.size = ⟨w / c, h / c⟩ ∧ ∀ q ∈ g.size, ∃ v px,
        g.get? q = some v ∧ pic.get? ⟨q.x * c, q.y * c⟩ = some px ∧
          Codel.ofChannels px.channels = .ok v) ∧
    ∀ (pic : Picture) (c : Int), c < 1 → pic.codels c = .error (.badCodelSize c) := by
  refine ⟨fun a h w c => Samples.exists_classify, fun a => Samples.classify_of_badShape,
    fun pic w h c => exists_codels_ofChannels, fun pic c hc => ?_⟩
  rw [codels, downsample, if_pos hc]
  rfl

/-- Two pixels with a fourth channel, and channels out of their usual range. -/
def strip : Samples := ⟨[1, 2, 4], #[0xFF, 0x00, 0x00, 7, -5, 300, 0xE0, 1]⟩

/-- The squares of the mosaic leave a row and a column over, and one of nine by nine pixels is
larger than it. -/
theorem classify_pixelwise_in_strip :
    (∃ g, strip.classify = .ok g ∧ g.size = ⟨2, 1⟩ ∧
      ∃ v, g.get? ⟨1, 0⟩ = some v ∧ Codel.ofChannels [-5, 300, 0xE0, 1] = .ok v) ∧
    (⟨[1, 4], #[0, 0, 0, 0]⟩ : Samples).classify = .error (.badShape [1, 4]) ∧
    (∃ g, blurredMosaic.codels 2 = .ok g ∧ g.size = ⟨2, 2⟩ ∧ ∃ v px, g.get? ⟨1, 1⟩ = some v ∧
      blurredMosaic.get? ⟨2, 2⟩ = some px ∧ Codel.ofChannels px.channels = .ok v) ∧
    (∃ g, blurredMosaic.codels 9 = .ok g ∧ g.size = ⟨0, 0⟩) ∧
    blurredMosaic.codels 0 = .error (.badCodelSize 0) := by
  obtain ⟨harray, hshape, hpicture, hrefused⟩ := classify_pixelwise
  refine ⟨?_, hshape _ ?_, ?_, ?_, hrefused _ 0 (by decide)⟩
  · obtain ⟨g, hclassify, hg, hget⟩ := harray strip 1 2 4 rfl (by decide) rfl
    exact ⟨g, hclassify, hg, hget 0 (by decide) 1 (by decide)⟩
  · rintro ⟨h, w, c, hthree, -⟩
    exact absurd hthree (by simp)
  · obtain ⟨g, hcodels, hg, hget⟩ := hpicture blurredMosaic 5 5 2 rfl (by decide)
    exact ⟨g, hcodels, hg, hget ⟨1, 1⟩ (by rw [hg]; decide)⟩
  · obtain ⟨g, hcodels, hg, -⟩ := hpicture blurredMosaic 5 5 9 rfl (by decide)
    exact ⟨g, hcodels, hg⟩

end Picture

end PietLang
