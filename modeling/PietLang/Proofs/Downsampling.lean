import PietLang.Program.Segment
import PietLang.Proofs.Classification

/-!
# Proofs/Downsampling — thinning a picture out twice is thinning it out once

A picture thinned out by `c` keeps the top left pixel of every whole square of `c` by `c` pixels
(`Picture.exists_downsample`).  When it is thinned out again, by `b`, a square of the second kind is
made of `b` by `b` squares of the first, and its top left pixel is the one that the first of them
kept.  What is cut off at the right and at the bottom agrees as well, since a whole square of whole
squares is a whole square of the size multiplied.

In the other direction, a picture whose every pixel has been made a square is thinned out to the
picture that it was made from (`Picture.Enlarges.downsample`).
-/

namespace PietLang

namespace Picture

variable {pic big : Picture} {a b c : Int}

/-- **Thinning out twice is thinning out once**, by the product. -/
theorem exists_downsample_downsample (pic : Picture) (ha : 1 ≤ a) (hb : 1 ≤ b) :
    ∃ small tiny, pic.downsample a = .ok small ∧ small.downsample b = .ok tiny ∧
      pic.downsample (a * b) = .ok tiny := by
  have hab : 1 ≤ a * b := Int.mul_pos ha hb
  obtain ⟨small, hsmall, hsize, hget⟩ := pic.exists_downsample ha
  obtain ⟨tiny, htiny, hsize', hget'⟩ := small.exists_downsample hb
  obtain ⟨once, honce, hsize'', hget''⟩ := pic.exists_downsample hab
  have hsizes : once.size = tiny.size := by
    rw [hsize'', hsize', hsize, Int.ediv_ediv_of_nonneg (by omega),
      Int.ediv_ediv_of_nonneg (by omega)]
  obtain rfl : once = tiny := by
    refine Grid.eq_of_get?_of_mem hsizes fun q hq => ?_
    -- the pixel kept at last stands first in the first of the squares that make up its own
    have hfirst : (⟨q.x * b, q.y * b⟩ : Coord) ∈ small.size :=
      mem_size_of_square hb (hsize' ▸ hsizes ▸ hq)
    rw [hget'' q hq, hget' q (hsizes ▸ hq), hget _ hfirst]
    simp only [Int.mul_assoc, Int.mul_comm b a]
  exact ⟨small, once, hsmall, htiny, honce⟩

/-- A picture is compiled from what thinning it out has kept, and nothing else of it counts. -/
theorem compile_of_downsample {small : Picture} (h : pic.downsample c = .ok small) :
    pic.compile c = small.samples.classify.map Program.segment := by
  rw [compile, codels, h]
  rfl

/-! ## Enlarging -/

/-- Every pixel of the small picture is a square of `c` by `c` pixels of the large one. -/
structure Enlarges (big small : Picture) (c : Int) : Prop where
  size_eq : big.size = ⟨small.size.width * c, small.size.height * c⟩
  square : ∀ q ∈ small.size, ∀ i j : Int, 0 ≤ i → i < c → 0 ≤ j → j < c →
    big.get? ⟨q.x * c + i, q.y * c + j⟩ = small.get? q

/-- The picture with every pixel made a square of `c` by `c` pixels. -/
def enlarge (pic : Picture) (c : Int) : Picture :=
  Grid.ofFn ⟨pic.size.width * c, pic.size.height * c⟩ fun p =>
    (pic.get? ⟨p.x / c, p.y / c⟩).getD ⟨0, 0, 0⟩

/-- A place within a row of squares of `c` is in the square whose number comes out. -/
theorem ediv_of_square (x : Int) {i : Int} (hi : 0 ≤ i) (hic : i < c) : (x * c + i) / c = x := by
  rw [Int.mul_add_ediv_right _ _ (by omega), Int.ediv_eq_zero_of_lt hi hic, Int.add_zero]

/-- …and within the row. -/
theorem lt_of_square {x w i : Int} (hx : x < w) (hi : 0 ≤ i) (hic : i < c) :
    x * c + i < w * c :=
  calc x * c + i < x * c + c := by omega
    _ = (x + 1) * c := by rw [Int.add_mul, Int.one_mul]
    _ ≤ w * c := Int.mul_le_mul_of_nonneg_right hx (by omega)

theorem enlarges_enlarge (pic : Picture) (c : Int) : (pic.enlarge c).Enlarges pic c where
  size_eq := rfl
  square q hq i j hi hic hj hjc := by
    obtain ⟨hx, hwidth, hy, hheight⟩ := Size.mem_iff.mp hq
    have hcell : (⟨q.x * c + i, q.y * c + j⟩ : Coord)
        ∈ (⟨pic.size.width * c, pic.size.height * c⟩ : Size) :=
      Size.mem_iff.mpr
        ⟨Int.add_nonneg (Int.mul_nonneg hx (by omega)) hi, lt_of_square hwidth hi hic,
          Int.add_nonneg (Int.mul_nonneg hy (by omega)) hj, lt_of_square hheight hj hjc⟩
    obtain ⟨px, hpx⟩ := Grid.exists_get? hq
    rw [enlarge, Grid.get?_ofFn, if_pos hcell, ediv_of_square q.x hi hic, ediv_of_square q.y hj hjc,
      hpx]
    rfl

/-- **Thinning out undoes enlarging.** -/
theorem Enlarges.downsample (h : big.Enlarges pic c) (hc : 1 ≤ c) : big.downsample c = .ok pic := by
  obtain ⟨small, hsmall, hsize, hget⟩ := big.exists_downsample hc
  have hsizes : small.size = pic.size := by
    rw [hsize, h.size_eq, Int.mul_ediv_cancel _ (by omega), Int.mul_ediv_cancel _ (by omega)]
  obtain rfl : small = pic := by
    refine Grid.eq_of_get?_of_mem hsizes fun q hq => ?_
    have hfirst := h.square q (hsizes ▸ hq) 0 0 le_rfl (by omega) le_rfl (by omega)
    rw [Int.add_zero, Int.add_zero] at hfirst
    rw [hget q hq, hfirst]
  exact hsmall

/-- **Thinning out composes.**  Thinning a picture out by `a` and then by `b` gives the same picture
as thinning it out by `a * b`, which has a pixel for every whole square of that size; so the picture
compiles to the same program either way.  And a picture whose every pixel is made a square is
thinned out to what it was. -/
theorem downsample_composes (pic : Picture) (ha : 1 ≤ a) (hb : 1 ≤ b) :
    (∃ small tiny, pic.downsample a = .ok small ∧ small.downsample b = .ok tiny ∧
      pic.downsample (a * b) = .ok tiny ∧
      tiny.size = ⟨pic.size.width / (a * b), pic.size.height / (a * b)⟩ ∧
      (∀ q ∈ tiny.size, ∃ px, tiny.get? q = some px ∧
        pic.get? ⟨q.x * (a * b), q.y * (a * b)⟩ = some px) ∧
      ∃ program, pic.compile (a * b) = .ok program ∧ small.compile b = .ok program) ∧
    (∃ big : Picture, big.Enlarges pic a) ∧
    ∀ big : Picture, big.Enlarges pic a → big.downsample a = .ok pic := by
  refine ⟨?_, ⟨pic.enlarge a, pic.enlarges_enlarge a⟩, fun big h => h.downsample ha⟩
  obtain ⟨small, tiny, hsmall, htwice, honce⟩ := pic.exists_downsample_downsample ha hb
  obtain ⟨tiny', honce', hsize, hget⟩ := pic.exists_downsample (Int.mul_pos ha hb)
  obtain rfl := Except.ok.inj (honce.symm.trans honce')
  obtain ⟨g, hg⟩ : ∃ g, tiny.samples.classify = .ok g := ⟨_, rfl⟩
  refine ⟨small, tiny, hsmall, htwice, honce, hsize, fun q hq => ?_, Program.segment g, ?_, ?_⟩
  · obtain ⟨px, hpx⟩ := Grid.exists_get? hq
    exact ⟨px, hpx, (hget q hq).symm.trans hpx⟩
  · rw [compile_of_downsample honce, hg]
    rfl
  · rw [compile_of_downsample htwice, hg]
    rfl

/-- Five by seven pixels, all of them different. -/
def ramp : Picture := Grid.ofFn ⟨5, 7⟩ fun q => ⟨40 * q.x, 30 * q.y, 200⟩

/-- Two by three squares are left, and of them one square of two by two: what does not fill a square
is dropped both times. -/
theorem downsample_composes_in_ramp :
    (∃ small tiny, ramp.downsample 2 = .ok small ∧ small.downsample 2 = .ok tiny ∧
      ramp.downsample 4 = .ok tiny ∧ tiny.size = ⟨1, 1⟩ ∧
      ∃ program, ramp.compile 4 = .ok program ∧ small.compile 2 = .ok program) ∧
    ∃ big : Picture, big.Enlarges ramp 2 ∧ big.downsample 2 = .ok ramp := by
  obtain ⟨⟨small, tiny, hsmall, htwice, honce, hsize, -, hcompile⟩, ⟨big, hbig⟩, hundo⟩ :=
    downsample_composes ramp (a := 2) (b := 2) (by decide) (by decide)
  exact ⟨⟨small, tiny, hsmall, htwice, honce, hsize, hcompile⟩, big, hbig, hundo big hbig⟩

end Picture

end PietLang
