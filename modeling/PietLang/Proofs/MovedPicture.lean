import PietLang.Proofs.Symmetry

/-!
# Proofs/MovedPicture — a picture that is moved is cut into the moved blocks

What a picture shows is said of the whole plane: outside it is black.  Seen so, the block of a cell
is a matter of colour and connection alone (`home_segment_of_color`), and neither cares for the
order of the scan.  A symmetry that carries one picture to another therefore carries the block of
each cell to the block of the cell it goes to (`Carries.home_place`), whatever numbers the two scans
have given them.

Where it also keeps the reading order, the numbers agree: both tables hold the same blocks, each in
the order of the first cells (`Carries.blocks_eq`).
-/

namespace PietLang

/-- The codel with its colour changed; a number stays as it is. -/
def Codel.recolor (f : Color → Color) : Codel → Codel
  | .color c => .color (f c)
  | .mark n => .mark n

@[simp] theorem Codel.recolor_id (v : Codel) : v.recolor id = v := by cases v <;> rfl

/-! ## What a picture shows -/

namespace Grid

variable {g : Grid Codel} {q : Coord} {c : Color}

/-- What a picture shows at a place: outside it is black. -/
def codelAt (g : Grid Codel) (q : Coord) : Codel := (g.get? q).getD .black

theorem codelAt_of_get? {v : Codel} (h : g.get? q = some v) : g.codelAt q = v := by
  rw [codelAt, h, Option.getD_some]

theorem codelAt_of_not_mem (h : q ∉ g.size) : g.codelAt q = .black := by
  rw [codelAt, get?_eq_none_iff.mpr h, Option.getD_none]

theorem codelAt_ofFn {size : Size} {f : Coord → Codel} :
    (ofFn size f).codelAt q = if q ∈ size then f q else .black := by
  rw [codelAt, get?_ofFn]
  split <;> rfl

theorem codelAt_map_recolor (f : Color → Color) :
    (g.map (Codel.recolor f)).codelAt q = (g.codelAt q).recolor f := by
  rw [codelAt, get?_map, codelAt]
  cases g.get? q <;> rfl

theorem codelAt_eq_color_iff : g.codelAt q = .color c ↔ g.get? q = some (.color c) := by
  rw [codelAt]
  cases g.get? q <;> simp [Codel.black]

end Grid

namespace Program

variable {raw : Grid Codel} {q : Coord} {b : Block} {c : Color}

theorem cell_segment_eq_black_iff :
    (segment raw).cell q = .black ↔ raw.codelAt q = .black := by
  have h := scanned_segment raw
  by_cases hq : q ∈ raw.size
  · obtain ⟨k, hk⟩ := Grid.exists_get? (h.size_eq.symm ▸ hq)
    obtain ⟨v, hv⟩ := Grid.exists_get? hq
    rw [cell, hk, Option.getD_some, Grid.codelAt_of_get? hv, ← Option.some_inj, ← hk,
      h.black_iff_raw, hv, Option.some_inj]
  · rw [cell, Grid.get?_eq_none_iff.mpr (h.size_eq.symm ▸ hq), Grid.codelAt_of_not_mem hq]
    exact ⟨fun _ => rfl, fun _ => rfl⟩

theorem cell_segment_eq_white_iff :
    (segment raw).cell q = .white ↔ raw.codelAt q ≠ .black ∧ ∀ c, raw.codelAt q ≠ .color c := by
  rw [cell_eq_iff (by simp), (scanned_segment raw).white_iff_raw]
  constructor
  · rintro ⟨v, hv, hblack, hcolor⟩
    rw [Grid.codelAt_of_get? hv]
    exact ⟨hblack, hcolor⟩
  · rintro ⟨hblack, hcolor⟩
    have hq : q ∈ raw.size := by
      by_contra hq
      exact hblack (Grid.codelAt_of_not_mem hq)
    obtain ⟨v, hv⟩ := Grid.exists_get? hq
    rw [Grid.codelAt_of_get? hv] at hblack hcolor
    exact ⟨v, hv, hblack, hcolor⟩

/-- **The block of a coloured cell is the region of that cell**… -/
theorem home_segment_of_color (hc : raw.codelAt q = .color c) :
    (segment raw).home q = some ⟨c, raw.region (.color c) q⟩ := by
  have h := scanned_segment raw
  have hraw := Grid.codelAt_eq_color_iff.mp hc
  obtain ⟨i, b, hb, hq⟩ := h.claimed (Size.mem_coords.mpr (Grid.mem_size_of_get? hraw)) hraw
  obtain ⟨f, -, hf⟩ := h.fills hb
  obtain rfl : b.color = c :=
    Codel.color.inj (Option.some.inj ((hf.get?_raw hq).symm.trans hraw))
  rw [← Grid.region_eq_of_joined (hf.mem_codels.mp hq), ← hf.codels]
  exact (home_eq_some (consistent_segment raw)).mpr ⟨i, hb, hq⟩

/-- …and a cell without a colour has none. -/
theorem home_segment_of_mark {n : Int} (hn : raw.codelAt q = .mark n) :
    (segment raw).home q = none := by
  rw [Option.eq_none_iff_forall_ne_some]
  intro b hb
  obtain ⟨i, hi, hq⟩ := (home_eq_some (consistent_segment raw)).mp hb
  obtain ⟨f, -, hf⟩ := (scanned_segment raw).fills hi
  rw [Grid.codelAt_eq_color_iff.mpr (hf.get?_raw hq)] at hn
  cases hn

/-! ## The table of blocks is determined -/

theorem mem_blocks_segment :
    b ∈ (segment raw).blocks.toList ↔ ∃ q, (segment raw).home q = some b := by
  have hp := consistent_segment raw
  rw [List.mem_iff_getElem?]
  simp only [Array.getElem?_toList]
  constructor
  · rintro ⟨i, hi⟩
    obtain ⟨f, -, hf⟩ := (scanned_segment raw).fills hi
    exact ⟨f, (home_eq_some hp).mpr ⟨i, hi, hf.startsAt.1⟩⟩
  · rintro ⟨q, hq⟩
    obtain ⟨i, hi, -⟩ := (home_eq_some hp).mp hq
    exact ⟨i, hi⟩

theorem pairwise_codels_of_home (h : (segment raw).home q = some b) :
    b.codels.Pairwise Coord.Before := by
  obtain ⟨i, hi, -⟩ := (home_eq_some (consistent_segment raw)).mp h
  obtain ⟨f, -, hf⟩ := (scanned_segment raw).fills hi
  exact hf.pairwise

end Program

namespace Block

/-- The first cell of `a` comes before the first cell of `b`. -/
def Precedes (a b : Block) : Prop := ∃ f e, a.first = .ok f ∧ b.first = .ok e ∧ f.Before e

instance : Std.Asymm Precedes where
  asymm := by
    rintro a b ⟨f, e, hf, he, hfe⟩ ⟨e', f', he', hf', hef⟩
    rw [Except.ok.inj (he'.symm.trans he), Except.ok.inj (hf'.symm.trans hf)] at hef
    exact hfe.asymm hef

end Block

/-- The blocks stand in the order of their first cells. -/
theorem Program.pairwise_blocks_segment (raw : Grid Codel) :
    (segment raw).blocks.toList.Pairwise Block.Precedes := by
  have h := scanned_segment raw
  rw [List.pairwise_iff_getElem]
  intro i j hi hj hij
  have ha : (segment raw).blocks[i]? = some (segment raw).blocks.toList[i] := by simp
  have hb : (segment raw).blocks[j]? = some (segment raw).blocks.toList[j] := by simp
  obtain ⟨f, -, hf⟩ := h.fills ha
  obtain ⟨e, -, he⟩ := h.fills hb
  exact ⟨f, e, hf.first, he.first, h.ordered hij ha hb hf.startsAt he.startsAt⟩

/-! ## The moved picture -/

namespace Symmetry

variable {σ : Symmetry} {raw raw' : Grid Codel} {q r : Coord} {c : Color} {b : Block}

/-- `raw'` shows at each place what `raw` shows at the place that goes there. -/
def Carries (σ : Symmetry) (raw raw' : Grid Codel) : Prop :=
  ∀ q, raw'.codelAt (σ.place q) = (raw.codelAt q).recolor σ.tint

theorem Carries.get?_place (h : σ.Carries raw raw') :
    raw'.get? (σ.place q) = some (.color (σ.tint c)) ↔ raw.get? q = some (.color c) := by
  rw [← Grid.codelAt_eq_color_iff, ← Grid.codelAt_eq_color_iff, h q]
  cases raw.codelAt q with
  | color d => simp only [Codel.recolor, Codel.color.injEq, σ.tint_injective.eq_iff]
  | mark n => simp [Codel.recolor]

/-- A path goes to a path… -/
theorem Carries.joined_place (h : σ.Carries raw raw') (hr : raw.Joined (.color c) q r) :
    raw'.Joined (.color (σ.tint c)) (σ.place q) (σ.place r) := by
  induction hr with
  | start hq => exact .start (h.get?_place.mpr hq)
  | step d _ hd ih =>
    rw [σ.place_add_vector]
    exact ih.step _ (σ.place_add_vector _ d ▸ h.get?_place.mpr hd)

/-- …and comes from one. -/
theorem Carries.joined_symm (h : σ.Carries raw raw')
    (hr : raw'.Joined (.color (σ.tint c)) (σ.place q) r) :
    raw.Joined (.color c) q (σ.place.symm r) := by
  induction hr with
  | start hq =>
    rw [σ.place.symm_apply_apply]
    exact .start (h.get?_place.mp hq)
  | @step s d _ hd ih =>
    -- the step that was taken is the image of a step in the direction turned back
    have hstep : σ.place (σ.place.symm s + (d.turn .cw (-σ.quarters)).vector) = s + d.vector := by
      rw [σ.place_add_vector, σ.place.apply_symm_apply, Direction.turn_cw_neg_turn_cw]
    rw [← hstep] at hd ⊢
    rw [σ.place.symm_apply_apply]
    exact ih.step _ (h.get?_place.mp hd)

/-- **The region of a cell goes to the region of the cell it goes to.** -/
theorem Carries.block_region (h : σ.Carries raw raw') (hq : raw.codelAt q = .color c) :
    σ.block ⟨c, raw.region (.color c) q⟩
      = ⟨σ.tint c, raw'.region (.color (σ.tint c)) (σ.place q)⟩ := by
  have hraw := Grid.codelAt_eq_color_iff.mp hq
  have hcodels : (σ.block ⟨c, raw.region (.color c) q⟩).codels
      = raw'.region (.color (σ.tint c)) (σ.place q) := by
    refine (Block.pairwise_codels_ofCoords _ _).eq_of_mem_iff (raw'.pairwise_region _ _) fun r => ?_
    rw [Grid.mem_region (h.get?_place.mpr hraw), ← block, σ.mem_codels_block, Grid.mem_region hraw]
    refine ⟨fun hr => ?_, h.joined_symm⟩
    rw [← σ.place.apply_symm_apply r]
    exact h.joined_place hr
  rw [← hcodels]
  rfl

/-- **The block of a cell goes to the block of the cell it goes to.** -/
theorem Carries.home_place (h : σ.Carries raw raw') (q : Coord) :
    (Program.segment raw').home (σ.place q) = ((Program.segment raw).home q).map σ.block := by
  have hq := h q
  cases hcodel : raw.codelAt q with
  | color c =>
    rw [hcodel] at hq
    rw [Program.home_segment_of_color hq, Program.home_segment_of_color hcodel, Option.map_some,
      h.block_region hcodel]
  | mark n =>
    rw [hcodel] at hq
    rw [Program.home_segment_of_mark hq, Program.home_segment_of_mark hcodel]
    rfl

theorem Carries.cell_eq_black (h : σ.Carries raw raw')
    (hq : (Program.segment raw).cell q = .black) :
    (Program.segment raw').cell (σ.place q) = .black := by
  rw [Program.cell_segment_eq_black_iff] at hq ⊢
  rw [h q, hq]
  rfl

theorem Carries.cell_eq_white (h : σ.Carries raw raw')
    (hq : (Program.segment raw).cell q = .white) :
    (Program.segment raw').cell (σ.place q) = .white := by
  rw [Program.cell_segment_eq_white_iff] at hq ⊢
  rw [h q]
  cases hcodel : raw.codelAt q with
  | color c => exact absurd hcodel (hq.2 c)
  | mark n =>
    rw [hcodel] at hq
    exact ⟨hq.1, fun c => by simp [Codel.recolor]⟩

/-! ## Motions that keep the reading order -/

/-- A reader meets the cells in the same order after the motion. -/
def KeepsOrder (σ : Symmetry) : Prop := ∀ {p q : Coord}, p.Before q → (σ.place p).Before (σ.place q)

theorem KeepsOrder.codels_block (hσ : σ.KeepsOrder) (hb : b.codels.Pairwise Coord.Before) :
    (σ.block b).codels = b.codels.map σ.place := by
  refine (Block.pairwise_codels_ofCoords _ _).eq_of_mem_iff ?_ fun q => Block.mem_codels_ofCoords
  exact List.pairwise_map.mpr (hb.imp hσ)

theorem KeepsOrder.first_block (hσ : σ.KeepsOrder) (hb : b.codels.Pairwise Coord.Before) {f : Coord}
    (hf : b.first = .ok f) : (σ.block b).first = .ok (σ.place f) := by
  obtain ⟨rest, hrest⟩ := Block.first_eq_ok.mp hf
  refine Block.first_eq_ok.mpr ⟨rest.map σ.place, ?_⟩
  rw [hσ.codels_block hb, hrest, List.map_cons]

/-- **A motion that keeps the reading order keeps the numbers of the blocks.** -/
theorem Carries.blocks_eq (h : σ.Carries raw raw') (hσ : σ.KeepsOrder) :
    (Program.segment raw').blocks = (Program.segment raw).blocks.map σ.block := by
  refine Array.toList_inj.mp ?_
  rw [Array.toList_map]
  -- both tables are ordered by first cells, so it is enough that they have the same members
  refine (Program.pairwise_blocks_segment raw').eq_of_mem_iff ?_ fun b' => ?_
  · refine List.pairwise_map.mpr ((Program.pairwise_blocks_segment raw).imp_of_mem ?_)
    rintro a b ha hb ⟨f, e, hf, he, hfe⟩
    obtain ⟨p, hp⟩ := Program.mem_blocks_segment.mp ha
    obtain ⟨q, hq⟩ := Program.mem_blocks_segment.mp hb
    exact ⟨σ.place f, σ.place e, hσ.first_block (Program.pairwise_codels_of_home hp) hf,
      hσ.first_block (Program.pairwise_codels_of_home hq) he, hσ hfe⟩
  · rw [Program.mem_blocks_segment, List.mem_map, σ.place.surjective.exists]
    simp only [h.home_place, Option.map_eq_some_iff, Program.mem_blocks_segment]
    constructor
    · rintro ⟨q, b, hb, rfl⟩
      exact ⟨b, ⟨q, hb⟩, rfl⟩
    · rintro ⟨b, ⟨q, hb⟩, rfl⟩
      exact ⟨q, b, hb, rfl⟩

/-- …and lists the cells of each in the order they had. -/
theorem Carries.blocks_eq_map (h : σ.Carries raw raw') (hσ : σ.KeepsOrder) :
    (Program.segment raw').blocks
      = (Program.segment raw).blocks.map fun b => ⟨σ.tint b.color, b.codels.map σ.place⟩ := by
  rw [h.blocks_eq hσ]
  refine Array.map_congr_left fun b hb => ?_
  obtain ⟨q, hq⟩ := Program.mem_blocks_segment.mp (Array.mem_toList_iff.mpr hb)
  rw [← hσ.codels_block (Program.pairwise_codels_of_home hq)]
  rfl

/-- Every cell keeps its number too. -/
theorem Carries.cell_place (h : σ.Carries raw raw') (hσ : σ.KeepsOrder) (q : Coord) :
    (Program.segment raw').cell (σ.place q) = (Program.segment raw).cell q := by
  cases hq : (Program.segment raw).cell q with
  | white => exact h.cell_eq_white hq
  | black => exact h.cell_eq_black hq
  | block id =>
    obtain ⟨b, hb⟩ := (Program.consistent_segment raw).known hq
    have hmem := ((Program.consistent_segment raw).mem_codels hb).mpr hq
    refine ((Program.consistent_segment raw').mem_codels ?_).mp (σ.place_mem_codels_block.mpr hmem)
    rw [h.blocks_eq hσ, Array.getElem?_map, hb]
    rfl

end Symmetry

end PietLang
