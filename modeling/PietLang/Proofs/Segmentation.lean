import PietLang.Program.Segment
import PietLang.Proofs.Region
import Mathlib.Data.List.Basic

/-!
# Proofs/Segmentation — a picture is cut into exactly its regions of one colour

The scan keeps one invariant (`Program.Scanned`): the blocks claimed so far are complete regions,
each opened at its first cell, and every coloured cell that has been visited is claimed.  Two
facts carry a visit that opens a block.  A region that reaches an unclaimed cell meets no earlier
block, since that block would have claimed the cell with the rest of its region (`not_claimed`).
And the cell is the first of its region, since an earlier cell of it would have been visited and
claimed (`fills_region`).
-/

namespace PietLang

namespace Grid

variable {α : Type}

theorem size_foldl_put (a : α) : ∀ (qs : List Coord) (g : Grid α),
    (qs.foldl (fun g q => g.put q a) g).size = g.size
  | [], _ => rfl
  | q :: qs, g => by rw [List.foldl_cons, size_foldl_put a qs, size_put]

theorem get?_foldl_put {a : α} {q : Coord} : ∀ (qs : List Coord) (g : Grid α),
    (qs.foldl (fun g r => g.put r a) g).get? q
      = if q ∈ qs ∧ q ∈ g.size then some a else g.get? q
  | [], g => by simp
  | r :: qs, g => by
    rw [List.foldl_cons, get?_foldl_put qs, size_put, get?_put]
    by_cases hq : q ∈ qs ∧ q ∈ g.size
    · rw [if_pos hq, if_pos ⟨List.mem_cons_of_mem r hq.1, hq.2⟩]
    · rw [if_neg hq]
      refine if_congr ?_ rfl rfl
      rw [List.mem_cons]
      constructor
      · rintro ⟨rfl, hr⟩
        exact ⟨Or.inl rfl, hr⟩
      · rintro ⟨rfl | hqs, hg⟩
        · exact ⟨rfl, hg⟩
        · exact absurd ⟨hqs, hg⟩ hq

end Grid

/-! ## A block and its first cell -/

namespace Block

/-- `f` is the cell of the block that a reader meets first. -/
def StartsAt (b : Block) (f : Coord) : Prop := f ∈ b.codels ∧ ∀ q ∈ b.codels, q = f ∨ f.Before q

/-- The block is the whole region of its colour around `f`, its first cell. -/
structure Fills (raw : Grid Codel) (b : Block) (f : Coord) : Prop where
  color : raw.get? f = some (.color b.color)
  codels : b.codels = raw.region (.color b.color) f
  first : b.first = .ok f

variable {raw : Grid Codel} {b : Block} {f q : Coord}

theorem first_eq_ok : b.first = .ok f ↔ ∃ rest, b.codels = f :: rest := by
  obtain ⟨color, codels⟩ := b
  cases codels with
  | nil => simp [Block.first]
  | cons p rest => simp [Block.first]

theorem Fills.mem_codels (h : b.Fills raw f) : q ∈ b.codels ↔ raw.Joined (.color b.color) f q := by
  rw [h.codels, Grid.mem_region h.color]

theorem Fills.get?_raw (h : b.Fills raw f) (hq : q ∈ b.codels) :
    raw.get? q = some (.color b.color) := (h.mem_codels.mp hq).get?_right

theorem Fills.pairwise (h : b.Fills raw f) : b.codels.Pairwise Coord.Before :=
  h.codels ▸ raw.pairwise_region _ f

theorem Fills.startsAt (h : b.Fills raw f) : b.StartsAt f := by
  refine ⟨h.mem_codels.mpr (.start h.color), fun q hq => ?_⟩
  have hpair := h.pairwise
  obtain ⟨rest, hrest⟩ := first_eq_ok.mp h.first
  rw [hrest] at hq hpair
  rcases List.mem_cons.mp hq with rfl | hq
  · exact Or.inl rfl
  · exact Or.inr ((List.pairwise_cons.mp hpair).1 q hq)

theorem StartsAt.unique {e : Coord} (hf : b.StartsAt f) (he : b.StartsAt e) : f = e := by
  rcases hf.2 e he.1 with rfl | hfe
  · rfl
  · rcases he.2 f hf.1 with rfl | hef
    · rfl
    · exact absurd hef hfe.asymm

end Block

/-! ## The scan -/

namespace Program

/-- What a scan that has visited some cells of `raw` has made of them. -/
structure Scanned (raw : Grid Codel) (visited : List Coord) (p : Program) : Prop where
  size_eq : p.grid.size = raw.size
  black_iff : ∀ {q : Coord},
    p.grid.get? q = some .black ↔ q ∈ visited ∧ raw.get? q = some .black
  block_iff : ∀ {q : Coord} {i : Nat},
    p.grid.get? q = some (.block i) ↔ ∃ b, p.blocks[i]? = some b ∧ q ∈ b.codels
  fills : ∀ {i : Nat} {b : Block}, p.blocks[i]? = some b → ∃ f ∈ visited, b.Fills raw f
  claimed : ∀ {q : Coord} {c : Color}, q ∈ visited → raw.get? q = some (.color c) →
    ∃ (i : Nat) (b : Block), p.blocks[i]? = some b ∧ q ∈ b.codels
  ordered : ∀ {i j : Nat} {a b : Block} {f e : Coord}, i < j → p.blocks[i]? = some a →
    p.blocks[j]? = some b → a.StartsAt f → b.StartsAt e → f.Before e

variable {raw : Grid Codel} {visited rest : List Coord} {p : Program} {q r : Coord} {c : Color}

theorem scanned_blank (raw : Grid Codel) : Scanned raw [] (blank raw.size) where
  size_eq := rfl
  black_iff := by
    intro q
    rw [blank, Grid.get?_filled]
    by_cases hq : q ∈ raw.size <;> simp [hq]
  block_iff := by
    intro q i
    rw [blank, Grid.get?_filled]
    by_cases hq : q ∈ raw.size <;> simp [hq]
  fills := by simp [blank]
  claimed := by simp
  ordered := by simp [blank]

/-- **A region that holds an unclaimed cell meets no block.** -/
theorem Scanned.not_claimed (h : Scanned raw visited p) (hq : p.grid.get? q = some .white)
    (hr : raw.Joined (.color c) q r) {i : Nat} {b : Block} (hb : p.blocks[i]? = some b) :
    r ∉ b.codels := by
  intro hrb
  obtain ⟨f, -, hf⟩ := h.fills hb
  have hcolor : c = b.color :=
    Codel.color.inj (Option.some.inj (hr.get?_right.symm.trans (hf.get?_raw hrb)))
  subst hcolor
  have hqb : q ∈ b.codels := hf.mem_codels.mpr ((hf.mem_codels.mp hrb).trans hr.symm)
  have hclash := h.block_iff.mpr ⟨b, hb, hqb⟩
  rw [hq] at hclash
  cases hclash

/-- **An unclaimed cell is the first of its region.** -/
theorem Scanned.fills_region (h : Scanned raw visited p)
    (hcoords : raw.size.coords = visited ++ q :: rest) (hq : p.grid.get? q = some .white)
    (hc : raw.get? q = some (.color c)) :
    (⟨c, raw.region (.color c) q⟩ : Block).Fills raw q := by
  refine ⟨hc, rfl, ?_⟩
  have hmem : q ∈ raw.region (.color c) q := (Grid.mem_region hc).mpr (.start hc)
  obtain ⟨e, tail, hregion⟩ := List.exists_cons_of_ne_nil (List.ne_nil_of_mem hmem)
  have he : raw.Joined (.color c) q e :=
    (Grid.mem_region hc).mp (hregion ▸ List.mem_cons_self)
  have hpair := raw.pairwise_region (.color c) q
  rw [hregion] at hmem hpair
  rcases List.mem_cons.mp hmem with rfl | htail
  · exact Block.first_eq_ok.mpr ⟨tail, hregion⟩
  · have hbefore : e.Before q := (List.pairwise_cons.mp hpair).1 q htail
    have hvisited : e ∈ visited := (Size.mem_prefix_iff_before hcoords).mpr
      ⟨Grid.mem_size_of_get? he.get?_right, hbefore⟩
    obtain ⟨i, b, hb, heb⟩ := h.claimed hvisited he.get?_right
    exact absurd heb (h.not_claimed hq he hb)

theorem Scanned.fills_append (h : Scanned raw visited p) (q : Coord) {i : Nat} {b : Block}
    (hb : p.blocks[i]? = some b) : ∃ f ∈ visited ++ [q], b.Fills raw f := by
  obtain ⟨f, hf, hfills⟩ := h.fills hb
  exact ⟨f, List.mem_append_left _ hf, hfills⟩

/-- A visit that marks a wall. -/
theorem Scanned.wall (h : Scanned raw visited p) (hq : p.grid.get? q = some .white)
    (hraw : raw.get? q = some .black) :
    Scanned raw (visited ++ [q]) ⟨p.blocks, p.grid.put q .black⟩ where
  size_eq := by rw [Grid.size_put, h.size_eq]
  black_iff := by
    intro r
    rw [Grid.get?_put, List.mem_append, List.mem_singleton]
    by_cases hr : q = r
    · subst hr
      rw [if_pos ⟨rfl, Grid.mem_size_of_get? hq⟩]
      exact ⟨fun _ => ⟨Or.inr rfl, hraw⟩, fun _ => rfl⟩
    · rw [if_neg fun hand => hr hand.1, h.black_iff]
      exact and_congr_left fun _ => (or_iff_left fun heq => hr heq.symm).symm
  block_iff := by
    intro r i
    rw [Grid.get?_put]
    by_cases hr : q = r
    · subst hr
      rw [if_pos ⟨rfl, Grid.mem_size_of_get? hq⟩]
      refine ⟨fun hclash => (by cases hclash), fun hb => ?_⟩
      have hclash := h.block_iff.mpr hb
      rw [hq] at hclash
      cases hclash
    · rw [if_neg fun hand => hr hand.1, h.block_iff]
  fills := h.fills_append q
  claimed := by
    intro r c hr hc
    rcases List.mem_append.mp hr with hr | hr
    · exact h.claimed hr hc
    · rw [List.mem_singleton.mp hr, hraw] at hc
      cases hc
  ordered := h.ordered

/-- A visit that finds its cell claimed, or without colour. -/
theorem Scanned.skip (h : Scanned raw visited p) (hblack : raw.get? q ≠ some .black)
    (hq : ∀ {c}, raw.get? q = some (.color c) →
      ∃ (i : Nat) (b : Block), p.blocks[i]? = some b ∧ q ∈ b.codels) :
    Scanned raw (visited ++ [q]) p where
  size_eq := h.size_eq
  black_iff := by
    intro r
    rw [h.black_iff, List.mem_append, List.mem_singleton]
    refine and_congr_left fun hr => (or_iff_left ?_).symm
    rintro rfl
    exact hblack hr
  block_iff := h.block_iff
  fills := h.fills_append q
  claimed := by
    intro r c hr hc
    rcases List.mem_append.mp hr with hr | hr
    · exact h.claimed hr hc
    · obtain rfl := List.mem_singleton.mp hr
      exact hq hc
  ordered := h.ordered

theorem getElem?_blocks_addBlock {b : Block} {i : Nat} :
    (p.addBlock b).blocks[i]? = if i = p.blocks.size then some b else p.blocks[i]? :=
  Array.getElem?_push

theorem get?_grid_addBlock {b : Block} (hb : ∀ r ∈ b.codels, r ∈ p.grid.size) :
    (p.addBlock b).grid.get? q
      = if q ∈ b.codels then some (.block p.blocks.size) else p.grid.get? q := by
  refine (Grid.get?_foldl_put _ _).trans (if_congr ?_ rfl rfl)
  exact and_iff_left_of_imp (hb q)

section Opening

/-! A visit that opens a block, at a cell that is not claimed. -/

variable (h : Scanned raw visited p) (hq : p.grid.get? q = some .white)
  (hc : raw.get? q = some (.color c))

include h hc in
/-- The region of the cell takes the new number, and no other cell changes. -/
theorem Scanned.get?_grid_addBlock :
    (p.addBlock ⟨c, raw.region (.color c) q⟩).grid.get? r
      = if r ∈ raw.region (.color c) q then some (.block p.blocks.size) else p.grid.get? r := by
  refine Program.get?_grid_addBlock fun s hs => ?_
  rw [h.size_eq]
  exact Grid.mem_size_of_get? ((Grid.mem_region hc).mp hs).get?_right

include h hc in
theorem Scanned.addBlock_black_iff :
    (p.addBlock ⟨c, raw.region (.color c) q⟩).grid.get? r = some .black
      ↔ r ∈ visited ++ [q] ∧ raw.get? r = some .black := by
  rw [h.get?_grid_addBlock hc, List.mem_append, List.mem_singleton]
  split
  · next hr =>
    refine ⟨fun hclash => (by cases hclash), fun hblack => ?_⟩
    have hclash := hblack.2
    rw [((Grid.mem_region hc).mp hr).get?_right] at hclash
    cases hclash
  · next hr =>
    rw [h.black_iff]
    refine and_congr_left fun _ => (or_iff_left ?_).symm
    rintro rfl
    exact hr ((Grid.mem_region hc).mpr (.start hc))

include h hq hc in
theorem Scanned.addBlock_block_iff {i : Nat} :
    (p.addBlock ⟨c, raw.region (.color c) q⟩).grid.get? r = some (.block i)
      ↔ ∃ b, (p.addBlock ⟨c, raw.region (.color c) q⟩).blocks[i]? = some b ∧ r ∈ b.codels := by
  rw [h.get?_grid_addBlock hc]
  simp only [getElem?_blocks_addBlock]
  by_cases hi : i = p.blocks.size
  · subst hi
    simp only [if_true, Option.some.injEq, exists_eq_left']
    split
    · next hr => exact ⟨fun _ => hr, fun _ => rfl⟩
    · next hr =>
      refine ⟨fun hold => ?_, fun hnew => absurd hnew hr⟩
      obtain ⟨b, hb, -⟩ := h.block_iff.mp hold
      simp at hb
  · simp only [if_neg hi]
    split
    · next hr =>
      refine ⟨fun heq => absurd (Cell.block.inj (Option.some.inj heq)).symm hi, ?_⟩
      rintro ⟨b, hb, hrb⟩
      exact absurd hrb (h.not_claimed hq ((Grid.mem_region hc).mp hr) hb)
    · exact h.block_iff

include h hq hc in
/-- **The new block starts after all that were there**: they started at cells visited before. -/
theorem Scanned.addBlock_ordered (hcoords : raw.size.coords = visited ++ q :: rest) {i j : Nat}
    {a b : Block} {f e : Coord} (hij : i < j)
    (ha : (p.addBlock ⟨c, raw.region (.color c) q⟩).blocks[i]? = some a)
    (hb : (p.addBlock ⟨c, raw.region (.color c) q⟩).blocks[j]? = some b)
    (hf : a.StartsAt f) (he : b.StartsAt e) : f.Before e := by
  rw [getElem?_blocks_addBlock] at ha hb
  have hj : j ≤ p.blocks.size := by
    by_contra hlt
    rw [if_neg (by omega)] at hb
    have := (Array.getElem?_eq_some_iff.mp hb).1
    omega
  rw [if_neg (by omega)] at ha
  split at hb
  · obtain rfl := Option.some.inj hb
    obtain ⟨f', hf', hfills⟩ := h.fills ha
    rw [he.unique (h.fills_region hcoords hq hc).startsAt, hf.unique hfills.startsAt]
    exact ((Size.mem_prefix_iff_before hcoords).mp hf').2
  · exact h.ordered hij ha hb hf he

include h hq hc in
theorem Scanned.addBlock (hcoords : raw.size.coords = visited ++ q :: rest) :
    Scanned raw (visited ++ [q]) (p.addBlock ⟨c, raw.region (.color c) q⟩) where
  size_eq := (Grid.size_foldl_put _ _ _).trans h.size_eq
  black_iff := h.addBlock_black_iff hc
  block_iff := h.addBlock_block_iff hq hc
  fills := by
    intro i b hb
    rw [getElem?_blocks_addBlock] at hb
    split at hb
    · obtain rfl := Option.some.inj hb
      exact ⟨q, List.mem_append_right _ (List.mem_singleton.mpr rfl),
        h.fills_region hcoords hq hc⟩
    · exact h.fills_append q hb
  claimed := by
    intro r d hr hd
    rcases List.mem_append.mp hr with hr | hr
    · obtain ⟨i, b, hb, hrb⟩ := h.claimed hr hd
      have hi : i ≠ p.blocks.size := by
        rintro rfl
        simp at hb
      exact ⟨i, b, by rw [getElem?_blocks_addBlock, if_neg hi]; exact hb, hrb⟩
    · obtain rfl := List.mem_singleton.mp hr
      exact ⟨p.blocks.size, _, by rw [getElem?_blocks_addBlock, if_pos rfl],
        (Grid.mem_region hc).mpr (.start hc)⟩
  ordered := h.addBlock_ordered hq hc hcoords

end Opening

/-- **A visit keeps the invariant.** -/
theorem Scanned.visit (h : Scanned raw visited p)
    (hcoords : raw.size.coords = visited ++ q :: rest) :
    Scanned raw (visited ++ [q]) (visit raw p q) := by
  have hq : q ∈ raw.size :=
    Size.mem_coords.mp (hcoords ▸ List.mem_append_right _ List.mem_cons_self)
  obtain ⟨cell, hcell⟩ := Grid.exists_get? (h.size_eq ▸ hq : q ∈ p.grid.size)
  have hnew : q ∉ visited := fun hmem =>
    Coord.Before.irrefl q ((Size.mem_prefix_iff_before hcoords).mp hmem).2
  have hat : p.cell q = cell := by rw [Program.cell, hcell]; rfl
  unfold Program.visit
  rw [hat]
  cases cell with
  | white =>
    split
    · next hraw => exact h.wall hcell hraw
    · next c hraw => exact h.addBlock hcell hraw hcoords
    · next hblack hcolor =>
      exact h.skip (fun hraw => hblack rfl hraw) fun {c} hraw => absurd hraw (hcolor c rfl)
  | black => exact absurd (h.black_iff.mp hcell).1 hnew
  | block i =>
    obtain ⟨b, hb, hqb⟩ := h.block_iff.mp hcell
    obtain ⟨f, -, hf⟩ := h.fills hb
    exact h.skip (by rw [hf.get?_raw hqb]; simp [Codel.black]) fun _ => ⟨i, b, hb, hqb⟩

/-- **The scan keeps it along the whole list.** -/
theorem Scanned.foldl_visit : ∀ (rest : List Coord) {visited : List Coord} {p : Program},
    Scanned raw visited p → raw.size.coords = visited ++ rest →
      Scanned raw raw.size.coords (rest.foldl (Program.visit raw) p)
  | [], visited, p, h, hcoords => by
    rw [hcoords, List.append_nil]
    exact h
  | q :: rest, visited, p, h, hcoords =>
    (h.visit hcoords).foldl_visit rest (by rw [hcoords, List.append_assoc, List.singleton_append])

theorem scanned_segment (raw : Grid Codel) : Scanned raw raw.size.coords (segment raw) :=
  (scanned_blank raw).foldl_visit raw.size.coords rfl

/-! ## The finished program -/

variable {b : Block} {i : Nat}

/-- A scan of the whole picture leaves black what is black… -/
theorem Scanned.black_iff_raw (h : Scanned raw raw.size.coords p) :
    p.grid.get? q = some .black ↔ raw.get? q = some .black := by
  rw [h.black_iff]
  exact and_iff_right_of_imp fun hq => Size.mem_coords.mpr (Grid.mem_size_of_get? hq)

/-- …gives a number to what has a colour… -/
theorem Scanned.block_iff_raw (h : Scanned raw raw.size.coords p) :
    (∃ i, p.grid.get? q = some (.block i)) ↔ ∃ c, raw.get? q = some (.color c) := by
  constructor
  · rintro ⟨i, hi⟩
    obtain ⟨b, hb, hq⟩ := h.block_iff.mp hi
    obtain ⟨f, -, hf⟩ := h.fills hb
    exact ⟨b.color, hf.get?_raw hq⟩
  · rintro ⟨c, hc⟩
    obtain ⟨i, b, hb, hq⟩ := h.claimed (Size.mem_coords.mpr (Grid.mem_size_of_get? hc)) hc
    exact ⟨i, h.block_iff.mpr ⟨b, hb, hq⟩⟩

/-- …and leaves white all else. -/
theorem Scanned.white_iff_raw (h : Scanned raw raw.size.coords p) :
    p.grid.get? q = some .white
      ↔ ∃ v, raw.get? q = some v ∧ v ≠ .black ∧ ∀ c, v ≠ .color c := by
  constructor
  · intro hwhite
    obtain ⟨v, hv⟩ := Grid.exists_get? (h.size_eq ▸ Grid.mem_size_of_get? hwhite)
    refine ⟨v, hv, ?_, ?_⟩
    · rintro rfl
      rw [h.black_iff_raw.mpr hv] at hwhite
      cases hwhite
    · rintro c rfl
      obtain ⟨i, hi⟩ := h.block_iff_raw.mpr ⟨c, hv⟩
      rw [hi] at hwhite
      cases hwhite
  · rintro ⟨v, hv, hblack, hcolor⟩
    obtain ⟨cell, hcell⟩ := Grid.exists_get? (h.size_eq.symm ▸ Grid.mem_size_of_get? hv)
    cases cell with
    | white => exact hcell
    | black =>
      rw [h.black_iff_raw, hv] at hcell
      exact absurd (Option.some.inj hcell) hblack
    | block i =>
      obtain ⟨c, hc⟩ := h.block_iff_raw.mp ⟨i, hcell⟩
      rw [hv] at hc
      exact absurd (Option.some.inj hc) (hcolor c)

theorem Scanned.mem_codels_iff (h : Scanned raw visited p) (hb : p.blocks[i]? = some b) :
    q ∈ b.codels ↔ p.grid.get? q = some (.block i) := by
  rw [h.block_iff, hb]
  simp

/-- **A block is the region of each of its cells.** -/
theorem Scanned.mem_codels_iff_joined (h : Scanned raw visited p) (hb : p.blocks[i]? = some b)
    (hq : q ∈ b.codels) : r ∈ b.codels ↔ raw.Joined (.color b.color) q r := by
  obtain ⟨f, -, hf⟩ := h.fills hb
  have hfq := hf.mem_codels.mp hq
  rw [hf.mem_codels]
  exact ⟨fun hfr => hfq.symm.trans hfr, fun hqr => hfq.trans hqr⟩

/-- **Two coloured cells have one number exactly when a path of that colour joins them.** -/
theorem Scanned.same_block_iff (h : Scanned raw raw.size.coords p)
    (hq : raw.get? q = some (.color c)) :
    (∃ i, p.grid.get? q = some (.block i) ∧ p.grid.get? r = some (.block i))
      ↔ raw.Joined (.color c) q r := by
  obtain ⟨i, hi⟩ := h.block_iff_raw.mpr ⟨c, hq⟩
  obtain ⟨b, hb, hqb⟩ := h.block_iff.mp hi
  obtain ⟨f, -, hf⟩ := h.fills hb
  obtain rfl : b.color = c :=
    Codel.color.inj (Option.some.inj ((hf.get?_raw hqb).symm.trans hq))
  rw [← h.mem_codels_iff_joined hb hqb, h.mem_codels_iff hb]
  constructor
  · rintro ⟨j, hj, hrj⟩
    rw [hi] at hj
    rw [hj]
    exact hrj
  · exact fun hr => ⟨i, hi, hr⟩

/-! ## The description -/

/-- A list of checks that all succeed gives the list of their results. -/
theorem mapM_ok {α β ε : Type} {f : α → Except ε β} : ∀ {xs : List α},
    (∀ x ∈ xs, ∃ y, f x = .ok y) →
      ∃ ys, xs.mapM f = .ok ys ∧ List.Forall₂ (fun x y => f x = .ok y) xs ys
  | [], _ => ⟨[], rfl, .nil⟩
  | x :: xs, h => by
    obtain ⟨y, hy⟩ := h x List.mem_cons_self
    obtain ⟨ys, hys, hall⟩ := mapM_ok fun x' hx' => h x' (List.mem_cons_of_mem x hx')
    refine ⟨y :: ys, ?_, .cons hy hall⟩
    rw [List.mapM_cons, hy, hys]
    rfl

theorem describeBlock_eq_ok {f : Coord} (hf : b.first = .ok f) :
    describeBlock i b = .ok ("#" ++ Text.leftAligned 4 (toString i) ++ " "
      ++ Text.leftAligned 14 b.color.name ++ " area=" ++ Text.leftAligned 6 (toString b.area)
      ++ " at " ++ f.text) := by
  rw [describeBlock, hf]
  rfl

/-- **Every block is described, at its first cell.** -/
theorem Scanned.describe (h : Scanned raw visited p) :
    ∃ lines, p.describe = .ok lines ∧ lines.length = p.blocks.size ∧
      ∀ {i : Nat} {b : Block}, p.blocks[i]? = some b → ∃ f, b.StartsAt f ∧
        lines[i]? = some ("#" ++ Text.leftAligned 4 (toString i) ++ " "
          ++ Text.leftAligned 14 b.color.name ++ " area="
          ++ Text.leftAligned 6 (toString b.area) ++ " at " ++ f.text) := by
  have hall : ∀ x ∈ p.blocks.toList.zipIdx, ∃ line, describeBlock x.2 x.1 = .ok line := by
    rintro ⟨b, i⟩ hmem
    rw [List.mk_mem_zipIdx_iff_getElem?, Array.getElem?_toList] at hmem
    obtain ⟨f, -, hf⟩ := h.fills hmem
    exact ⟨_, describeBlock_eq_ok hf.first⟩
  obtain ⟨lines, hlines, hforall⟩ := mapM_ok hall
  have hlength : lines.length = p.blocks.size := by
    rw [← hforall.length_eq, List.length_zipIdx, Array.length_toList]
  refine ⟨lines, hlines, hlength, fun {i b} hb => ?_⟩
  obtain ⟨f, -, hf⟩ := h.fills hb
  refine ⟨f, hf.startsAt, ?_⟩
  obtain ⟨hi, hbi⟩ := Array.getElem?_eq_some_iff.mp hb
  have hline := (List.forall₂_iff_get.mp hforall).2 i (by simpa using hi) (hlength ▸ hi)
  simp only [List.get_eq_getElem, List.getElem_zipIdx, Array.getElem_toList, hbi,
    Nat.zero_add, describeBlock_eq_ok hf.first] at hline
  rw [List.getElem?_eq_getElem (hlength ▸ hi)]
  exact congrArg some (Except.ok.inj hline).symm

/-! ## The cut -/

/-- `p` is the picture `raw` cut into its blocks. -/
structure Cuts (p : Program) (raw : Grid Codel) : Prop where
  size_eq : p.grid.size = raw.size
  /-- What is black is a wall. -/
  black_iff : ∀ {q : Coord}, p.grid.get? q = some .black ↔ raw.get? q = some .black
  /-- What is neither black nor a colour is white. -/
  white_iff : ∀ {q : Coord},
    p.grid.get? q = some .white ↔ ∃ v, raw.get? q = some v ∧ v ≠ .black ∧ ∀ c, v ≠ .color c
  /-- Every number names a block of the table. -/
  id_lt : ∀ {q : Coord} {i : Nat}, p.grid.get? q = some (.block i) → i < p.blocks.size
  /-- A block holds the cells with its number, once each… -/
  mem_codels_iff : ∀ {i : Nat} {b : Block} {q : Coord}, p.blocks[i]? = some b →
    (q ∈ b.codels ↔ p.grid.get? q = some (.block i))
  nodup : ∀ {i : Nat} {b : Block}, p.blocks[i]? = some b → b.codels.Nodup
  /-- …which all have its colour. -/
  color_eq : ∀ {i : Nat} {b : Block} {q : Coord}, p.blocks[i]? = some b → q ∈ b.codels →
    raw.get? q = some (.color b.color)
  /-- Two coloured cells have one number exactly when a path of one colour joins them. -/
  same_iff : ∀ {q r : Coord} {c d : Color}, raw.get? q = some (.color c) →
    raw.get? r = some (.color d) →
      ((∃ i, p.grid.get? q = some (.block i) ∧ p.grid.get? r = some (.block i))
        ↔ raw.Joined (.color c) q r)
  /-- A block is connected and maximal: it is the region of each of its cells. -/
  region : ∀ {i : Nat} {b : Block} {q r : Coord}, p.blocks[i]? = some b → q ∈ b.codels →
    (r ∈ b.codels ↔ raw.Joined (.color b.color) q r)
  disjoint : ∀ {i j : Nat} {a b : Block} {q : Coord}, i ≠ j → p.blocks[i]? = some a →
    p.blocks[j]? = some b → q ∈ a.codels → q ∉ b.codels
  /-- A block has a first cell, and the blocks are numbered by them. -/
  starts : ∀ {i : Nat} {b : Block}, p.blocks[i]? = some b → ∃ f, b.StartsAt f
  ordered : ∀ {i j : Nat} {a b : Block} {f e : Coord}, i < j → p.blocks[i]? = some a →
    p.blocks[j]? = some b → a.StartsAt f → b.StartsAt e → f.Before e
  /-- The description has a line for every block, which names the first cell. -/
  described : ∃ lines, p.describe = .ok lines ∧ lines.length = p.blocks.size ∧
    ∀ {i : Nat} {b : Block} {f : Coord}, p.blocks[i]? = some b → b.StartsAt f →
      lines[i]? = some ("#" ++ Text.leftAligned 4 (toString i) ++ " "
        ++ Text.leftAligned 14 b.color.name ++ " area="
        ++ Text.leftAligned 6 (toString b.area) ++ " at " ++ f.text)

/-- **A grid of codels is cut into exactly its regions of one colour**, numbered in reading order
of their first cells. -/
theorem segment_cuts (raw : Grid Codel) : (segment raw).Cuts raw := by
  have h := scanned_segment raw
  refine
    { size_eq := h.size_eq
      black_iff := h.black_iff_raw
      white_iff := h.white_iff_raw
      id_lt := fun hi => ?_
      mem_codels_iff := fun hb => h.mem_codels_iff hb
      nodup := fun hb => ?_
      color_eq := fun hb hq => ?_
      same_iff := fun hq _ => h.same_block_iff hq
      region := fun hb hq => h.mem_codels_iff_joined hb hq
      disjoint := fun hij ha hb hqa hqb => ?_
      starts := fun hb => ?_
      ordered := h.ordered
      described := ?_ }
  · obtain ⟨b, hb, -⟩ := h.block_iff.mp hi
    exact (Array.getElem?_eq_some_iff.mp hb).1
  · obtain ⟨f, -, hf⟩ := h.fills hb
    rw [hf.codels]
    refine (raw.pairwise_region _ f).imp fun {q r} hqr heq => ?_
    rw [heq] at hqr
    exact Coord.Before.irrefl r hqr
  · obtain ⟨f, -, hf⟩ := h.fills hb
    exact hf.get?_raw hq
  · have heq := ((h.mem_codels_iff ha).mp hqa).symm.trans ((h.mem_codels_iff hb).mp hqb)
    exact hij (Cell.block.inj (Option.some.inj heq))
  · obtain ⟨f, -, hf⟩ := h.fills hb
    exact ⟨f, hf.startsAt⟩
  · obtain ⟨lines, hlines, hlength, hline⟩ := h.describe
    refine ⟨lines, hlines, hlength, fun hb hf => ?_⟩
    obtain ⟨e, he, hat⟩ := hline hb
    rw [hf.unique he]
    exact hat

end Program

end PietLang
