import Std.Data.TreeSet

/-!
# Plane/Basic — cells of the plane, and rectangles of them in reading order

`x` grows to the right and `y` grows down.  Cells are compared by row first, so the least cell of a
region is the one that a reader meets first.

A rectangle stands at the origin.  A side may be negative: such a rectangle has its sides and no
cell.  `offset` numbers the cells of a rectangle in the order in which `coords` lists them.
-/

namespace PietLang

/-- A cell of the plane: `x` grows to the right, `y` grows down. -/
@[ext]
structure Coord where
  x : Int
  y : Int
deriving DecidableEq, Repr

namespace Coord

instance : Add Coord where
  add p q := ⟨p.x + q.x, p.y + q.y⟩

@[simp] theorem x_add (p q : Coord) : (p + q).x = p.x + q.x := rfl

@[simp] theorem y_add (p q : Coord) : (p + q).y = p.y + q.y := rfl

/-- The reading order: rows from the top, and a row from the left. -/
def readingOrder : Coord → Coord → Ordering :=
  compareLex (compareOn Coord.y) (compareOn Coord.x)

instance : Std.TransCmp readingOrder :=
  inferInstanceAs (Std.TransCmp (compareLex _ _))

instance : Std.LawfulEqCmp readingOrder where
  eq_of_compare {p q} h := by
    obtain ⟨px, py⟩ := p
    obtain ⟨qx, qy⟩ := q
    obtain ⟨hy, hx⟩ := Ordering.then_eq_eq.mp h
    have hy' : py = qy := Std.LawfulEqOrd.eq_of_compare hy
    have hx' : px = qx := Std.LawfulEqOrd.eq_of_compare hx
    rw [hx', hy']

/-- A cell as text: `(3, -1)`. -/
def text (p : Coord) : String := s!"({p.x}, {p.y})"

end Coord

/-- Lists of one length stand one after another. -/
theorem getElem?_flatMap_of_length {α β : Type} {f : α → List β} {w x : Nat} (hx : x < w) {a : α} :
    ∀ {l : List α} {i : Nat}, (∀ b ∈ l, (f b).length = w) → l[i]? = some a →
      (l.flatMap f)[i * w + x]? = (f a)[x]?
  | b :: l, 0, hf, h => by
    obtain rfl : b = a := Option.some.inj h
    have hfirst : x < (f b).length := by rw [hf b List.mem_cons_self]; exact hx
    rw [Nat.zero_mul, Nat.zero_add, List.flatMap_cons, List.getElem?_append_left hfirst]
  | b :: l, i + 1, hf, h => by
    have hplace : (i + 1) * w + x = (f b).length + (i * w + x) := by
      rw [hf b List.mem_cons_self, Nat.succ_mul]
      omega
    rw [hplace, List.flatMap_cons, List.getElem?_append_right (Nat.le_add_right _ _),
      Nat.add_sub_cancel_left]
    exact getElem?_flatMap_of_length hx (fun c hc => hf c (List.mem_cons_of_mem b hc)) h

/-- The sides of a rectangle whose top left cell is `(0, 0)`. -/
structure Size where
  width : Int
  height : Int
deriving DecidableEq, Repr

namespace Size

/-- `p ∈ s` says that `p` is a cell of the rectangle. -/
instance : Membership Coord Size where
  mem s p := 0 ≤ p.x ∧ p.x < s.width ∧ 0 ≤ p.y ∧ p.y < s.height

theorem mem_iff {s : Size} {p : Coord} :
    p ∈ s ↔ 0 ≤ p.x ∧ p.x < s.width ∧ 0 ≤ p.y ∧ p.y < s.height := Iff.rfl

instance (p : Coord) (s : Size) : Decidable (p ∈ s) :=
  inferInstanceAs (Decidable (0 ≤ p.x ∧ p.x < s.width ∧ 0 ≤ p.y ∧ p.y < s.height))

/-- The number of cells. -/
def count (s : Size) : Nat := s.width.toNat * s.height.toNat

/-- The cells of row `y`, from the left. -/
def row (s : Size) (y : Nat) : List Coord :=
  (List.range s.width.toNat).map fun (x : Nat) => ⟨x, y⟩

/-- The cells in reading order. -/
def coords (s : Size) : List Coord :=
  (List.range s.height.toNat).flatMap s.row

/-- The place of a cell in `coords`. -/
def offset (s : Size) (p : Coord) : Nat := (p.y * s.width + p.x).toNat

@[simp] theorem length_row (s : Size) (y : Nat) : (s.row y).length = s.width.toNat := by
  simp [row]

@[simp] theorem length_coords (s : Size) : s.coords.length = s.count := by
  simp only [coords, List.length_flatMap, length_row, List.map_const', List.length_range,
    List.sum_replicate_nat, count]
  exact Nat.mul_comm _ _

/-! ## The cells and their places -/

theorem mem_row {s : Size} {y : Nat} {p : Coord} :
    p ∈ s.row y ↔ p.y = y ∧ 0 ≤ p.x ∧ p.x < s.width := by
  simp only [row, List.mem_map, List.mem_range]
  constructor
  · rintro ⟨x, hx, rfl⟩
    exact ⟨rfl, Int.natCast_nonneg x, Int.lt_toNat.mp hx⟩
  · rintro ⟨hy, h0, h1⟩
    refine ⟨p.x.toNat, by omega, ?_⟩
    obtain ⟨px, py⟩ := p
    simp only [Coord.mk.injEq] at hy h0 h1 ⊢
    exact ⟨by omega, hy.symm⟩

@[simp] theorem mem_coords {s : Size} {p : Coord} : p ∈ s.coords ↔ p ∈ s := by
  simp only [coords, List.mem_flatMap, List.mem_range, mem_row, mem_iff]
  constructor
  · rintro ⟨y, hy, h, h0, h1⟩
    exact ⟨h0, h1, by omega, by omega⟩
  · rintro ⟨h0, h1, h2, h3⟩
    exact ⟨p.y.toNat, by omega, by omega, h0, h1⟩

/-- The place of a cell, by whole rows. -/
theorem offset_eq {s : Size} {p : Coord} (hp : p ∈ s) :
    s.offset p = p.y.toNat * s.width.toNat + p.x.toNat := by
  obtain ⟨h0, h1, h2, h3⟩ := mem_iff.mp hp
  have hw : s.width = (s.width.toNat : Int) := by omega
  have hy : p.y = (p.y.toNat : Int) := by omega
  have hx : p.x = (p.x.toNat : Int) := by omega
  have h : p.y * s.width + p.x
      = ((p.y.toNat * s.width.toNat + p.x.toNat : Nat) : Int) := by
    rw [Int.natCast_add, Int.natCast_mul, ← hw, ← hy, ← hx]
  rw [offset, h, Int.toNat_natCast]

/-- `offset` is the place of a cell in `coords`. -/
theorem getElem?_coords_offset {s : Size} {p : Coord} (hp : p ∈ s) :
    s.coords[s.offset p]? = some p := by
  obtain ⟨h0, h1, h2, h3⟩ := mem_iff.mp hp
  rw [offset_eq hp, coords, getElem?_flatMap_of_length (by omega) (fun y _ => s.length_row y)
    (List.getElem?_range (by omega))]
  obtain ⟨px, py⟩ := p
  simp only at h0 h1 h2 h3 ⊢
  have hx : px.toNat < s.width.toNat := by omega
  simp only [row, List.getElem?_map, List.getElem?_range hx, Option.map_some, Option.some.injEq,
    Coord.mk.injEq]
  exact ⟨by omega, by omega⟩

theorem offset_lt {s : Size} {p : Coord} (hp : p ∈ s) : s.offset p < s.count := by
  rw [← length_coords]
  exact (List.getElem?_eq_some_iff.mp (getElem?_coords_offset hp)).1

theorem offset_inj {s : Size} {p q : Coord} (hp : p ∈ s) (hq : q ∈ s)
    (h : s.offset p = s.offset q) : p = q := by
  have := getElem?_coords_offset hp
  rw [h, getElem?_coords_offset hq] at this
  exact (Option.some.inj this).symm

end Size

/-- Why an operation on the plane is refused. -/
inductive Plane.Error where
  /-- A grid cannot be filled when a side is negative. -/
  | negativeSize (size : Size)
  /-- Rows of different lengths make no rectangle. -/
  | raggedRows
  /-- The cell lies outside the grid. -/
  | outside (p : Coord)
  /-- No cell of an empty collection lies furthest. -/
  | noCoordinates
deriving DecidableEq, Repr

/-- The text of the error. -/
def Plane.Error.message : Plane.Error → String
  | .negativeSize s => s!"Invalid grid size: {s.width}x{s.height}"
  | .raggedRows => "Rows must all have the same length"
  | .outside p => s!"Coordinate out of range: {p.text}"
  | .noCoordinates => "No coordinates to choose from"

end PietLang
