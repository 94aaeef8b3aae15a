import PietLang.Plane.Basic

/-!
# Plane/Grid — a rectangle of values

The values stand in one array in reading order.  That the array has one value for every cell is part
of the type, so a cell of the rectangle always has a value.  `get?` is the view: every operation is
described by what it does to `get?`.
-/

namespace PietLang

/-- A rectangle with a value in every cell. -/
structure Grid (α : Type) where
  size : Size
  /-- The values in reading order. -/
  cells : Array α
  size_cells : cells.size = size.count
deriving DecidableEq

namespace Grid

variable {α : Type}

/-- The grid of the values of `f`; it has no cell when a side is negative. -/
def ofFn (size : Size) (f : Coord → α) : Grid α where
  size := size
  cells := (size.coords.map f).toArray
  size_cells := by simp

/-- The grid with `a` in every cell. -/
def filled (size : Size) (a : α) : Grid α where
  size := size
  cells := Array.replicate size.count a
  size_cells := by simp

/-- `filled`, refused when a side is negative. -/
def fill (size : Size) (a : α) : Except Plane.Error (Grid α) :=
  if size.width < 0 ∨ size.height < 0 then .error (.negativeSize size) else .ok (filled size a)

theorem length_flatten_of_forall {w : Nat} :
    {rows : List (List α)} → (∀ r ∈ rows, r.length = w) → rows.flatten.length = w * rows.length
  | [], _ => by simp
  | r :: rows, h => by
    have hr : r.length = w := h r (by simp)
    have ih := length_flatten_of_forall fun r' hr' => h r' (List.mem_cons_of_mem r hr')
    simp [hr, ih, Nat.mul_succ, Nat.add_comm]

/-- The grid with the given rows, refused when their lengths differ. -/
def ofRows (rows : List (List α)) : Except Plane.Error (Grid α) :=
  let width := (rows.head?.map List.length).getD 0
  if h : ∀ r ∈ rows, r.length = width then
    .ok
      { size := ⟨width, rows.length⟩
        cells := rows.flatten.toArray
        size_cells := by simpa [Size.count] using length_flatten_of_forall h }
  else .error .raggedRows

/-- The value at `p`, if `p` is a cell of the grid. -/
def get? (g : Grid α) (p : Coord) : Option α :=
  if p ∈ g.size then g.cells[g.size.offset p]? else none

/-- The value at `p`, refused outside the grid. -/
def get (g : Grid α) (p : Coord) : Except Plane.Error α :=
  match g.get? p with
  | some a => .ok a
  | none => .error (.outside p)

/-- The grid with `a` at `p`; outside the grid nothing changes. -/
def put (g : Grid α) (p : Coord) (a : α) : Grid α :=
  if p ∈ g.size then
    { size := g.size
      cells := g.cells.setIfInBounds (g.size.offset p) a
      size_cells := by simp [g.size_cells] }
  else g

/-- The grid with `a` at `p`, refused outside the grid. -/
def set (g : Grid α) (p : Coord) (a : α) : Except Plane.Error (Grid α) :=
  if p ∈ g.size then .ok (g.put p a) else .error (.outside p)

/-- The values in reading order. -/
def values (g : Grid α) : List α := g.cells.toList

/-- The cells with their values, in reading order. -/
def entries (g : Grid α) : List (Coord × α) := g.size.coords.zip g.values

/-- The values row by row. -/
def rows (g : Grid α) : List (List α) :=
  (List.range g.size.height.toNat).map fun y => (g.size.row y).filterMap g.get?

/-- The grid with `f` applied to every value. -/
def map {β : Type} (f : α → β) (g : Grid α) : Grid β where
  size := g.size
  cells := g.cells.map f
  size_cells := by simp [g.size_cells]

/-- A grid is named by its sides: `Grid(3x2)`. -/
def label (g : Grid α) : String := s!"Grid({g.size.width}x{g.size.height})"

/-! ## The view -/

theorem get?_eq_none_iff {g : Grid α} {p : Coord} : g.get? p = none ↔ p ∉ g.size := by
  constructor
  · intro h hp
    have hlt : g.size.offset p < g.cells.size := by rw [g.size_cells]; exact Size.offset_lt hp
    rw [get?, if_pos hp, Array.getElem?_eq_getElem hlt] at h
    exact Option.some_ne_none _ h
  · intro hp
    rw [get?, if_neg hp]

theorem exists_get? {g : Grid α} {p : Coord} (hp : p ∈ g.size) : ∃ a, g.get? p = some a := by
  cases h : g.get? p with
  | none => exact absurd hp (get?_eq_none_iff.mp h)
  | some a => exact ⟨a, rfl⟩

theorem mem_size_of_get? {g : Grid α} {p : Coord} {a : α} (h : g.get? p = some a) :
    p ∈ g.size := by
  refine Decidable.byContradiction fun hp => ?_
  rw [get?_eq_none_iff.mpr hp] at h
  exact Option.some_ne_none a h.symm

@[simp] theorem size_ofFn (size : Size) (f : Coord → α) : (ofFn size f).size = size := rfl

theorem get?_ofFn {size : Size} {f : Coord → α} {p : Coord} :
    (ofFn size f).get? p = if p ∈ size then some (f p) else none := by
  by_cases hp : p ∈ size
  · simp [get?, ofFn, hp, Size.getElem?_coords_offset hp]
  · simp [get?, ofFn, hp]

@[simp] theorem size_filled (size : Size) (a : α) : (filled size a).size = size := rfl

theorem get?_filled {size : Size} {a : α} {p : Coord} :
    (filled size a).get? p = if p ∈ size then some a else none := by
  by_cases hp : p ∈ size
  · simp [get?, filled, hp, Size.offset_lt hp]
  · simp [get?, filled, hp]

@[simp] theorem size_put (g : Grid α) (p : Coord) (a : α) : (g.put p a).size = g.size := by
  unfold put
  split <;> rfl

theorem get?_put {g : Grid α} {p q : Coord} {a : α} :
    (g.put p a).get? q = if p = q ∧ p ∈ g.size then some a else g.get? q := by
  by_cases hp : p ∈ g.size
  · have hlt : g.size.offset p < g.cells.size := by rw [g.size_cells]; exact Size.offset_lt hp
    by_cases hq : q ∈ g.size
    · by_cases hpq : p = q
      · subst hpq
        simp [put, get?, hp, hlt]
      · have hne : g.size.offset p ≠ g.size.offset q :=
          fun h => hpq (Size.offset_inj hp hq h)
        simp [put, get?, hp, hq, hpq, Array.getElem?_setIfInBounds_ne hne]
    · have hpq : p ≠ q := fun h => hq (h ▸ hp)
      simp [put, get?, hp, hq, hpq]
  · simp [put, hp]

@[simp] theorem size_map {β : Type} (f : α → β) (g : Grid α) : (g.map f).size = g.size := rfl

theorem get?_map {β : Type} {f : α → β} {g : Grid α} {p : Coord} :
    (g.map f).get? p = (g.get? p).map f := by
  by_cases hp : p ∈ g.size <;> simp [get?, map, hp]

end Grid

end PietLang
