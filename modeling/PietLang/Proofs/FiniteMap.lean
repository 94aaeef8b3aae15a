import PietLang.Proofs.ReadingOrder

/-!
# Proofs/FiniteMap — a grid is a map from the cells of a rectangle

A grid keeps its values in one array.  That it behaves as a map on the cells of its rectangle rests
on where the cells stand: each at a place of the array, and no two at the same (`Size.offset_lt`,
`Size.offset_inj`).  Every way to make a grid gives it an array of that kind, also where a side is
negative and there is no cell at all, and an assignment keeps it.

Whichever way a grid is made (`Grid.Origin`) and whatever is assigned to it afterwards, a cell holds
what was assigned to it last, or else what it was made with (`Grid.get?_assignAll`).  What a map on
a rectangle lets one observe is then read off `get?` (`Grid.represents_of_get?`).
-/

namespace PietLang

namespace Grid

variable {α : Type}

/-! ## Ways to make a grid -/

/-- The ways to make a grid. -/
inductive Origin (α : Type) where
  | fill (size : Size) (a : α)
  | ofFn (size : Size) (f : Coord → α)
  | ofRows (rows : List (List α))

namespace Origin

/-- The grid that is made, or why it is refused. -/
def make : Origin α → Except Plane.Error (Grid α)
  | .fill size a => Grid.fill size a
  | .ofFn size f => .ok (Grid.ofFn size f)
  | .ofRows rows => Grid.ofRows rows

/-- The sides of the grid that is made. -/
def size : Origin α → Size
  | .fill size _ | .ofFn size _ => size
  | .ofRows rows => ⟨((rows.head?.map List.length).getD 0 : Nat), rows.length⟩

/-- The value that a cell is made with. -/
def value? : Origin α → Coord → Option α
  | .fill _ a, _ => some a
  | .ofFn _ f, p => some (f p)
  | .ofRows rows, p => rows[p.y.toNat]?.bind fun r => r[p.x.toNat]?

/-- A grid that is filled has no negative side, and rows have one length. -/
def IsSound : Origin α → Prop
  | .fill size _ => 0 ≤ size.width ∧ 0 ≤ size.height
  | .ofFn _ _ => True
  | .ofRows rows => ∀ r ∈ rows, ∀ r' ∈ rows, r.length = r'.length

/-- Rows have one length when all are as long as the first. -/
theorem isSound_ofRows_iff {rows : List (List α)} : (ofRows rows).IsSound ↔
    ∀ r ∈ rows, r.length = (rows.head?.map List.length).getD 0 := by
  constructor
  · intro h r hr
    cases rows with
    | nil => cases hr
    | cons first rest => exact h r hr first List.mem_cons_self
  · intro h r hr r' hr'
    rw [h r hr, h r' hr']

/-- **A grid is made just from what is sound.** -/
theorem exists_make_iff {o : Origin α} : (∃ g, o.make = .ok g) ↔ o.IsSound := by
  cases o with
  | fill size a =>
    rw [make, Grid.fill, IsSound]
    split
    · next h =>
      refine iff_of_false ?_ (by omega)
      rintro ⟨g, hg⟩
      cases hg
    · next h => exact iff_of_true ⟨_, rfl⟩ (by omega)
  | ofFn size f => exact iff_of_true ⟨_, rfl⟩ trivial
  | ofRows rows =>
    rw [isSound_ofRows_iff, make, Grid.ofRows]
    split
    · next h => exact iff_of_true ⟨_, rfl⟩ h
    · next h =>
      refine iff_of_false ?_ h
      rintro ⟨g, hg⟩
      cases hg

/-- Rows of one length, one after another, have at the place of a cell what its row has there. -/
theorem getElem?_flatten_offset {rows : List (List α)} {p : Coord}
    (hlength : ∀ r ∈ rows, r.length = (rows.head?.map List.length).getD 0)
    (hp : p ∈ (ofRows rows).size) :
    rows.flatten[(ofRows rows).size.offset p]? = (ofRows rows).value? p := by
  obtain ⟨hx, hwidth, hy, hheight⟩ := Size.mem_iff.mp hp
  simp only [size] at hwidth hheight
  have hside : (ofRows rows).size.width.toNat = (rows.head?.map List.length).getD 0 :=
    Int.toNat_natCast _
  have hrow : rows[p.y.toNat]? = some _ := List.getElem?_eq_getElem (by omega)
  rw [Size.offset_eq hp, hside, value?, hrow, Option.bind_some, ← List.flatMap_id]
  exact getElem?_flatMap_of_length (by omega) hlength hrow

/-- **A grid holds what it is made with.** -/
theorem get?_make {o : Origin α} {g : Grid α} (h : o.make = .ok g) :
    g.size = o.size ∧ ∀ p ∈ o.size, g.get? p = o.value? p := by
  cases o with
  | fill size a =>
    rw [make, Grid.fill] at h
    split at h
    · cases h
    · obtain rfl := Except.ok.inj h
      exact ⟨rfl, fun p hp => get?_filled.trans (if_pos hp)⟩
  | ofFn size f =>
    obtain rfl := Except.ok.inj h
    exact ⟨rfl, fun p hp => get?_ofFn.trans (if_pos hp)⟩
  | ofRows rows =>
    rw [make, Grid.ofRows] at h
    split at h
    · next hlength =>
      obtain rfl := Except.ok.inj h
      refine ⟨rfl, fun p hp => (if_pos hp).trans ?_⟩
      rw [List.getElem?_toArray]
      exact getElem?_flatten_offset hlength hp
    · cases h

end Origin

/-! ## Assignments -/

/-- Puts a value into a cell: the grid that is left, and why that was refused, if it was. -/
def assign (g : Grid α) (w : Coord × α) : Grid α × Option Plane.Error :=
  match g.set w.1 w.2 with
  | .ok g' => (g', none)
  | .error e => (g, some e)

/-- The grid that assignments leave, one after the other, those that are refused among them. -/
def assignAll (g : Grid α) (ws : List (Coord × α)) : Grid α :=
  ws.foldl (fun g w => (g.assign w).1) g

/-- The value that was assigned to a cell last. -/
def lastAssigned (ws : List (Coord × α)) (p : Coord) : Option α := ws.reverse.lookup p

variable {g : Grid α} {p : Coord} {a : α}

theorem assign_of_mem (hp : p ∈ g.size) : g.assign (p, a) = (g.put p a, none) := by
  rw [assign, set, if_pos hp]

theorem assign_of_not_mem (hp : p ∉ g.size) : g.assign (p, a) = (g, some (.outside p)) := by
  rw [assign, set, if_neg hp]

/-- An assignment, refused or not, leaves what `put` does. -/
theorem assign_fst (g : Grid α) (w : Coord × α) : (g.assign w).1 = g.put w.1 w.2 := by
  by_cases hp : w.1 ∈ g.size
  · rw [assign_of_mem hp]
  · rw [assign_of_not_mem hp, put, if_neg hp]

theorem assignAll_cons (g : Grid α) (w : Coord × α) (ws : List (Coord × α)) :
    g.assignAll (w :: ws) = (g.put w.1 w.2).assignAll ws := by
  rw [assignAll, List.foldl_cons, assign_fst]
  rfl

theorem size_assignAll (ws : List (Coord × α)) : ∀ g : Grid α, (g.assignAll ws).size = g.size := by
  induction ws with
  | nil => exact fun g => rfl
  | cons w ws ih => exact fun g => by rw [assignAll_cons, ih, size_put]

/-- **A cell holds what was assigned to it last**, or else what it held before. -/
theorem get?_assignAll (ws : List (Coord × α)) :
    ∀ {g : Grid α}, p ∈ g.size →
      (g.assignAll ws).get? p = (lastAssigned ws p).or (g.get? p) := by
  induction ws with
  | nil => exact fun _ => rfl
  | cons w ws ih =>
    intro g hp
    obtain ⟨q, a⟩ := w
    -- a later assignment to the same cell wins, so this one counts only where `ws` has none
    have hlast : lastAssigned ((q, a) :: ws) p = (lastAssigned ws p).or ([(q, a)].lookup p) := by
      rw [lastAssigned, List.reverse_cons, List.lookup_append, lastAssigned]
    rw [assignAll_cons, ih (by rw [size_put]; exact hp), get?_put, hlast, Option.or_assoc]
    congr 1
    by_cases hpq : q = p
    · subst hpq
      rw [if_pos ⟨rfl, hp⟩, List.lookup_cons_self]
      rfl
    · have hbeq : (p == q) = false := beq_false_of_ne fun h => hpq h.symm
      rw [if_neg fun h => hpq h.1, List.lookup_cons, hbeq]
      rfl

/-! ## What can be observed -/

theorem get_of_get? (h : g.get? p = some a) : g.get p = .ok a := by
  rw [get, h]

theorem get_of_not_mem (hp : p ∉ g.size) : g.get p = .error (.outside p) := by
  rw [get, get?_eq_none_iff.mpr hp]

/-- **The entries are the cells in reading order**, … -/
theorem fst_entries (g : Grid α) : g.entries.map Prod.fst = g.size.coords := by
  have hlength : g.size.coords.length = g.values.length := by
    rw [Size.length_coords, values, Array.length_toList, g.size_cells]
  exact List.map_fst_zip (Nat.le_of_eq hlength)

/-- …each with the value that it holds. -/
theorem mem_entries_iff : (p, a) ∈ g.entries ↔ g.get? p = some a := by
  rw [entries, List.mem_iff_getElem?]
  constructor
  · rintro ⟨i, hi⟩
    obtain ⟨hcell, hvalue⟩ := List.getElem?_zip_eq_some.mp hi
    have hp : p ∈ g.size := Size.mem_coords.mp (List.mem_of_getElem? hcell)
    rw [get?, if_pos hp, Size.offset_of_getElem? hcell, ← Array.getElem?_toList]
    exact hvalue
  · intro h
    have hp := mem_size_of_get? h
    rw [get?, if_pos hp, ← Array.getElem?_toList] at h
    exact ⟨_, List.getElem?_zip_eq_some.mpr ⟨Size.getElem?_coords_offset hp, h⟩⟩

/-- The grid is the map `m` on the cells of the rectangle, as far as can be observed. -/
structure Represents (g : Grid α) (size : Size) (m : Coord → Option α) : Prop where
  size_eq : g.size = size
  /-- A cell is looked up within the array. -/
  within : ∀ p ∈ size, 0 ≤ p.y * g.size.width + p.x ∧ p.y * g.size.width + p.x < g.cells.size
  read : ∀ p ∈ size, ∃ a, m p = some a ∧ g.get? p = some a ∧ g.get p = .ok a
  written : ∀ p ∈ size, ∀ a, ∃ g', g.assign (p, a) = (g', none)
  /-- Outside the rectangle nothing is read, and what is written there changes nothing. -/
  outside : ∀ p ∉ size, g.get? p = none ∧ g.get p = .error (.outside p) ∧
    ∀ a, g.assign (p, a) = (g, some (.outside p))
  /-- The cells are listed in reading order, each of them once. -/
  ordered : (g.entries.map Prod.fst).Pairwise Coord.Before
  mem_entries : ∀ p a, (p, a) ∈ g.entries ↔ p ∈ size ∧ m p = some a

/-- **The view tells all that can be observed.** -/
theorem represents_of_get? {m : Coord → Option α} (h : ∀ p ∈ g.size, g.get? p = m p) :
    g.Represents g.size m where
  size_eq := rfl
  within p hp := by
    obtain ⟨hx, hwidth, hy, -⟩ := Size.mem_iff.mp hp
    have hplace : 0 ≤ p.y * g.size.width + p.x :=
      Int.add_nonneg (Int.mul_nonneg hy (by omega)) hx
    exact ⟨hplace, (Int.toNat_lt hplace).mp (g.size_cells ▸ Size.offset_lt hp)⟩
  read p hp := by
    obtain ⟨a, ha⟩ := exists_get? hp
    exact ⟨a, (h p hp).symm.trans ha, ha, get_of_get? ha⟩
  written p hp a := ⟨_, assign_of_mem hp⟩
  outside p hp := ⟨get?_eq_none_iff.mpr hp, get_of_not_mem hp, fun a => assign_of_not_mem hp⟩
  ordered := by
    rw [fst_entries]
    exact g.size.pairwise_coords
  mem_entries p a := by
    rw [mem_entries_iff]
    constructor
    · intro ha
      have hp := mem_size_of_get? ha
      exact ⟨hp, (h p hp).symm.trans ha⟩
    · rintro ⟨hp, ha⟩
      exact (h p hp).trans ha

/-- **A grid is a finite map.**  It is made from all that is sound.  Whatever is assigned to it
then, it has the size that it was made with, and shows in every cell what was assigned there last,
or else what the cell was made with.  Two grids are equal when they agree in size and in every
cell. -/
theorem represents_assignAll [DecidableEq α] :
    (∀ o : Origin α, (∃ g, o.make = .ok g) ↔ o.IsSound) ∧
    (∀ (o : Origin α) (g : Grid α) (ws : List (Coord × α)), o.make = .ok g →
      (g.assignAll ws).Represents o.size fun p => (lastAssigned ws p).or (o.value? p)) ∧
    ∀ g g' : Grid α, (g == g') = true ↔
      g.size = g'.size ∧ ∀ p ∈ g.size, g.get? p = g'.get? p := by
  refine ⟨fun o => Origin.exists_make_iff, fun o g ws hmake => ?_, fun g g' => ?_⟩
  · obtain ⟨hsize, hget⟩ := Origin.get?_make hmake
    have hsize' : (g.assignAll ws).size = o.size := (size_assignAll ws g).trans hsize
    rw [← hsize']
    refine represents_of_get? fun p hp => ?_
    rw [hsize'] at hp
    rw [get?_assignAll ws (hsize ▸ hp), hget p hp]
  · rw [beq_iff_eq]
    constructor
    · rintro rfl
      exact ⟨rfl, fun p _ => rfl⟩
    · rintro ⟨hsize, hget⟩
      exact eq_of_get?_of_mem hsize hget

/-- Two assignments to one cell, and between them one that is refused. -/
def corrections : List (Coord × Int) := [(⟨1, 1⟩, 7), (⟨3, 0⟩, 8), (⟨1, 1⟩, 9)]

/-- Of two rows of three the corrected cell shows the later value and the one beside it is as it was
made; a grid of negative sides keeps them, and has no cell to show. -/
theorem represents_corrections :
    (∃ g, (Origin.ofRows [[1, 2, 3], [4, 5, 6]]).make = .ok g ∧
      (g.assignAll corrections).size = ⟨3, 2⟩ ∧
      (g.assignAll corrections).get ⟨1, 1⟩ = .ok 9 ∧ (g.assignAll corrections).get ⟨2, 1⟩ = .ok 6 ∧
      (g.assignAll corrections).assign (⟨3, 0⟩, 8)
        = (g.assignAll corrections, some (.outside ⟨3, 0⟩)) ∧
      ((g == g.assignAll corrections) = true ↔ g.size = (g.assignAll corrections).size ∧
        ∀ p ∈ g.size, g.get? p = (g.assignAll corrections).get? p)) ∧
    ∃ g, (Origin.ofFn ⟨-2, -3⟩ Coord.x).make = .ok g ∧
      (g.assignAll corrections).size = ⟨-2, -3⟩ ∧
      ∀ p a, (p, a) ∉ (g.assignAll corrections).entries := by
  obtain ⟨hsound, hrepresents, heq⟩ := represents_assignAll (α := Int)
  constructor
  · obtain ⟨g, hg⟩ := (hsound (.ofRows [[1, 2, 3], [4, 5, 6]])).mpr (by simp [Origin.IsSound])
    have h := hrepresents _ g corrections hg
    obtain ⟨a, ha, -, hget⟩ := h.read ⟨1, 1⟩ (by decide)
    obtain ⟨b, hb, -, hget'⟩ := h.read ⟨2, 1⟩ (by decide)
    obtain rfl : 9 = a := Option.some.inj ha
    obtain rfl : 6 = b := Option.some.inj hb
    exact ⟨g, hg, h.size_eq, hget, hget', (h.outside ⟨3, 0⟩ (by decide)).2.2 8, heq _ _⟩
  · obtain ⟨g, hg⟩ := (hsound (.ofFn ⟨-2, -3⟩ Coord.x)).mpr trivial
    have h := hrepresents _ g corrections hg
    refine ⟨g, hg, h.size_eq, fun p a hp => ?_⟩
    obtain ⟨hx, hwidth, -⟩ := ((h.mem_entries p a).mp hp).1
    simp only [Origin.size] at hwidth
    omega

end Grid

end PietLang
