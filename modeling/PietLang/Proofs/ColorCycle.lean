import PietLang.Opcode
import Mathlib.Tactic.IntervalCases

/-!
# Proofs/ColorCycle — a change of colour is a difference on two cycles

Places on a cycle are counted by integers around it, so a colour can be shifted by any two integers
(`Color.shift`).  Both changes of colour are differences: none of them sees a shift of both colours
(`Color.opcodeTo_shift`), and they vanish together exactly between equal colours, which is where
`nop` stands in the table (`Color.opcodeTo_eq_nop_iff`).
-/

namespace PietLang

namespace Hue

/-- The hue at a place on the cycle, counted around it. -/
def ofIndex (n : Int) : Hue :=
  match (n % 6).toNat with
  | 0 => .red
  | 1 => .yellow
  | 2 => .green
  | 3 => .cyan
  | 4 => .blue
  | _ => .magenta

theorem index_lt (h : Hue) : h.index < 6 := by cases h <;> decide

theorem index_ofIndex (n : Int) : ((ofIndex n).index : Int) = n % 6 := by
  have hlo : 0 ≤ n % 6 := Int.emod_nonneg n (by decide)
  have hhi : n % 6 < 6 := Int.emod_lt_of_pos n (by decide)
  rw [ofIndex]
  generalize n % 6 = k at hlo hhi
  interval_cases k <;> rfl

@[simp] theorem ofIndex_index (h : Hue) : ofIndex h.index = h := by cases h <;> rfl

theorem index_inj {h h' : Hue} (heq : h.index = h'.index) : h = h' := by
  rw [← ofIndex_index h, heq, ofIndex_index]

end Hue

namespace Lightness

/-- The lightness at a place on the cycle, counted around it. -/
def ofIndex (n : Int) : Lightness :=
  match (n % 3).toNat with
  | 0 => .light
  | 1 => .normal
  | _ => .dark

theorem index_lt (l : Lightness) : l.index < 3 := by cases l <;> decide

theorem index_ofIndex (n : Int) : ((ofIndex n).index : Int) = n % 3 := by
  have hlo : 0 ≤ n % 3 := Int.emod_nonneg n (by decide)
  have hhi : n % 3 < 3 := Int.emod_lt_of_pos n (by decide)
  rw [ofIndex]
  generalize n % 3 = k at hlo hhi
  interval_cases k <;> rfl

@[simp] theorem ofIndex_index (l : Lightness) : ofIndex l.index = l := by cases l <;> rfl

theorem index_inj {l l' : Lightness} (heq : l.index = l'.index) : l = l' := by
  rw [← ofIndex_index l, heq, ofIndex_index]

end Lightness

/-- Only no change at all selects `nop`. -/
theorem Opcode.ofChange_eq_nop_iff {m n : Nat} : ofChange m n = .nop ↔ m = 0 ∧ n = 0 := by
  constructor
  · intro h
    unfold ofChange at h
    split at h
    · exact ⟨rfl, rfl⟩
    all_goals cases h
  · rintro ⟨rfl, rfl⟩
    rfl

namespace Color

variable {a b : Color}

theorem hueChange_eq_zero_iff : a.hueChange b = 0 ↔ a.hue = b.hue := by
  have ha := a.hue.index_lt
  have hb := b.hue.index_lt
  rw [hueChange]
  constructor
  · exact fun h => Hue.index_inj (by omega)
  · intro h
    rw [h]
    omega

theorem lightnessChange_eq_zero_iff : a.lightnessChange b = 0 ↔ a.lightness = b.lightness := by
  have ha := a.lightness.index_lt
  have hb := b.lightness.index_lt
  rw [lightnessChange]
  constructor
  · exact fun h => Lightness.index_inj (by omega)
  · intro h
    rw [h]
    omega

/-- **A move selects `nop` exactly between cells of one colour.** -/
theorem opcodeTo_eq_nop_iff : a.opcodeTo b = .nop ↔ a = b := by
  obtain ⟨h, l⟩ := a
  obtain ⟨h', l'⟩ := b
  rw [opcodeTo, Opcode.ofChange_eq_nop_iff, hueChange_eq_zero_iff, lightnessChange_eq_zero_iff,
    Color.mk.injEq]

/-- The colour `k` hues and `m` lightnesses further. -/
def shift (k m : Int) (c : Color) : Color :=
  ⟨.ofIndex (c.hue.index + k), .ofIndex (c.lightness.index + m)⟩

theorem hueChange_shift (k m : Int) (a b : Color) :
    (a.shift k m).hueChange (b.shift k m) = a.hueChange b := by
  have ha := a.hue.index_lt
  have hb := b.hue.index_lt
  have ha' := Hue.index_ofIndex (a.hue.index + k)
  have hb' := Hue.index_ofIndex (b.hue.index + k)
  simp only [hueChange, shift]
  omega

theorem lightnessChange_shift (k m : Int) (a b : Color) :
    (a.shift k m).lightnessChange (b.shift k m) = a.lightnessChange b := by
  have ha := a.lightness.index_lt
  have hb := b.lightness.index_lt
  have ha' := Lightness.index_ofIndex (a.lightness.index + m)
  have hb' := Lightness.index_ofIndex (b.lightness.index + m)
  simp only [lightnessChange, shift]
  omega

/-- **A shift of both colours selects the same opcode.** -/
theorem opcodeTo_shift (k m : Int) (a b : Color) :
    (a.shift k m).opcodeTo (b.shift k m) = a.opcodeTo b := by
  rw [opcodeTo, hueChange_shift, lightnessChange_shift, opcodeTo]

end Color

end PietLang
