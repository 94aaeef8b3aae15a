import Mathlib.Data.List.Rotate
import Mathlib.Logic.Function.Iterate
import PietLang.Machine.Execute

/-!
# Proofs/Roll — rolls of one depth add up

A roll is a rotation of the values within its depth (`rollStack_eq_rotate`), and going all the way
around changes nothing.  So of the amount only the remainder by the depth matters, rolls of one
depth compose by adding their amounts, and each is undone by the roll of the opposite amount.

The unit of the action is the roll by one, which buries the top value (`rollStack_one`); every roll
by a positive amount repeats it.
-/

namespace PietLang

/-- How many values a roll of a depth reaches: none for a negative depth, and no more than there
are. -/
def rollReach (depth : Int) (stack : List Int) : Nat := (max 0 (min depth stack.length)).toNat

/-- The stack with its top value put below the `d - 1` values under it. -/
def bury (d : Nat) : List Int → List Int
  | [] => []
  | v :: rest => rest.take (d - 1) ++ v :: rest.drop (d - 1)

variable {depth : Int} {stack : List Int}

theorem rollReach_eq (depth : Int) (stack : List Int) :
    rollReach depth stack = min depth.toNat stack.length := by
  rw [rollReach]
  omega

theorem length_take_rollReach (depth : Int) (stack : List Int) :
    (stack.take (rollReach depth stack)).length = rollReach depth stack := by
  rw [List.length_take, rollReach_eq]
  omega

/-! ## Rotations by an integer -/

/-- The number of places, from none to all but one, that an amount moves the values of a list of
length `d`. -/
def places (a : Int) (d : Nat) : Nat := (a % d).toNat

theorem places_natCast (n d : Nat) : places n d = n % d := by
  rw [places, ← Int.natCast_emod, Int.toNat_natCast]

/-- A backward move by `n` places is a forward move by what `n` lacks of the whole. -/
theorem places_neg {n d : Nat} (hn : n % d ≠ 0) (hd : 0 < d) :
    places (-(n : Int)) d = d - n % d := by
  have hlt : n % d < d := Nat.mod_lt n hd
  have hsum : -(n : Int) = ((d - n % d : Nat) : Int) + d * (-(n / d : Nat) - 1) := by
    have hdiv : (n : Int) = d * (n / d : Nat) + (n % d : Nat) := by
      exact_mod_cast (Nat.div_add_mod n d).symm
    rw [Int.mul_sub, Int.mul_neg, Int.mul_one]
    omega
  rw [places, hsum, Int.add_mul_emod_self_left, ← Int.natCast_emod, Int.toNat_natCast,
    Nat.mod_eq_of_lt (by omega)]

/-- **The places of an amount by its magnitude and its sign.** -/
theorem places_eq {d : Nat} (hd : 0 < d) (a : Int) :
    places a d = if a.natAbs % d = 0 then 0
      else if 0 < a then a.natAbs % d else d - a.natAbs % d := by
  split
  · next hshift =>
    have hdvd : (d : Int) ∣ a := Int.ofNat_dvd_left.mpr (Nat.dvd_of_mod_eq_zero hshift)
    rw [places, Int.emod_eq_zero_of_dvd hdvd, Int.toNat_zero]
  next hshift =>
  split
  · rw [← places_natCast, Int.natAbs_of_nonneg (by omega)]
  · rw [← places_neg hshift hd, Int.ofNat_natAbs_of_nonpos (by omega), Int.neg_neg]

theorem places_add {d : Nat} (hd : 0 < d) (a b : Int) :
    (places a d + places b d) % d = places (a + b) d := by
  have hd' : (d : Int) ≠ 0 := by omega
  have hcast (c : Int) : (places c d : Int) = c % d := Int.toNat_of_nonneg (Int.emod_nonneg c hd')
  refine Int.natCast_inj.mp ?_
  rw [Int.natCast_emod, Int.natCast_add, hcast, hcast, hcast, ← Int.add_emod]

/-- Rotations of a list add up. -/
theorem rotate_places_rotate_places (l : List Int) (a b : Int) :
    (l.rotate (places a l.length)).rotate (places b l.length)
      = l.rotate (places (a + b) l.length) := by
  rcases Nat.eq_zero_or_pos l.length with hnil | hpos
  · rw [List.eq_nil_of_length_eq_zero hnil, List.rotate_nil, List.rotate_nil, List.rotate_nil]
  · rw [List.rotate_rotate, ← List.rotate_mod, places_add hpos]

/-! ## A roll is a rotation -/

/-- **A roll rotates the values that it reaches** and leaves the others below them. -/
theorem rollStack_eq_rotate (a depth : Int) (stack : List Int) :
    rollStack a depth stack
      = (stack.take (rollReach depth stack)).rotate (places a (rollReach depth stack))
        ++ stack.drop (rollReach depth stack) := by
  have hlength := length_take_rollReach depth stack
  rw [rollStack, ← rollReach]
  generalize rollReach depth stack = d at hlength ⊢
  rcases Nat.eq_zero_or_pos d with rfl | hpos
  · simp
  have hlt : a.natAbs % d < d := Nat.mod_lt _ hpos
  rw [if_neg (by omega), places_eq hpos]
  by_cases hshift : a.natAbs % d = 0
  · rw [if_pos hshift, if_pos hshift, List.rotate_zero, List.take_append_drop]
  rw [if_neg hshift, if_neg hshift]
  by_cases ha : 0 < a
  · rw [if_pos ha, List.rotate_eq_drop_append_take (by omega)]
    exact congrArg (· ++ _) (if_pos ha)
  · rw [if_neg ha, List.rotate_eq_drop_append_take (by omega)]
    exact congrArg (· ++ _) (if_neg ha)

theorem take_rollStack (a depth : Int) (stack : List Int) :
    (rollStack a depth stack).take (rollReach depth stack)
      = (stack.take (rollReach depth stack)).rotate (places a (rollReach depth stack)) := by
  rw [rollStack_eq_rotate, List.take_left' (by rw [List.length_rotate, length_take_rollReach])]

/-- What a roll does not reach stays as it is. -/
theorem drop_rollStack (a depth : Int) (stack : List Int) :
    (rollStack a depth stack).drop (rollReach depth stack)
      = stack.drop (rollReach depth stack) := by
  rw [rollStack_eq_rotate, List.drop_left' (by rw [List.length_rotate, length_take_rollReach])]

@[simp] theorem length_rollStack (a depth : Int) (stack : List Int) :
    (rollStack a depth stack).length = stack.length := by
  rw [rollStack_eq_rotate, List.length_append, List.length_rotate, ← List.length_append,
    List.take_append_drop]

@[simp] theorem rollReach_rollStack (a depth : Int) (stack : List Int) :
    rollReach depth (rollStack a depth stack) = rollReach depth stack := by
  rw [rollReach, length_rollStack, rollReach]

/-- **Rolls of one depth add up.** -/
theorem rollStack_rollStack (a b depth : Int) (stack : List Int) :
    rollStack b depth (rollStack a depth stack) = rollStack (a + b) depth stack := by
  have hrotate := rotate_places_rotate_places (stack.take (rollReach depth stack)) a b
  rw [length_take_rollReach] at hrotate
  rw [rollStack_eq_rotate b, rollReach_rollStack, take_rollStack, drop_rollStack, hrotate,
    ← rollStack_eq_rotate]

theorem rollStack_natCast (n : Nat) (depth : Int) (stack : List Int) :
    rollStack n depth stack = (stack.take (rollReach depth stack)).rotate n
      ++ stack.drop (rollReach depth stack) := by
  have hmod := (stack.take (rollReach depth stack)).rotate_mod n
  rw [length_take_rollReach] at hmod
  rw [rollStack_eq_rotate, places_natCast, hmod]

@[simp] theorem rollStack_zero (depth : Int) (stack : List Int) :
    rollStack 0 depth stack = stack := by
  rw [← Int.natCast_zero, rollStack_natCast, List.rotate_zero, List.take_append_drop]

/-! ## The roll by one -/

/-- **A roll by one buries the top value.** -/
theorem rollStack_one (depth : Int) (stack : List Int) :
    rollStack 1 depth stack = bury (rollReach depth stack) stack := by
  rw [← Int.natCast_one, rollStack_natCast]
  rcases stack with _ | ⟨v, rest⟩
  · rw [bury, List.take_nil, List.drop_nil, List.rotate_nil, List.append_nil]
  · rw [bury]
    rcases rollReach depth (v :: rest) with _ | d
    · rfl
    · rw [List.take_succ_cons, List.drop_succ_cons, List.rotate_cons_succ, List.rotate_zero,
        List.append_assoc, List.singleton_append, Nat.add_sub_cancel]

theorem rollStack_natCast_eq_iterate (n : Nat) (depth : Int) (stack : List Int) :
    rollStack n depth stack = (bury (rollReach depth stack))^[n] stack := by
  induction n with
  | zero => exact rollStack_zero depth stack
  | succ n ih =>
    rw [Function.iterate_succ_apply', ← ih, Int.natCast_succ, ← rollStack_rollStack,
      rollStack_one, rollReach_rollStack]

/-- **The integers act on a stack by its rolls of one depth.**  Two rolls make the roll by the sum
of their amounts, and a roll by nothing changes nothing, so a roll is undone by its opposite.  A
roll permutes the values that it reaches and leaves those below as they are; the amount matters only
up to multiples of their number; and a roll by `n` buries the top value `n` times. -/
theorem rollStack_acts (depth : Int) (stack : List Int) :
    (∀ a b, rollStack b depth (rollStack a depth stack) = rollStack (a + b) depth stack) ∧
      rollStack 0 depth stack = stack ∧
      (∀ a, rollStack (-a) depth (rollStack a depth stack) = stack) ∧
      (∀ a, ((rollStack a depth stack).take (rollReach depth stack)).Perm
          (stack.take (rollReach depth stack)) ∧
        (rollStack a depth stack).drop (rollReach depth stack)
          = stack.drop (rollReach depth stack)) ∧
      (∀ a, rollStack (a % rollReach depth stack) depth stack = rollStack a depth stack) ∧
      ∀ n : Nat, rollStack n depth stack = (bury (rollReach depth stack))^[n] stack := by
  refine ⟨fun a b => rollStack_rollStack a b depth stack, rollStack_zero depth stack, ?_, ?_, ?_,
    fun n => rollStack_natCast_eq_iterate n depth stack⟩
  · intro a
    rw [rollStack_rollStack, Int.add_right_neg, rollStack_zero]
  · intro a
    refine ⟨?_, drop_rollStack a depth stack⟩
    rw [take_rollStack]
    exact List.rotate_perm _ _
  · intro a
    rw [rollStack_eq_rotate, rollStack_eq_rotate, places, Int.emod_emod, places]

end PietLang
