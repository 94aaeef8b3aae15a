import PietLang.Proofs.Failures

/-!
# Proofs/Division — a quotient rounded toward zero, and the remainder that goes with it

A quotient and a remainder of `y` by `x` are known by three things: they make up `y`, the remainder
is smaller than `x`, and it has the sign of `y` unless it is zero (`Truncates`).  For every divisor
but zero one pair has all three, and no other (`truncates_iff`).  Its quotient is that of the
magnitudes, with a sign put before it when the signs of the two numbers differ
(`tdiv_eq_signedQuotient`).

The machine divides the second value of the stack by the top one.
-/

namespace PietLang

variable {y x q r : Int}

/-- `q` and `r` are the quotient of `y` by `x`, rounded toward zero, and its remainder. -/
structure Truncates (y x q r : Int) : Prop where
  eq_add : y = x * q + r
  small : r.natAbs < x.natAbs
  /-- The remainder is on the same side of zero as the dividend. -/
  sign_eq : r = 0 ∨ r.sign = y.sign

theorem truncates_tdiv_tmod (y : Int) (hx : x ≠ 0) : Truncates y x (y.tdiv x) (y.tmod x) where
  eq_add := (Int.mul_tdiv_add_tmod y x).symm
  small := by
    have hlt := Nat.mod_lt y.natAbs (Int.natAbs_pos.mpr hx)
    rw [← Int.natAbs_tmod] at hlt
    omega
  sign_eq := by
    by_cases hdvd : x ∣ y
    · exact Or.inl (Int.tmod_eq_zero_of_dvd hdvd)
    · exact Or.inr (by rw [Int.sign_tmod, if_neg hdvd])

/-- **For every divisor but zero there is one quotient with one remainder.** -/
theorem truncates_iff (hx : x ≠ 0) : Truncates y x q r ↔ q = y.tdiv x ∧ r = y.tmod x := by
  constructor
  · rintro ⟨hsum, hsmall, hsign⟩
    rcases le_total 0 y with hy | hy
    · have hr : 0 ≤ r := by
        rcases hsign with rfl | hsign
        · exact le_rfl
        · exact Int.sign_nonneg_iff.mp (hsign ▸ Int.sign_nonneg_iff.mpr hy)
      have hunique := (Int.tdiv_tmod_unique (q := q) (r := r) hy hx).mpr
        ⟨by omega, hr, by omega⟩
      exact ⟨hunique.1.symm, hunique.2.symm⟩
    · have hr : r ≤ 0 := by
        rcases hsign with rfl | hsign
        · exact le_rfl
        · exact Int.sign_nonpos_iff.mp (hsign ▸ Int.sign_nonpos_iff.mpr hy)
      have hunique := (Int.tdiv_tmod_unique' (q := q) (r := r) hy hx).mpr
        ⟨by omega, by omega, hr⟩
      exact ⟨hunique.1.symm, hunique.2.symm⟩
  · rintro ⟨rfl, rfl⟩
    exact truncates_tdiv_tmod y hx

/-- **Dividing magnitudes and putting the sign back rounds toward zero**, in each of the four
combinations of signs. -/
theorem tdiv_eq_signedQuotient (y x : Int) : y.tdiv x = signedQuotient y x := by
  have hnat (n : Nat) : ¬ Int.ofNat n < 0 := Int.not_lt.mpr (Int.natCast_nonneg n)
  have hneg (n : Nat) : Int.negSucc n < 0 := Int.negSucc_lt_zero n
  -- the quotient is computed by the same four cases, each from the magnitudes
  cases y with
  | ofNat m =>
    cases x with
    | ofNat n => exact (if_pos (iff_of_false (hnat m) (hnat n))).symm
    | negSucc n => exact (if_neg fun h => hnat m (h.mpr (hneg n))).symm
  | negSucc m =>
    cases x with
    | ofNat n => exact (if_neg fun h => hnat n (h.mp (hneg m))).symm
    | negSucc n => exact (if_pos (iff_of_true (hneg m) (hneg n))).symm

theorem truncatedDivision_of_ne_zero (y : Int) (hx : x ≠ 0) :
    truncatedDivision y x = .ok (y.tdiv x, y.tmod x) := by
  rw [truncatedDivision, if_neg hx, ← tdiv_eq_signedQuotient, Int.tmod_def]

namespace State

variable {s : State} {rest : List Int}

/-- The two instructions put one half of a division each in the place of their operands. -/
theorem execute_division (hdivision : truncatedDivision y x = .ok (q, r))
    (hstack : s.stack = x :: y :: rest) (operand : Int) :
    s.execute ⟨.divide, operand⟩ = ({ s with stack := q :: rest }, none) ∧
      s.execute ⟨.mod, operand⟩ = ({ s with stack := r :: rest }, none) := by
  constructor
  · rw [execute_binary rfl hstack, binary, hdivision]
    rfl
  · rw [execute_binary rfl hstack, binary, hdivision]
    rfl

/-- By zero there is no division, and both instructions fail. -/
theorem execute_division_by_zero (hstack : s.stack = 0 :: y :: rest) (operand : Int) :
    s.execute ⟨.divide, operand⟩
        = ({ s with stack := rest }, some (.showing y (.divisionByZero y))) ∧
      s.execute ⟨.mod, operand⟩
        = ({ s with stack := rest }, some (.showing y (.divisionByZero y))) := by
  have hdivide : s.Fails ⟨.divide, operand⟩ _ := .division (Or.inl rfl) hstack
  have hmod : s.Fails ⟨.mod, operand⟩ _ := .division (Or.inr rfl) hstack
  rw [hdivide.execute, hmod.execute, spent, spent, hstack]
  exact ⟨rfl, rfl⟩

end State

/-- **Division rounds toward zero.**  By every divisor but zero the division of a dividend gives the
one quotient and the one remainder that go together, and on a stack with the divisor on top of the
dividend the instructions put these in the place of both.  By zero there is no division, and the
instructions fail. -/
theorem truncatedDivision_truncates :
    (∀ y x : Int, x ≠ 0 → ∃ q r, truncatedDivision y x = .ok (q, r) ∧ q = signedQuotient y x ∧
      (∀ q' r', Truncates y x q' r' ↔ q' = q ∧ r' = r) ∧
      ∀ (s : State) (rest : List Int) (operand : Int), s.stack = x :: y :: rest →
        s.execute ⟨.divide, operand⟩ = ({ s with stack := q :: rest }, none) ∧
        s.execute ⟨.mod, operand⟩ = ({ s with stack := r :: rest }, none)) ∧
    ∀ y : Int, truncatedDivision y 0 = .error (.showing y (.divisionByZero y)) ∧
      ∀ (s : State) (rest : List Int) (operand : Int), s.stack = 0 :: y :: rest →
        s.execute ⟨.divide, operand⟩
          = ({ s with stack := rest }, some (.showing y (.divisionByZero y))) ∧
        s.execute ⟨.mod, operand⟩
          = ({ s with stack := rest }, some (.showing y (.divisionByZero y))) := by
  constructor
  · intro y x hx
    have hdivision := truncatedDivision_of_ne_zero y hx
    exact ⟨y.tdiv x, y.tmod x, hdivision, tdiv_eq_signedQuotient y x,
      fun q' r' => truncates_iff hx,
      fun s rest operand hstack => State.execute_division hdivision hstack operand⟩
  · intro y
    exact ⟨rfl, fun s rest operand hstack => State.execute_division_by_zero hstack operand⟩

/-- A state with a divisor on top of seven below zero. -/
def State.belowZero (divisor : Int) : State := ⟨.initial, [divisor, -7, 5], .ofBytes [] .closed, ""⟩

/-- Seven below zero, divided by two, leaves one below zero, where a floor would leave one above. -/
theorem truncatedDivision_below_zero :
    (∃ q r, truncatedDivision (-7) 2 = .ok (q, r) ∧ q = -3 ∧ r = -1 ∧
      (∀ q' r', Truncates (-7) 2 q' r' ↔ q' = q ∧ r' = r) ∧
      (State.belowZero 2).execute ⟨.mod, 1⟩
        = ({ State.belowZero 2 with stack := [r, 5] }, none)) ∧
    (State.belowZero 0).execute ⟨.divide, 1⟩
      = ({ State.belowZero 0 with stack := [5] }, some (.divisionByZero (-7))) := by
  obtain ⟨hdivides, hfails⟩ := truncatedDivision_truncates
  constructor
  · obtain ⟨q, r, hdivision, -, hunique, hexecute⟩ := hdivides (-7) 2 (by decide)
    obtain ⟨hq, hr⟩ := Prod.mk.inj (Except.ok.inj hdivision)
    exact ⟨q, r, hdivision, hq.symm, hr.symm, hunique, (hexecute (.belowZero 2) [5] 1 rfl).2⟩
  · exact ((hfails (-7)).2 (.belowZero 0) [5] 1 rfl).1

end PietLang
