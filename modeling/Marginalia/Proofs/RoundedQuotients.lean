import Marginalia.Number.Binary64
import Mathlib.Algebra.Order.Field.Power
import Mathlib.Data.Rat.Cast.Order
import Mathlib.Tactic.Linarith
import Mathlib.Tactic.Positivity
import Mathlib.Tactic.Ring

namespace Marginalia

variable {numerator denominator : Nat} {exponent : Int}

/-- The number that a mantissa and an exponent stand for. -/
def Dyadic.value (number : Dyadic) : ℚ :=
  number.mantissa * 2 ^ number.exponent

theorem twoTo_pos (power : Nat) : 0 < twoTo power :=
  Nat.two_pow_pos power

theorem cast_twoTo_toNat (nonnegative : 0 ≤ exponent) : ((twoTo exponent.toNat : Nat) : ℚ) = 2 ^ exponent := by
  obtain ⟨power, rfl⟩ := Int.eq_ofNat_of_zero_le nonnegative
  simp [twoTo]

theorem cast_twoTo_neg_toNat (negative : exponent < 0) : ((twoTo (-exponent).toNat : Nat) : ℚ) = (2 ^ exponent)⁻¹ := by
  rw [cast_twoTo_toNat (by omega), zpow_neg]

theorem Dyadic.atLeast_iff {number : Dyadic} {bound : Int} : number.atLeast bound = true ↔ (bound : ℚ) ≤ number.value := by
  have positive : (0 : ℚ) < 2 ^ number.exponent := by positivity
  rw [atLeast, value]
  split
  · rename_i whole
    rw [decide_eq_true_eq, ← cast_twoTo_toNat whole]
    exact_mod_cast Iff.rfl
  · rename_i fractional
    rw [decide_eq_true_eq, ← Int.cast_le (R := ℚ), Int.cast_mul, Int.cast_natCast,
      cast_twoTo_neg_toNat (not_le.mp fractional), ← div_eq_mul_inv, div_le_iff₀ positive]

/-- Rounding to an integer moves a quotient by a half at most. -/
theorem roundedQuotient_error (positive : 0 < denominator) :
    |(roundedQuotient numerator denominator : ℚ) - numerator / denominator| ≤ 1 / 2 := by
  have parts := Nat.div_add_mod' numerator denominator
  have rest := Nat.mod_lt numerator positive
  have bounds : 2 * numerator ≤ 2 * (roundedQuotient numerator denominator * denominator) + denominator ∧
      2 * (roundedQuotient numerator denominator * denominator) ≤ 2 * numerator + denominator := by
    unfold roundedQuotient
    dsimp only
    split_ifs
    all_goals try rw [add_mul, one_mul]
    all_goals omega
  have positive : (0 : ℚ) < denominator := by exact_mod_cast positive
  have lower : (2 : ℚ) * numerator ≤ 2 * (roundedQuotient numerator denominator * denominator) + denominator := by
    exact_mod_cast bounds.1
  have upper : (2 : ℚ) * (roundedQuotient numerator denominator * denominator) ≤ 2 * numerator + denominator := by
    exact_mod_cast bounds.2
  rw [← mul_le_mul_iff_left₀ positive, ← abs_of_pos positive, ← abs_mul, abs_of_pos positive, sub_mul,
    div_mul_cancel₀ _ positive.ne', abs_le]
  constructor <;> linarith

/-- Rounding to an integer does not pass an integer. -/
theorem le_roundedQuotient (positive : 0 < denominator) {bound : Nat} (below : (bound : ℚ) ≤ numerator / denominator) :
    bound ≤ roundedQuotient numerator denominator := by
  have below : bound ≤ numerator / denominator := by
    rw [le_div_iff₀ (by exact_mod_cast positive)] at below
    exact (Nat.le_div_iff_mul_le positive).mpr (by exact_mod_cast below)
  unfold roundedQuotient
  dsimp only
  split_ifs <;> omega

/-- The power of two is compared with the quotient without a division. -/
theorem quotientLog_eq (positive : 0 < denominator) :
    quotientLog numerator denominator =
      if (2 : ℚ) ^ ((numerator.log2 : Int) - denominator.log2) ≤ numerator / denominator
      then (numerator.log2 : Int) - denominator.log2 else (numerator.log2 : Int) - denominator.log2 - 1 := by
  have positive : (0 : ℚ) < denominator := by exact_mod_cast positive
  refine if_congr ?_ rfl rfl
  generalize (numerator.log2 : Int) - denominator.log2 = exponent
  have power : (0 : ℚ) < 2 ^ exponent := by positivity
  rw [le_div_iff₀ positive]
  split
  · rename_i whole
    rw [← Nat.cast_le (α := ℚ), Nat.cast_mul, cast_twoTo_toNat whole, mul_comm]
  · rename_i fractional
    rw [← Nat.cast_le (α := ℚ), Nat.cast_mul, cast_twoTo_neg_toNat (not_le.mp fractional), ← div_eq_mul_inv,
      le_div_iff₀ power, mul_comm]

/-- A quotient lies between a power of two and the next one. -/
theorem quotientLog_spec (numerator_pos : 0 < numerator) (denominator_pos : 0 < denominator) :
    (2 : ℚ) ^ quotientLog numerator denominator ≤ numerator / denominator ∧
      (numerator : ℚ) / denominator < 2 ^ (quotientLog numerator denominator + 1) := by
  have positive : (0 : ℚ) < denominator := by exact_mod_cast denominator_pos
  have two : (2 : ℚ) ≠ 0 := two_ne_zero
  have lower : (2 : ℚ) ^ (numerator.log2 : Int) ≤ numerator := by
    exact_mod_cast Nat.log2_self_le numerator_pos.ne'
  have upper : (numerator : ℚ) < 2 ^ ((numerator.log2 : Int) + 1) := by
    exact_mod_cast Nat.lt_log2_self
  have lower' : (2 : ℚ) ^ (denominator.log2 : Int) ≤ denominator := by
    exact_mod_cast Nat.log2_self_le denominator_pos.ne'
  have upper' : (denominator : ℚ) < 2 ^ ((denominator.log2 : Int) + 1) := by
    exact_mod_cast Nat.lt_log2_self
  have below : (2 : ℚ) ^ ((numerator.log2 : Int) - denominator.log2 - 1) ≤ numerator / denominator := by
    rw [le_div_iff₀ positive]
    calc (2 : ℚ) ^ ((numerator.log2 : Int) - denominator.log2 - 1) * denominator
        ≤ 2 ^ ((numerator.log2 : Int) - denominator.log2 - 1) * 2 ^ ((denominator.log2 : Int) + 1) := by gcongr
      _ = 2 ^ (numerator.log2 : Int) := by rw [← zpow_add₀ two]; congr 1; ring
      _ ≤ numerator := lower
  have above : (numerator : ℚ) / denominator < 2 ^ ((numerator.log2 : Int) - denominator.log2 + 1) := by
    rw [div_lt_iff₀ positive]
    calc (numerator : ℚ) < 2 ^ ((numerator.log2 : Int) + 1) := upper
      _ = 2 ^ ((numerator.log2 : Int) - denominator.log2 + 1) * 2 ^ (denominator.log2 : Int) := by
        rw [← zpow_add₀ two]; congr 1; ring
      _ ≤ 2 ^ ((numerator.log2 : Int) - denominator.log2 + 1) * denominator := by gcongr
  rw [quotientLog_eq denominator_pos]
  split
  · rename_i fits
    exact ⟨fits, above⟩
  · rename_i beyond
    rw [sub_add_cancel]
    exact ⟨below, not_le.mp beyond⟩

/-- A ratio is rounded on the grid on which it has fifty-three digits. -/
theorem roundedRatio_eq (numerator_pos : 0 < numerator) (denominator_pos : 0 < denominator) :
    ∃ numerator' denominator' : Nat, 0 < denominator' ∧
      (numerator' : ℚ) / denominator' = numerator / denominator / 2 ^ (quotientLog numerator denominator - 52) ∧
      roundedRatio numerator denominator =
        ⟨roundedQuotient numerator' denominator', quotientLog numerator denominator - 52⟩ := by
  have isPositive : (numerator == 0) = false := by simpa using numerator_pos.ne'
  rw [roundedRatio, isPositive, if_neg Bool.false_ne_true]
  dsimp only
  split
  · rename_i whole
    refine ⟨_, _, Nat.mul_pos denominator_pos (twoTo_pos _), ?_, rfl⟩
    rw [Nat.cast_mul, cast_twoTo_toNat whole, div_div]
  · rename_i fractional
    refine ⟨_, _, denominator_pos, ?_, rfl⟩
    rw [Nat.cast_mul, cast_twoTo_neg_toNat (not_le.mp fractional), ← div_eq_mul_inv, div_right_comm]

/-- Rounding to fifty-three digits moves a ratio by that part of it at most. -/
theorem roundedRatio_error (positive : 0 < denominator) :
    |(roundedRatio numerator denominator).value - numerator / denominator| ≤
      (numerator : ℚ) / denominator / 2 ^ 53 := by
  rcases Nat.eq_zero_or_pos numerator with rfl | numerator_pos
  · simp [roundedRatio, Dyadic.value]
  · obtain ⟨numerator', denominator', positive', scaled, rounded⟩ := roundedRatio_eq numerator_pos positive
    have unit : (0 : ℚ) < 2 ^ (quotientLog numerator denominator - 52) := by positivity
    have grid : (numerator : ℚ) / denominator =
        numerator' / denominator' * 2 ^ (quotientLog numerator denominator - 52) := by
      rw [scaled, div_mul_cancel₀ _ unit.ne']
    rw [rounded, Dyadic.value]
    dsimp only
    calc |(((roundedQuotient numerator' denominator' : Nat) : Int) : ℚ) *
            2 ^ (quotientLog numerator denominator - 52) - numerator / denominator|
        = |(roundedQuotient numerator' denominator' : ℚ) - numerator' / denominator'| *
            2 ^ (quotientLog numerator denominator - 52) := by
          rw [grid, Int.cast_natCast, ← sub_mul, abs_mul, abs_of_pos unit]
      _ ≤ 1 / 2 * 2 ^ (quotientLog numerator denominator - 52) := by
          gcongr
          exact roundedQuotient_error positive'
      _ = 2 ^ quotientLog numerator denominator / 2 ^ 53 := by
          rw [zpow_sub₀ two_ne_zero]
          norm_num
          ring
      _ ≤ (numerator : ℚ) / denominator / 2 ^ 53 := by
          gcongr
          exact (quotientLog_spec numerator_pos positive).1

/-- Rounding to fifty-three digits does not pass an integer that has no more of them. -/
theorem le_roundedRatio (positive : 0 < denominator) {bound : Nat} (short : bound ≤ 2 ^ 53)
    (below : (bound : ℚ) ≤ numerator / denominator) : (bound : ℚ) ≤ (roundedRatio numerator denominator).value := by
  rcases Nat.eq_zero_or_pos numerator with rfl | numerator_pos
  · simpa [roundedRatio, Dyadic.value] using below
  · obtain ⟨numerator', denominator', positive', scaled, rounded⟩ := roundedRatio_eq numerator_pos positive
    have unit : (0 : ℚ) < 2 ^ (quotientLog numerator denominator - 52) := by positivity
    rw [rounded, Dyadic.value]
    dsimp only
    rw [Int.cast_natCast, ← div_le_iff₀ unit]
    rcases le_or_gt (quotientLog numerator denominator - 52) 0 with fractional | whole
    · -- the bound is a point of the grid
      obtain ⟨power, negated⟩ := Int.exists_eq_neg_ofNat fractional
      have point : (bound : ℚ) / 2 ^ (quotientLog numerator denominator - 52) = (bound * 2 ^ power : Nat) := by
        rw [negated, zpow_neg, zpow_natCast, div_inv_eq_mul]
        push_cast
        rfl
      rw [point, Nat.cast_le]
      refine le_roundedQuotient positive' ?_
      rw [← point, scaled]
      gcongr
    · -- the ratio has more digits than the bound
      have least : 2 ^ 52 ≤ roundedQuotient numerator' denominator' := by
        refine le_roundedQuotient positive' ?_
        rw [scaled, le_div_iff₀ unit]
        calc ((2 ^ 52 : Nat) : ℚ) * 2 ^ (quotientLog numerator denominator - 52)
            = 2 ^ quotientLog numerator denominator := by
              rw [zpow_sub₀ two_ne_zero]
              norm_num
              ring
          _ ≤ numerator / denominator := (quotientLog_spec numerator_pos positive).1
      rw [div_le_iff₀ unit]
      calc (bound : ℚ) ≤ 2 ^ 53 := by exact_mod_cast short
        _ = 2 ^ 52 * 2 ^ (1 : Int) := by norm_num
        _ ≤ roundedQuotient numerator' denominator' * 2 ^ (quotientLog numerator denominator - 52) := by
          gcongr
          · exact_mod_cast least
          · norm_num
          · omega

theorem Dyadic.value_neg_iff {number : Dyadic} : number.mantissa < 0 ↔ number.value < 0 := by
  have positive : (0 : ℚ) < 2 ^ number.exponent := by positivity
  rw [value, mul_neg_iff]
  simp [positive, positive.not_gt]

/-- A number is divided by rounding the ratio of its size; the sign stays. -/
theorem Dyadic.value_divided (number : Dyadic) {divisor : Nat} (positive : 0 < divisor) :
    ∃ numerator denominator : Nat, 0 < denominator ∧ (numerator : ℚ) / denominator = |number.value| / divisor ∧
      (number.divided divisor).value =
        if number.value < 0 then -(roundedRatio numerator denominator).value
        else (roundedRatio numerator denominator).value := by
  have power : (0 : ℚ) < 2 ^ number.exponent := by positivity
  have size : |number.value| = number.mantissa.natAbs * 2 ^ number.exponent := by
    rw [value, abs_mul, abs_of_pos power, Nat.cast_natAbs, Int.cast_abs]
  have signed (ratio : Dyadic) :
      (if number.mantissa < 0 then (⟨-ratio.mantissa, ratio.exponent⟩ : Dyadic) else ratio).value =
        if number.value < 0 then -ratio.value else ratio.value := by
    rw [apply_ite Dyadic.value]
    refine if_congr value_neg_iff ?_ rfl
    rw [value, value, Int.cast_neg, neg_mul]
  rcases le_or_gt 0 number.exponent with whole | fractional
  · rw [divided, if_pos whole]
    refine ⟨_, _, positive, ?_, signed _⟩
    rw [size, Nat.cast_mul, cast_twoTo_toNat whole]
  · rw [divided, if_neg fractional.not_ge]
    refine ⟨_, _, Nat.mul_pos positive (twoTo_pos _), ?_, signed _⟩
    rw [size, Nat.cast_mul, cast_twoTo_neg_toNat fractional, ← div_div, div_inv_eq_mul, div_mul_eq_mul_div]

/-- Division rounds to fifty-three digits: the quotient is off by that part of it at most. -/
theorem Dyadic.divided_error (number : Dyadic) {divisor : Nat} (positive : 0 < divisor) :
    |(number.divided divisor).value - number.value / divisor| ≤ |number.value| / divisor / 2 ^ 53 := by
  obtain ⟨numerator, denominator, positive', ratio, divided⟩ := number.value_divided positive
  have error := @roundedRatio_error numerator denominator positive'
  rw [ratio] at error
  rw [divided]
  split
  · rename_i negative
    rw [abs_of_neg negative] at error ⊢
    rwa [abs_sub_comm, sub_neg_eq_add, add_comm, ← sub_neg_eq_add, ← neg_div]
  · rename_i nonnegative
    rwa [abs_of_nonneg (not_lt.mp nonnegative)] at error ⊢

/-- Division goes beyond a limit by that part of it at most. -/
theorem Dyadic.divided_le {number : Dyadic} {divisor : Nat} (positive : 0 < divisor) {limit : ℚ}
    (nonnegative : 0 ≤ limit) (above : number.value / divisor ≤ limit) :
    (number.divided divisor).value ≤ limit * (1 + 1 / 2 ^ 53) := by
  have error := (abs_le.mp (number.divided_error positive)).2
  have size : |number.value| / divisor = |number.value / divisor| := by rw [abs_div, Nat.abs_cast]
  rw [size] at error
  rcases abs_cases (number.value / divisor) with ⟨same, _⟩ | ⟨opposite, negative⟩
  · rw [same] at error
    linarith
  · rw [opposite] at error
    linarith

/-- Division does not pass an integer of fifty-three digits. -/
theorem Dyadic.le_divided {number : Dyadic} {divisor : Nat} (positive : 0 < divisor) {bound : Nat}
    (short : bound ≤ 2 ^ 53) (below : (bound : ℚ) ≤ number.value / divisor) :
    (bound : ℚ) ≤ (number.divided divisor).value := by
  have nonnegative : 0 ≤ number.value := by
    have positive : (0 : ℚ) < divisor := by exact_mod_cast positive
    rw [le_div_iff₀ positive] at below
    exact le_trans (by positivity) below
  obtain ⟨numerator, denominator, positive', ratio, divided⟩ := number.value_divided positive
  rw [divided, if_neg nonnegative.not_gt]
  refine le_roundedRatio positive' short ?_
  rwa [ratio, abs_of_nonneg nonnegative]

end Marginalia
