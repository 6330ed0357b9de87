import Marginalia.Attribution.Age
import Marginalia.Proofs.RoundedQuotients
import Mathlib.Data.Int.ConditionallyCompleteOrder
import Mathlib.Data.List.Find
import Mathlib.Data.List.MinMax
import Mathlib.Tactic.NormNum

namespace Marginalia

variable {time now : Moment}

/-- The days after which lines get an age; new lines have it from the start. -/
def Age.since : Age → WithBot Int
  | .ancient => 540
  | .old => 365
  | .medium => 180
  | .recent => 30
  | .fresh => 7
  | .new => ⊥

theorem Age.since_injective : Function.Injective Age.since := by
  intro left right same
  cases left <;> cases right <;> first | rfl | exact absurd same (by decide)

theorem Age.since_of_mem {threshold : Int × Age} (member : threshold ∈ Age.thresholds) :
    threshold.2.since = threshold.1 := by
  revert threshold
  decide

/-- Neither the rounding to seconds nor the one to days moves a time across a number of days. -/
theorem atLeast_elapsedDays_iff {days : Int} (some : 0 < days) (few : days ≤ 10000) :
    (elapsedDays time now).atLeast days = true ↔ days * microsPerDay ≤ now.micros - time.micros := by
  have exact : (⟨now.micros - time.micros, 0⟩ : Dyadic).value = ((now.micros - time.micros : Int) : ℚ) := by
    simp [Dyadic.value]
  have perDay : microsPerDay = 86400 * 1000000 := rfl
  obtain ⟨days, rfl⟩ := Int.eq_ofNat_of_zero_le some.le
  rw [Dyadic.atLeast_iff, Int.cast_natCast]
  constructor
  · contrapose!
    intro less
    have short : ((now.micros - time.micros : Int) : ℚ) ≤ days * 86400 * 1000000 - 1 := by
      rw [perDay] at less
      have integers : now.micros - time.micros ≤ days * 86400 * 1000000 - 1 := by omega
      have rationals := Int.cast_le (R := ℚ).mpr integers
      push_cast at rationals ⊢
      exact rationals
    have days_pos : (1 : ℚ) ≤ days := by exact_mod_cast some
    have days_le : (days : ℚ) ≤ 10000 := by exact_mod_cast few
    -- a microsecond is more than what is lost in both divisions together
    have seconds : (elapsedSeconds time now).value ≤ (days * 86400 * 1000000 - 1) / 1000000 * (1 + 1 / 2 ^ 53) := by
      refine Dyadic.divided_le (by norm_num) (by linarith) ?_
      rw [exact, Nat.cast_ofNat]
      gcongr
    calc (elapsedDays time now).value
        ≤ (days * 86400 * 1000000 - 1) / 1000000 * (1 + 1 / 2 ^ 53) / 86400 * (1 + 1 / 2 ^ 53) := by
          refine Dyadic.divided_le (by norm_num) (by linarith) ?_
          rw [Nat.cast_ofNat]
          gcongr
      _ < days := by linarith
  · intro reached
    have seconds : ((days * 86400 : Nat) : ℚ) ≤ (elapsedSeconds time now).value := by
      refine Dyadic.le_divided (by norm_num) (by omega) ?_
      rw [exact, le_div_iff₀ (by norm_num)]
      rw [perDay, ← mul_assoc] at reached
      exact_mod_cast reached
    refine Dyadic.le_divided (by norm_num) (by omega) ?_
    rw [le_div_iff₀ (by norm_num)]
    exact_mod_cast seconds

theorem Age.thresholds_descending : Age.thresholds.Pairwise fun left right => right.1 < left.1 := by
  decide

/-- The first threshold that is reached is the largest one. -/
theorem Age.since_find (reached : Int → Bool) :
    (((Age.thresholds.find? fun threshold : Int × Age => reached threshold.1).map Prod.snd).getD Age.new).since =
      ((Age.thresholds.map (·.1)).filter reached).maximum := by
  cases found : Age.thresholds.find? fun threshold => reached threshold.1 with
  | none =>
    symm
    rw [Option.map_none, Option.getD_none, since, List.maximum_eq_bot, List.filter_eq_nil_iff]
    intro days member
    obtain ⟨threshold, inList, rfl⟩ := List.mem_map.mp member
    exact List.find?_eq_none.mp found threshold inList
  | some threshold =>
    rw [Option.map_some, Option.getD_some, since_of_mem (List.mem_of_find?_eq_some found)]
    symm
    obtain ⟨holds, before, after, split, missed⟩ := List.find?_eq_some_iff_append.mp found
    have descending := thresholds_descending
    rw [split, List.pairwise_append, List.pairwise_cons] at descending
    rw [split, List.maximum_eq_coe_iff]
    refine ⟨List.mem_filter.mpr ⟨by simp, holds⟩, fun days member => ?_⟩
    obtain ⟨isNumber, reachesOther⟩ := List.mem_filter.mp member
    obtain ⟨other, inList, rfl⟩ := List.mem_map.mp isNumber
    rcases List.mem_append.mp inList with inFront | inRest
    · have passed := missed other inFront
      rw [reachesOther] at passed
      cases passed
    · rcases List.mem_cons.mp inRest with rfl | behind
      · exact le_rfl
      · exact (descending.2.1.1 other behind).le

/-- An age is that of the largest threshold that the time in microseconds has reached. -/
theorem Age.since_of (time now : Moment) :
    (Age.of time now).since = ((Age.thresholds.map (·.1)).filter fun days =>
      days * microsPerDay ≤ now.micros - time.micros).maximum := by
  have same : ∀ threshold ∈ Age.thresholds, (elapsedDays time now).atLeast threshold.1 =
      decide (threshold.1 * microsPerDay ≤ now.micros - time.micros) := by
    intro threshold member
    have range : ∀ threshold ∈ Age.thresholds, 0 < threshold.1 ∧ threshold.1 ≤ 10000 := by decide
    obtain ⟨some, few⟩ := range threshold member
    rw [Bool.eq_iff_iff, decide_eq_true_eq]
    exact atLeast_elapsedDays_iff some few
  rw [Age.of, List.find?_congr same]
  exact since_find fun days => days * microsPerDay ≤ now.micros - time.micros

/-- More time makes no line younger. -/
theorem Age.since_of_mono {time' now' : Moment} (longer : now.micros - time.micros ≤ now'.micros - time'.micros) :
    (Age.of time now).since ≤ (Age.of time' now').since := by
  rw [since_of, since_of]
  refine List.maximum_mono fun days member => ?_
  obtain ⟨inList, reached⟩ := List.mem_filter.mp member
  rw [decide_eq_true_eq] at reached
  exact List.mem_filter.mpr ⟨inList, decide_eq_true (reached.trans longer)⟩

/-- The age of a change is that of the largest threshold that the microseconds since then have reached, and new when they
have reached none; that the time is rounded to seconds and to days moves it across no threshold. So no line gets younger
with a later clock, and none is younger for an older time. -/
theorem Age.of_reached (time now : Moment) :
    (Age.of time now).since = ([540, 365, 180, 30, 7].filter fun days : Int =>
      days * (86400 * 10 ^ 6) ≤ now.micros - time.micros).maximum ∧
    (∀ days : Int, days ∈ [540, 365, 180, 30, 7] → ((elapsedDays time now).atLeast days = true ↔
      days * (86400 * 10 ^ 6) ≤ now.micros - time.micros)) ∧
    (∀ now' : Moment, now.micros ≤ now'.micros → (Age.of time now).since ≤ (Age.of time now').since) ∧
    ∀ time' : Moment, time'.micros ≤ time.micros → (Age.of time now).since ≤ (Age.of time' now).since := by
  have perDay : (86400 * 10 ^ 6 : Int) = microsPerDay := by decide
  rw [perDay]
  refine ⟨Age.since_of time now, fun days member => ?_, fun now' later => ?_, fun time' older => ?_⟩
  · have range : 0 < days ∧ days ≤ 10000 := by
      revert days
      decide
    exact atLeast_elapsedDays_iff range.1 range.2
  · exact Age.since_of_mono (by omega)
  · exact Age.since_of_mono (by omega)

/-- A microsecond before the last threshold and at it. -/
theorem Age.of_reached_last :
    let time : Moment := ⟨-1⟩
    let now : Moment := ⟨540 * 86400 * 10 ^ 6 - 2⟩
    Age.of time now = .old ∧ Age.of time ⟨now.micros + 1⟩ = .ancient ∧ Age.of ⟨time.micros - 1⟩ now = .ancient ∧
      (elapsedDays time now).atLeast 540 = false ∧ (Age.of time now).since ≤ (Age.of time ⟨now.micros + 1⟩).since ∧
      (Age.of time now).since ≤ (Age.of ⟨time.micros - 1⟩ now).since := by
  intro time now
  obtain ⟨reached, apart, later, older⟩ := Age.of_reached time now
  have short : (elapsedDays time now).atLeast 540 = false := by
    rw [Bool.eq_false_iff, ne_eq, apart 540 (by decide)]
    decide
  refine ⟨since_injective (reached.trans (by decide)), since_injective ?_, since_injective ?_, short,
    later _ (by decide), older _ (by decide)⟩
  · exact (Age.of_reached time ⟨now.micros + 1⟩).1.trans (by decide)
  · exact (Age.of_reached ⟨time.micros - 1⟩ now).1.trans (by decide)

end Marginalia
