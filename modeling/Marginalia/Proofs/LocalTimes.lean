import Marginalia.Calendar.Reading
import Marginalia.Proofs.FaultSteps
import Mathlib.Tactic.SplitIfs

namespace Marginalia

/-- What the clock of a zone shows lies in the years that can be written. -/
def Zone.Writes (zone : Zone) (seconds : Int) : Prop :=
  (Moment.mk (zone.clock seconds * microsPerSecond)).inRange = true

instance (zone : Zone) (seconds : Int) : Decidable (zone.Writes seconds) :=
  inferInstanceAs (Decidable (_ = true))

/-- A zone has a time for a count of seconds: whenever its clock is looked at, it shows a time that can be written. -/
def Zone.Tells (zone : Zone) (seconds : Int) : Prop :=
  ∀ look ∈ zone.looks seconds, zone.Writes look

instance (zone : Zone) (seconds : Int) : Decidable (zone.Tells seconds) :=
  inferInstanceAs (Decidable (∀ look ∈ _, zone.Writes look))

/-- The seconds of the first and of the last moment that universal time is told for: the second day of the year 1 starts
with the one, the year 9999 ends with the other. -/
def toldSeconds : Int × Int := (-62135510400, 253402300799)

/-- The clock of a zone shows a year that no calendar has. -/
def Zone.IsBeyond (zone : Zone) (seconds : Int) : Prop :=
  zone.clock seconds < calendarSeconds.1 ∨ calendarSeconds.2 < zone.clock seconds

variable {zone : Zone} {seconds micros : Int} {moment : Moment}

theorem Moment.inRange_iff {moment : Moment} :
    moment.inRange = true ↔ -62135596800000000 ≤ moment.micros ∧ moment.micros < 253402300800000000 := by
  have first : Moment.first.micros = -62135596800000000 := by decide
  have limit : Moment.limit.micros = 253402300800000000 := by decide
  rw [Moment.inRange, Bool.and_eq_true, first, limit]
  exact and_congr decide_eq_true_iff decide_eq_true_iff

theorem Zone.writes_iff :
    zone.Writes seconds ↔ -62135596800 ≤ zone.clock seconds ∧ zone.clock seconds < 253402300800 := by
  rw [Writes, Moment.inRange_iff]
  simp only [microsPerSecond]
  omega

/-- A clock that shows a year of the calendar passes, unless the year cannot be written. -/
theorem Zone.check_of_not_isBeyond (calendar : ¬zone.IsBeyond seconds) :
    zone.check seconds = if zone.Writes seconds then .ok () else .error .yearOutOfRange := by
  have most : (twoTo 63 : Int) = 9223372036854775808 := by decide
  have near := zone.near seconds
  have counted : ¬(seconds < -(twoTo 63 : Int) ∨ twoTo 63 ≤ seconds) := by
    simp only [IsBeyond, calendarSeconds] at calendar
    simp only [secondsPerDay] at near
    omega
  rw [check, if_neg counted]
  exact if_neg calendar

theorem Zone.check_of_isBeyond (beyond : zone.IsBeyond seconds) :
    ∃ fault ∈ [TimeFault.overflow, .beyondCalendar], zone.check seconds = .error fault := by
  by_cases counted : seconds < -(twoTo 63 : Int) ∨ twoTo 63 ≤ seconds
  · exact ⟨.overflow, by simp, by rw [check, if_pos counted]⟩
  · refine ⟨.beyondCalendar, by simp, ?_⟩
    rw [check, if_neg counted]
    exact if_pos beyond

theorem Zone.check_eq_ok_iff : zone.check seconds = .ok () ↔ zone.Writes seconds := by
  by_cases beyond : zone.IsBeyond seconds
  · obtain ⟨fault, _, failed⟩ := Zone.check_of_isBeyond beyond
    have unwritten : ¬zone.Writes seconds := by
      rw [writes_iff]
      simp only [IsBeyond, calendarSeconds] at beyond
      omega
    simp [failed, unwritten]
  · rw [check_of_not_isBeyond beyond]
    simp

/-- A clock that shows a year that can be written shows a year of the calendar at all its looks. -/
theorem Zone.Writes.not_isBeyond (written : zone.Writes seconds) {look : Int} (looked : look ∈ zone.looks seconds) :
    ¬zone.IsBeyond look := by
  have near := zone.near seconds
  have nearBefore := zone.near (seconds - secondsPerDay)
  have nearLook := zone.near look
  have early : seconds - 2 * secondsPerDay < look ∧ look ≤ seconds := by
    rw [looks, List.mem_append, List.mem_pair] at looked
    simp only [secondsPerDay] at *
    rcases looked with (rfl | rfl) | again
    · omega
    · omega
    · split_ifs at again with back
      · rw [List.mem_singleton.mp again]
        simp only [turned, secondsPerDay] at *
        omega
      · cases again
  rw [writes_iff] at written
  simp only [IsBeyond, calendarSeconds]
  simp only [secondsPerDay] at near nearLook early
  omega

/-- A count of seconds gives what the clock of a zone shows, exactly if the zone has a time for it. -/
theorem Moment.ofEpoch_eq_ok_iff : Moment.ofEpoch seconds micros zone = .ok moment ↔
    zone.Tells seconds ∧ moment = ⟨zone.clock seconds * microsPerSecond + micros⟩ := by
  have passes : (zone.looks seconds).forM zone.check = .ok () ↔ zone.Tells seconds := by
    simp only [forM_eq_ok_iff, Zone.check_eq_ok_iff, Zone.Tells]
  rw [ofEpoch, ← passes]
  cases (zone.looks seconds).forM zone.check with
  | error fault => simp [bind, Except.bind]
  | ok => simp [bind, Except.bind, pure, Except.pure, eq_comm]

theorem Moment.exists_ofEpoch_iff : (∃ time, Moment.ofEpoch seconds micros zone = .ok time) ↔ zone.Tells seconds := by
  simp only [ofEpoch_eq_ok_iff, exists_and_left, exists_eq, and_true]

/-- The first fault at a look at the clock is the fault of the count of seconds. -/
theorem Moment.ofEpoch_eq_error_iff {fault : TimeFault} :
    Moment.ofEpoch seconds micros zone = .error fault ↔ (zone.looks seconds).forM zone.check = .error fault := by
  rw [ofEpoch]
  cases (zone.looks seconds).forM zone.check with
  | error first => simp [bind, Except.bind]
  | ok => simp [bind, Except.bind, pure, Except.pure]

/-- A count of seconds is out of all bounds exactly if the clock shows a year that no calendar has. -/
theorem Moment.ofEpoch_out_of_bounds_iff :
    (∃ fault ∈ [TimeFault.overflow, .beyondCalendar], Moment.ofEpoch seconds micros zone = .error fault) ↔
      zone.IsBeyond seconds := by
  have first {fault : TimeFault} (failed : zone.check seconds = .error fault) :
      (zone.looks seconds).forM zone.check = .error fault := by
    change (zone.check seconds >>= fun _ => _) = _
    rw [failed]
    rfl
  simp only [ofEpoch_eq_error_iff]
  constructor
  · rintro ⟨fault, member, failed⟩
    by_contra calendar
    -- Where a look fails although no look is beyond the calendar, the year cannot be written.
    have unwritten : fault = .yearOutOfRange := by
      by_cases here : zone.Writes seconds
      · obtain ⟨look, looked, fails⟩ := exists_of_forM_eq_error failed
        rw [Zone.check_of_not_isBeyond (here.not_isBeyond looked)] at fails
        split_ifs at fails
        exact (Except.error.inj fails).symm
      · have fails := first ((Zone.check_of_not_isBeyond calendar).trans (if_neg here))
        exact Except.error.inj (failed.symm.trans fails)
    rw [unwritten] at member
    simp at member
  · intro beyond
    obtain ⟨fault, member, failed⟩ := Zone.check_of_isBeyond beyond
    exact ⟨fault, member, first failed⟩

-- A clock that is turned back by an hour shows the hour before once more.
example :
    let zone : Zone :=
      { clock := fun seconds => if seconds < 90000 then seconds + 7200 else seconds + 3600
        near := fun seconds => by dsimp only [secondsPerDay]; split <;> omega }
    zone.looks 91000 = [91000, 4600, 87400] ∧
      Moment.ofEpoch 91000 0 zone = .ok ⟨94600000000⟩ ∧ Moment.ofEpoch 87400 0 zone = .ok ⟨94600000000⟩ := by
  decide

theorem Zone.universal_turned (seconds : Int) : Zone.universal.turned seconds = 0 := by
  simp only [turned, universal, secondsPerDay]
  omega

theorem Zone.universal_tells_iff :
    Zone.universal.Tells seconds ↔ toldSeconds.1 ≤ seconds ∧ seconds ≤ toldSeconds.2 := by
  rw [Tells, looks, universal_turned, if_neg (by decide), List.append_nil]
  simp only [List.forall_mem_cons, List.not_mem_nil, false_imp_iff, implies_true, and_true, writes_iff, universal,
    toldSeconds, secondsPerDay]
  omega

end Marginalia
