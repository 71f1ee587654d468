import Mathlib.Algebra.BigOperators.Group.List.Basic
import Mathlib.Algebra.Ring.Int.Defs
import Cadence.Calendar.Step
import Cadence.Proofs.Calendar.Written
import Cadence.Proofs.Except

/-!
# Chain — steps one after the other

Steps by days and by weeks are additions of day numbers, as long as no step of the chain leaves the
calendar. So a chain of them leads where one step by the sum of its days leads. The order of the
steps can only decide whether the chain stays in the calendar, and a step back undoes a step. The
time of day takes no part in this.

- `Moment.stepAll`: the moment at the end of a chain
- `Date.ordinal`: the number of a date, from its year, its month and its day
- `DayStep`: a step by days or by weeks, and the days that it spans
- `Overflows`: why a step by days fails
- `day_steps_exact`: steps and chains of steps by days and weeks
-/

namespace Cadence
namespace Calendar

/-! ## Chains -/

/-- Takes steps one after the other; the first that fails ends them. -/
def Moment.stepAll (m : Moment) (steps : List (Period × Int)) : Except StepError Moment :=
  steps.foldlM (fun v step => v.step step.1 step.2) m

theorem Moment.stepAll_cons_eq_ok_iff {m u : Moment} {p : Period} {n : Int}
    {steps : List (Period × Int)} :
    m.stepAll ((p, n) :: steps) = .ok u ↔ ∃ v, m.step p n = .ok v ∧ v.stepAll steps = .ok u := by
  unfold stepAll
  rw [List.foldlM_cons]
  constructor
  · intro h
    exact bind_eq_ok h
  · rintro ⟨v, hv, hu⟩
    rw [hv]
    exact hu

/-! ## Day numbers -/

/-- The number of a date, 1 for 0001-01-01: the days of the years before its year, of the months
before its month in that year, and its day of the month. -/
def Date.ordinal (d : Date) : Nat :=
  daysBeforeYear (d.year - 1) + daysBeforeMonth d.year (d.month.number - 1) + d.day

theorem Date.ordinal_eq (d : Date) : d.ordinal = d.serial + 1 := by
  have hyear : (d.year : Int) = yearOfMonth d.month.index := Int.natCast_succ (d.month.index / 12)
  have hstart : d.month.start = daysBeforeYear (d.year - 1) + daysBeforeMonth d.year
      (d.month.number - 1) := by
    rw [hyear]
    rfl
  rw [d.serial_eq, hstart]
  rfl

theorem Date.ofCivil?_first : Date.ofCivil? 1 1 1 = some .first :=
  ofCivil?_eq_some_iff.2 (by decide +kernel)

theorem Date.ofCivil?_last : Date.ofCivil? 9999 12 31 = some .last :=
  ofCivil?_eq_some_iff.2 (by decide +kernel)

/-! ## Single steps -/

namespace Moment

variable {m u v : Moment} {n : Int}

/-- A step is one of the date. The time of day comes with it. -/
theorem step_eq_ok_iff {p : Period} :
    m.step p n = .ok u ↔ m.date.step p n = .ok u.date ∧ u.clock = m.clock := by
  unfold step
  rw [map_eq_ok_iff]
  constructor
  · rintro ⟨d, hd, rfl⟩
    exact ⟨hd, rfl⟩
  · rintro ⟨hd, hclock⟩
    refine ⟨u.date, hd, ?_⟩
    rw [← hclock]

theorem step_day_eq_ok_iff :
    m.step .day n = .ok u ↔ (u.date.serial : Int) = m.date.serial + n ∧ u.clock = m.clock := by
  rw [step_eq_ok_iff, Date.step_day_eq_ok_iff]

/-- A step by weeks is one by seven times as many days, with the same failure. -/
theorem step_week (m : Moment) (n : Int) : m.step .week n = m.step .day (7 * n) := rfl

theorem exists_step_day_iff :
    (∃ u, m.step .day n = .ok u) ↔
    0 ≤ (m.date.serial : Int) + n ∧ (m.date.serial : Int) + n < dayCount := by
  constructor
  · rintro ⟨u, hu⟩
    have hserial := (step_day_eq_ok_iff.1 hu).1
    have hlt := u.date.serial_lt
    omega
  · rintro ⟨hpos, hlt⟩
    have hserial : (((m.date.serial : Int) + n).toNat : Int) = m.date.serial + n :=
      Int.toNat_of_nonneg hpos
    have hcalendar : ((m.date.serial : Int) + n).toNat < dayCount := by omega
    exact ⟨⟨⟨_, hcalendar⟩, m.clock⟩, step_day_eq_ok_iff.2 ⟨hserial, rfl⟩⟩

end Moment

/-- Why a step by `n` days fails: the number of days is too large, or there is no date to step to.
-/
inductive Overflows (n : Int) : StepError → Prop
  | wide (wide : n < -2147483648 ∨ 2147483647 < n) : Overflows n .wideDayCount
  | long (fits : -2147483648 ≤ n ∧ n ≤ 2147483647) (long : n < -999999999 ∨ 999999999 < n) :
      Overflows n (.longSpan n)
  | outside (short : -999999999 ≤ n ∧ n ≤ 999999999) : Overflows n .dateOutOfRange

theorem overflows_of_step_day {m : Moment} {n : Int} {e : StepError}
    (h : m.step .day n = .error e) :
    Overflows n e := by
  have hdate : m.date.addDays n = .error e := map_eq_error_iff.1 h
  unfold Date.addDays at hdate
  split at hdate
  · rename_i hwide
    cases hdate
    exact .wide hwide
  · split at hdate
    · rename_i hlong
      cases hdate
      exact .long (by omega) hlong
    · split at hdate
      · cases hdate
      · cases hdate
        exact .outside (by omega)

/-- A number of days that is not too large can only fail for want of a date. -/
theorem Overflows.eq_dateOutOfRange {n : Int} {e : StepError} (h : Overflows n e)
    (hshort : -999999999 ≤ n ∧ n ≤ 999999999) : e = .dateOutOfRange := by
  cases h with
  | wide hwide => omega
  | long _ hlong => omega
  | outside _ => rfl

/-! ## Steps by days and by weeks -/

inductive DayStep
  | days (count : Int)
  | weeks (count : Int)
  deriving DecidableEq, Repr

namespace DayStep

def step : DayStep → Period × Int
  | days n => (.day, n)
  | weeks n => (.week, n)

/-- The days from the moment before a step to the moment after it. -/
def span : DayStep → Int
  | days n => n
  | weeks n => 7 * n

def opposite : DayStep → DayStep
  | days n => days (-n)
  | weeks n => weeks (-n)

theorem span_opposite (s : DayStep) : s.opposite.span = -s.span := by
  cases s with
  | days n => rfl
  | weeks n => exact Int.mul_neg 7 n

end DayStep

namespace Moment

variable {m u v : Moment}

/-- Takes steps by days and by weeks one after the other. -/
def stepDays (m : Moment) (steps : List DayStep) : Except StepError Moment :=
  m.stepAll (steps.map DayStep.step)

theorem step_dayStep (m : Moment) (s : DayStep) :
    m.step s.step.1 s.step.2 = m.step .day s.span := by
  cases s with
  | days n => rfl
  | weeks n => exact m.step_week n

theorem stepDays_cons_eq_ok_iff {s : DayStep} {steps : List DayStep} :
    m.stepDays (s :: steps) = .ok u ↔ ∃ v, m.step .day s.span = .ok v ∧
      v.stepDays steps = .ok u := by
  rw [← step_dayStep]
  exact stepAll_cons_eq_ok_iff

/-- A chain that stays in the calendar leads where the step by its sum leads. -/
theorem step_sum_of_stepDays {steps : List DayStep} (h : m.stepDays steps = .ok u) :
    m.step .day (steps.map DayStep.span).sum = .ok u := by
  -- The first step adds its days to those of the rest, which starts from wherever it leads.
  induction steps generalizing m with
  | nil =>
    cases h
    exact step_day_eq_ok_iff.2 ⟨(Int.add_zero _).symm, rfl⟩
  | cons s steps ih =>
    rcases stepDays_cons_eq_ok_iff.1 h with ⟨v, hv, hu⟩
    rcases step_day_eq_ok_iff.1 hv with ⟨hserial, hclock⟩
    rcases step_day_eq_ok_iff.1 (ih hu) with ⟨hserial', hclock'⟩
    rw [List.map_cons, List.sum_cons]
    exact step_day_eq_ok_iff.2 ⟨by omega, hclock'.trans hclock⟩

theorem stepDays_perm {steps steps' : List DayStep} (hperm : steps.Perm steps')
    (hu : m.stepDays steps = .ok u) (hv : m.stepDays steps' = .ok v) : u = v := by
  have hsum : (steps.map DayStep.span).sum = (steps'.map DayStep.span).sum := (hperm.map _).sum_eq
  have hu' := step_sum_of_stepDays hu
  rw [hsum, step_sum_of_stepDays hv] at hu'
  exact (Except.ok.inj hu').symm

/-- There and back again. -/
theorem stepDays_opposite {s : DayStep} (h : m.stepDays [s] = .ok u) :
    u.stepDays [s.opposite] = .ok m := by
  rcases stepDays_cons_eq_ok_iff.1 h with ⟨_, hu, ⟨⟩⟩
  rcases step_day_eq_ok_iff.1 hu with ⟨hserial, hclock⟩
  refine stepDays_cons_eq_ok_iff.2 ⟨m, ?_, rfl⟩
  rw [s.span_opposite]
  exact step_day_eq_ok_iff.2 ⟨by omega, hclock.symm⟩

end Moment

/-- A step by days leads to the date with the number that is so many days higher or lower, and fails
when there is none. A step by weeks is one by seven times as many days. A chain of such steps that
does not fail leads where one step by the sum of its days leads, and so does every other order of it
that does not fail. A step is undone by its opposite. The time of day stays throughout. -/
theorem day_steps_exact (m : Moment) :
    (Date.ofCivil? 1 1 1 = some .first ∧ Date.ofCivil? 9999 12 31 = some .last) ∧
      (∀ n : Int, (∃ u, m.step .day n = .ok u) ↔
        (Date.first.ordinal : Int) ≤ m.date.ordinal + n ∧
          (m.date.ordinal : Int) + n ≤ Date.last.ordinal) ∧
      (∀ n e, m.step .day n = .error e → Overflows n e) ∧
      (∀ n, m.step .week n = m.step .day (7 * n)) ∧
      (∀ steps u, m.stepDays steps = .ok u →
        m.step .day (steps.map DayStep.span).sum = .ok u ∧
          (u.date.ordinal : Int) = m.date.ordinal + (steps.map DayStep.span).sum ∧
            u.clock = m.clock ∧
          ∀ steps' v, steps'.Perm steps → m.stepDays steps' = .ok v → v = u) ∧
      ∀ s u, m.stepDays [s] = .ok u → u.stepDays [s.opposite] = .ok m := by
  refine ⟨⟨Date.ofCivil?_first, Date.ofCivil?_last⟩, ?_, ?_, m.step_week, ?_, ?_⟩
  · intro n
    have hfirst : Date.first.serial = 0 := rfl
    have hlast : Date.last.serial = dayCount - 1 := rfl
    have hpos := dayCount_pos
    rw [Moment.exists_step_day_iff, Date.ordinal_eq, Date.ordinal_eq, Date.ordinal_eq]
    omega
  · intro n e h
    exact overflows_of_step_day h
  · intro steps u h
    have hsum := Moment.step_sum_of_stepDays h
    rcases Moment.step_day_eq_ok_iff.1 hsum with ⟨hserial, hclock⟩
    refine ⟨hsum, ?_, hclock, ?_⟩
    · rw [Date.ordinal_eq, Date.ordinal_eq]
      omega
    · intro steps' v hperm hv
      exact Moment.stepDays_perm hperm hv h
  · intro s u h
    exact Moment.stepDays_opposite h

/-- A second before midnight on the last day of the calendar. -/
def lastSecond : Moment := ⟨.last, some ⟨23, 59, 59, 0⟩⟩

theorem dayCount_pred_week_lt : dayCount - 8 < dayCount := by decide

/-- The same time a week before. -/
def weekBeforeLastSecond : Moment := ⟨⟨dayCount - 8, dayCount_pred_week_lt⟩, lastSecond.clock⟩

/-- Back to February of the leap year 9996 and forth again over its last day. In the other order the
chain leaves the calendar, although the sum of its days does not. -/
theorem day_steps_exact_at_calendar_end :
    lastSecond.stepDays [.weeks (-201), .days 1400] = .ok weekBeforeLastSecond ∧
      lastSecond.step .day (-7) = .ok weekBeforeLastSecond ∧
      weekBeforeLastSecond.date.ordinal = 3652052 ∧ weekBeforeLastSecond.clock = lastSecond.clock ∧
      lastSecond.stepDays [.days 1400, .weeks (-201)] = .error .dateOutOfRange ∧
      Overflows 1400 .dateOutOfRange := by
  have hchain : lastSecond.stepDays [.weeks (-201), .days 1400] = .ok weekBeforeLastSecond :=
    toOption_eq_some (by decide +kernel)
  have hfailure : lastSecond.step .day 1400 = .error .dateOutOfRange :=
    fault?_eq_some_iff.1 (by decide +kernel)
  have hreverse : lastSecond.stepDays [.days 1400, .weeks (-201)] = .error .dateOutOfRange :=
    fault?_eq_some_iff.1 (by decide +kernel)
  rcases day_steps_exact lastSecond with ⟨-, -, hoverflows, -, hchains, -⟩
  rcases hchains _ _ hchain with ⟨hsum, -, hclock, -⟩
  exact ⟨hchain, hsum, by decide +kernel, hclock, hreverse, hoverflows _ _ hfailure⟩

end Calendar
end Cadence
