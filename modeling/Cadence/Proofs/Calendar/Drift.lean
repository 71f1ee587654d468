import Cadence.Proofs.Calendar.Chain
import Cadence.Proofs.Calendar.Month

/-!
# Drift — month steps one after the other

A month step keeps the day of the month where it can, and a step that cannot leaves a smaller day
behind for the steps after it. So a chain of month steps leads to the month that one step by their
sum leads to, but a short month on its way pulls the day down for good. A single step loses nothing
of this kind: it keeps the order of dates.

- `Month.ordinal`: the number of a month, from its year and its place there
- `Moment.landings`: the months that a chain lands on
- `Drifts`: what a chain does to the month, the day and the time of day
- `month_steps_drift`: chains of month steps, and the failures of single ones
- `month_steps_ordered`: the order of dates under month steps
-/

namespace Cadence
namespace Calendar

/-! ## Numbers of months -/

/-- The number of a month, twelve for each year up to its own and its place in that year. -/
def Month.ordinal (m : Month) : Nat := 12 * m.year + m.number

theorem Month.ordinal_eq (m : Month) : m.ordinal = m.index + 13 := by
  unfold ordinal year number
  omega

/-- The year of a month by its number, also of months that the calendar does not have. -/
def yearOfOrdinal (n : Int) : Int := (n - 1) / 12

/-- The year of the month that a step leads to tells whether the calendar has this month. -/
theorem yearOfOrdinal_mem_iff {m : Month} {n : Int} :
    1 ≤ yearOfOrdinal (m.ordinal + n) ∧ yearOfOrdinal (m.ordinal + n) ≤ 9999 ↔
      0 ≤ (m.index : Int) + n ∧ (m.index : Int) + n < monthCount := by
  have hcount : monthCount = 119988 := rfl
  rw [m.ordinal_eq]
  unfold yearOfOrdinal
  omega

/-! ## Single steps -/

theorem Month.ofIndex?_eq_none_iff {i : Int} :
    Month.ofIndex? i = none ↔ ¬(0 ≤ i ∧ i < monthCount) := by
  unfold ofIndex?
  split
  · rename_i h
    exact iff_of_false (Option.some_ne_none _) fun hn => hn h
  · rename_i h
    exact iff_of_true rfl h

namespace Moment

variable {m u v : Moment} {n : Int}

theorem step_month_eq_ok_iff :
    m.step .month n = .ok u ↔
      (u.date.month.index : Int) = m.date.month.index + n ∧
        u.date.day = min m.date.day u.date.month.length ∧ u.clock = m.clock := by
  rw [step_eq_ok_iff, Date.step_month_eq_ok_iff, and_assoc]

theorem step_month_eq_error_iff {e : StepError} :
    m.step .month n = .error e ↔
      e = .monthOutOfRange ∧
        ¬(0 ≤ (m.date.month.index : Int) + n ∧ (m.date.month.index : Int) + n < monthCount) := by
  unfold step
  rw [map_eq_error_iff, Date.step, Date.addMonths]
  split
  · rename_i month hmonth
    have hindex := Month.ofIndex?_eq_some_iff.1 hmonth
    have hlt := month.index_lt
    have hinside : 0 ≤ (m.date.month.index : Int) + n ∧
        (m.date.month.index : Int) + n < monthCount := by omega
    constructor
    · intro h
      cases h
    · rintro ⟨-, houtside⟩
      exact absurd hinside houtside
  · rename_i hnone
    have hrange := Month.ofIndex?_eq_none_iff.1 hnone
    constructor
    · rintro ⟨⟩
      exact ⟨rfl, hrange⟩
    · rintro ⟨rfl, -⟩
      rfl

end Moment

/-! ## Chains -/

namespace Moment

variable {m u v : Moment} {n : Int} {counts : List Int}

/-- Takes steps by months one after the other. -/
def stepMonths (m : Moment) (counts : List Int) : Except StepError Moment :=
  m.stepAll (counts.map (Period.month, ·))

/-- The months that a chain of month steps lands on, up to the first step that fails. -/
def landings (m : Moment) : List Int → List Month
  | [] => []
  | n :: counts =>
    match m.step .month n with
    | .ok v => v.date.month :: v.landings counts
    | .error _ => []

theorem stepMonths_cons_eq_ok_iff :
    m.stepMonths (n :: counts) = .ok u ↔
      ∃ v, m.step .month n = .ok v ∧ v.stepMonths counts = .ok u :=
  stepAll_cons_eq_ok_iff

theorem landings_cons (h : m.step .month n = .ok v) :
    m.landings (n :: counts) = v.date.month :: v.landings counts := by
  rw [landings, h]

theorem month_of_stepMonths (h : m.stepMonths counts = .ok u) :
    (u.date.month.index : Int) = m.date.month.index + counts.sum ∧ u.clock = m.clock := by
  induction counts generalizing m with
  | nil =>
    cases h
    exact ⟨(Int.add_zero _).symm, rfl⟩
  | cons n counts ih =>
    rcases stepMonths_cons_eq_ok_iff.1 h with ⟨v, hv, hu⟩
    rcases step_month_eq_ok_iff.1 hv with ⟨hmonth, -, hclock⟩
    rcases ih hu with ⟨hmonth', hclock'⟩
    rw [List.sum_cons]
    exact ⟨by omega, hclock'.trans hclock⟩

/-- Every month that a chain lands on clamps the day that the months before it have left. -/
theorem day_of_stepMonths (h : m.stepMonths counts = .ok u) :
    (m.date.day :: (m.landings counts).map Month.length).min? = some u.date.day := by
  induction counts generalizing m with
  | nil =>
    cases h
    rfl
  | cons n counts ih =>
    rcases stepMonths_cons_eq_ok_iff.1 h with ⟨v, hv, hu⟩
    have hday := (step_month_eq_ok_iff.1 hv).2.1
    have hrest := ih hu
    rw [hday] at hrest
    rw [landings_cons hv]
    exact hrest

theorem le_day_iff {k : Nat} (h : m.stepMonths counts = .ok u) :
    k ≤ u.date.day ↔ k ≤ m.date.day ∧ ∀ month ∈ m.landings counts, k ≤ month.length := by
  rw [List.le_min?_iff (day_of_stepMonths h)]
  simp

/-- The step by the sum of a chain leads to the same month, where it takes the day that the chain
began with. -/
theorem step_sum_of_stepMonths (h : m.stepMonths counts = .ok u) :
    m.step .month counts.sum = .ok ⟨u.date.withDay m.date.day, u.clock⟩ := by
  rcases month_of_stepMonths h with ⟨hmonth, hclock⟩
  refine step_month_eq_ok_iff.2 ⟨?_, ?_, hclock⟩
  · rw [Date.month_withDay]
    exact hmonth
  · rw [Date.month_withDay]
    exact Date.day_withDay _ m.date.day_pos

theorem day_le_of_stepMonths (h : m.stepMonths counts = .ok u) :
    u.date.day ≤ min m.date.day u.date.month.length :=
  Nat.le_min.2 ⟨((le_day_iff h).1 (Nat.le_refl _)).1, u.date.day_le⟩

/-- The day of a chain is not after that of the step by its sum. -/
theorem le_withDay_of_stepMonths (h : m.stepMonths counts = .ok u) :
    u.date ≤ u.date.withDay m.date.day := by
  apply (Date.le_iff_day_le (Date.month_withDay _ _).symm).2
  rw [Date.day_withDay _ m.date.day_pos]
  exact day_le_of_stepMonths h

/-- The two are the same day when every month landed on is long enough for it. -/
theorem withDay_eq_iff_of_stepMonths (h : m.stepMonths counts = .ok u) :
    u.date.withDay m.date.day = u.date ↔
      ∀ month ∈ m.landings counts, min m.date.day u.date.month.length ≤ month.length := by
  have hle := day_le_of_stepMonths h
  calc
    u.date.withDay m.date.day = u.date ↔ u.date.day = min m.date.day u.date.month.length := by
      rw [Date.withDay_eq_iff m.date.day_pos, and_iff_right rfl]
    _ ↔ min m.date.day u.date.month.length ≤ u.date.day := by omega
    _ ↔ ∀ month ∈ m.landings counts, min m.date.day u.date.month.length ≤ month.length := by
      rw [le_day_iff h, and_iff_right (Nat.min_le_left _ _)]

end Moment

/-- A chain of month steps by `counts` from `m` to `u`: the months add up, the day is the least of
the one before and the lengths of the months landed on, and the time of day stays. The step by the
sum leads to the same month and not to an earlier day. It leads to the same day exactly when no
month landed on is too short for it. -/
structure Drifts (m : Moment) (counts : List Int) (u : Moment) : Prop where
  month : (u.date.month.ordinal : Int) = m.date.month.ordinal + counts.sum
  day : (m.date.day :: (m.landings counts).map Month.length).min? = some u.date.day
  clock : u.clock = m.clock
  direct : ∃ v, m.step .month counts.sum = .ok v ∧ v.date.month = u.date.month ∧ u.date ≤ v.date ∧
    v.clock = u.clock ∧
    (v = u ↔ ∀ month ∈ m.landings counts, min m.date.day u.date.month.length ≤ month.length)

theorem drifts_of_stepMonths {m u : Moment} {counts : List Int} (h : m.stepMonths counts = .ok u) :
    Drifts m counts u where
  month := by
    have hmonth := (Moment.month_of_stepMonths h).1
    rw [Month.ordinal_eq, Month.ordinal_eq]
    omega
  day := Moment.day_of_stepMonths h
  clock := (Moment.month_of_stepMonths h).2
  direct := by
    refine ⟨⟨u.date.withDay m.date.day, u.clock⟩, Moment.step_sum_of_stepMonths h,
      Date.month_withDay _ _, Moment.le_withDay_of_stepMonths h, rfl, ?_⟩
    rw [← Moment.withDay_eq_iff_of_stepMonths h]
    constructor
    · intro hv
      exact congrArg Moment.date hv
    · intro hday
      rw [hday]

/-- A step by months fails when the month to step to is not one of the years 1 to 9999, and in no
other case. A chain of month steps that does not fail leads to the month that one step by the sum of
its counts leads to. Every month landed on can pull the day down and none can raise it again, so the
single step, which never fails where the chain does not, comes out on the same day or on a later one
of that month. -/
theorem month_steps_drift (m : Moment) :
    (∀ n e, m.step .month n = .error e ↔
        e = .monthOutOfRange ∧
          ¬(1 ≤ yearOfOrdinal (m.date.month.ordinal + n) ∧
            yearOfOrdinal (m.date.month.ordinal + n) ≤ 9999)) ∧
      ∀ counts u, m.stepMonths counts = .ok u → Drifts m counts u := by
  constructor
  · intro n e
    rw [yearOfOrdinal_mem_iff]
    exact Moment.step_month_eq_error_iff
  · intro counts u h
    exact drifts_of_stepMonths h

/-- From the last second of the calendar back to the leap day of 9996, on to February 9997 and forth
again: the day that comes out is the 28th, while the single step by the sum, which is no month,
stays on the 31st. The calendar has no month after the last one. -/
theorem month_steps_drift_over_two_februaries :
    lastSecond.stepMonths [-46, 12, 34] = .ok ⟨Date.last.withDay 28, lastSecond.clock⟩ ∧
      (lastSecond.landings [-46, 12, 34]).map Month.length = [29, 28, 31] ∧
      [31, 29, 28, 31].min? = some (Date.last.withDay 28).day ∧
      (∃ v, lastSecond.step .month 0 = .ok v ∧ v.date.month = (Date.last.withDay 28).month ∧
        Date.last.withDay 28 ≤ v.date ∧ v ≠ ⟨Date.last.withDay 28, lastSecond.clock⟩) ∧
      lastSecond.step .month 1 = .error .monthOutOfRange := by
  rcases month_steps_drift lastSecond with ⟨hfails, hchains⟩
  have hchain : lastSecond.stepMonths [-46, 12, 34] =
    .ok ⟨Date.last.withDay 28, lastSecond.clock⟩ :=
    toOption_eq_some (by decide +kernel)
  have hlengths : (lastSecond.landings [-46, 12, 34]).map Month.length = [29, 28, 31] := by
    decide +kernel
  have hstart : lastSecond.date.day = 31 := by decide +kernel
  rcases hchains _ _ hchain with ⟨-, hday, -, ⟨v, hv, hmonth, hle, -, hsame⟩⟩
  rw [hlengths, hstart] at hday
  refine ⟨hchain, hlengths, hday, ⟨v, hv, hmonth, hle, ?_⟩, (hfails 1 _).2 ⟨rfl, by decide +kernel⟩⟩
  intro hu
  exact absurd (hsame.1 hu) (by decide +kernel)

/-! ## Order of dates -/

/-- Dates are ordered by year, month and day, and the same month step keeps the order of two dates,
whatever it does to their days. From one date a longer step leads to a later date, and also to a
later one after each of the two was moved to any day of its month. -/
theorem month_steps_ordered :
    (∀ d e : Date, d ≤ e ↔ d.year < e.year ∨ d.year = e.year ∧
        (d.month.number < e.month.number ∨ d.month.number = e.month.number ∧ d.day ≤ e.day)) ∧
      (∀ (d e : Date) (n : Int) (c f : Date),
        d ≤ e → d.step .month n = .ok c → e.step .month n = .ok f → c ≤ f) ∧
      ∀ (d : Date) (m n : Int) (c e : Date),
        m < n → d.step .month m = .ok c → d.step .month n = .ok e →
          c < e ∧ ∀ i j : Int, c.withDay i < e.withDay j := by
  refine ⟨fun _ _ => Date.le_iff_civil, ?_, ?_⟩
  · intro d e n c f hle hc hf
    exact Date.step_month_mono hle hc hf
  · intro d m n c e hlt hc he
    exact ⟨Date.step_month_lt hc he hlt, Date.withDay_lt_of_step_month hc he hlt⟩

theorem lastFebruary_lt : 3651752 < dayCount := by decide

/-- 9999-02-28. -/
def lastFebruary : Date := ⟨3651752, lastFebruary_lt⟩

/-- Two days of December 9999, four days apart, which are one day apart ten months before. Moved to
the end of its month, the later of these is still before the beginning of December. -/
theorem month_steps_ordered_over_february :
    (Date.last.withDay 27).step .month (-10) = .ok (lastFebruary.withDay 27) ∧
      Date.last.step .month (-10) = .ok lastFebruary ∧
      Date.last.withDay 27 ≤ Date.last ∧ lastFebruary.withDay 27 ≤ lastFebruary ∧
      Date.last.step .month 0 = .ok Date.last ∧ lastFebruary < Date.last ∧
      lastFebruary.withDay 99 < Date.last.withDay (-5) := by
  rcases month_steps_ordered with ⟨-, hmono, hstrict⟩
  have hearly : (Date.last.withDay 27).step .month (-10) = .ok (lastFebruary.withDay 27) :=
    toOption_eq_some (by decide +kernel)
  have hlate : Date.last.step .month (-10) = .ok lastFebruary :=
    toOption_eq_some (by decide +kernel)
  have hzero : Date.last.step .month 0 = .ok Date.last := Date.last.step_month_zero
  have hle : Date.last.withDay 27 ≤ Date.last := by decide +kernel
  rcases hstrict _ _ _ _ _ (by decide) hlate hzero with ⟨hlt, hdays⟩
  exact ⟨hearly, hlate, hle, hmono _ _ _ _ _ hle hearly hlate, hzero, hlt, hdays 99 (-5)⟩

end Calendar
end Cadence
