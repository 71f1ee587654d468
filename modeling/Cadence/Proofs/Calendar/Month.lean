import Cadence.Calendar.Step

/-!
# Month — dates by month and day

Dates are compared by their months first and by their days within a month. A month step therefore
leads to a later date exactly when it leads to a later month, whatever the clamped days are.

- `Date.lt_of_month_lt`, `Date.le_iff_month_day`, `Date.le_iff_civil`: the order of dates, by month
  and by day
- `Date.exists_step_month`: month steps that stay in the calendar
- `Date.step_month_lt`, `Date.step_month_mono`: their order
-/

namespace Cadence
namespace Calendar
namespace Date

/-! ## Order by month and day -/

theorem lt_of_month_lt {d e : Date} (h : d.month.index < e.month.index) : d < e := by
  have hd := d.serial_eq
  have he := e.serial_eq
  have hday := d.day_le
  have hpos := e.day_pos
  -- The earlier month ends before the later one starts.
  have hnext : d.month.start + d.month.length = monthStart (d.month.index + 1) :=
    (monthStart_succ _).symm
  have hmono : monthStart (d.month.index + 1) ≤ e.month.start := monthStart_mono h
  exact lt_iff.2 (by omega)

theorem month_le_of_le {d e : Date} (h : d ≤ e) : d.month.index ≤ e.month.index := by
  apply Nat.le_of_not_lt
  intro hlt
  have := lt_iff.1 (lt_of_month_lt hlt)
  have := le_iff.1 h
  omega

theorem le_iff_day_le {d e : Date} (h : d.month = e.month) : d ≤ e ↔ d.day ≤ e.day := by
  have hd := d.serial_eq
  have he := e.serial_eq
  rw [h] at hd
  rw [le_iff]
  omega

theorem month_ext {d e : Date} (h : d.month.index = e.month.index) : d.month = e.month := by
  cases hd : d.month
  cases he : e.month
  rw [hd, he] at h
  cases h
  rfl

/-- Dates stand in the order of their months, and within a month in that of their days. -/
theorem le_iff_month_day {d e : Date} :
    d ≤ e ↔ d.month.index < e.month.index ∨ d.month = e.month ∧ d.day ≤ e.day := by
  constructor
  · intro h
    rcases Nat.lt_or_eq_of_le (month_le_of_le h) with hlt | heq
    · exact .inl hlt
    · exact .inr ⟨month_ext heq, (le_iff_day_le (month_ext heq)).1 h⟩
  · rintro (hlt | ⟨hmonth, hday⟩)
    · exact Nat.le_of_lt (lt_iff.1 (lt_of_month_lt hlt))
    · exact (le_iff_day_le hmonth).2 hday

/-- The order of dates is that of their years, then of their month numbers, then of their days. -/
theorem le_iff_civil {d e : Date} :
    d ≤ e ↔ d.year < e.year ∨ d.year = e.year ∧
      (d.month.number < e.month.number ∨ d.month.number = e.month.number ∧ d.day ≤ e.day) := by
  have hmonth : d.month = e.month ↔ d.month.index = e.month.index :=
    ⟨congrArg Month.index, month_ext⟩
  rw [le_iff_month_day, hmonth]
  unfold year Month.year Month.number
  omega

/-! ## Another day of the same month -/

theorem month_withDay (d : Date) (day : Int) : (d.withDay day).month = d.month := month_at _ _

theorem day_withDay (d : Date) {day : Nat} (h : 1 ≤ day) :
    (d.withDay day).day = min day d.month.length := by
  have hday := day_at d.month day
  have hpos := d.month.length_pos
  unfold withDay
  omega

theorem withDay_eq_iff {d e : Date} {day : Nat} (h : 1 ≤ day) :
    d.withDay day = e ↔ d.month = e.month ∧ e.day = min day e.month.length := by
  constructor
  · rintro rfl
    rw [month_withDay, day_withDay d h]
    exact ⟨rfl, rfl⟩
  · rintro ⟨hmonth, hday⟩
    refine ext_month_day ?_ ?_
    · rw [month_withDay, hmonth]
    · rw [day_withDay d h, hmonth, hday]

theorem withDay_eq_of_month {d e : Date} (h : d.month = e.month) (day : Int) :
    d.withDay day = e.withDay day := by
  rw [withDay, withDay, h]

/-- The same day of a later month is not before that of an earlier one. -/
theorem withDay_mono {d e : Date} (h : d ≤ e) (day : Int) : d.withDay day ≤ e.withDay day := by
  apply le_iff_month_day.2
  rw [month_withDay, month_withDay]
  rcases le_iff_month_day.1 h with hlt | ⟨hmonth, -⟩
  · exact .inl hlt
  · have hday : (d.withDay day).day = (e.withDay day).day := by rw [withDay_eq_of_month hmonth]
    exact .inr ⟨hmonth, Nat.le_of_eq hday⟩

/-! ## Month steps -/

theorem step_month_zero (d : Date) : d.step .month 0 = .ok d := by
  have hday := d.day_le
  exact step_month_eq_ok_iff.2 ⟨by omega, by omega⟩

theorem exists_step_month {d : Date} {n : Nat} (h : d.month.index + n < monthCount) :
    ∃ e, d.step .month n = .ok e := by
  refine ⟨(⟨d.month.index + n, h⟩ : Month).at d.day, step_month_eq_ok_iff.2 ?_⟩
  have hday := day_at ⟨d.month.index + n, h⟩ d.day
  have hpos := d.day_pos
  have hlength := Month.length_pos ⟨d.month.index + n, h⟩
  rw [month_at]
  exact ⟨by simp, by omega⟩

theorem month_lt_of_step {d c e : Date} {m n : Int} (hc : d.step .month m = .ok c)
    (he : d.step .month n = .ok e) (h : m < n) : c.month.index < e.month.index := by
  have hcm := (step_month_eq_ok_iff.1 hc).1
  have hem := (step_month_eq_ok_iff.1 he).1
  omega

theorem step_month_lt {d c e : Date} {m n : Int} (hc : d.step .month m = .ok c)
    (he : d.step .month n = .ok e) (h : m < n) : c < e :=
  lt_of_month_lt (month_lt_of_step hc he h)

/-- The same step from a later date does not lead to an earlier one. -/
theorem step_month_mono {d e c f : Date} {n : Int} (h : d ≤ e) (hc : d.step .month n = .ok c)
    (hf : e.step .month n = .ok f) : c ≤ f := by
  rcases step_month_eq_ok_iff.1 hc with ⟨hcmonth, hcday⟩
  rcases step_month_eq_ok_iff.1 hf with ⟨hfmonth, hfday⟩
  apply le_iff_month_day.2
  rcases le_iff_month_day.1 h with hlt | ⟨hmonth, hday⟩
  · exact .inl (by omega)
  · -- Both steps lead to one month, which clamps both days alike.
    rw [hmonth] at hcmonth
    have hsame : c.month = f.month := month_ext (by omega)
    refine .inr ⟨hsame, ?_⟩
    calc
      c.day = min d.day f.month.length := by rw [hcday, hsame]
      _ ≤ min e.day f.month.length := by omega
      _ = f.day := hfday.symm

/-- Whatever day is taken in the months that two steps lead to, the one of the longer step comes
later. -/
theorem withDay_lt_of_step_month {d c e : Date} {m n : Int} (hc : d.step .month m = .ok c)
    (he : d.step .month n = .ok e) (h : m < n) (i j : Int) : c.withDay i < e.withDay j := by
  apply lt_of_month_lt
  rw [month_withDay, month_withDay]
  exact month_lt_of_step hc he h

end Date
end Calendar
end Cadence
