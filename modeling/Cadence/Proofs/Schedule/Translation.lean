import Mathlib.Data.List.Forall2
import Cadence.Proofs.Calendar.Cycle
import Cadence.Proofs.Schedule.Due
import Cadence.Proofs.Schedule.Resumption

/-!
# Translation — generation in a window that is moved through the calendar

The loops compare dates of the window with each other and never look where in the calendar they are.
A rule of days therefore finds the same dates in a window that is moved by any number of days, a
rule of weeks when it is moved by whole weeks, and every rule when it is moved by whole cycles of
400 years. Only the ends of the calendar stay where they are, so that a week may be lost in one of
the windows and not in the other; then one of the generations warns.

- `Date.Shifted`, `Window.Shifted`: dates and windows that are moved by a number of days
- `Rule.Repeats`: the moves that a rule does not notice
- `mem_shifted_iff`: what is generated before and after a move
- `generation_translates`: the two generations, date by date
-/

namespace Cadence

open Calendar

namespace Calendar

/-! ## Moved dates and windows -/

/-- The second date lies `n` days after the first one, or before it when `n` is negative. -/
def Date.Shifted (n : Int) (d e : Date) : Prop := (e.serial : Int) = d.serial + n

/-- The second window is the first one, moved by `n` days. -/
structure Window.Shifted (n : Int) (w v : Window) : Prop where
  first : Date.Shifted n w.first v.first
  last : Date.Shifted n w.last v.last

variable {n : Int} {d d' e e' : Date} {w v : Window}

theorem Date.Shifted.symm (h : Date.Shifted n d e) : Date.Shifted (-n) e d := by
  unfold Date.Shifted at *
  omega

theorem Window.Shifted.symm (h : Window.Shifted n w v) :
    Window.Shifted (-n) v w :=
  ⟨h.first.symm, h.last.symm⟩

theorem Date.Shifted.le_iff (hd : Date.Shifted n d d') (he : Date.Shifted n e e') :
    d ≤ e ↔ d' ≤ e' := by
  unfold Date.Shifted at hd he
  rw [Date.le_iff, Date.le_iff]
  omega

/-- The dates of a window can be moved as far as the window can. -/
theorem Window.Shifted.exists_shifted (h : Window.Shifted n w v) (hd : w.first ≤ d ∧ d ≤ w.last) :
    ∃ e, Date.Shifted n d e := by
  have hfirst : (v.first.serial : Int) = w.first.serial + n := h.first
  have hlast : (v.last.serial : Int) = w.last.serial + n := h.last
  have hlt := v.last.serial_lt
  have hlo := Date.le_iff.1 hd.1
  have hhi := Date.le_iff.1 hd.2
  exact ⟨⟨(d.serial + n).toNat, by omega⟩, Int.toNat_of_nonneg (by omega)⟩

/-- A move by whole weeks keeps the weekday. -/
theorem Date.Shifted.weekday_eq (h : Date.Shifted n d e) (hn : 7 ∣ n) : e.weekday = d.weekday := by
  unfold Date.Shifted at h
  apply Weekday.position_inj
  rw [weekday_position, weekday_position]
  omega

theorem Date.Shifted.weekStart_eq (h : Date.Shifted n d e) (hn : 7 ∣ n) (firstWeekday : Int) :
    e.weekStart firstWeekday = d.weekStart firstWeekday + n := by
  rcases hn with ⟨m, rfl⟩
  exact weekStart_add_weeks firstWeekday h

/-- A move by cycles leads to the same day of the month. -/
theorem Date.shifted_cycles_iff {q : Int} :
    Date.Shifted (146097 * q) d e ↔ (e.month.index : Int) = d.month.index + 4800 * q ∧
      e.day = d.day :=
  serial_cycles_iff

/-- Another day of the month is moved along. -/
theorem Date.Shifted.withDay {q : Int} (h : Date.Shifted (146097 * q) d e) {day : Nat}
    (hday : 1 ≤ day) :
    Date.Shifted (146097 * q) (d.withDay day) (e.withDay day) := by
  rcases shifted_cycles_iff.1 h with ⟨hmonth, -⟩
  refine shifted_cycles_iff.2 ⟨?_, ?_⟩
  · rw [month_withDay, month_withDay]
    exact hmonth
  · rw [day_withDay e hday, day_withDay d hday, length_of_cycles hmonth]

/-- Dates in strict order are moved one by one when each of them is moved to one of the others and
the others are moved back to them. -/
theorem Date.forall₂_shifted {ds es : List Date} (hds : ds.Pairwise (· < ·))
    (hes : es.Pairwise (· < ·))
    (hforth : ∀ d ∈ ds, ∃ e ∈ es, Date.Shifted n d e)
    (hback : ∀ e ∈ es, ∃ d ∈ ds, Date.Shifted n d e) :
    List.Forall₂ (Date.Shifted n) ds es := by
  have hmoved : (ds.map fun d => (d.serial : Int) + n).Pairwise (· < ·) :=
    hds.map _ fun d e hlt => by
      have := Date.lt_iff.1 hlt
      omega
  have hserials : (es.map fun e => (e.serial : Int)).Pairwise (· < ·) :=
    hes.map _ fun d e hlt => by
      have := Date.lt_iff.1 hlt
      omega
  -- Both lists of numbers are in strict order, so it is enough that they have the same members.
  have hsame : (ds.map fun d => (d.serial : Int) + n) = es.map fun e => (e.serial : Int) := by
    refine List.Pairwise.eq_of_mem_iff hmoved hserials ?_
    intro i
    simp only [List.mem_map]
    constructor
    · rintro ⟨d, hd, rfl⟩
      rcases hforth d hd with ⟨e, he, hshift⟩
      exact ⟨e, he, hshift⟩
    · rintro ⟨e, he, rfl⟩
      rcases hback e he with ⟨d, hd, hshift⟩
      exact ⟨d, hd, Eq.symm hshift⟩
  rw [← List.forall₂_eq_eq_eq, List.forall₂_map_left_iff, List.forall₂_map_right_iff] at hsame
  exact hsame.imp fun _ _ h => Eq.symm h

end Calendar

/-- The moves that a rule does not notice: by cycles of 400 years, for a rule of weeks also by
weeks, and for a rule of days by days. -/
def Rule.Repeats (r : Rule) (n : Int) : Prop :=
  146097 ∣ n ∨ r.period = .day ∨ r.period = .week ∧ 7 ∣ n

namespace Schedule

open Service

variable {r : Rule} {n : Int} {w v : Window} {filter filter' : Option Window}
    {firstWeekday : Weekday} {d e : Date}

theorem dvd_of_repeats_week (h : r.Repeats n) (hweek : r.period = .week) : 7 ∣ n := by
  rcases h with hcycles | hday | ⟨-, hweeks⟩
  · -- A cycle is a whole number of weeks.
    exact Int.dvd_trans (by decide) hcycles
  · rw [hweek] at hday
    cases hday
  · exact hweeks

theorem dvd_of_repeats_month (h : r.Repeats n) (hmonth : r.period = .month) : 146097 ∣ n := by
  rcases h with hcycles | hday | ⟨hweek, -⟩
  · exact hcycles
  · rw [hmonth] at hday
    cases hday
  · rw [hmonth] at hweek
    cases hweek

/-! ## Dates before and after a move -/

theorem admitted_shifted_iff (hw : Window.Shifted n w v)
    (hfilter : Option.Rel (Window.Shifted n) filter filter')
    (hd : Date.Shifted n d e) : Admitted w filter d ↔ Admitted v filter' e := by
  unfold Admitted
  rw [hw.first.le_iff hd, hd.le_iff hw.last]
  cases hfilter with
  | none => exact and_congr_right fun _ => iff_of_true nofun nofun
  | some hf =>
    simp only [Option.mem_def, Option.some.injEq, forall_eq']
    rw [hf.first.le_iff hd, hd.le_iff hf.last]

theorem mem_shifted_iff_of_day (hday : r.period = .day) (hw : Window.Shifted n w v)
    (hfilter : Option.Rel (Window.Shifted n) filter filter') (hd : Date.Shifted n d e) :
    d ∈ (r.generate w filter firstWeekday).dates ↔
      e ∈ (r.generate v filter' firstWeekday).dates := by
  rw [mem_generate_iff_of_day hday, mem_generate_iff_of_day hday,
    admitted_shifted_iff hw hfilter hd]
  have hfirst : (v.first.serial : Int) = w.first.serial + n := hw.first
  have hserial : (e.serial : Int) = d.serial + n := hd
  refine and_congr_right fun _ => exists_congr fun k => ?_
  omega

/-- A date that is due stays due when it is moved by whole weeks along with the window. -/
theorem due_shifted_iff (hn : 7 ∣ n) (hw : Window.Shifted n w v)
    (hfilter : Option.Rel (Window.Shifted n) filter filter') (hd : Date.Shifted n d e) :
    Due r w filter firstWeekday d ↔ Due r v filter' firstWeekday e := by
  have hadmitted := admitted_shifted_iff hw hfilter hd
  have hweekday := hd.weekday_eq hn
  have hstart := hd.weekStart_eq hn firstWeekday.position
  have hfirst := hw.first.weekStart_eq hn firstWeekday.position
  constructor
  · rintro ⟨hin, hday, k, hk⟩
    exact ⟨hadmitted.1 hin, hweekday ▸ hday, k, by omega⟩
  · rintro ⟨hin, hday, k, hk⟩
    exact ⟨hadmitted.2 hin, hweekday ▸ hday, k, by omega⟩

/-- A month that is moved by cycles has the same length, so that neither the day of a date nor that
of the cursor is clamped in another way. -/
theorem mem_shifted_iff_of_month {q : Int} (hmonth : r.period = .month)
    (hw : Window.Shifted (146097 * q) w v)
    (hfilter : Option.Rel (Window.Shifted (146097 * q)) filter filter')
    (hd : Date.Shifted (146097 * q) d e) :
    d ∈ (r.generate w filter firstWeekday).dates ↔
      e ∈ (r.generate v filter' firstWeekday).dates := by
  rcases Date.shifted_cycles_iff.1 hd with ⟨hdmonth, hdday⟩
  rcases Date.shifted_cycles_iff.1 hw.first with ⟨hfmonth, hfday⟩
  have hmonths : v.first.monthsUntil e = w.first.monthsUntil d := by
    unfold Date.monthsUntil
    omega
  have hcursor : Reached r v e ↔ Reached r w d := by
    unfold Reached
    rw [hfday, (hd.withDay w.first.day_pos).le_iff hw.last]
  rw [mem_generate_iff, mem_generate_iff, onStride_iff_of_month hmonth,
    onStride_iff_of_month hmonth, admitted_shifted_iff hw hfilter hd, hmonths, hdday, hfday,
    Date.length_of_cycles hdmonth, hcursor]

/-- A generation that is not cut short has the moved dates in a moved window, provided the
generation there is not cut short either. -/
theorem mem_shifted_iff (hn : r.Repeats n) (hw : Window.Shifted n w v)
    (hfilter : Option.Rel (Window.Shifted n) filter filter')
    (hstop : (r.generate w filter firstWeekday).stop = none)
    (hstop' : (r.generate v filter' firstWeekday).stop = none) (hd : Date.Shifted n d e) :
    d ∈ (r.generate w filter firstWeekday).dates ↔
      e ∈ (r.generate v filter' firstWeekday).dates := by
  cases hperiod : r.period with
  | day => exact mem_shifted_iff_of_day hperiod hw hfilter hd
  | week =>
    rw [mem_generate_iff_due_of_stop hperiod hstop, mem_generate_iff_due_of_stop hperiod hstop']
    exact due_shifted_iff (dvd_of_repeats_week hn hperiod) hw hfilter hd
  | month =>
    rcases dvd_of_repeats_month hn hperiod with ⟨q, rfl⟩
    exact mem_shifted_iff_of_month hperiod hw hfilter hd

theorem generate_shifted (hn : r.Repeats n) (hw : Window.Shifted n w v)
    (hfilter : Option.Rel (Window.Shifted n) filter filter')
    (hstop : (r.generate w filter firstWeekday).stop = none)
    (hstop' : (r.generate v filter' firstWeekday).stop = none) :
    List.Forall₂ (Date.Shifted n) (r.generate w filter firstWeekday).dates
      (r.generate v filter' firstWeekday).dates := by
  refine Date.forall₂_shifted pairwise_generate_dates pairwise_generate_dates ?_ ?_
  · intro d hd
    rcases hw.exists_shifted (mem_generate.1 hd).2.1 with ⟨e, he⟩
    exact ⟨e, (mem_shifted_iff hn hw hfilter hstop hstop' he).1 hd, he⟩
  · intro e he
    rcases hw.symm.exists_shifted (mem_generate.1 he).2.1 with ⟨d, hd⟩
    have hshift : Date.Shifted n d e := by simpa using hd.symm
    exact ⟨d, (mem_shifted_iff hn hw hfilter hstop hstop' hshift).2 he, hshift⟩

/-- Where a window and its filter are moved by whole cycles, or by whole weeks for a rule of weeks,
or by any number of days for a rule of days, the dates that are generated move along one by one,
provided that neither generation warns. -/
theorem generation_translates (r : Rule) (n : Int) (w v : Window) (filter filter' : Option Window)
    (firstWeekday : Weekday) (hn : r.Repeats n) (hw : Window.Shifted n w v)
    (hfilter : Option.Rel (Window.Shifted n) filter filter') :
    ∃ run run', LooseRule.generate ⟨r, none⟩ w filter firstWeekday = .ok run ∧
      LooseRule.generate ⟨r, none⟩ v filter' firstWeekday = .ok run' ∧
      (runLogs r run = [] → runLogs r run' = [] →
        List.Forall₂ (Date.Shifted n) run.dates run'.dates) := by
  refine ⟨_, _, rfl, rfl, ?_⟩
  intro hlogs hlogs'
  exact generate_shifted hn hw hfilter (stop_of_logs hlogs) (stop_of_logs hlogs')

theorem earlyJanuary_lt : 8065 < dayCount := by decide

theorem earlyMay_lt : 8185 < dayCount := by decide

theorem earlyJanuary_le_earlyMay :
    (⟨8065, earlyJanuary_lt⟩ : Date) ≤ ⟨8185, earlyMay_lt⟩ := by decide

/-- From 0023-01-31 to 0023-05-31. -/
def earlyMonthEnds : Window :=
  ⟨⟨8065, earlyJanuary_lt⟩, ⟨8185, earlyMay_lt⟩, earlyJanuary_le_earlyMay⟩

theorem firstSunday_lt : 6 < dayCount := by decide

theorem first_le_firstSunday : Date.first ≤ ⟨6, firstSunday_lt⟩ := by decide

/-- From 0001-01-01, a Monday, to the Sunday after it. -/
def firstWholeWeek : Window := ⟨.first, ⟨6, firstSunday_lt⟩, first_le_firstSunday⟩

/-- Five cycles back, where February is as short as before; and from the last whole week of the
calendar to its first one. -/
theorem generation_translates_through_calendar :
    LooseRule.monthlyRule.Repeats (-730485) ∧ Window.Shifted (-730485) monthEnds earlyMonthEnds ∧
      allWeekdays.Repeats (-3652047) ∧ Window.Shifted (-3652047) lastWholeWeek firstWholeWeek ∧
      ∃ months months' weeks weeks',
        LooseRule.generate ⟨LooseRule.monthlyRule, none⟩ monthEnds (some monthEnds) .monday =
            .ok months ∧
          LooseRule.generate ⟨LooseRule.monthlyRule, none⟩ earlyMonthEnds (some earlyMonthEnds)
            .monday = .ok months' ∧
          LooseRule.generate ⟨allWeekdays, none⟩ lastWholeWeek none .monday = .ok weeks ∧
          LooseRule.generate ⟨allWeekdays, none⟩ firstWholeWeek none .monday = .ok weeks' ∧
          List.Forall₂ (Date.Shifted (-730485)) months.dates months'.dates ∧
          months'.dates.map Date.serial = [8065, 8093, 8124, 8154, 8185] ∧
          List.Forall₂ (Date.Shifted (-3652047)) weeks.dates weeks'.dates ∧
          weeks'.dates.length = 7 := by
  have hcycles : LooseRule.monthlyRule.Repeats (-730485) := .inl (by decide)
  have hweeks : allWeekdays.Repeats (-3652047) := .inr (.inr ⟨rfl, by decide⟩)
  have hearly : Window.Shifted (-730485) monthEnds earlyMonthEnds := ⟨rfl, rfl⟩
  have hfirst : Window.Shifted (-3652047) lastWholeWeek firstWholeWeek := ⟨rfl, rfl⟩
  rcases generation_translates LooseRule.monthlyRule _ _ _ (some monthEnds) (some earlyMonthEnds)
    .monday hcycles hearly (.some hearly) with
    ⟨months, months', ⟨⟩, ⟨⟩, hmonthly⟩
  rcases generation_translates allWeekdays _ _ _ none none .monday hweeks hfirst .none with
    ⟨weeks, weeks', ⟨⟩, ⟨⟩, hweekly⟩
  refine ⟨hcycles, hearly, hweeks, hfirst, _, _, _, _, rfl, rfl, rfl, rfl, ?_,
    by decide +kernel, ?_, by decide +kernel⟩
  · exact hmonthly (logs_of_stop (by decide +kernel)) (logs_of_stop (by decide +kernel))
  · exact hweekly (logs_of_stop (by decide +kernel)) (logs_of_stop (by decide +kernel))

end Schedule
end Cadence
