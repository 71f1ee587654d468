import Cadence.Proofs.Schedule.Ascending
import Cadence.Proofs.Schedule.Warning

/-!
# Due — the dates of a weekly rule without the ends of the calendar

A weekly generation is cut short where a week leaves the calendar. Were it not for that, it would
have every date of the window on its weekdays in the weeks of its stride. What it has is the part of
these dates that comes first, and all of them when it reports nothing. Two ways to list the dates
that are due are compared with it here: the days of a stride from the first date, for a rule on that
weekday alone, and a scan of the window, for a rule of every week.

- `Due`: the dates of a weekly rule by its own strides
- `mem_generate_iff_due`, `Due.whole_weeks`: which of them are generated, and when all of them are
- `generate_prefix_of_due`: a generation begins the ascending list of the dates that are due
- `lone_weekday_begins_daily`: a weekly rule on one weekday, and a daily rule
- `Rule.scan`, `every_week_begins_scan`: a rule of every week, whatever day weeks begin on
-/

namespace Cadence
namespace Schedule

open Calendar Service

variable {r : Rule} {w : Window} {filter : Option Window} {firstWeekday : Weekday} {d : Date}

/-! ## Due dates -/

/-- An admitted date on one of the rule's weekdays, so many strides of weeks after the week of the
first date. -/
structure Due (r : Rule) (w : Window) (filter : Option Window) (firstWeekday : Weekday) (d : Date) :
    Prop where
  admitted : Admitted w filter d
  weekday : d.weekday ∈ r.days
  strides : ∃ k : Nat, d.weekStart firstWeekday.position =
    w.first.weekStart firstWeekday.position + 7 * r.frequency * k

/-- A due date is generated when its week and the week of the first date lie in the calendar. -/
theorem mem_generate_iff_due (hweek : r.period = .week) :
    d ∈ (r.generate w filter firstWeekday).dates ↔
      Due r w filter firstWeekday d ∧ WholeWeek (w.first.weekStart firstWeekday.position) ∧
        WholeWeek (d.weekStart firstWeekday.position) := by
  have hcandidates : r.candidates w firstWeekday = weekly r w firstWeekday := by
    rw [Rule.candidates, hweek]
  rw [mem_generate, hcandidates, mem_weekly_iff]
  constructor
  · rintro ⟨⟨hday, hbegins, hwhole, -, hstrides⟩, hadmitted⟩
    exact ⟨⟨hadmitted, hday, hstrides⟩, hbegins, hwhole⟩
  · rintro ⟨⟨hadmitted, hday, hstrides⟩, hbegins, hwhole⟩
    exact ⟨⟨hday, hbegins, hwhole, Date.weekStart_le_of_le _ hadmitted.1.2, hstrides⟩, hadmitted⟩

/-- A generation that is not cut short has met no week that leaves the calendar. -/
theorem Due.whole_weeks (h : Due r w filter firstWeekday d) (hweek : r.period = .week)
    (hstop : (r.generate w filter firstWeekday).stop = none) :
    WholeWeek (w.first.weekStart firstWeekday.position) ∧
      WholeWeek (d.weekStart firstWeekday.position) := by
  have hdays : r.days ≠ [] := List.ne_nil_of_mem h.weekday
  have hspec : WeekStop r w firstWeekday w.first (r.generate w filter firstWeekday).stop :=
    candidates_weekStop hweek hdays
  rw [hstop] at hspec
  have hwhole (k : Nat) (hk : w.first.weekStart firstWeekday.position + 7 * r.frequency * k ≤
    w.last.serial) :
      WholeWeek (w.first.weekStart firstWeekday.position + 7 * r.frequency * k) := by
    by_contra hbroken
    exact hspec.kept k ⟨hk, hbroken⟩
  rcases h.strides with ⟨k, hk⟩
  refine ⟨?_, ?_⟩
  · have hfirst := hwhole 0
    simp only [Nat.cast_zero, mul_zero, add_zero] at hfirst
    exact hfirst (Date.weekStart_le_of_le _ w.first_le_last)
  · rw [hk]
    refine hwhole k ?_
    rw [← hk]
    exact Date.weekStart_le_of_le _ h.admitted.1.2

/-- A generation that is not cut short has all dates that are due. -/
theorem mem_generate_iff_due_of_stop (hweek : r.period = .week)
    (hstop : (r.generate w filter firstWeekday).stop = none) :
    d ∈ (r.generate w filter firstWeekday).dates ↔ Due r w filter firstWeekday d := by
  rw [mem_generate_iff_due hweek]
  exact and_iff_left_of_imp fun hdue => hdue.whole_weeks hweek hstop

/-- The generation begins the ascending list of the due dates, and is all of it when it is not cut
short. -/
theorem generate_prefix_of_due (hweek : r.period = .week) {ds : List Date}
    (hds : ds.Pairwise (· < ·))
    (hmem : ∀ d, d ∈ ds ↔ Due r w filter firstWeekday d) :
    (r.generate w filter firstWeekday).dates <+: ds ∧
      ((r.generate w filter firstWeekday).stop = none →
        (r.generate w filter firstWeekday).dates = ds) := by
  refine ⟨?_, ?_⟩
  · refine prefix_of_ascending Date.serial pairwise_generate_dates hds ?_ ?_
    · intro d hd
      exact (hmem d).2 ((mem_generate_iff_due hweek).1 hd).1
    · intro d hd e he hle
      rcases (mem_generate_iff_due hweek).1 hd with ⟨-, hbegins, hwhole⟩
      have hdue := (hmem e).1 he
      -- The week of the earlier date lies between two weeks of the calendar.
      have hfirst := Date.weekStart_mono firstWeekday.position hdue.admitted.1.1
      have hlast := Date.weekStart_mono firstWeekday.position hle
      have hbetween : WholeWeek (e.weekStart firstWeekday.position) := by
        unfold WholeWeek at *
        omega
      exact (mem_generate_iff_due hweek).2 ⟨hdue, hbegins, hbetween⟩
  · intro hstop
    refine eq_of_ascending Date.serial pairwise_generate_dates hds ?_
    intro d
    rw [hmem, mem_generate_iff_due_of_stop hweek hstop]

/-! ## One weekday -/

theorem days_of_weekdays {v : Weekday} (h : r.weekdays = some [v]) : r.days = [v] := by
  rw [Rule.days, h, Option.getD_some]

/-- Weeks are counted as days are between two dates on the same weekday. -/
theorem due_iff_of_lone_weekday (hlone : r.days = [w.first.weekday]) :
    Due r w filter firstWeekday d ↔
      Admitted w filter d ∧ ∃ k : Nat, d.serial = w.first.serial + 7 * r.frequency * k := by
  constructor
  · rintro ⟨hadmitted, hday, k, hk⟩
    rw [hlone, List.mem_singleton] at hday
    have hsame : d.weekStart firstWeekday.position - d.serial =
        w.first.weekStart firstWeekday.position - w.first.serial := by
      unfold Date.weekStart
      rw [hday]
      omega
    have hserial : (d.serial : Int) = w.first.serial + 7 * r.frequency * k := by omega
    exact ⟨hadmitted, k, by exact_mod_cast hserial⟩
  · rintro ⟨hadmitted, k, hk⟩
    have hweeks : (d.serial : Int) = w.first.serial + 7 * (r.frequency * k : Nat) := by
      rw [hk]
      push_cast
      ring
    refine ⟨hadmitted, ?_, k, ?_⟩
    · rw [hlone, List.mem_singleton]
      refine Weekday.position_inj ?_
      -- Whole weeks lead to the same weekday.
      rw [d.weekday_position, w.first.weekday_position]
      omega
    · calc d.weekStart firstWeekday.position
          = w.first.weekStart firstWeekday.position + 7 * (r.frequency * k : Nat) :=
            Date.weekStart_add_weeks _ hweeks
        _ = w.first.weekStart firstWeekday.position + 7 * r.frequency * k := by
            push_cast
            ring

/-- A weekly rule on the weekday of the first date alone begins the daily rule with seven times its
frequency, and has all dates of it when it reports nothing. What day weeks begin on makes no
difference to this. -/
theorem lone_weekday_begins_daily (l m : LooseRule) (w : Window) (filter : Option Window)
    (firstWeekday : Weekday) (hweek : l.checked.period = .week)
    (hlone : l.checked.weekdays = some [w.first.weekday]) (hday : m.checked.period = .day)
    (hfrequency : m.checked.frequency = 7 * l.checked.frequency) :
    ∃ run whole, l.generate w filter firstWeekday = .ok run ∧
      m.generate w filter firstWeekday = .ok whole ∧
      run.dates <+: whole.dates ∧ (runLogs l.checked run = [] → run.dates = whole.dates) := by
  have hdue (d : Date) : d ∈ (m.checked.generate w filter firstWeekday).dates ↔
      Due l.checked w filter firstWeekday d := by
    rw [mem_generate_iff_of_day hday, due_iff_of_lone_weekday (days_of_weekdays hlone), hfrequency]
  rcases generate_prefix_of_due hweek pairwise_generate_dates hdue with ⟨hinitial, hall⟩
  refine ⟨_, _, generate_of_ne_month (by simp [hweek]), generate_of_ne_month (by simp [hday]),
    hinitial, ?_⟩
  intro hlogs
  exact hall (stop_of_logs hlogs)

/-- From 9999-12-17, a Friday, to the end of the calendar, a Friday. -/
def lastFridays : Window := ⟨⟨3652044, by decide⟩, lastDays.last, by decide⟩

/-- Weeks from Saturday on end with the calendar, so every seventh day is a Friday of the rule.
Weeks from Monday on lose the last Friday. -/
theorem lone_weekday_begins_daily_at_calendar_end :
    fridays.weekdays = some [lastFridays.first.weekday] ∧
      ∃ part run whole, LooseRule.generate ⟨fridays, none⟩ lastFridays none .monday = .ok part ∧
        LooseRule.generate ⟨fridays, none⟩ lastFridays none .saturday = .ok run ∧
        LooseRule.generate ⟨everyDays 7 (by decide), none⟩ lastFridays none .saturday = .ok whole ∧
        part.dates <+: whole.dates ∧ part.dates ≠ whole.dates ∧ run.dates = whole.dates := by
  have hlone : fridays.weekdays = some [lastFridays.first.weekday] := by decide
  rcases lone_weekday_begins_daily ⟨fridays, none⟩ ⟨everyDays 7 (by decide), none⟩ lastFridays none
    .monday rfl hlone rfl rfl with ⟨_, _, ⟨⟩, ⟨⟩, hinitial, -⟩
  rcases lone_weekday_begins_daily ⟨fridays, none⟩ ⟨everyDays 7 (by decide), none⟩ lastFridays none
    .saturday rfl hlone rfl rfl with ⟨_, _, ⟨⟩, ⟨⟩, -, hall⟩
  have hstop : (fridays.generate lastFridays none .saturday).stop = none := by decide +kernel
  refine ⟨hlone, _, _, _, rfl, rfl, rfl, hinitial, by decide +kernel, hall (logs_of_stop hstop)⟩

/-! ## Every week -/

/-- In a rule of every week the weeks of all dates count. -/
theorem due_iff_of_every_week (hevery : r.frequency = 1) :
    Due r w filter firstWeekday d ↔ Admitted w filter d ∧ d.weekday ∈ r.days := by
  constructor
  · rintro ⟨hadmitted, hday, -⟩
    exact ⟨hadmitted, hday⟩
  · rintro ⟨hadmitted, hday⟩
    have hmono := Date.weekStart_mono firstWeekday.position hadmitted.1.1
    have hd := d.weekStart_emod firstWeekday.position
    have hfirst := w.first.weekStart_emod firstWeekday.position
    refine ⟨hadmitted, hday,
      ((d.weekStart firstWeekday.position - w.first.weekStart firstWeekday.position) / 7).toNat, ?_⟩
    rw [hevery]
    omega

end Schedule

open Calendar Schedule

/-- The dates that a scan of the window finds on the rule's weekdays, those in the filter when there
is one. -/
def Rule.scan (r : Rule) (w : Window) (filter : Option Window) : List Date :=
  (w.scanned (r.positions.map Int.ofNat)).filter fun d => filter.all fun f => f.contains d

namespace Schedule

open Service

variable {r s : Rule} {w : Window} {filter : Option Window} {firstWeekday : Weekday} {d : Date}

theorem mem_scan_iff : d ∈ r.scan w filter ↔ Admitted w filter d ∧ d.weekday ∈ r.days := by
  rw [Rule.scan, scanned_eq, List.mem_filter, Rule.positions, Window.mem_onWeekdays, and_right_comm,
    ← admitted_iff, Bool.and_eq_true, Window.contains, Bool.and_eq_true, decide_eq_true_eq,
    decide_eq_true_eq]

theorem pairwise_scan : (r.scan w filter).Pairwise (· < ·) := by
  rw [Rule.scan, scanned_eq]
  exact (w.pairwise_onWeekdays _).filter _

theorem generate_begins_scan (hweek : r.period = .week) (hevery : r.frequency = 1) :
    (r.generate w filter firstWeekday).dates <+: r.scan w filter ∧
      ((r.generate w filter firstWeekday).stop = none →
        (r.generate w filter firstWeekday).dates = r.scan w filter) := by
  refine generate_prefix_of_due hweek pairwise_scan ?_
  intro d
  rw [mem_scan_iff, due_iff_of_every_week hevery]

/-- Every day, all that is admitted is generated. -/
theorem mem_generate_iff_of_every_day (hday : r.period = .day) (hevery : r.frequency = 1) :
    d ∈ (r.generate w filter firstWeekday).dates ↔ Admitted w filter d := by
  rw [mem_generate_iff_of_day hday, hevery]
  refine and_iff_left_of_imp ?_
  intro hadmitted
  have hle := Date.le_iff.1 hadmitted.1.1
  exact ⟨d.serial - w.first.serial, by omega⟩

theorem scan_eq_of_every_day (hall : ∀ v, v ∈ r.days) (hday : s.period = .day)
    (hevery : s.frequency = 1) :
    r.scan w filter = (s.generate w filter firstWeekday).dates := by
  refine eq_of_ascending Date.serial pairwise_scan pairwise_generate_dates ?_
  intro d
  rw [mem_scan_iff, mem_generate_iff_of_every_day hday hevery]
  exact and_iff_left (hall d.weekday)

/-- A rule of every week begins the scan of the window for its weekdays, and has all dates of it
when it reports nothing, whatever day weeks begin on. On all weekdays these are the dates of a rule
of every day. -/
theorem every_week_begins_scan (l : LooseRule) (w : Window) (filter : Option Window)
    (hweek : l.checked.period = .week) (hevery : l.checked.frequency = 1) :
    (∀ firstWeekday, ∃ run, l.generate w filter firstWeekday = .ok run ∧
        run.dates <+: l.checked.scan w filter ∧
        (runLogs l.checked run = [] → run.dates = l.checked.scan w filter)) ∧
      (∀ firstWeekday other run run', l.generate w filter firstWeekday = .ok run →
        l.generate w filter other = .ok run' → runLogs l.checked run = [] →
          runLogs l.checked run' = [] →
        run.dates = run'.dates) ∧
      ∀ m : LooseRule, (∀ v, v ∈ l.checked.days) → m.checked.period = .day →
        m.checked.frequency = 1 →
        ∀ firstWeekday run, l.generate w filter firstWeekday = .ok run →
          runLogs l.checked run = [] →
          ∃ whole, m.generate w filter firstWeekday = .ok whole ∧ run.dates = whole.dates := by
  have hgenerate (firstWeekday : Weekday) :
      l.generate w filter firstWeekday = .ok (l.checked.generate w filter firstWeekday) :=
    generate_of_ne_month (by simp [hweek])
  have hscan (firstWeekday : Weekday) (run : Run)
    (hrun : l.generate w filter firstWeekday = .ok run)
      (hlogs : runLogs l.checked run = []) : run.dates = l.checked.scan w filter := by
    cases (hgenerate firstWeekday).symm.trans hrun
    exact (generate_begins_scan hweek hevery).2 (stop_of_logs hlogs)
  refine ⟨?_, ?_, ?_⟩
  · intro firstWeekday
    exact ⟨_, hgenerate firstWeekday, (generate_begins_scan hweek hevery).1,
      hscan firstWeekday _ (hgenerate firstWeekday)⟩
  · intro firstWeekday other run run' hrun hrun' hlogs hlogs'
    calc run.dates
        = l.checked.scan w filter := hscan firstWeekday run hrun hlogs
      _ = run'.dates := (hscan other run' hrun' hlogs').symm
  · intro m hall hday hone firstWeekday run hrun hlogs
    refine ⟨_, generate_of_ne_month (by simp [hday]), ?_⟩
    calc run.dates
        = l.checked.scan w filter := hscan firstWeekday run hrun hlogs
      _ = (m.checked.generate w filter firstWeekday).dates := scan_eq_of_every_day hall hday hone

/-- Every week on some weekdays. The index is not looked at. -/
def everyWeekOn (ws : List Weekday) (h : Weekday.Ascending ws) : Rule where
  frequency := 1
  period := .week
  index := some 29
  weekdays := some ws
  frequency_pos := Nat.one_pos
  index_mem := by
    rintro _ ⟨⟩
    decide
  weekdays_ascending := by
    rintro _ ⟨⟩
    exact h

/-- Every week on all weekdays. -/
def allWeekdays : Rule := everyWeekOn Weekday.all Weekday.ascending_all

/-- From 9999-12-20, a Monday, to the Sunday after it. -/
def lastWholeWeek : Window := ⟨lastDays.first, ⟨3652053, by decide⟩, by decide⟩

/-- Weeks from Monday and weeks from Saturday fit in the calendar as far as the window reaches them,
and so both find every day. Weeks from Sunday lose the last one. -/
theorem every_week_begins_scan_in_last_week :
    ∃ mondays saturdays sundays days,
      LooseRule.generate ⟨allWeekdays, none⟩ lastWholeWeek none .monday = .ok mondays ∧
        LooseRule.generate ⟨allWeekdays, none⟩ lastWholeWeek none .saturday = .ok saturdays ∧
        LooseRule.generate ⟨allWeekdays, none⟩ lastWholeWeek none .sunday = .ok sundays ∧
        LooseRule.generate ⟨everyDays 1 (by decide), none⟩ lastWholeWeek none .monday = .ok days ∧
        mondays.dates = saturdays.dates ∧ mondays.dates = days.dates ∧
        sundays.dates <+: allWeekdays.scan lastWholeWeek none ∧ sundays.dates ≠ days.dates := by
  rcases every_week_begins_scan ⟨allWeekdays, none⟩ lastWholeWeek none rfl rfl
    with ⟨hscan, hagree, hdaily⟩
  rcases hscan .sunday with ⟨_, ⟨⟩, hinitial, -⟩
  have hmondays : runLogs allWeekdays (allWeekdays.generate lastWholeWeek none .monday) = [] :=
    logs_of_stop (by decide +kernel)
  have hsaturdays : runLogs allWeekdays (allWeekdays.generate lastWholeWeek none .saturday) = [] :=
    logs_of_stop (by decide +kernel)
  rcases hdaily ⟨everyDays 1 (by decide), none⟩ Weekday.mem_all rfl rfl .monday _ rfl hmondays with
    ⟨_, ⟨⟩, hdays⟩
  exact ⟨_, _, _, _, rfl, rfl, rfl, rfl, hagree _ _ _ _ rfl rfl hmondays hsaturdays, hdays,
    hinitial, by decide +kernel⟩

end Schedule
end Cadence
