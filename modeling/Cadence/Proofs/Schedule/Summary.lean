import Cadence.Proofs.Schedule.Resumption

/-!
# Summary — what a summary says of the dates is so

A summary is made of a rule and an anchor, and no date is generated for it. With the first date of a
window as the anchor it describes every generation in this window: a weekly one by the labels of its
weekdays, a monthly one by its day of the month, and a daily one by the days between its dates.

- `Summary.labels`: the weekdays as they are shown
- `Describes`: dates that are as a summary says
- `isChain_of_day`: the days between the dates of a daily rule
- `summary_describes_dates`: summaries and generations side by side
-/

namespace Cadence

open Calendar

/-- The weekdays of a summary as they are shown. -/
def Summary.labels (s : Summary) : List String := s.weekdays.map Weekday.label

namespace Schedule

variable {r : Rule} {w : Window} {filter : Option Window} {firstWeekday : Weekday} {d : Date}

/-- Dates are as a summary says. Weekly ones fall on its weekdays, and there are none when it has no
weekday. Monthly ones fall on its day of the month or, where the month is shorter, on the last. -/
structure Describes (s : Summary) (dates : List Date) : Prop where
  weekday : s.period = .week → ∀ d ∈ dates, d.weekday ∈ s.weekdays
  label : s.period = .week → ∀ d ∈ dates, d.weekday.label ∈ s.labels
  silent : s.period = .week → s.labels = [] → dates = []
  monthDay : s.period = .month → ∃ day, s.monthDay = some day ∧
    ∀ d ∈ dates, d.day = min day d.month.length

/-! ## Dates of each period -/

theorem weekday_mem_of_week (hweek : r.period = .week)
    (hd : d ∈ (r.generate w filter firstWeekday).dates) :
    d.weekday ∈ r.days := by
  have hfits := (mem_generate_iff.1 hd).2.1.fits
  simp only [Rule.Fits, hweek] at hfits
  exact hfits.1

theorem day_eq_of_month (hmonth : r.period = .month)
    (hd : d ∈ (r.generate w filter firstWeekday).dates) :
    d.day = min (r.index.getD w.first.day) d.month.length := by
  have hstride := (mem_generate_iff.1 hd).2.1
  exact ((onStride_iff_of_month hmonth).1 hstride).2

/-- Without a filter no date of a daily rule is left out, so the next one is a stride away. -/
theorem isChain_of_day (hday : r.period = .day) :
    (r.generate w none firstWeekday).dates.IsChain fun d e =>
      e.serial = d.serial + r.frequency := by
  rw [List.isChain_iff_getElem]
  intro i hi
  have hi' : i < (r.generate w none firstWeekday).dates.length := Nat.lt_of_succ_lt hi
  have hplace := ((getElem?_generate_of_day hday i _).1 (List.getElem?_eq_getElem hi')).2
  have hnext := ((getElem?_generate_of_day hday (i + 1) _).1 (List.getElem?_eq_getElem hi)).2
  calc _ = w.first.serial + r.frequency * (i + 1) := hnext
    _ = w.first.serial + r.frequency * i + r.frequency := by ring
    _ = _ := by rw [hplace]

/-! ## Summaries -/

theorem weekdays_summarize (hweek : r.period = .week) (anchor : Option Date) :
    (r.summarize anchor).weekdays = r.days := by
  simp [Rule.summarize, hweek]

theorem monthDay_summarize (hmonth : r.period = .month) (anchor : Date) :
    (r.summarize (some anchor)).monthDay = some (r.index.getD anchor.day) := by
  cases hindex : r.index with
  | none => simp [Rule.summarize, hmonth, hindex]
  | some i => simp [Rule.summarize, hmonth, hindex]

theorem describes_generate :
    Describes (r.summarize (some w.first)) (r.generate w filter firstWeekday).dates where
  weekday := by
    intro hweek d hd
    rw [weekdays_summarize hweek]
    exact weekday_mem_of_week hweek hd
  label := by
    intro hweek d hd
    rw [Summary.labels, weekdays_summarize hweek]
    exact List.mem_map_of_mem (weekday_mem_of_week hweek hd)
  silent := by
    intro hweek hnone
    rw [Summary.labels, weekdays_summarize hweek, List.map_eq_nil_iff] at hnone
    apply List.eq_nil_iff_forall_not_mem.2
    intro d hd
    have hday := weekday_mem_of_week hweek hd
    rw [hnone] at hday
    exact List.not_mem_nil hday
  monthDay := by
    intro hmonth
    refine ⟨_, monthDay_summarize hmonth w.first, ?_⟩
    intro d hd
    exact day_eq_of_month hmonth hd

/-- The weekdays of a summary are those that one of the values given for them is the code of, each
once and Monday first, in whatever order the values stand. -/
theorem weekdays_of_ofFields {f : Fields} (h : LooseRule.ofFields f = .ok ⟨r, none⟩)
    (hweek : r.period = .week)
    (anchor : Option Date) :
    Weekday.Ascending (r.summarize anchor).weekdays ∧
      ∀ v, v ∈ (r.summarize anchor).weekdays ↔
        ∃ given ∈ f.weekdays.contents?, ∃ x ∈ given, x.code? = some (v.code : Int) := by
  rw [weekdays_summarize hweek]
  refine ⟨r.ascending_days, ?_⟩
  intro v
  exact (LooseRule.ofFields_eq_ok_iff.1 h).weekdays.mem_iff v

/-- The summary of a rule at the first date of a window describes the dates of every generation in
this window, with any filter and whatever day weeks begin on. Without a filter the dates of a daily
rule are as many days apart as it says. Of a weekly rule it lists the weekdays that the rule was
given, each once and Monday first. -/
theorem summary_describes_dates (r : Rule) (w : Window) :
    (∀ filter firstWeekday, ∃ run, LooseRule.generate ⟨r, none⟩ w filter firstWeekday = .ok run ∧
        Describes (r.summarize (some w.first)) run.dates) ∧
      (r.period = .day → ∀ firstWeekday, ∃ run,
        LooseRule.generate ⟨r, none⟩ w none firstWeekday = .ok run ∧
          run.dates.IsChain fun d e =>
            e.serial = d.serial + (r.summarize (some w.first)).frequency) ∧
      (r.period = .week → ∀ f : Fields, LooseRule.ofFields f = .ok ⟨r, none⟩ →
        Weekday.Ascending (r.summarize (some w.first)).weekdays ∧
          ∀ v, v ∈ (r.summarize (some w.first)).weekdays ↔
            ∃ given ∈ f.weekdays.contents?, ∃ x ∈ given, x.code? = some (v.code : Int)) := by
  refine ⟨?_, ?_, ?_⟩
  · intro filter firstWeekday
    exact ⟨_, generate_of_odd_eq_none rfl, describes_generate⟩
  · intro hday firstWeekday
    exact ⟨_, generate_of_odd_eq_none rfl, isChain_of_day hday⟩
  · intro hweek f hfields
    exact weekdays_of_ofFields hfields hweek (some w.first)

/-- The last days of five months of different lengths, and the weekdays of a rule that was given
them out of order and twice. -/
theorem summary_describes_dates_of_month_ends :
    (∃ run, LooseRule.generate ⟨LooseRule.monthlyRule, none⟩ monthEnds none .monday = .ok run ∧
        run.dates.map Date.day = [31, 28, 31, 30, 31] ∧
        Describes (LooseRule.monthlyRule.summarize (some monthEnds.first)) run.dates) ∧
      LooseRule.ofFields LooseRule.mixedValues = .ok ⟨LooseRule.mixedRule, none⟩ ∧
      Weekday.Ascending (LooseRule.mixedRule.summarize (some monthEnds.first)).weekdays ∧
      (LooseRule.mixedRule.summarize (some monthEnds.first)).labels = ["tue", "sun"] := by
  have hfields : LooseRule.ofFields LooseRule.mixedValues = .ok ⟨LooseRule.mixedRule, none⟩ := rfl
  rcases summary_describes_dates LooseRule.monthlyRule monthEnds with ⟨hmonthly, -, -⟩
  rcases summary_describes_dates LooseRule.mixedRule monthEnds with ⟨-, -, hweekly⟩
  rcases hmonthly none .monday with ⟨_, ⟨⟩, hdescribes⟩
  exact ⟨⟨_, rfl, by decide +kernel, hdescribes⟩, hfields, (hweekly rfl _ hfields).1,
    by decide +kernel⟩

end Schedule
end Cadence
