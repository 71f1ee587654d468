import Cadence.Proofs.Schedule.Loose
import Cadence.Proofs.Schedule.Stride

/-!
# Resumption — a generation that is taken up again at one of its dates

A generation starts to count at the first date of its window. Every date that it finds is a place of
the same count, so a generation from there finds what is left. The day of the month is another
matter: a rule without an index takes it from the first date, so a clamped date loses it; and a
month whose cursor is past the end of the window has no date, although the index would name one.

- `Window.startingAt`: the part of a window from one of its dates on
- `mem_resumed_iff`, `generate_resumed`: the dates from there, of a plain rule
- `generation_resumes`: the dates from there, of any rule
-/

namespace Cadence

open Calendar

/-- The part of a window from a date on. -/
def Calendar.Window.startingAt (w : Window) (d : Date) (h : d ≤ w.last) : Window := ⟨d, w.last, h⟩

namespace Schedule

variable {r : Rule} {l : LooseRule} {w : Window} {filter : Option Window} {firstWeekday : Weekday}
  {d e : Date} {hle : d ≤ w.last}

theorem admitted_startingAt_iff (h : w.first ≤ d) :
    Admitted (w.startingAt d hle) filter e ↔ Admitted w filter e ∧ d ≤ e := by
  unfold Admitted Window.startingAt
  constructor
  · rintro ⟨⟨hde, hlast⟩, hfilter⟩
    exact ⟨⟨⟨Nat.le_trans h hde, hlast⟩, hfilter⟩, hde⟩
  · rintro ⟨⟨⟨-, hlast⟩, hfilter⟩, hde⟩
    exact ⟨⟨hde, hlast⟩, hfilter⟩

/-- A date of a monthly rule is not after the day that its index names. -/
theorem day_le_index {first : Date} (hd : OnStride r firstWeekday first d)
    (hmonth : r.period = .month) :
    ∀ i ∈ r.index, d.day ≤ i := by
  intro i hi
  have hday := ((onStride_iff_of_month hmonth).1 hd).2
  rw [Option.mem_def.1 hi, Option.getD_some] at hday
  omega

theorem mem_resumed_iff (hd : d ∈ (r.generate w filter firstWeekday).dates)
    (hindex : r.period = .month → ∀ i ∈ r.index, w.first.day ≤ i)
    (hday : r.period = .month → r.index = none → d.day = w.first.day) :
    e ∈ (r.generate (w.startingAt d hle) filter firstWeekday).dates ↔
      e ∈ (r.generate w filter firstWeekday).dates ∧ d ≤ e := by
  rcases mem_generate_iff.1 hd with ⟨hadmitted, hstride, -⟩
  have hwindow : Admitted (w.startingAt d hle) filter e ↔ Admitted w filter e ∧ d ≤ e :=
    admitted_startingAt_iff hadmitted.1.1
  rw [mem_generate_iff, mem_generate_iff, hwindow]
  -- What is left to compare are the strides from the two first dates, and the months that are
  -- reached.
  constructor
  · rintro ⟨⟨hin, hde⟩, hrest, -⟩
    have hfrom : OnStride r firstWeekday w.first e := (hstride.iff_of_le hday hde).1 hrest
    exact ⟨⟨hin, hfrom, reached_of_le_index hindex hfrom hin.1.2⟩, hde⟩
  · rintro ⟨⟨hin, hfrom, -⟩, hde⟩
    have hrest : OnStride r firstWeekday d e := (hstride.iff_of_le hday hde).2 hfrom
    have hreached : Reached r (w.startingAt d hle) e :=
      reached_of_le_index (day_le_index hstride) hrest hin.1.2
    exact ⟨⟨hin, hde⟩, hrest, hreached⟩

theorem generate_resumed (hd : d ∈ (r.generate w filter firstWeekday).dates)
    (hindex : r.period = .month → ∀ i ∈ r.index, w.first.day ≤ i)
    (hday : r.period = .month → r.index = none → d.day = w.first.day) :
    (r.generate (w.startingAt d hle) filter firstWeekday).dates =
      (r.generate w filter firstWeekday).dates.filter fun e => d ≤ e := by
  refine eq_of_ascending Date.serial pairwise_generate_dates (pairwise_generate_dates.filter _) ?_
  intro e
  rw [List.mem_filter, decide_eq_true_eq]
  exact mem_resumed_iff hd hindex hday

/-- The dates of a generation can be had in two parts, up to one of them and from there on. A month
needs an index that is not before the day of the first date, or a date with that day when it has no
index. The second generation returns for every index that is an integer or absent or not looked at.
-/
theorem generation_resumes (l : LooseRule) (w : Window) (filter : Option Window)
    (firstWeekday : Weekday)
    {run : Run} (hrun : l.generate w filter firstWeekday = .ok run) {d : Date} (hd : d ∈ run.dates)
    (hindex : l.checked.period = .month → ∀ q ∈ l.indexValue, (w.first.day : Rat) ≤ q)
    (hday : l.checked.period = .month → l.indexValue = none → d.day = w.first.day) :
    ∃ hle : d ≤ w.last,
      ((l.checked.period = .month → l.odd = none) →
        ∃ rest, l.generate (w.startingAt d hle) filter firstWeekday = .ok rest) ∧
      ∀ rest, l.generate (w.startingAt d hle) filter firstWeekday = .ok rest →
        rest.dates = run.dates.filter fun e => d ≤ e := by
  rcases generate_eq_ok_iff.1 hrun with ⟨-, rfl⟩
  refine ⟨(mem_generate_iff.1 hd).1.1.2, exists_generate, ?_⟩
  intro rest hrest
  rcases generate_eq_ok_iff.1 hrest with ⟨-, rfl⟩
  refine generate_resumed hd ?_ ?_
  · intro hmonth
    rw [l.period_plain] at hmonth
    exact LooseRule.le_index_plain hmonth (hindex hmonth)
  · intro hmonth hnone
    rw [l.period_plain] at hmonth
    exact hday hmonth (LooseRule.indexValue_eq_none hmonth hnone)

/-- From 2023-01-31 to 2023-05-31. -/
def monthEnds : Window := ⟨⟨738550, by decide⟩, ⟨738670, by decide⟩, by decide⟩

/-- 2023-03-31. It has the day of the first date, which 2023-02-28 lacks. -/
def endOfMarch : Date := ⟨738609, by decide⟩

theorem generation_resumes_at_end_of_march :
    LooseRule.monthlyRule.period = .month ∧ endOfMarch.day = monthEnds.first.day ∧
      ∃ run, LooseRule.generate ⟨LooseRule.monthlyRule, none⟩ monthEnds none .monday = .ok run ∧
        endOfMarch ∈ run.dates ∧
        ∃ (hle : endOfMarch ≤ monthEnds.last) (rest : Run),
          LooseRule.generate ⟨LooseRule.monthlyRule, none⟩
            (monthEnds.startingAt endOfMarch hle) none .monday =
              .ok rest ∧
            rest.dates = run.dates.filter fun e => endOfMarch ≤ e := by
  have hday : endOfMarch.day = monthEnds.first.day := by decide +kernel
  have hmem : endOfMarch ∈ (LooseRule.monthlyRule.generate monthEnds none .monday).dates := by
    decide +kernel
  have hindex : LooseRule.monthlyRule.period = .month →
      ∀ q ∈ LooseRule.indexValue ⟨LooseRule.monthlyRule, none⟩,
        (monthEnds.first.day : Rat) ≤ q := by
    rintro - _ ⟨⟩
  rcases generation_resumes ⟨LooseRule.monthlyRule, none⟩ monthEnds none .monday rfl hmem hindex
    (fun _ _ => hday) with ⟨hle, hreturns, hrests⟩
  rcases hreturns (fun _ => rfl) with ⟨rest, hrest⟩
  exact ⟨rfl, hday, _, rfl, hmem, hle, rest, hrest, hrests rest hrest⟩

end Schedule
end Cadence
