import Cadence.Proofs.Schedule.Loose
import Cadence.Proofs.Schedule.Stride

/-!
# Extension — a window that ends later only adds dates at the end

The loops stop by the end of the window, each by a test of its own. Whatever they visited in a
window, they visit again in a longer one, before anything else. What they visit there up to the end
of the shorter window they have visited in it already, unless it is the month whose cursor is behind
that end.

- `mem_long_of_mem_short`, `mem_short_of_le`: the dates of the shorter window come first
- `mem_short_iff`: and are all that the longer window has up to their end
- `longer_window_appends`: generation in the two windows
-/

namespace Cadence
namespace Schedule

open Calendar

section Windows

variable {r : Rule} {l : LooseRule} {short long : Window} {filter : Option Window}
  {firstWeekday : Weekday} {d e : Date}

/-! ## Admitted dates -/

theorem admitted_long (hfirst : short.first = long.first) (hlast : short.last ≤ long.last)
    (h : Admitted short filter d) : Admitted long filter d :=
  ⟨⟨hfirst ▸ h.1.1, Nat.le_trans h.1.2 hlast⟩, h.2⟩

theorem admitted_short (hfirst : short.first = long.first) (h : Admitted long filter d)
    (hle : d ≤ short.last) : Admitted short filter d :=
  ⟨⟨hfirst ▸ h.1.1, hle⟩, h.2⟩

/-! ## Dates of the two windows -/

theorem mem_long_of_mem_short (hfirst : short.first = long.first) (hlast : short.last ≤ long.last)
    (h : d ∈ (r.generate short filter firstWeekday).dates) :
    d ∈ (r.generate long filter firstWeekday).dates := by
  rcases mem_generate_iff.1 h with ⟨hadmitted, hstride, hreached⟩
  rw [hfirst] at hstride
  refine mem_generate_iff.2 ⟨admitted_long hfirst hlast hadmitted, hstride, ?_⟩
  intro hmonth
  have hcursor := hreached hmonth
  rw [hfirst] at hcursor
  exact Nat.le_trans hcursor hlast

/-- The longer window has no date that is missing between two dates of the shorter one. -/
theorem mem_short_of_le (hfirst : short.first = long.first)
    (hd : d ∈ (r.generate short filter firstWeekday).dates)
    (he : e ∈ (r.generate long filter firstWeekday).dates) (hle : e ≤ d) :
    e ∈ (r.generate short filter firstWeekday).dates := by
  rcases mem_generate_iff.1 hd with ⟨hadmitted, -, hreached⟩
  rcases mem_generate_iff.1 he with ⟨hadmitted', hstride, -⟩
  rw [← hfirst] at hstride
  refine mem_generate_iff.2
    ⟨admitted_short hfirst hadmitted' (Nat.le_trans hle hadmitted.1.2), hstride, ?_⟩
  intro hmonth
  -- The cursor of the earlier date is not behind that of the later one.
  exact Nat.le_trans (Date.withDay_mono hle _) (hreached hmonth)

theorem mem_short_iff (hfirst : short.first = long.first) (hlast : short.last ≤ long.last)
    (hindex : r.period = .month → ∀ i ∈ r.index, short.first.day ≤ i) :
    d ∈ (r.generate short filter firstWeekday).dates ↔
      d ∈ (r.generate long filter firstWeekday).dates ∧ d ≤ short.last := by
  constructor
  · intro hd
    exact ⟨mem_long_of_mem_short hfirst hlast hd, (mem_generate_iff.1 hd).1.1.2⟩
  · rintro ⟨hd, hle⟩
    rcases mem_generate_iff.1 hd with ⟨hadmitted, hstride, -⟩
    rw [← hfirst] at hstride
    exact mem_generate_iff.2
      ⟨admitted_short hfirst hadmitted hle, hstride, reached_of_le_index hindex hstride hle⟩

theorem generate_prefix (hfirst : short.first = long.first) (hlast : short.last ≤ long.last) :
    (r.generate short filter firstWeekday).dates <+:
    (r.generate long filter firstWeekday).dates := by
  refine prefix_of_ascending Date.serial pairwise_generate_dates pairwise_generate_dates ?_ ?_
  · intro d hd
    exact mem_long_of_mem_short hfirst hlast hd
  · intro d hd e he hle
    exact mem_short_of_le hfirst hd he hle

theorem generate_short_eq (hfirst : short.first = long.first) (hlast : short.last ≤ long.last)
    (hindex : r.period = .month → ∀ i ∈ r.index, short.first.day ≤ i) :
    (r.generate short filter firstWeekday).dates =
      (r.generate long filter firstWeekday).dates.filter fun d => d ≤ short.last := by
  refine eq_of_ascending Date.serial pairwise_generate_dates (pairwise_generate_dates.filter _) ?_
  intro d
  rw [List.mem_filter, decide_eq_true_eq]
  exact mem_short_iff hfirst hlast hindex

/-- A day that is lacking in the shorter window is lacking in the longer one. -/
theorem lacksDay_long (hfirst : short.first = long.first) (hlast : short.last ≤ long.last)
    {odd : OddIndex}
    (h : l.LacksDay short odd) : l.LacksDay long odd := by
  rcases h with ⟨hindex, hmonth, hone, d, hd, hlong⟩
  rcases mem_visits_iff.1 hd with ⟨hle, k, hk⟩
  rw [hfirst] at hk
  exact ⟨hindex, hmonth, hone, d, mem_visits_iff.2 ⟨Nat.le_trans hle hlast, k, hk⟩, hlong⟩

/-- Generation in a window begins generation in one that ends later. It is the part of it up to the
end of the shorter window, unless a month has an index before the day of the first date. The shorter
generation returns when the longer one does, as it does for every index that is an integer or absent
or not looked at. -/
theorem longer_window_appends (l : LooseRule) (filter : Option Window) (firstWeekday : Weekday)
    {short long : Window} (hfirst : short.first = long.first) (hlast : short.last ≤ long.last) :
    ((l.checked.period = .month → l.odd = none) →
        ∃ later, l.generate long filter firstWeekday = .ok later) ∧
      ∀ later, l.generate long filter firstWeekday = .ok later →
        ∃ run, l.generate short filter firstWeekday = .ok run ∧ run.dates <+: later.dates ∧
          ((l.checked.period = .month → ∀ q ∈ l.indexValue, (short.first.day : Rat) ≤ q) →
            run.dates = later.dates.filter fun d => d ≤ short.last) := by
  refine ⟨exists_generate, ?_⟩
  intro later hlater
  rcases generate_eq_ok_iff.1 hlater with ⟨hdays, rfl⟩
  have hshort : l.generate short filter firstWeekday =
    .ok (l.plain.generate short filter firstWeekday) :=
    generate_eq_ok_iff.2 ⟨fun odd hlacks => hdays odd (lacksDay_long hfirst hlast hlacks), rfl⟩
  refine ⟨_, hshort, generate_prefix hfirst hlast, ?_⟩
  intro hindex
  refine generate_short_eq hfirst hlast ?_
  intro hmonth
  rw [l.period_plain] at hmonth
  exact LooseRule.le_index_plain hmonth (hindex hmonth)

end Windows

/-- The first days of `lastDays`, from 9999-12-20 to 9999-12-25. -/
def daysBeforeLast : Window := ⟨lastDays.first, ⟨3652052, by decide⟩, by decide⟩

/-- The longer generation stops at the week that does not fit, the shorter one never looks at it.
Both have the same Fridays up to the end of the shorter window. -/
theorem longer_window_appends_at_calendar_end :
    daysBeforeLast.first = lastDays.first ∧ daysBeforeLast.last ≤ lastDays.last ∧
      ∃ run later, LooseRule.generate ⟨fridays, none⟩ daysBeforeLast none .monday = .ok run ∧
        LooseRule.generate ⟨fridays, none⟩ lastDays none .monday = .ok later ∧
        run.dates <+: later.dates ∧
          run.dates = later.dates.filter fun d => d ≤ daysBeforeLast.last := by
  have hfirst : daysBeforeLast.first = lastDays.first := rfl
  have hlast : daysBeforeLast.last ≤ lastDays.last := by decide
  rcases longer_window_appends ⟨fridays, none⟩ none .monday hfirst hlast with ⟨hreturns, hruns⟩
  rcases hreturns (fun _ => rfl) with ⟨later, hlater⟩
  rcases hruns later hlater with ⟨run, hrun, hprefix, hpart⟩
  have hindex : fridays.period = .month → ∀ q ∈ LooseRule.indexValue ⟨fridays, none⟩,
      (daysBeforeLast.first.day : Rat) ≤ q := by
    rintro ⟨⟩
  exact ⟨hfirst, hlast, run, later, hrun, hlater, hprefix, hpart hindex⟩

end Schedule
end Cadence
