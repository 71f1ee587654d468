import Cadence.Proofs.Schedule.Extension

/-!
# Thinning — a multiple of the frequency leaves out dates and adds none

A rule that takes every `m`-th of its strides counts from the same first date, on the same days,
weeks or months, and what it demands of a date does not depend on the frequency. So its dates are
dates of the rule, wherever either of the two runs stops. Where every stride is a date, the dates
are those at every `m`-th place.

- `Rule.thinned`, `LooseRule.thinned`: the rule with the multiple of its frequency
- `OnStride.of_thinned`: its dates are on the strides of the rule
- `getElem?_generate_thinned`: the places of its dates, when the rule is daily
- `multiple_frequency_thins`: generation with the two frequencies
-/

namespace Cadence

open Calendar

/-- The same rule at `m` times its frequency. -/
def Rule.thinned (r : Rule) (m : Nat) (h : 1 ≤ m) : Rule :=
  { r with
    frequency := r.frequency * m
    frequency_pos := Nat.mul_pos r.frequency_pos h }

def LooseRule.thinned (l : LooseRule) (m : Nat) (h : 1 ≤ m) : LooseRule :=
  { l with checked := l.checked.thinned m h }

namespace Schedule

variable {r : Rule} {l : LooseRule} {m : Nat} {hm : 1 ≤ m} {w : Window} {filter : Option Window}
  {firstWeekday : Weekday} {first d : Date}

/-! ## Strides -/

theorem stride_thinned : (r.thinned m hm).stride = r.stride * m := by
  have hperiod : (r.thinned m hm).period = r.period := rfl
  have hfrequency : (r.thinned m hm).frequency = r.frequency * m := rfl
  unfold Rule.stride
  rw [hperiod, hfrequency]
  cases r.period with
  | day => rfl
  | week => exact (Nat.mul_assoc 7 r.frequency m).symm
  | month => rfl

theorem OnStride.of_thinned (h : OnStride (r.thinned m hm) firstWeekday first d) :
    OnStride r firstWeekday first d := by
  rcases h with ⟨⟨k, hk⟩, hfits⟩
  -- What is counted and what fits does not depend on the frequency, only the strides do.
  refine ⟨⟨m * k, ?_⟩, hfits⟩
  calc r.place firstWeekday d
      = r.place firstWeekday first + (r.thinned m hm).stride * k := hk
    _ = r.place firstWeekday first + r.stride * (m * k : Nat) := by
        rw [stride_thinned]
        push_cast
        ring

/-! ## Dates -/

theorem mem_of_mem_thinned (h : d ∈ ((r.thinned m hm).generate w filter firstWeekday).dates) :
    d ∈ (r.generate w filter firstWeekday).dates := by
  rcases mem_generate_iff.1 h with ⟨hadmitted, hstride, hreached⟩
  exact mem_generate_iff.2 ⟨hadmitted, hstride.of_thinned, hreached⟩

theorem generate_thinned_sublist :
    ((r.thinned m hm).generate w filter firstWeekday).dates.Sublist
      (r.generate w filter firstWeekday).dates := by
  apply sublist_of_ascending Date.serial pairwise_generate_dates pairwise_generate_dates
  intro d hd
  exact mem_of_mem_thinned hd

/-- A daily rule has a date at every stride up to the end of the window, so places are counted as
strides are. -/
theorem getElem?_generate_thinned (hday : r.period = .day) (i : Nat) :
    ((r.thinned m hm).generate w none firstWeekday).dates[i]? =
      (r.generate w none firstWeekday).dates[m * i]? := by
  have hday' : (r.thinned m hm).period = .day := hday
  have hfrequency : (r.thinned m hm).frequency * i = r.frequency * (m * i) :=
    Nat.mul_assoc r.frequency m i
  apply Option.ext
  intro d
  rw [getElem?_generate_of_day hday', getElem?_generate_of_day hday, hfrequency]

/-! ## Rules of any index -/

theorem plain_thinned : (l.thinned m hm).plain = l.plain.thinned m hm := by
  unfold LooseRule.plain LooseRule.thinned
  cases l.odd with
  | none => rfl
  | some odd =>
    have hperiod : (l.checked.thinned m hm).period = l.checked.period := rfl
    simp only [hperiod]
    split
    · rfl
    · split
      · rfl
      · rfl

/-- A month in which the day is lacking at the multiple is visited by the rule as well. -/
theorem lacksDay_of_thinned {odd : OddIndex} (h : (l.thinned m hm).LacksDay w odd) :
    l.LacksDay w odd := by
  rcases h with ⟨hindex, hmonth, hone, d, hd, hlong⟩
  rcases mem_visits_iff.1 hd with ⟨hle, k, hk⟩
  have hoffset : (l.checked.thinned m hm).frequency * k = l.checked.frequency * (m * k) :=
    Nat.mul_assoc l.checked.frequency m k
  have hvisit : d ∈ (visits l.checked w).dates := by
    refine mem_visits_iff.2 ⟨hle, m * k, ?_⟩
    rw [← hoffset]
    exact hk
  exact ⟨hindex, hmonth, hone, d, hvisit, hlong⟩

/-- At a multiple of its frequency a rule generates a part of its dates, in their order. Of a daily
rule without a filter it is every `m`-th date, the first one included. It makes no difference
whether the calendar cuts one of the generations short. The multiple returns when the rule itself
does, as it does for every index that is an integer or absent or not looked at. -/
theorem multiple_frequency_thins (l : LooseRule) (m : Nat) (hm : 1 ≤ m) (w : Window)
    (filter : Option Window)
    (firstWeekday : Weekday) :
    ((l.checked.period = .month → l.odd = none) →
    ∃ run, l.generate w filter firstWeekday = .ok run) ∧
      ∀ run, l.generate w filter firstWeekday = .ok run →
        ∃ part, (l.thinned m hm).generate w filter firstWeekday = .ok part ∧
          part.dates.Sublist run.dates ∧
          (l.checked.period = .day → filter = none → ∀ i, part.dates[i]? = run.dates[m * i]?) := by
  refine ⟨exists_generate, ?_⟩
  intro run hrun
  rcases generate_eq_ok_iff.1 hrun with ⟨hdays, rfl⟩
  have hthinned : (l.thinned m hm).generate w filter firstWeekday =
      .ok ((l.plain.thinned m hm).generate w filter firstWeekday) :=
    generate_eq_ok_iff.2 ⟨fun odd hlacks => hdays odd (lacksDay_of_thinned hlacks),
      by rw [plain_thinned]⟩
  refine ⟨_, hthinned, generate_thinned_sublist, ?_⟩
  intro hday hnone i
  subst hnone
  rw [← l.period_plain] at hday
  exact getElem?_generate_thinned hday i

/-- From 9999-12-13, a Monday, to the end of the calendar. -/
def lastThreeWeeks : Window := ⟨⟨3652040, by decide⟩, lastDays.last, by decide⟩

/-- The week from 9999-12-27 on stops the Fridays of every week as well as those of every other
week. Every third day and every sixth day both come to the end of their window. -/
theorem multiple_frequency_thins_at_calendar_end :
    1 ≤ 2 ∧
      (∃ run part, LooseRule.generate ⟨fridays, none⟩ lastThreeWeeks none .monday = .ok run ∧
        (LooseRule.thinned ⟨fridays, none⟩ 2 (Nat.le_succ 1)).generate lastThreeWeeks none .monday =
            .ok part ∧
          run.stop ≠ none ∧ part.stop ≠ none ∧ part.dates = [⟨3652044, by decide⟩] ∧
          part.dates.Sublist run.dates) ∧
      ∃ run part,
        LooseRule.generate ⟨everyDays 3 (by decide), none⟩ lastTenDays none .monday = .ok run ∧
          (LooseRule.thinned ⟨everyDays 3 (by decide), none⟩ 2 (Nat.le_succ 1)).generate
            lastTenDays none .monday = .ok part ∧
          part.dates = [⟨3652049, by decide⟩, ⟨3652055, by decide⟩] ∧
          ∀ i, part.dates[i]? = run.dates[2 * i]? := by
  rcases multiple_frequency_thins ⟨fridays, none⟩ 2 (Nat.le_succ 1) lastThreeWeeks none .monday
    with ⟨-, hweeks⟩
  rcases hweeks _ rfl with ⟨_, ⟨⟩, hsublist, -⟩
  rcases multiple_frequency_thins ⟨everyDays 3 (by decide), none⟩ 2 (Nat.le_succ 1) lastTenDays none
    .monday with ⟨-, hdays⟩
  rcases hdays _ rfl with ⟨_, ⟨⟩, -, hplaces⟩
  refine ⟨Nat.le_succ 1, ⟨_, _, rfl, rfl, ?_, ?_, ?_, hsublist⟩, _, _, rfl, rfl, ?_,
    hplaces rfl rfl⟩
  · decide +kernel
  · decide +kernel
  · decide +kernel
  · decide +kernel

end Schedule
end Cadence
