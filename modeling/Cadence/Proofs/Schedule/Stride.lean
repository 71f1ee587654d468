import Mathlib.Tactic.Ring
import Cadence.Proofs.Schedule.Ascending

/-!
# Stride — the dates of a rule, whatever its period

A rule counts days, weeks or months from a first date and takes every so many of them. What it finds
there is the day itself, the weekdays of the week, or one day of the month. Only a monthly rule
looks at the end of the window otherwise than for its dates: it leaves a month out when its cursor
there is behind the window.

- `Rule.place`, `Rule.stride`: what a rule counts, and in what steps
- `OnStride`: the dates that a rule has from a first date on
- `mem_candidates_iff`, `mem_generate_iff`: the dates of a generation
- `OnStride.iff_of_le`: a date of the rule can be the first one for all that are not before it
-/

namespace Cadence

open Calendar

/-! ## Places -/

/-- The number of the day, of the week or of the month that holds a date, whichever of them the rule
counts. A week has the number of its first day. -/
def Rule.place (r : Rule) (firstWeekday : Weekday) (d : Date) : Int :=
  match r.period with
  | .day => d.serial
  | .week => d.weekStart firstWeekday.position
  | .month => d.month.index

/-- How far two places of a rule are apart that follow each other. -/
def Rule.stride (r : Rule) : Nat :=
  match r.period with
  | .week => 7 * r.frequency
  | .day | .month => r.frequency

/-- What a rule demands of a date at one of its places. The weeks of the date and of the first date
have to lie in the calendar; without an index the day of the month is that of the first date. -/
def Rule.Fits (r : Rule) (firstWeekday : Weekday) (first d : Date) : Prop :=
  match r.period with
  | .day => True
  | .week =>
    d.weekday ∈ r.days ∧ WholeWeek (first.weekStart firstWeekday.position) ∧
      WholeWeek (d.weekStart firstWeekday.position)
  | .month => d.day = min (r.index.getD first.day) d.month.length

namespace Schedule

variable {r : Rule} {w : Window} {filter : Option Window} {firstWeekday : Weekday}
    {first d e : Date}

theorem stride_pos (r : Rule) : 0 < r.stride := by
  have hpos := r.frequency_pos
  unfold Rule.stride
  split
  · omega
  · exact hpos
  · exact hpos

theorem place_mono (h : d ≤ e) : r.place firstWeekday d ≤ r.place firstWeekday e := by
  unfold Rule.place
  split
  · exact Int.ofNat_le.2 (Date.le_iff.1 h)
  · exact Date.weekStart_mono _ h
  · exact Int.ofNat_le.2 (Date.month_le_of_le h)

/-! ## Dates on a stride -/

/-- The dates that a rule has from a first date on, before any window is looked at. -/
structure OnStride (r : Rule) (firstWeekday : Weekday) (first d : Date) : Prop where
  strides : ∃ k : Nat, r.place firstWeekday d = r.place firstWeekday first + r.stride * k
  fits : r.Fits firstWeekday first d

theorem onStride_iff_of_day (h : r.period = .day) :
    OnStride r firstWeekday first d ↔ ∃ k : Nat, d.serial = first.serial + r.frequency * k := by
  constructor
  · rintro ⟨⟨k, hk⟩, -⟩
    simp only [Rule.place, Rule.stride, h] at hk
    exact ⟨k, by exact_mod_cast hk⟩
  · rintro ⟨k, hk⟩
    refine ⟨⟨k, ?_⟩, by simp only [Rule.Fits, h]⟩
    simp only [Rule.place, Rule.stride, h]
    exact_mod_cast hk

theorem onStride_iff_of_week (h : r.period = .week) (hreached : d ≤ w.last) :
    OnStride r firstWeekday first d ↔ WeekDate r w firstWeekday first d := by
  have hle : d.weekStart firstWeekday.position ≤ w.last.serial := by
    have hbounds := (d.weekStart_bounds firstWeekday.position).1
    have hlast := Date.le_iff.1 hreached
    omega
  constructor
  · rintro ⟨⟨k, hk⟩, hfits⟩
    simp only [Rule.place, Rule.stride, Rule.Fits, h] at hk hfits
    exact ⟨hfits.1, hfits.2.1, hfits.2.2, hle, k, by exact_mod_cast hk⟩
  · rintro ⟨hday, hbegins, hwhole, -, k, hk⟩
    refine ⟨⟨k, ?_⟩, ?_⟩
    · simp only [Rule.place, Rule.stride, h]
      exact_mod_cast hk
    · simp only [Rule.Fits, h]
      exact ⟨hday, hbegins, hwhole⟩

theorem onStride_iff_of_month (h : r.period = .month) :
    OnStride r firstWeekday first d ↔
      (∃ m : Nat, r.frequency ∣ m ∧ first.monthsUntil d = m) ∧
        d.day = min (r.index.getD first.day) d.month.length := by
  constructor
  · rintro ⟨⟨k, hk⟩, hfits⟩
    simp only [Rule.place, Rule.stride, Rule.Fits, h] at hk hfits
    refine ⟨⟨r.frequency * k, Nat.dvd_mul_right _ _, ?_⟩, hfits⟩
    unfold Date.monthsUntil
    push_cast
    omega
  · rintro ⟨⟨m, ⟨k, rfl⟩, hk⟩, hday⟩
    refine ⟨⟨k, ?_⟩, by simp only [Rule.Fits, h]; exact hday⟩
    simp only [Rule.place, Rule.stride, h]
    unfold Date.monthsUntil at hk
    push_cast at hk
    omega

/-! ## Dates of a generation -/

/-- The cursor of a monthly rule has the day of the first date. In the month of a date it is not
behind the window. -/
def Reached (r : Rule) (w : Window) (d : Date) : Prop :=
  r.period = .month → d.withDay w.first.day ≤ w.last

theorem mem_candidates_iff (hle : d ≤ w.last) :
    d ∈ (r.candidates w firstWeekday).dates ↔
      OnStride r firstWeekday w.first d ∧ Reached r w d := by
  unfold Rule.candidates Reached
  cases hperiod : r.period with
  | day =>
    simp only [daily, mem_dayRun_iff, onStride_iff_of_day hperiod, hle, true_and, reduceCtorEq,
      false_implies, and_true]
  | week =>
    simp only [mem_weekly_iff, onStride_iff_of_week hperiod hle, reduceCtorEq, false_implies,
      and_true]
  | month =>
    simp only [mem_monthly_iff, onStride_iff_of_month hperiod, monthDay, true_implies, and_assoc]

/-- A generation has the admitted dates on the strides of the rule. -/
theorem mem_generate_iff :
    d ∈ (r.generate w filter firstWeekday).dates ↔
      Admitted w filter d ∧ OnStride r firstWeekday w.first d ∧ Reached r w d := by
  rw [mem_generate, and_comm]
  exact and_congr_right fun hadmitted => mem_candidates_iff hadmitted.1.2

/-- With an index that is not before the day of the cursor, the dates are not before the cursor, so
the window reaches the cursors of all its dates. -/
theorem reached_of_le_index (hindex : r.period = .month → ∀ i ∈ r.index, w.first.day ≤ i)
    (hd : OnStride r firstWeekday w.first d) (hle : d ≤ w.last) : Reached r w d := by
  intro hmonth
  have hday := ((onStride_iff_of_month hmonth).1 hd).2
  have hcursor : w.first.day ≤ r.index.getD w.first.day := by
    cases hi : r.index with
    | none => exact Nat.le_refl _
    | some i => exact hindex hmonth i hi
  have hwith : d.withDay w.first.day ≤ d := by
    rw [Date.le_iff_day_le (Date.month_withDay _ _), Date.day_withDay d w.first.day_pos]
    omega
  exact Nat.le_trans hwith hle

/-! ## Another first date -/

/-- Steps from a later place on are the later ones of the steps from an earlier place. -/
theorem exists_step_iff {a b c : Int} {n j : Nat} (hn : 0 < n) (hb : b = a + n * j) (hle : b ≤ c) :
    (∃ k : Nat, c = b + n * k) ↔ ∃ k : Nat, c = a + n * k := by
  constructor
  · rintro ⟨k, hk⟩
    refine ⟨j + k, ?_⟩
    rw [hk, hb]
    push_cast
    ring
  · rintro ⟨k, hk⟩
    have hjk : j ≤ k := by
      apply Nat.le_of_not_lt
      intro hlt
      have hmul : (n : Int) * k < n * j := by exact_mod_cast Nat.mul_lt_mul_of_pos_left hlt hn
      omega
    rcases Nat.exists_eq_add_of_le hjk with ⟨i, rfl⟩
    refine ⟨i, ?_⟩
    rw [hk, hb]
    push_cast
    ring

/-- A date of the rule makes the same demands as the first date. A monthly rule without an index has
to keep the day of the month. -/
theorem fits_iff (hd : r.Fits firstWeekday first d)
    (hday : r.period = .month → r.index = none → d.day = first.day) :
    r.Fits firstWeekday d e ↔ r.Fits firstWeekday first e := by
  unfold Rule.Fits at hd ⊢
  cases hperiod : r.period with
  | day => exact Iff.rfl
  | week =>
    simp only [hperiod] at hd ⊢
    rw [and_iff_right hd.2.1, and_iff_right hd.2.2]
  | month =>
    simp only
    cases hindex : r.index with
    | none => rw [Option.getD_none, Option.getD_none, hday hperiod hindex]
    | some i => exact Iff.rfl

/-- A date of the rule can be the first one for all that are not before it. -/
theorem OnStride.iff_of_le (hd : OnStride r firstWeekday first d)
    (hday : r.period = .month → r.index = none → d.day = first.day) (hle : d ≤ e) :
    OnStride r firstWeekday d e ↔ OnStride r firstWeekday first e := by
  rcases hd.strides with ⟨j, hj⟩
  have hstrides := exists_step_iff (stride_pos r) hj (place_mono hle)
  constructor
  · rintro ⟨hplace, hfits⟩
    exact ⟨hstrides.1 hplace, (fits_iff hd.fits hday).1 hfits⟩
  · rintro ⟨hplace, hfits⟩
    exact ⟨hstrides.2 hplace, (fits_iff hd.fits hday).2 hfits⟩

end Schedule
end Cadence
