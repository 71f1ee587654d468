import Mathlib.Tactic.Ring
import Cadence.Proofs.Calendar.Month
import Cadence.Proofs.Schedule.Generate

/-!
# Monthly — the month loop visits every month of its stride whose cursor the window reaches

A monthly rule clamps two days to each month: that of the cursor, which is the day of the window's
first date, and that of the date it generates. The loop compares the cursor with the end of the
window, so the two can part only in the window's last month.

- `monthTurn_spec`: the three ways a turn can go; no turn fails to step
- `mem_visits_iff`, `pairwise_visits`, `visits_stop`: the cursors of a run
- `monthly_generation_exact`: the dates of a monthly rule
-/

namespace Cadence
namespace Schedule

open Calendar

variable {r : Rule} {w : Window} {filter : Option Window} {firstWeekday : Weekday}

/-! ## Turns -/

/-- The visit's cursor is the window's first date, moved on by the visit's offset. -/
def OnCourse (w : Window) (v : Visit) : Prop := w.first.step .month v.offset = .ok v.cursor

/-- All that a turn of the month loop can do. -/
inductive MonthTurn (r : Rule) (w : Window) (v : Visit) : Turn Visit → Prop
  /-- The cursor lies behind the window. -/
  | behind (past : w.last < v.cursor) : MonthTurn r w v ⟨[], .finished⟩
  /-- The next month lies behind the window. -/
  | final (reached : v.cursor ≤ w.last)
      (unreached : w.first.monthsUntil w.last < (v.offset + r.frequency : Nat)) :
      MonthTurn r w v ⟨[v.cursor], .finished⟩
  | onward (next : Date) (reached : v.cursor ≤ w.last)
      (course : OnCourse w ⟨v.offset + r.frequency, next⟩) :
      MonthTurn r w v ⟨[v.cursor], .next ⟨v.offset + r.frequency, next⟩⟩

theorem monthTurn_spec (r : Rule) (w : Window) (v : Visit) : MonthTurn r w v (monthTurn r w v) := by
  unfold monthTurn
  split
  · rename_i hreached
    split
    · rename_i hunreached
      exact .final hreached hunreached
    · rename_i hwithin
      -- The next month is not behind that of the window's last date, which is in the calendar.
      have hmonth : w.first.month.index + (v.offset + r.frequency) < monthCount := by
        have hlast := w.last.month.index_lt
        unfold Date.monthsUntil at hwithin
        omega
      rcases Date.exists_step_month hmonth with ⟨next, hnext⟩
      rw [moved_of_ok hnext]
      exact .onward next hreached hnext
  · rename_i hpast
    have hlt : ¬ v.cursor.serial ≤ w.last.serial := hpast
    exact .behind (Date.lt_iff.2 (by omega))

/-! ## Visits -/

/-- Months that are not behind the window's last month are no further away than it. -/
theorem not_le_last_of_offset {offset : Int} {c : Date} (hc : w.first.step .month offset = .ok c)
    (h : w.first.monthsUntil w.last < offset) : ¬ c ≤ w.last := by
  intro hle
  have hmonth := (Date.step_month_eq_ok_iff.1 hc).1
  have hlast := Date.month_le_of_le hle
  unfold Date.monthsUntil at h
  omega

theorem mem_monthRun_iff (v : Visit) (hv : OnCourse w v) (c : Date) :
    c ∈ ((monthLoop r w).run v).dates ↔
      c ≤ w.last ∧ ∃ k : Nat, w.first.step .month (v.offset + r.frequency * k : Nat) = .ok c := by
  -- On the turns of the run; that every visit is on course is carried along.
  induction v using (monthLoop r w).induction_of (monthTurn_spec r w) with
  | turn v _ hturn hspec ih =>
    cases hspec with
    | behind past =>
      rw [Loop.run_of_finished hturn]
      refine iff_of_false List.not_mem_nil ?_
      rintro ⟨hle, k, hk⟩
      have hlt := Date.lt_iff.1 past
      have hle' := Date.le_iff.1 hle
      -- Later strides lead to later dates, and the cursor is behind the window already.
      cases k with
      | zero =>
        have hsame : c = v.cursor := Except.ok.inj (hk.symm.trans hv)
        rw [hsame] at hle'
        omega
      | succ k =>
        have hpos := r.frequency_pos
        have hmul : 0 < r.frequency * (k + 1) := Nat.mul_pos hpos k.succ_pos
        have := Date.lt_iff.1 (Date.step_month_lt hv hk (by omega))
        omega
    | final reached unreached =>
      rw [Loop.run_of_finished hturn, List.mem_singleton]
      constructor
      · rintro rfl
        exact ⟨reached, 0, hv⟩
      · rintro ⟨hle, k, hk⟩
        cases k with
        | zero => exact Except.ok.inj (hk.symm.trans hv)
        | succ k =>
          refine absurd hle (not_le_last_of_offset hk ?_)
          have hmul : r.frequency * (k + 1) = r.frequency * k + r.frequency := by ring
          omega
    | onward next reached course =>
      rw [Loop.run_of_next hturn, Run.after, List.mem_append, List.mem_singleton,
        ih _ _ rfl course]
      have hstride (k : Nat) : v.offset + r.frequency + r.frequency * k =
          v.offset + r.frequency * (k + 1) := by ring
      constructor
      · rintro (rfl | ⟨hle, k, hk⟩)
        · exact ⟨reached, 0, hv⟩
        · exact ⟨hle, k + 1, by rw [← hstride]; exact hk⟩
      · rintro ⟨hle, k, hk⟩
        cases k with
        | zero => exact .inl (Except.ok.inj (hk.symm.trans hv))
        | succ k => exact .inr ⟨hle, k, by rw [hstride]; exact hk⟩

theorem pairwise_monthRun (v : Visit) (hv : OnCourse w v) :
    ((monthLoop r w).run v).dates.Pairwise (·.month.index < ·.month.index) := by
  induction v using (monthLoop r w).induction_of (monthTurn_spec r w) with
  | turn v _ hturn hspec ih =>
    cases hspec with
    | behind past =>
      rw [Loop.run_of_finished hturn]
      exact List.Pairwise.nil
    | final reached unreached =>
      rw [Loop.run_of_finished hturn]
      exact List.pairwise_singleton _ _
    | onward next reached course =>
      rw [Loop.run_of_next hturn, Run.after, List.pairwise_append]
      refine ⟨List.pairwise_singleton _ _, ih _ _ rfl course, ?_⟩
      intro c hc e he
      -- Every date after this turn is on a later stride, and so in a later month.
      rcases ((mem_monthRun_iff _ course e).1 he).2 with ⟨k, hk⟩
      have hcursor := (Date.step_month_eq_ok_iff.1 hv).1
      have hlater := (Date.step_month_eq_ok_iff.1 hk).1
      have hpos := r.frequency_pos
      rw [List.mem_singleton.1 hc]
      simp only at hlater
      omega

theorem monthRun_stop (v : Visit) : ((monthLoop r w).run v).stop = none := by
  induction v using (monthLoop r w).induction_of (monthTurn_spec r w) with
  | turn v _ hturn hspec ih =>
    cases hspec with
    | behind past => rw [Loop.run_of_finished hturn]
    | final reached unreached => rw [Loop.run_of_finished hturn]
    | onward next reached course =>
      rw [Loop.run_of_next hturn]
      exact ih _ _ rfl

theorem onCourse_first (w : Window) : OnCourse w ⟨0, w.first⟩ := w.first.step_month_zero

theorem mem_visits_iff {c : Date} :
    c ∈ (visits r w).dates ↔
      c ≤ w.last ∧ ∃ k : Nat, w.first.step .month (r.frequency * k : Nat) = .ok c := by
  have h := mem_monthRun_iff (r := r) _ (onCourse_first w) c
  simp only [Nat.zero_add] at h
  exact h

theorem pairwise_visits : (visits r w).dates.Pairwise (·.month.index < ·.month.index) :=
  pairwise_monthRun _ (onCourse_first w)

theorem visits_stop : (visits r w).stop = none := monthRun_stop _

/-! ## Monthly rules -/

/-- The day that a monthly rule generates in each month long enough for it. -/
def monthDay (r : Rule) (w : Window) : Nat := r.index.getD w.first.day

theorem monthDay_pos (r : Rule) (w : Window) : 1 ≤ monthDay r w := by
  unfold monthDay
  cases hindex : r.index with
  | none => exact w.first.day_pos
  | some i => exact (r.index_mem i hindex).1

/-- A date is generated when it stands in a month of the stride, on the rule's day, and the cursor
of that month is not behind the window. -/
theorem mem_monthly_iff {d : Date} :
    d ∈ (monthly r w).dates ↔
      (∃ m : Nat, r.frequency ∣ m ∧ w.first.monthsUntil d = m) ∧
        d.day = min (monthDay r w) d.month.length ∧ d.withDay w.first.day ≤ w.last := by
  have hmap : d ∈ (monthly r w).dates ↔ ∃ c ∈ (visits r w).dates, c.withDay (monthDay r w) = d :=
    List.mem_map
  rw [hmap]
  constructor
  · rintro ⟨c, hvisit, hday⟩
    rcases mem_visits_iff.1 hvisit with ⟨hle, k, hk⟩
    rcases (Date.withDay_eq_iff (monthDay_pos r w)).1 hday with ⟨hmonth, hd⟩
    rcases Date.step_month_eq_ok_iff.1 hk with ⟨hindex, hcursor⟩
    have hc : d.withDay w.first.day = c :=
      (Date.withDay_eq_iff w.first.day_pos).2 ⟨hmonth.symm, hcursor⟩
    refine ⟨⟨r.frequency * k, Nat.dvd_mul_right _ _, ?_⟩, hd, by rw [hc]; exact hle⟩
    unfold Date.monthsUntil
    rw [← hmonth]
    omega
  · rintro ⟨⟨m, ⟨k, rfl⟩, hmonths⟩, hd, hle⟩
    refine ⟨d.withDay w.first.day, mem_visits_iff.2 ⟨hle, k, ?_⟩, ?_⟩
    · refine Date.step_month_eq_ok_iff.2 ⟨?_, ?_⟩
      · unfold Date.monthsUntil at hmonths
        rw [Date.month_withDay]
        omega
      · rw [Date.month_withDay, Date.day_withDay d w.first.day_pos]
    · exact (Date.withDay_eq_iff (monthDay_pos r w)).2 ⟨Date.month_withDay _ _, hd⟩

theorem pairwise_monthly : (monthly r w).dates.Pairwise (· < ·) := by
  refine List.Pairwise.map _ ?_ pairwise_visits
  intro c e hlt
  refine Date.lt_of_month_lt ?_
  rw [Date.month_withDay, Date.month_withDay]
  exact hlt

/-- The dates that a monthly rule denotes: admitted dates in the months of its stride, on its day
or, where the month is too short, on the last. -/
structure IdealDate (r : Rule) (w : Window) (filter : Option Window) (d : Date) : Prop where
  admitted : Admitted w filter d
  month : ∃ m : Nat, r.frequency ∣ m ∧ w.first.monthsUntil d = m
  day : d.day = min (monthDay r w) d.month.length

/-- The window ends between the rule's day and the cursor's day of its last month. -/
def EndsEarly (r : Rule) (w : Window) : Prop :=
  min (monthDay r w) w.last.month.length ≤ w.last.day ∧
    w.last.day < min w.first.day w.last.month.length

/-- The cursor can only be behind the window in the window's last month. -/
theorem withDay_le_last_iff {d : Date} (h : IdealDate r w filter d) :
    d.withDay w.first.day ≤ w.last ↔ ¬ (d.month = w.last.month ∧ EndsEarly r w) := by
  have hle := h.admitted.1.2
  have hcursor := Date.day_withDay d w.first.day_pos
  by_cases hmonth : d.month = w.last.month
  · -- In the last month the days of date, cursor and window decide.
    have hday := (Date.le_iff_day_le hmonth).1 hle
    have hd := h.day
    rw [and_iff_right hmonth, Date.le_iff_day_le (by rw [Date.month_withDay, hmonth])]
    rw [hmonth] at hd hcursor
    unfold EndsEarly
    omega
  · -- In an earlier month the cursor is before the window's end, whatever its day.
    have hindex : d.month.index ≠ w.last.month.index := fun hi => hmonth (Date.month_ext hi)
    have hlt : (d.withDay w.first.day).month.index < w.last.month.index := by
      have := Date.month_le_of_le hle
      rw [Date.month_withDay]
      omega
    refine iff_of_true ?_ fun hends => hmonth hends.1
    exact Nat.le_of_lt (Date.lt_iff.1 (Date.lt_of_month_lt hlt))

theorem not_endsEarly (h : ∀ i ∈ r.index, w.first.day ≤ i) : ¬ EndsEarly r w := by
  have hday : w.first.day ≤ monthDay r w := by
    unfold monthDay
    cases hindex : r.index with
    | none => exact Nat.le_refl _
    | some i => exact h i hindex
  unfold EndsEarly
  omega

/-- A monthly rule generates its ideal dates. It leaves out the one in the window's last month
exactly when the window ends before the cursor's day there, which never happens unless the index is
before the first date's day. -/
theorem monthly_generation_exact (r : Rule) (hmonth : r.period = .month) (w : Window)
    (filter : Option Window) (firstWeekday : Weekday) :
    (r.generate w filter firstWeekday).dates.Pairwise (· < ·) ∧
      (∀ d, d ∈ (r.generate w filter firstWeekday).dates ↔
        IdealDate r w filter d ∧ ¬ (d.month = w.last.month ∧ EndsEarly r w)) ∧
      ((∀ i ∈ r.index, w.first.day ≤ i) →
        ∀ d, d ∈ (r.generate w filter firstWeekday).dates ↔ IdealDate r w filter d) := by
  have hcandidates : r.candidates w firstWeekday = monthly r w := by
    rw [Rule.candidates, hmonth]
  have hmem : ∀ d, d ∈ (r.generate w filter firstWeekday).dates ↔
      IdealDate r w filter d ∧ ¬ (d.month = w.last.month ∧ EndsEarly r w) := by
    intro d
    rw [mem_generate, hcandidates, mem_monthly_iff]
    constructor
    · rintro ⟨⟨hmonths, hday, hle⟩, hadmitted⟩
      have hideal : IdealDate r w filter d := ⟨hadmitted, hmonths, hday⟩
      exact ⟨hideal, (withDay_le_last_iff hideal).1 hle⟩
    · rintro ⟨hideal, hkept⟩
      exact ⟨⟨hideal.month, hideal.day, (withDay_le_last_iff hideal).2 hkept⟩, hideal.admitted⟩
  refine ⟨pairwise_generate (by rw [hcandidates]; exact pairwise_monthly), hmem, ?_⟩
  intro hindex d
  rw [hmem d]
  exact and_iff_left fun hends => not_endsEarly hindex hends.2

/-- The fifteenth of every month. -/
def fifteenths : Rule where
  frequency := 1
  period := .month
  index := some 15
  weekdays := none
  frequency_pos := by decide
  index_mem := by decide
  weekdays_ascending := by decide

/-- From 2024-01-31 to 2024-03-20. -/
def fromLateJanuary : Window := ⟨⟨738915, by decide⟩, ⟨738964, by decide⟩, by decide⟩

/-- The fifteenth of February is generated; that of March is ideal and left out. -/
theorem monthly_generation_exact_at_window_end :
    fifteenths.period = .month ∧
      (⟨738930, by decide⟩ : Date) ∈ (fifteenths.generate fromLateJanuary none .monday).dates ∧
      IdealDate fifteenths fromLateJanuary none ⟨738959, by decide⟩ ∧
      (⟨738959, by decide⟩ : Date) ∉ (fifteenths.generate fromLateJanuary none .monday).dates := by
  rcases monthly_generation_exact fifteenths rfl fromLateJanuary none .monday with ⟨-, hmem, -⟩
  have hmarch : IdealDate fifteenths fromLateJanuary none ⟨738959, by decide⟩ :=
    ⟨by decide, ⟨2, by decide, by decide⟩, by decide⟩
  refine ⟨rfl, (hmem _).2 ⟨⟨by decide, ⟨1, by decide, by decide⟩, by decide⟩, ?_⟩, hmarch, ?_⟩
  · rintro ⟨hlast, -⟩
    exact absurd hlast (by decide)
  · intro h
    exact ((hmem _).1 h).2 ⟨by decide, by unfold EndsEarly; decide⟩

end Schedule
end Cadence
