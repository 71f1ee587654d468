import Mathlib.Tactic.Ring
import Cadence.Proofs.Schedule.Generate

/-!
# Daily — the day loop finds every date of its stride and never runs out of calendar

The loop steps only while the window reaches the next date. That date is in the calendar because the
window is, so a step succeeds whatever the frequency.

- `dayTurn_spec`: the three ways a turn can go
- `dayRun_stop`: no run stops early
- `getElem?_dayRun_iff`: which date stands at which place of a run
- `mem_dayRun_iff`, `pairwise_dayRun`: the dates of a run from any cursor
- `daily_generation_exact`: the dates of a daily rule
-/

namespace Cadence
namespace Schedule

open Calendar

variable {r : Rule} {w : Window} {filter : Option Window} {firstWeekday : Weekday}

/-- All that a turn of the day loop can do. -/
inductive DayTurn (r : Rule) (w : Window) (cursor : Date) : Turn Date → Prop
  /-- The cursor lies behind the window. -/
  | behind (past : w.last < cursor) : DayTurn r w cursor ⟨[], .finished⟩
  /-- The next date lies behind the window. -/
  | final (reached : cursor ≤ w.last) (unreached : w.last.serial < cursor.serial + r.frequency) :
      DayTurn r w cursor ⟨[cursor], .finished⟩
  | onward (next : Date) (reached : cursor ≤ w.last) (within : next ≤ w.last)
      (later : next.serial = cursor.serial + r.frequency) :
      DayTurn r w cursor ⟨[cursor], .next next⟩

theorem dayTurn_spec (r : Rule) (w : Window) (cursor : Date) :
    DayTurn r w cursor (dayTurn r w cursor) := by
  unfold dayTurn
  split
  · rename_i hreached
    split
    · exact .final hreached (by omega)
    · -- The next date is not behind the window's last date, which is in the calendar.
      have hnext : cursor.serial + r.frequency < dayCount := by
        have hlast := w.last.serial_lt
        omega
      rw [moved_day hnext]
      exact .onward _ hreached (Date.le_iff.2 (by simp only; omega)) rfl
  · rename_i hpast
    have hlt : ¬ cursor.serial ≤ w.last.serial := hpast
    exact .behind (Date.lt_iff.2 (by omega))

theorem dayRun_stop (cursor : Date) : ((dayLoop r w).run cursor).stop = none := by
  -- No case of a turn stops early, so the reason comes from the next cursor.
  induction cursor using (dayLoop r w).induction_of (dayTurn_spec r w) with
  | turn cursor _ hturn hspec ih =>
    cases hspec with
    | behind past => rw [Loop.run_of_finished hturn]
    | final reached unreached => rw [Loop.run_of_finished hturn]
    | onward next reached within later =>
      rw [Loop.run_of_next hturn]
      exact ih _ _ rfl

/-! ## Dates -/

theorem getElem?_cons_zero_iff {cursor d : Date} (reached : cursor ≤ w.last) (later : List Date) :
    (cursor :: later)[0]? = some d ↔ d ≤ w.last ∧ d.serial = cursor.serial + r.frequency * 0 := by
  simp only [List.getElem?_cons_zero, Option.some.injEq, Nat.mul_zero, Nat.add_zero]
  constructor
  · rintro rfl
    exact ⟨reached, rfl⟩
  · intro h
    exact (Date.ext_serial h.2).symm

/-- The dates of a run are at their places: the one at place `i` lies `i` strides after the cursor.
-/
theorem getElem?_dayRun_iff (cursor d : Date) (i : Nat) :
    ((dayLoop r w).run cursor).dates[i]? = some d ↔
      d ≤ w.last ∧ d.serial = cursor.serial + r.frequency * i := by
  -- On the turns of the run: its first date is the cursor, the others are those from the next
  -- cursor.
  induction cursor using (dayLoop r w).induction_of (dayTurn_spec r w) generalizing i with
  | turn cursor _ hturn hspec ih =>
    cases hspec with
    | behind past =>
      rw [Loop.run_of_finished hturn]
      refine iff_of_false (by simp) ?_
      rintro ⟨hle, hserial⟩
      have hlt := Date.lt_iff.1 past
      have hle' := Date.le_iff.1 hle
      omega
    | final reached unreached =>
      rw [Loop.run_of_finished hturn]
      cases i with
      | zero => exact getElem?_cons_zero_iff reached _
      | succ i =>
        refine iff_of_false (by simp) ?_
        rintro ⟨hle, hserial⟩
        -- Whatever lies behind the next date lies behind the window.
        have hmul : r.frequency * (i + 1) = r.frequency * i + r.frequency := by ring
        have hle' := Date.le_iff.1 hle
        omega
    | onward next reached within later =>
      rw [Loop.run_of_next hturn, Run.after, List.singleton_append]
      cases i with
      | zero => exact getElem?_cons_zero_iff reached _
      | succ i =>
        have hstride : next.serial + r.frequency * i = cursor.serial + r.frequency * (i + 1) := by
          rw [later]
          ring
        rw [List.getElem?_cons_succ, ih _ _ rfl, hstride]

theorem mem_dayRun_iff (cursor d : Date) :
    d ∈ ((dayLoop r w).run cursor).dates ↔
      d ≤ w.last ∧ ∃ k : Nat, d.serial = cursor.serial + r.frequency * k := by
  simp only [List.mem_iff_getElem?, getElem?_dayRun_iff, exists_and_left]

theorem pairwise_dayRun (cursor : Date) :
    ((dayLoop r w).run cursor).dates.Pairwise (· < ·) := by
  rw [List.pairwise_iff_getElem]
  intro i j hi hj hij
  have hdi := ((getElem?_dayRun_iff cursor _ i).1 (List.getElem?_eq_getElem hi)).2
  have hdj := ((getElem?_dayRun_iff cursor _ j).1 (List.getElem?_eq_getElem hj)).2
  have hmul := Nat.mul_lt_mul_of_pos_left hij r.frequency_pos
  exact Date.lt_iff.2 (by omega)

/-! ## Daily rules -/

theorem candidates_of_day (hday : r.period = .day) : r.candidates w firstWeekday = daily r w := by
  rw [Rule.candidates, hday]

theorem mem_generate_iff_of_day (hday : r.period = .day) {d : Date} :
    d ∈ (r.generate w filter firstWeekday).dates ↔
      Admitted w filter d ∧ ∃ k : Nat, d.serial = w.first.serial + r.frequency * k := by
  rw [mem_generate, candidates_of_day hday, daily, mem_dayRun_iff, and_comm]
  -- What is admitted is not behind the window, so the run reaches it.
  exact and_congr_right fun hadmitted => and_iff_right hadmitted.1.2

/-- A run has no date outside the window, so without a filter nothing is left out. -/
theorem generate_dates_of_day (hday : r.period = .day) :
    (r.generate w none firstWeekday).dates = (daily r w).dates := by
  unfold Rule.generate
  rw [candidates_of_day hday]
  refine List.filter_eq_self.2 ?_
  intro d hd
  rcases (mem_dayRun_iff w.first d).1 hd with ⟨hlast, k, hk⟩
  have hfirst : w.first ≤ d := Date.le_iff.2 (by omega)
  exact admitted_iff.2 ⟨⟨hfirst, hlast⟩, nofun⟩

theorem getElem?_generate_of_day (hday : r.period = .day) (i : Nat) (d : Date) :
    (r.generate w none firstWeekday).dates[i]? = some d ↔
      d ≤ w.last ∧ d.serial = w.first.serial + r.frequency * i := by
  rw [generate_dates_of_day hday]
  exact getElem?_dayRun_iff w.first d i

/-- A daily rule generates exactly the dates that lie a multiple of the frequency after the window's
first date, up to its last date and in the filter, in strict order. The calendar never cuts a
generation short, however large the frequency is. -/
theorem daily_generation_exact (l : LooseRule) (hday : l.checked.period = .day) (w : Window)
    (filter : Option Window) (firstWeekday : Weekday) :
    ∃ run, l.generate w filter firstWeekday = .ok run ∧ run.stop = none ∧
      run.dates.Pairwise (· < ·) ∧
      ∀ d, d ∈ run.dates ↔
        (∃ k : Nat, d.serial = w.first.serial + l.checked.frequency * k) ∧ d ≤ w.last ∧
          ∀ f ∈ filter, f.first ≤ d ∧ d ≤ f.last := by
  refine ⟨l.checked.generate w filter firstWeekday, generate_of_ne_month (by simp [hday]),
    ?_, ?_, ?_⟩
  · show (l.checked.candidates w firstWeekday).stop = none
    rw [candidates_of_day hday]
    exact dayRun_stop w.first
  · refine pairwise_generate ?_
    rw [candidates_of_day hday]
    exact pairwise_dayRun w.first
  · intro d
    rw [mem_generate_iff_of_day hday]
    constructor
    · rintro ⟨⟨⟨-, hlast⟩, hfilter⟩, hstride⟩
      exact ⟨hstride, hlast, hfilter⟩
    · rintro ⟨⟨k, hk⟩, hlast, hfilter⟩
      exact ⟨⟨⟨Date.le_iff.2 (by omega), hlast⟩, hfilter⟩, k, hk⟩

/-- Every so many days. The index and the weekday are not looked at. -/
def everyDays (n : Nat) (h : 1 ≤ n) : Rule where
  frequency := n
  period := .day
  index := some 30
  weekdays := some [.wednesday]
  frequency_pos := h
  index_mem := by
    rintro _ ⟨⟩
    decide
  weekdays_ascending := by
    rintro _ ⟨⟩
    decide

/-- From 9999-12-22 to the last date of the calendar. -/
def lastTenDays : Window := ⟨⟨3652049, by decide⟩, ⟨dayCount - 1, by decide⟩, by decide⟩

/-- Every third day reaches the last date of the calendar. Four billion days are longer than any
step may be, and leave the first date alone. -/
theorem daily_generation_exact_at_calendar_end :
    ∃ thirds alone,
      LooseRule.generate ⟨everyDays 3 (by decide), none⟩ lastTenDays none .monday = .ok thirds ∧
        thirds.stop = none ∧ lastTenDays.last ∈ thirds.dates ∧
        LooseRule.generate ⟨everyDays 4000000000 (by decide), none⟩ lastTenDays none .monday =
          .ok alone ∧
        alone.stop = none ∧ ∀ d, d ∈ alone.dates ↔ d = lastTenDays.first := by
  rcases daily_generation_exact ⟨everyDays 3 (by decide), none⟩ rfl lastTenDays none .monday with
    ⟨thirds, hthirds, hcomplete, -, hmem⟩
  rcases daily_generation_exact ⟨everyDays 4000000000 (by decide), none⟩ rfl lastTenDays none
    .monday with ⟨alone, halone, hcomplete', -, hmem'⟩
  refine ⟨thirds, alone, hthirds, hcomplete, (hmem _).2 ⟨⟨3, rfl⟩, Nat.le_refl _, nofun⟩, halone,
    hcomplete', ?_⟩
  intro d
  rw [hmem']
  constructor
  · rintro ⟨⟨k, hk⟩, -, -⟩
    have hlt : d.serial < 3652059 := d.serial_lt
    have hfrequency : (everyDays 4000000000 (by decide)).frequency = 4000000000 := rfl
    rw [hfrequency] at hk
    exact Date.ext_serial (by omega)
  · rintro rfl
    exact ⟨⟨0, rfl⟩, by decide, nofun⟩

end Schedule
end Cadence
