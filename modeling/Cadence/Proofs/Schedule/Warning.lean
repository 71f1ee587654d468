import Cadence.Proofs.Schedule.Daily
import Cadence.Proofs.Schedule.Monthly
import Cadence.Proofs.Schedule.Weekly
import Cadence.Service.Answer

/-!
# Warning — when a generation stops early, and what it reports

Only a weekly rule with weekdays can stop early, and it does so at the first week of its stride that
begins inside the window and leaves the calendar. The report names the date of that week, or the
step to it when there is no such date.

- `logs_of_stop`, `stop_of_logs`: the log of a run, by its reason to stop
- `candidates_stop_eq_none`: the rules that never stop early
- `WeekStop.eq_of_first`: the first lost week decides the reason
- `generation_warning_exact`: the log of a generation
-/

namespace Cadence
namespace Schedule

open Calendar Service

variable {r : Rule} {w : Window} {filter : Option Window} {firstWeekday : Weekday}

/-! ## Logs -/

/-- The warning of a weekly generation that stopped early after so many dates. -/
def weekWarning (count : Nat) (reason : String) : Log.Entry :=
  ⟨Log.warning,
    "Stopped generating week recurrence after " ++ toString count ++ " dates: " ++ reason⟩

theorem logs_of_stop {run : Run} (h : run.stop = none) : runLogs r run = [] := by
  rw [runLogs, Run.warning?, h]
  rfl

theorem stop_of_logs {run : Run} (h : runLogs r run = []) : run.stop = none := by
  unfold runLogs Run.warning? at h
  cases hstop : run.stop with
  | none => rfl
  | some stop => simp [hstop] at h

theorem message_noStep_week (origin : Date) (count : Nat) :
    (Stop.noStep origin count .week).message =
      "cannot step " ++ origin.iso ++ " by " ++ toString count ++ " week(s)" := by
  have hunit : " week(s)" = " " ++ "week" ++ "(s)" := by decide
  calc (Stop.noStep origin count .week).message
      = "cannot step " ++ origin.iso ++ " by " ++ toString count ++ " " ++ "week" ++ "(s)" := rfl
    _ = "cannot step " ++ origin.iso ++ " by " ++ toString count ++ " week(s)" := by
      rw [hunit, ← String.append_assoc, ← String.append_assoc]

theorem logs_of_weekStop {run : Run} {stop : Stop} (hweek : r.period = .week)
    (h : run.stop = some stop) :
    runLogs r run = [weekWarning run.dates.length stop.message] := by
  rw [runLogs, Run.warning?, h, hweek]
  rfl

/-! ## Rules that never stop early -/

theorem candidates_stop_eq_none (h : r.period = .week → r.days = []) :
    (r.candidates w firstWeekday).stop = none := by
  unfold Rule.candidates
  cases hperiod : r.period with
  | day => exact dayRun_stop _
  | week =>
    have hnone : weekly r w firstWeekday = .empty := by
      rw [weekly, h hperiod]
      rfl
    simp only [hnone]
    rfl
  | month => exact visits_stop

/-! ## The first lost week -/

/-- A run from the window's first date stops early as its first lost week demands. -/
theorem candidates_weekStop (hweek : r.period = .week) (hdays : r.days ≠ []) :
    WeekStop r w firstWeekday w.first (r.candidates w firstWeekday).stop := by
  have hreached : w.first.weekStart firstWeekday.position ≤ w.last.serial := by
    have hbounds := (w.first.weekStart_bounds firstWeekday.position).1
    have hle := Date.le_iff.1 w.first_le_last
    omega
  have hspec := weekRun_stop_spec (r := r) w.first hreached
  have hempty : ¬ r.days.isEmpty = true := fun he => hdays (List.isEmpty_iff.1 he)
  rw [Rule.candidates, hweek]
  simp only [weekly, if_neg hempty]
  exact hspec

theorem WeekStop.kept {cursor : Date} (h : WeekStop r w firstWeekday cursor none) :
    ∀ k, ¬ LostWeek r w firstWeekday cursor k := by
  cases h with
  | complete kept => exact kept

theorem WeekStop.eq_none {cursor : Date} {stop : Option Stop}
    (h : WeekStop r w firstWeekday cursor stop)
    (kept : ∀ k, ¬ LostWeek r w firstWeekday cursor k) : stop = none := by
  cases h with
  | complete _ => rfl
  | noWeek k _ lost _ _ => exact absurd lost (kept k)
  | noStep k _ lost _ _ _ => exact absurd lost (kept (k + 1))

/-- The first lost week decides the reason: its own date, if there is one, or the last date before
it. -/
theorem WeekStop.eq_of_first {cursor : Date} {stop : Option Stop} {k : Nat}
    (h : WeekStop r w firstWeekday cursor stop) (lost : LostWeek r w firstWeekday cursor k)
    (kept : ∀ j < k, ¬ LostWeek r w firstWeekday cursor j) :
    (∀ c : Date, c.serial = cursor.serial + 7 * r.frequency * k → stop = some (.noWeek c)) ∧
      (dayCount ≤ cursor.serial + 7 * r.frequency * k →
        ∃ p : Date, 1 ≤ k ∧ p.serial = cursor.serial + 7 * r.frequency * (k - 1) ∧
          stop = some (.noStep p r.frequency .week)) := by
  have hfirst {n : Nat} (lostN : LostWeek r w firstWeekday cursor n)
      (keptN : ∀ j < n, ¬ LostWeek r w firstWeekday cursor j) : n = k :=
    Nat.le_antisymm (Nat.le_of_not_lt fun hlt => keptN k hlt lost)
      (Nat.le_of_not_lt fun hlt => kept n hlt lostN)
  cases h with
  | complete keptAll => exact absurd lost (keptAll k)
  | noWeek n around lostN keptN there =>
    -- The date exists, so the second half has nothing to say.
    rw [hfirst lostN keptN] at there
    refine ⟨?_, ?_⟩
    · intro c hc
      rw [Date.ext_serial (hc.trans there.symm)]
    · intro hended
      have := around.serial_lt
      omega
  | noStep n origin lostN keptN there ended =>
    -- The step failed for want of a date, so the first half has nothing to say.
    have hn : n + 1 = k := hfirst lostN keptN
    subst hn
    refine ⟨?_, ?_⟩
    · intro c hc
      have := c.serial_lt
      omega
    · intro _
      exact ⟨origin, Nat.succ_pos n, there, rfl⟩

/-! ## Generations -/

/-- Every generation returns. It warns exactly when a weekly rule with weekdays loses a week, once,
with the number of returned dates and the reason that the first lost week gives. -/
theorem generation_warning_exact (r : Rule) (w : Window) (filter : Option Window)
    (firstWeekday : Weekday) :
    ∃ run, LooseRule.generate ⟨r, none⟩ w filter firstWeekday = .ok run ∧
      ((r.period = .week → r.days = []) → runLogs r run = []) ∧
      (r.period = .week → r.days ≠ [] →
        ((∀ k, ¬ LostWeek r w firstWeekday w.first k) → runLogs r run = []) ∧
        ((∃ k, LostWeek r w firstWeekday w.first k) →
          ∃ k, LostWeek r w firstWeekday w.first k ∧
            (∀ j < k, ¬ LostWeek r w firstWeekday w.first j) ∧
            (∀ c : Date, c.serial = w.first.serial + 7 * r.frequency * k →
              runLogs r run =
                [weekWarning run.dates.length ("no calendar week around " ++ c.iso)]) ∧
            (dayCount ≤ w.first.serial + 7 * r.frequency * k →
              ∃ p : Date, 1 ≤ k ∧ p.serial = w.first.serial + 7 * r.frequency * (k - 1) ∧
                runLogs r run =
                  [weekWarning run.dates.length
                    ("cannot step " ++ p.iso ++ " by " ++ toString r.frequency ++
                      " week(s)")]))) := by
  refine ⟨r.generate w filter firstWeekday, rfl, ?_, ?_⟩
  · intro hnone
    exact logs_of_stop (candidates_stop_eq_none hnone)
  · intro hweek hdays
    have hstop : WeekStop r w firstWeekday w.first (r.generate w filter firstWeekday).stop :=
      candidates_weekStop hweek hdays
    refine ⟨?_, ?_⟩
    · intro hkept
      exact logs_of_stop (hstop.eq_none hkept)
    · intro hexists
      -- The least lost week is the one where the loop stops.
      have hlost := Nat.find_spec hexists
      have hkept : ∀ j < Nat.find hexists, ¬ LostWeek r w firstWeekday w.first j :=
        fun j hj => Nat.find_min hexists hj
      rcases hstop.eq_of_first hlost hkept with ⟨hdate, hnodate⟩
      refine ⟨Nat.find hexists, hlost, hkept, ?_, ?_⟩
      · intro c hc
        exact logs_of_weekStop hweek (hdate c hc)
      · intro hended
        rcases hnodate hended with ⟨p, hk, hp, hreason⟩
        refine ⟨p, hk, hp, ?_⟩
        rw [logs_of_weekStop hweek hreason, message_noStep_week]

/-- The week from 9999-12-27 on begins inside the window and does not fit, and there is such a date.
-/
theorem generation_warning_exact_at_calendar_end :
    ∃ run, LooseRule.generate ⟨fridays, none⟩ lastDays none .monday = .ok run ∧
      runLogs fridays run =
        [weekWarning run.dates.length "no calendar week around 9999-12-27"] := by
  rcases generation_warning_exact fridays lastDays none .monday with ⟨run, hrun, -, hweek⟩
  have hlost : LostWeek fridays lastDays .monday lastDays.first 1 := by decide
  rcases (hweek rfl (by decide)).2 ⟨1, hlost⟩ with ⟨k, hk, hkept, hdate, -⟩
  have hfirst : k = 1 := by
    rcases Nat.lt_trichotomy k 1 with hlt | heq | hgt
    · -- The first week of the window is whole.
      rw [Nat.lt_one_iff.1 hlt] at hk
      exact absurd hk (by decide)
    · exact heq
    · exact absurd hlost (hkept 1 hgt)
  subst hfirst
  have hiso : "no calendar week around " ++ (⟨3652054, by decide⟩ : Date).iso =
      "no calendar week around 9999-12-27" := by
    decide +kernel
  refine ⟨run, hrun, ?_⟩
  rw [← hiso]
  exact hdate _ rfl

end Schedule
end Cadence
