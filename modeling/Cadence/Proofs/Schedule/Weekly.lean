import Mathlib.Tactic.Positivity
import Mathlib.Tactic.Ring
import Cadence.Proofs.Calendar.Partition
import Cadence.Proofs.Calendar.Scan
import Cadence.Proofs.Schedule.Generate

/-!
# Weekly — the week loop visits every week of its stride and no other

The cursor keeps the weekday of the window's first date, while the loop looks at the start of the
cursor's week. A turn finds that week by its steps (`Moment.weekWindow_eq_ok_iff`) and scans it day
by day (`scanned_eq`). `WeekTurn` says once what a turn can do; the facts of a run follow by
induction on the rank of the cursor.

- `weekTurn_spec`: the five ways a turn can go
- `mem_weekRun_iff`, `pairwise_weekRun`: the dates of a run from any cursor
- `weekRun_stop_spec`: whether and why a run stops early
- `weekly_generation_exact`: the dates of a weekly rule
-/

namespace Cadence
namespace Schedule

open Calendar

variable {r : Rule} {w : Window} {firstWeekday : Weekday}

/-! ## Turns -/

/-- A turn at `cursor` has found the dates of that week, in ascending order. -/
structure FindsWeek (r : Rule) (firstWeekday : Weekday) (cursor : Date) (found : List Date) :
    Prop where
  whole : WholeWeek (cursor.weekStart firstWeekday.position)
  ascending : found.Pairwise (· < ·)
  mem_iff : ∀ d, d ∈ found ↔ d.weekday ∈ r.days ∧
    d.weekStart firstWeekday.position = cursor.weekStart firstWeekday.position

/-- All that a turn of the week loop can do. -/
inductive WeekTurn (r : Rule) (w : Window) (firstWeekday : Weekday) (cursor : Date) :
    Turn Date → Prop
  /-- The week around the cursor leaves the calendar. -/
  | lost (broken : ¬ WholeWeek (cursor.weekStart firstWeekday.position)) :
      WeekTurn r w firstWeekday cursor ⟨[], .stopped (.noWeek cursor)⟩
  /-- The week begins behind the window. -/
  | behind (past : (w.last.serial : Int) < cursor.weekStart firstWeekday.position) :
      WeekTurn r w firstWeekday cursor ⟨[], .finished⟩
  /-- The next week would begin behind the window. -/
  | final (found : List Date) (finds : FindsWeek r firstWeekday cursor found)
      (reached : cursor.weekStart firstWeekday.position ≤ w.last.serial)
      (unreached : (w.last.serial : Int) <
        cursor.weekStart firstWeekday.position + 7 * r.frequency) :
      WeekTurn r w firstWeekday cursor ⟨found, .finished⟩
  /-- The window reaches a next week, but the calendar has no date to step to. -/
  | stuck (found : List Date) (finds : FindsWeek r firstWeekday cursor found)
      (reached : cursor.weekStart firstWeekday.position + 7 * r.frequency ≤ w.last.serial)
      (ended : dayCount ≤ cursor.serial + 7 * r.frequency) :
      WeekTurn r w firstWeekday cursor ⟨found, .stopped (.noStep cursor r.frequency .week)⟩
  | onward (found : List Date) (next : Date) (finds : FindsWeek r firstWeekday cursor found)
      (reached : cursor.weekStart firstWeekday.position + 7 * r.frequency ≤ w.last.serial)
      (later : (next.serial : Int) = cursor.serial + 7 * r.frequency) :
      WeekTurn r w firstWeekday cursor ⟨found, .next next⟩

theorem findsWeek_scanned {cursor : Date} {week : Window}
    (h : cursor.week? firstWeekday.position = some week) :
    FindsWeek r firstWeekday cursor (week.scanned (r.positions.map Int.ofNat)) where
  whole := by
    by_contra hbroken
    rw [Date.week?_eq_none_iff.2 hbroken] at h
    cases h
  ascending := by
    rw [scanned_eq]
    exact week.pairwise_onWeekdays _
  mem_iff d := by
    rw [scanned_eq, Rule.positions, Window.mem_onWeekdays, Date.mem_week_iff h]
    exact and_comm

theorem weekTurn_spec (r : Rule) (w : Window) (firstWeekday : Weekday) (cursor : Date) :
    WeekTurn r w firstWeekday cursor (weekTurn r w firstWeekday cursor) := by
  unfold weekTurn
  split
  · rename_i why hfails
    exact .lost (Date.week?_eq_none_iff.1 (Moment.weekWindow_eq_error_iff.1 hfails).2)
  · rename_i week hfound
    have hweek : cursor.week? firstWeekday.position = some week :=
      Moment.weekWindow_eq_ok_iff.1 hfound
    have finds : FindsWeek r firstWeekday cursor _ := findsWeek_scanned hweek
    rcases Date.serial_of_week? hweek with ⟨hfirst, -⟩
    split
    · rename_i hreached
      have hle := Date.le_iff.1 hreached
      split
      · exact .final _ finds (by omega) (by omega)
      · -- The window reaches the next week, so only the calendar can be in the way.
        by_cases hnext : cursor.serial + 7 * r.frequency < dayCount
        · rw [moved_week hnext]
          exact .onward _ _ finds (by omega) (by simp)
        · rw [moved_week_of_le (by omega)]
          exact .stuck _ finds (by omega) (by omega)
    · rename_i hpast
      have hlt : ¬ week.first.serial ≤ w.last.serial := hpast
      exact .behind (by omega)

/-! ## Dates of a run -/

/-- A date on one of the rule's weekdays, in a week that strides from the cursor's week lead to. -/
structure WeekDate (r : Rule) (w : Window) (firstWeekday : Weekday) (cursor d : Date) : Prop where
  weekday : d.weekday ∈ r.days
  begins : WholeWeek (cursor.weekStart firstWeekday.position)
  whole : WholeWeek (d.weekStart firstWeekday.position)
  reached : d.weekStart firstWeekday.position ≤ w.last.serial
  strides : ∃ k : Nat, d.weekStart firstWeekday.position =
    cursor.weekStart firstWeekday.position + 7 * r.frequency * k

/-- Where no later week counts, the cursor's own week is all there is. -/
theorem weekDate_iff_of_final {cursor d : Date} {found : List Date}
    (finds : FindsWeek r firstWeekday cursor found)
    (reached : cursor.weekStart firstWeekday.position ≤ w.last.serial)
    (last : ∀ n : Int, cursor.weekStart firstWeekday.position + 7 * r.frequency ≤ n →
      WholeWeek n → ¬ n ≤ w.last.serial) :
    d ∈ found ↔ WeekDate r w firstWeekday cursor d := by
  rw [finds.mem_iff]
  constructor
  · rintro ⟨hday, hstart⟩
    exact ⟨hday, finds.whole, by rw [hstart]; exact finds.whole, by omega, 0, by simp [hstart]⟩
  · rintro ⟨hday, -, hwhole, hreached, k, hk⟩
    refine ⟨hday, ?_⟩
    -- A later stride leads to a week that does not count.
    cases k with
    | zero => simpa using hk
    | succ k =>
      have hpos : (0 : Int) ≤ 7 * r.frequency * k := by positivity
      have hsucc : (7 * r.frequency * (k + 1 : Nat) : Int) =
          7 * r.frequency * k + 7 * r.frequency := by
        push_cast
        ring
      exact absurd hreached (last _ (by omega) hwhole)

/-- The dates from a cursor are those of its week and those from the next cursor. -/
theorem weekDate_iff_of_next {cursor next d : Date} {found : List Date}
    (finds : FindsWeek r firstWeekday cursor found)
    (reached : cursor.weekStart firstWeekday.position + 7 * r.frequency ≤ w.last.serial)
    (later : (next.serial : Int) = cursor.serial + 7 * r.frequency) :
    d ∈ found ∨ WeekDate r w firstWeekday next d ↔ WeekDate r w firstWeekday cursor d := by
  have hstart := Date.weekStart_add_weeks firstWeekday.position later
  have hcursor := finds.whole
  rw [finds.mem_iff]
  constructor
  · rintro (⟨hday, hsame⟩ | ⟨hday, -, hwhole, hreached, k, hk⟩)
    · exact ⟨hday, hcursor, by rw [hsame]; exact hcursor, by omega, 0, by simp [hsame]⟩
    · refine ⟨hday, hcursor, hwhole, hreached, k + 1, ?_⟩
      rw [hk, hstart]
      push_cast
      ring
  · rintro ⟨hday, -, hwhole, hreached, k, hk⟩
    cases k with
    | zero => exact .inl ⟨hday, by simpa using hk⟩
    | succ k =>
      have hpos : (0 : Int) ≤ 7 * r.frequency * k := by positivity
      have hstrides : d.weekStart firstWeekday.position =
          next.weekStart firstWeekday.position + 7 * r.frequency * k := by
        rw [hk, hstart]
        push_cast
        ring
      -- The next week lies between two weeks of the calendar.
      have hnext : WholeWeek (next.weekStart firstWeekday.position) := by
        unfold WholeWeek at hcursor hwhole ⊢
        omega
      exact .inr ⟨hday, hnext, hwhole, hreached, k, hstrides⟩

theorem mem_weekRun_iff (cursor d : Date) :
    d ∈ ((weekLoop r w firstWeekday).run cursor).dates ↔ WeekDate r w firstWeekday cursor d := by
  -- On the turns of the run: what a turn finds, with the dates from the next cursor.
  induction cursor using (weekLoop r w firstWeekday).induction_of (weekTurn_spec r w firstWeekday)
    with
  | turn cursor _ hturn hspec ih =>
    cases hspec with
    | lost broken =>
      rw [Loop.run_of_stopped hturn]
      exact iff_of_false List.not_mem_nil fun h => broken h.begins
    | behind past =>
      rw [Loop.run_of_finished hturn]
      refine iff_of_false List.not_mem_nil ?_
      rintro ⟨-, -, -, hreached, k, hk⟩
      have hpos : (0 : Int) ≤ 7 * r.frequency * k := by positivity
      omega
    | final found finds reached unreached =>
      rw [Loop.run_of_finished hturn]
      exact weekDate_iff_of_final finds reached fun n hn _ => by omega
    | stuck found finds reached ended =>
      rw [Loop.run_of_stopped hturn]
      -- The cursor's date of the next week is missing, so no later week is whole.
      have hbounds := (cursor.weekStart_bounds firstWeekday.position).2
      apply weekDate_iff_of_final finds (by omega)
      intro n hn hwhole
      have := hwhole.2
      omega
    | onward found next finds reached later =>
      rw [Loop.run_of_next hturn, Run.after, List.mem_append, ih found next rfl]
      exact weekDate_iff_of_next finds reached later

theorem pairwise_weekRun (cursor : Date) :
    ((weekLoop r w firstWeekday).run cursor).dates.Pairwise (· < ·) := by
  induction cursor using (weekLoop r w firstWeekday).induction_of (weekTurn_spec r w firstWeekday)
    with
  | turn cursor _ hturn hspec ih =>
    cases hspec with
    | lost broken =>
      rw [Loop.run_of_stopped hturn]
      exact List.Pairwise.nil
    | behind past =>
      rw [Loop.run_of_finished hturn]
      exact List.Pairwise.nil
    | final found finds reached unreached =>
      rw [Loop.run_of_finished hturn]
      exact finds.ascending
    | stuck found finds reached ended =>
      rw [Loop.run_of_stopped hturn]
      exact finds.ascending
    | onward found next finds reached later =>
      rw [Loop.run_of_next hturn, Run.after, List.pairwise_append]
      refine ⟨finds.ascending, ih found next rfl, ?_⟩
      intro d hd e he
      -- All of the cursor's week lies before the next week, and that before every later one.
      have hsame := ((finds.mem_iff d).1 hd).2
      rcases ((mem_weekRun_iff next e).1 he).strides with ⟨k, hk⟩
      have hpos : (0 : Int) ≤ 7 * r.frequency * k := by positivity
      have hstart := Date.weekStart_add_weeks firstWeekday.position later
      have hfrequency := r.frequency_pos
      have hd' := d.weekStart_bounds firstWeekday.position
      have he' := e.weekStart_bounds firstWeekday.position
      exact Date.lt_iff.2 (by omega)

/-! ## Early stops -/

/-- The cursor's week, `k` strides later, begins inside the window and leaves the calendar. -/
def LostWeek (r : Rule) (w : Window) (firstWeekday : Weekday) (cursor : Date) (k : Nat) : Prop :=
  cursor.weekStart firstWeekday.position + 7 * r.frequency * k ≤ w.last.serial ∧
    ¬ WholeWeek (cursor.weekStart firstWeekday.position + 7 * r.frequency * k)

instance (cursor : Date) (k : Nat) : Decidable (LostWeek r w firstWeekday cursor k) :=
  inferInstanceAs (Decidable (_ ∧ ¬ _))

/-- Why a run from `cursor` stops early, if it does: at the first lost week, because of the week
where its date exists, because of the step where it does not. -/
inductive WeekStop (r : Rule) (w : Window) (firstWeekday : Weekday) (cursor : Date) :
    Option Stop → Prop
  | complete (kept : ∀ k, ¬ LostWeek r w firstWeekday cursor k) :
      WeekStop r w firstWeekday cursor none
  | noWeek (k : Nat) (around : Date) (lost : LostWeek r w firstWeekday cursor k)
      (kept : ∀ j < k, ¬ LostWeek r w firstWeekday cursor j)
      (there : around.serial = cursor.serial + 7 * r.frequency * k) :
      WeekStop r w firstWeekday cursor (some (.noWeek around))
  | noStep (k : Nat) (origin : Date) (lost : LostWeek r w firstWeekday cursor (k + 1))
      (kept : ∀ j < k + 1, ¬ LostWeek r w firstWeekday cursor j)
      (there : origin.serial = cursor.serial + 7 * r.frequency * k)
      (ended : dayCount ≤ cursor.serial + 7 * r.frequency * (k + 1)) :
      WeekStop r w firstWeekday cursor (some (.noStep origin r.frequency .week))

theorem not_lostWeek_zero {cursor : Date} {found : List Date}
    (finds : FindsWeek r firstWeekday cursor found) : ¬ LostWeek r w firstWeekday cursor 0 := by
  rintro ⟨-, hbroken⟩
  simp only [Nat.cast_zero, mul_zero, add_zero] at hbroken
  exact hbroken finds.whole

/-- Strides from the next cursor are the later strides from the cursor. -/
theorem lostWeek_succ_iff {cursor next : Date}
    (later : (next.serial : Int) = cursor.serial + 7 * r.frequency) (k : Nat) :
    LostWeek r w firstWeekday cursor (k + 1) ↔ LostWeek r w firstWeekday next k := by
  have hstart := Date.weekStart_add_weeks firstWeekday.position later
  have hsame : cursor.weekStart firstWeekday.position + 7 * r.frequency * (k + 1 : Nat) =
      next.weekStart firstWeekday.position + 7 * r.frequency * k := by
    rw [hstart]
    push_cast
    ring
  rw [LostWeek, hsame, LostWeek]

theorem kept_succ {cursor next : Date} {found : List Date} {k : Nat}
    (finds : FindsWeek r firstWeekday cursor found)
    (later : (next.serial : Int) = cursor.serial + 7 * r.frequency)
    (kept : ∀ j < k, ¬ LostWeek r w firstWeekday next j) :
    ∀ j < k + 1, ¬ LostWeek r w firstWeekday cursor j := by
  intro j hj
  cases j with
  | zero => exact not_lostWeek_zero finds
  | succ j =>
    rw [lostWeek_succ_iff later]
    exact kept j (by omega)

theorem WeekStop.of_next {cursor next : Date} {found : List Date} {stop : Option Stop}
    (finds : FindsWeek r firstWeekday cursor found)
    (later : (next.serial : Int) = cursor.serial + 7 * r.frequency)
    (h : WeekStop r w firstWeekday next stop) : WeekStop r w firstWeekday cursor stop := by
  have hstride (k : Nat) : next.serial + 7 * r.frequency * k =
      cursor.serial + 7 * r.frequency * (k + 1) := by
    have hnext : next.serial = cursor.serial + 7 * r.frequency := by omega
    rw [hnext]
    ring
  cases h with
  | complete kept =>
    apply WeekStop.complete
    intro k
    exact kept_succ finds later (fun j _ => kept j) k (Nat.lt_succ_self k)
  | noWeek k around lost kept there =>
    exact .noWeek (k + 1) around ((lostWeek_succ_iff later k).2 lost) (kept_succ finds later kept)
      (by rw [there, hstride])
  | noStep k origin lost kept there ended =>
    exact .noStep (k + 1) origin ((lostWeek_succ_iff later _).2 lost) (kept_succ finds later kept)
      (by rw [there, hstride]) (by rw [← hstride]; exact ended)

theorem weekRun_stop_spec (cursor : Date)
    (hreached : cursor.weekStart firstWeekday.position ≤ w.last.serial) :
    WeekStop r w firstWeekday cursor ((weekLoop r w firstWeekday).run cursor).stop := by
  induction cursor using (weekLoop r w firstWeekday).induction_of (weekTurn_spec r w firstWeekday)
    with
  | turn cursor _ hturn hspec ih =>
    cases hspec with
    | lost broken =>
      rw [Loop.run_of_stopped hturn]
      exact .noWeek 0 cursor (by simpa [LostWeek] using ⟨hreached, broken⟩) (by simp) (by simp)
    | behind past => omega
    | final found finds reached unreached =>
      rw [Loop.run_of_finished hturn]
      apply WeekStop.complete
      intro k hk
      -- The next week begins behind the window, and later ones even more so.
      cases k with
      | zero => exact not_lostWeek_zero finds hk
      | succ k =>
        have hpos : (0 : Int) ≤ 7 * r.frequency * k := by positivity
        have hle := hk.1
        push_cast [mul_add] at hle
        omega
    | stuck found finds reached ended =>
      rw [Loop.run_of_stopped hturn]
      have hbounds := (cursor.weekStart_bounds firstWeekday.position).2
      refine .noStep 0 cursor ?_ ?_ (by simp) (by simpa using ended)
      · -- The last day of the next week is not before the date that cannot be stepped to.
        simp only [LostWeek, WholeWeek, Nat.zero_add, Nat.cast_one, mul_one]
        omega
      · intro j hj
        rw [show j = 0 by omega]
        exact not_lostWeek_zero finds
    | onward found next finds reached later =>
      rw [Loop.run_of_next hturn]
      have hstart := Date.weekStart_add_weeks firstWeekday.position later
      exact (ih found next rfl (by omega)).of_next finds later

/-! ## Weekly rules -/

theorem mem_weekly_iff {d : Date} :
    d ∈ (weekly r w firstWeekday).dates ↔ WeekDate r w firstWeekday w.first d := by
  unfold weekly
  split
  · rename_i hnone
    -- Without weekdays there is nothing to find.
    refine iff_of_false List.not_mem_nil ?_
    intro h
    have hday := h.weekday
    rw [List.isEmpty_iff.1 hnone] at hday
    exact List.not_mem_nil hday
  · exact mem_weekRun_iff w.first d

theorem pairwise_weekly : (weekly r w firstWeekday).dates.Pairwise (· < ·) := by
  unfold weekly
  split
  · exact List.Pairwise.nil
  · exact pairwise_weekRun w.first

/-- Inside the window no stride leads backwards, so whole numbers of strides are all that matters.
-/
theorem weekDate_iff_dvd {d : Date} (hd : w.first ≤ d ∧ d ≤ w.last) :
    WeekDate r w firstWeekday w.first d ↔
      d.weekday ∈ r.days ∧
        (7 * r.frequency : Int) ∣
          d.weekStart firstWeekday.position - w.first.weekStart firstWeekday.position ∧
        WholeWeek (w.first.weekStart firstWeekday.position) ∧
        WholeWeek (d.weekStart firstWeekday.position) := by
  constructor
  · rintro ⟨hday, hbegins, hwhole, -, k, hk⟩
    exact ⟨hday, ⟨k, by omega⟩, hbegins, hwhole⟩
  · rintro ⟨hday, ⟨k, hk⟩, hbegins, hwhole⟩
    have hreached : d.weekStart firstWeekday.position ≤ w.last.serial := by
      have hbounds := (d.weekStart_bounds firstWeekday.position).1
      have hlast := Date.le_iff.1 hd.2
      omega
    have hmono := Date.weekStart_mono firstWeekday.position hd.1
    have hpos : (0 : Int) < 7 * r.frequency := by
      have := r.frequency_pos
      omega
    -- The week of a later date does not start earlier.
    have hk0 : 0 ≤ k := by
      by_contra hneg
      have := Int.mul_neg_of_pos_of_neg hpos (Int.not_le.1 hneg)
      omega
    exact ⟨hday, hbegins, hwhole, hreached, k.toNat, by rw [Int.toNat_of_nonneg hk0]; omega⟩

/-- A weekly rule generates exactly the admitted dates on its weekdays whose week lies a multiple of
the frequency after the week of the window's first date, both weeks inside the calendar. -/
theorem weekly_generation_exact (l : LooseRule) (hweek : l.checked.period = .week) (w : Window)
    (filter : Option Window) (firstWeekday : Weekday) :
    ∃ run, l.generate w filter firstWeekday = .ok run ∧
      run.dates.Pairwise (· < ·) ∧
      ∀ d, d ∈ run.dates ↔
        Admitted w filter d ∧
          d.weekday ∈ l.checked.days ∧
          (7 * l.checked.frequency : Int) ∣
            d.weekStart firstWeekday.position - w.first.weekStart firstWeekday.position ∧
          WholeWeek (w.first.weekStart firstWeekday.position) ∧
          WholeWeek (d.weekStart firstWeekday.position) := by
  have hcandidates : l.checked.candidates w firstWeekday = weekly l.checked w firstWeekday := by
    rw [Rule.candidates, hweek]
  refine ⟨l.checked.generate w filter firstWeekday, generate_of_ne_month (by simp [hweek]), ?_, ?_⟩
  · refine pairwise_generate ?_
    rw [hcandidates]
    exact pairwise_weekly
  · intro d
    rw [mem_generate, hcandidates, mem_weekly_iff, and_comm]
    exact and_congr_right fun hd => weekDate_iff_dvd hd.1

/-- Every Friday. -/
def fridays : Rule where
  frequency := 1
  period := .week
  index := none
  weekdays := some [.friday]
  frequency_pos := Nat.one_pos
  index_mem := nofun
  weekdays_ascending := by
    rintro _ ⟨⟩
    decide

/-- From 9999-12-20, a Monday, to the end of the calendar, a Friday. -/
def lastDays : Window := ⟨⟨3652047, by decide⟩, ⟨3652058, by decide⟩, by decide⟩

/-- The last Friday of the calendar is left out, because its week from Monday on does not fit. -/
theorem weekly_generation_exact_at_calendar_end :
    fridays.period = .week ∧
      ∃ run, LooseRule.generate ⟨fridays, none⟩ lastDays none .monday = .ok run ∧
        (⟨3652051, by decide⟩ : Date) ∈ run.dates ∧ (⟨3652058, by decide⟩ : Date) ∉ run.dates := by
  rcases weekly_generation_exact ⟨fridays, none⟩ rfl lastDays none .monday with ⟨run, hrun, -, hmem⟩
  refine ⟨rfl, run, hrun, (hmem _).2 (by decide), ?_⟩
  intro h
  exact absurd ((hmem _).1 h) (by decide)

end Schedule
end Cadence
