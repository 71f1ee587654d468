import Cadence.Proofs.Schedule.Due
import Cadence.Proofs.Schedule.Merge

/-!
# Weekdays — a weekly rule taken apart by its weekdays

Every date of a weekly rule falls on one of its weekdays, so rules on these weekdays alone share out
its dates among them, and no date goes to two of them. They all look at the same weeks, so the end
of the calendar stops them at the same one. Merged again, their dates are those of the weekly rule,
each with the place of its weekday.

- `WeekStop.unique`: the weekdays make no difference to where and why a run stops
- `SharesOut`: the rules on the single weekdays of a weekly rule, in any order
- `SharesOut.mem_merge_iff`, `SharesOut.place_unique`: whose date it is
- `merged_weekdays_exact`: generation for these rules
-/

namespace Cadence
namespace Schedule

open Calendar

section Rules

variable {r s : Rule} {l : LooseRule} {parts : List LooseRule} {w : Window} {filter : Option Window}
  {firstWeekday : Weekday}

/-! ## Early stops -/

/-- Runs with the same strides lose the same weeks, and so they stop alike. -/
theorem WeekStop.unique {cursor : Date} {stop stop' : Option Stop}
    (hfrequency : r.frequency = s.frequency)
    (h : WeekStop r w firstWeekday cursor stop) (h' : WeekStop s w firstWeekday cursor stop') :
    stop = stop' := by
  have hsame (k : Nat) : LostWeek r w firstWeekday cursor k ↔
      LostWeek s w firstWeekday cursor k := by
    rw [LostWeek, LostWeek, hfrequency]
  have hkept {n : Nat} (kept : ∀ j < n, ¬ LostWeek r w firstWeekday cursor j) :
      ∀ j < n, ¬ LostWeek s w firstWeekday cursor j :=
    fun j hj hlost => kept j hj ((hsame j).2 hlost)
  cases h with
  | complete kept => exact (h'.eq_none fun k hk => kept k ((hsame k).2 hk)).symm
  | noWeek k around lost kept there =>
    rw [hfrequency] at there
    exact ((h'.eq_of_first ((hsame k).1 lost) (hkept kept)).1 around there).symm
  | noStep k origin lost kept there ended =>
    rw [hfrequency] at there ended
    rcases (h'.eq_of_first ((hsame (k + 1)).1 lost) (hkept kept)).2 ended with ⟨p, -, hp, hstop⟩
    -- Both steps start at the last date that the strides reach.
    have horigin : p = origin := Date.ext_serial (hp.trans there.symm)
    rw [hstop, horigin, hfrequency]

theorem stop_eq_of_frequency (hr : r.period = .week) (hs : s.period = .week)
    (hfrequency : r.frequency = s.frequency) (hdays : r.days ≠ []) (hdays' : s.days ≠ []) :
    (r.generate w filter firstWeekday).stop = (s.generate w filter firstWeekday).stop :=
  WeekStop.unique hfrequency (candidates_weekStop hr hdays) (candidates_weekStop hs hdays')

/-! ## Rules on single weekdays -/

/-- The parts recur as the rule does, each on one of its weekdays, and every weekday has one part.
-/
structure SharesOut (l : LooseRule) (parts : List LooseRule) : Prop where
  period : ∀ part ∈ parts, part.checked.period = .week
  frequency : ∀ part ∈ parts, part.checked.frequency = l.checked.frequency
  weekdays : (parts.map fun part => part.checked.days).Perm (l.checked.days.map fun v => [v])

theorem nodup_days (r : Rule) : r.days.Nodup := nodup_of_ascending Weekday.position r.ascending_days

namespace SharesOut

variable {part : LooseRule} {d : Date}

theorem exists_weekday (h : SharesOut l parts) (hpart : part ∈ parts) :
    ∃ v ∈ l.checked.days, part.checked.days = [v] := by
  have hdays := h.weekdays.mem_iff.1 (List.mem_map_of_mem hpart)
  rcases List.mem_map.1 hdays with ⟨v, hv, heq⟩
  exact ⟨v, hv, heq.symm⟩

theorem exists_part (h : SharesOut l parts) {v : Weekday} (hv : v ∈ l.checked.days) :
    ∃ part ∈ parts, part.checked.days = [v] :=
  List.mem_map.1 (h.weekdays.mem_iff.2 (List.mem_map_of_mem hv))

/-- No weekday has two places. -/
theorem place_unique (h : SharesOut l parts) {i j : Nat} {a b : LooseRule} (hi : parts[i]? = some a)
    (hj : parts[j]? = some b) (hsame : a.checked.days = b.checked.days) : i = j := by
  have hnodup : (parts.map fun part => part.checked.days).Nodup :=
    h.weekdays.nodup_iff.2 ((nodup_days l.checked).map List.singleton_injective)
  have hlt : i < (parts.map fun part => part.checked.days).length := by
    rw [List.length_map]
    exact (List.getElem?_eq_some_iff.1 hi).1
  refine (List.getElem?_inj hlt hnodup).1 ?_
  rw [List.getElem?_map, List.getElem?_map, hi, hj, Option.map_some, Option.map_some, hsame]

theorem generate_part (h : SharesOut l parts) (hpart : part ∈ parts) :
    part.generate w filter firstWeekday = .ok (part.checked.generate w filter firstWeekday) :=
  generate_of_ne_month (by simp [h.period part hpart])

/-- A part generates the dates of the whole rule that fall on its weekday. -/
theorem mem_part_iff (h : SharesOut l parts) (hweek : l.checked.period = .week)
    (hpart : part ∈ parts) :
    d ∈ (part.checked.generate w filter firstWeekday).dates ↔
      d ∈ (l.checked.generate w filter firstWeekday).dates ∧ part.checked.days = [d.weekday] := by
  rcases h.exists_weekday hpart with ⟨v, hv, hdays⟩
  rw [mem_generate_iff_due (h.period part hpart), mem_generate_iff_due hweek, hdays]
  constructor
  · rintro ⟨⟨hadmitted, hday, hstrides⟩, hwhole⟩
    rw [hdays, List.mem_singleton] at hday
    rw [h.frequency part hpart] at hstrides
    subst hday
    exact ⟨⟨⟨hadmitted, hv, hstrides⟩, hwhole⟩, rfl⟩
  · rintro ⟨⟨⟨hadmitted, -, hstrides⟩, hwhole⟩, hday⟩
    rw [← h.frequency part hpart] at hstrides
    refine ⟨⟨hadmitted, ?_, hstrides⟩, hwhole⟩
    rw [hdays, hday]
    exact List.mem_singleton_self _

theorem exists_runs (h : SharesOut l parts) : ∃ runs, RunsOf parts w filter firstWeekday runs :=
  exists_runsOf_iff.2 fun _ hpart => ⟨_, h.generate_part hpart⟩

/-- An occurrence is a date of the whole rule at the place of its weekday. -/
theorem mem_merge_iff (h : SharesOut l parts) (hweek : l.checked.period = .week) {runs : List Run}
    (hruns : RunsOf parts w filter firstWeekday runs) {place : Nat} :
    (d, place) ∈ merge runs ↔
      d ∈ (l.checked.generate w filter firstWeekday).dates ∧
        ∃ part, parts[place]? = some part ∧ part.checked.days = [d.weekday] := by
  rw [hruns.mem_merge_iff]
  constructor
  · rintro ⟨part, run, hplace, hrun, hd⟩
    have hpart := List.mem_of_getElem? hplace
    cases (h.generate_part hpart).symm.trans hrun
    rcases (h.mem_part_iff hweek hpart).1 hd with ⟨hwhole, hday⟩
    exact ⟨hwhole, part, hplace, hday⟩
  · rintro ⟨hwhole, part, hplace, hday⟩
    have hpart := List.mem_of_getElem? hplace
    exact ⟨part, _, hplace, h.generate_part hpart, (h.mem_part_iff hweek hpart).2 ⟨hwhole, hday⟩⟩

/-- No date occurs twice, since it would occur at two places of its weekday. -/
theorem pairwise_dates (h : SharesOut l parts) (hweek : l.checked.period = .week) {runs : List Run}
    (hruns : RunsOf parts w filter firstWeekday runs) :
    ((merge runs).map Prod.fst).Pairwise (· < ·) := by
  rw [List.pairwise_map]
  refine (pairwise_merge hruns.pairwise).imp_of_mem ?_
  rintro a b ha hb (hlt | ⟨hdate, hplace⟩)
  · exact hlt
  · rcases (h.mem_merge_iff hweek hruns).1 ha with ⟨-, part, hpart, hday⟩
    rcases (h.mem_merge_iff hweek hruns).1 hb with ⟨-, part', hpart', hday'⟩
    have hsame : a.2 = b.2 := h.place_unique hpart hpart' (by rw [hday, hday', hdate])
    omega

theorem dates_merge (h : SharesOut l parts) (hweek : l.checked.period = .week) {runs : List Run}
    (hruns : RunsOf parts w filter firstWeekday runs) :
    (merge runs).map Prod.fst = (l.checked.generate w filter firstWeekday).dates := by
  refine eq_of_ascending Date.serial (h.pairwise_dates hweek hruns) pairwise_generate_dates ?_
  intro d
  rw [List.mem_map]
  constructor
  · rintro ⟨⟨_, place⟩, ho, rfl⟩
    exact ((h.mem_merge_iff hweek hruns).1 ho).1
  · intro hd
    have hday : d.weekday ∈ l.checked.days := ((mem_generate_iff_due hweek).1 hd).1.weekday
    rcases h.exists_part hday with ⟨part, hpart, hdays⟩
    rcases List.mem_iff_getElem?.1 hpart with ⟨place, hplace⟩
    exact ⟨(d, place), (h.mem_merge_iff hweek hruns).2 ⟨hd, part, hplace, hdays⟩, rfl⟩

end SharesOut

/-- Generation for the single weekdays of a weekly rule, in any order, has the dates of the rule,
each with the place of its weekday. All parts stop where and why the rule stops. -/
theorem merged_weekdays_exact (l : LooseRule) (parts : List LooseRule) (w : Window)
    (filter : Option Window)
    (firstWeekday : Weekday) (hweek : l.checked.period = .week) (hparts : SharesOut l parts) :
    ∃ run m, l.generate w filter firstWeekday = .ok run ∧
      generateAll parts w filter firstWeekday = .ok m ∧
      m.occurrences.map Prod.fst = run.dates ∧
      (∀ o ∈ m.occurrences, ∃ part, parts[o.2]? = some part ∧ part.checked.days = [o.1.weekday]) ∧
      ∀ part ∈ parts, ∃ run', part.generate w filter firstWeekday = .ok run' ∧
        run'.stop = run.stop := by
  rcases hparts.exists_runs (w := w) with ⟨runs, hruns⟩
  refine ⟨_, _, generate_of_ne_month (by simp [hweek]), generateAll_eq hruns,
    hparts.dates_merge hweek hruns, ?_, ?_⟩
  · intro o ho
    exact ((hparts.mem_merge_iff hweek hruns).1 ho).2
  · intro part hpart
    rcases hparts.exists_weekday hpart with ⟨v, hv, hdays⟩
    refine ⟨_, hparts.generate_part hpart, ?_⟩
    exact stop_eq_of_frequency (hparts.period part hpart) hweek (hparts.frequency part hpart)
      (by simp [hdays])
      (List.ne_nil_of_mem hv)

end Rules

/-- Every week on Mondays and Fridays. -/
def mondaysAndFridays : Rule := everyWeekOn [.monday, .friday] (by decide)

/-- Fridays at the first place and Mondays at the second. -/
def fridaysThenMondays : List LooseRule :=
  [⟨everyWeekOn [.friday] (by decide), none⟩, ⟨everyWeekOn [.monday] (by decide), none⟩]

/-- The week from 9999-12-27 on stops the rule and both parts, although its Monday lies in the
window. -/
theorem merged_weekdays_exact_at_calendar_end :
    mondaysAndFridays.period = .week ∧ SharesOut ⟨mondaysAndFridays, none⟩ fridaysThenMondays ∧
      ∃ run m, LooseRule.generate ⟨mondaysAndFridays, none⟩ lastDays none .monday = .ok run ∧
        generateAll fridaysThenMondays lastDays none .monday = .ok m ∧
        run.dates = [⟨3652047, by decide⟩, ⟨3652051, by decide⟩] ∧ run.stop ≠ none ∧
        m.occurrences.map Prod.fst = run.dates ∧
        (∀ o ∈ m.occurrences, ∃ part, fridaysThenMondays[o.2]? = some part ∧
          part.checked.days = [o.1.weekday]) ∧
        ∀ part ∈ fridaysThenMondays, ∃ run',
          part.generate lastDays none .monday = .ok run' ∧ run'.stop = run.stop := by
  have hparts : SharesOut ⟨mondaysAndFridays, none⟩ fridaysThenMondays :=
    ⟨by decide, by decide, by decide⟩
  rcases merged_weekdays_exact ⟨mondaysAndFridays, none⟩ fridaysThenMondays lastDays none .monday
    rfl hparts with ⟨_, m, ⟨⟩, hm, hdates, hplaces, hstops⟩
  exact ⟨rfl, hparts, _, m, rfl, hm, by decide +kernel, by decide +kernel, hdates, hplaces, hstops⟩

end Schedule
end Cadence
