import Cadence.Proofs.Schedule.Loose
import Cadence.Proofs.Schedule.Warning

/-!
# Selection — a filter selects dates and does nothing else

While a loop runs, every date that it finds goes to a collector, which keeps it when the window and
the filter contain it. Nothing else looks at the filter: the turns are the same with any filter, so
the run ends where it would end without one, for the same reason. Two filters one after the other
are as good as their common part.

- `Window.meet?`: the common part of two windows
- `Loop.collecting`, `Rule.collected`: a run that collects its dates as they are found
- `generate_eq_collected`: it has the selected candidates
- `generate_refined`: another filter that lets through a part of the dates
- `filter_selects`: generations that differ in the filter only
-/

namespace Cadence

/-! ## Windows in common -/

namespace Calendar

variable {c d e : Date}

def Date.later (d e : Date) : Date := if d ≤ e then e else d

def Date.earlier (d e : Date) : Date := if d ≤ e then d else e

theorem Date.later_le_iff : d.later e ≤ c ↔ d ≤ c ∧ e ≤ c := by
  simp only [later, Date.le_iff]
  split <;> omega

theorem Date.le_earlier_iff : c ≤ d.earlier e ↔ c ≤ d ∧ c ≤ e := by
  simp only [earlier, Date.le_iff]
  split <;> omega

namespace Window

/-- The window of the dates that two windows have in common, if there are any. -/
def meet? (f g : Window) : Option Window :=
  if h : f.first.later g.first ≤ f.last.earlier g.last then
    some ⟨f.first.later g.first, f.last.earlier g.last, h⟩
  else none

theorem contains_meet? (f g : Window) (d : Date) :
    ((f.meet? g).any fun m => m.contains d) = (f.contains d && g.contains d) := by
  rw [Bool.eq_iff_iff, Bool.and_eq_true, contains_iff, contains_iff, and_and_and_comm,
    ← Date.later_le_iff, ← Date.le_earlier_iff]
  unfold meet?
  split
  · rw [Option.any_some, contains_iff]
  · rename_i hempty
    rw [Option.any_none]
    refine iff_of_false Bool.false_ne_true ?_
    rintro ⟨hge, hle⟩
    exact hempty (Nat.le_trans hge hle)

end Window
end Calendar

namespace Schedule

open Calendar

variable {σ : Type}

/-! ## Collecting -/

/-- The run from a state that hands every date to a collector as soon as it is found, together with
the dates collected before. -/
def Loop.collecting (l : Loop σ) (collect : List Date → Date → List Date) (dates : List Date)
    (s : σ) : Run :=
  match _ : l.turn s with
  | ⟨found, .finished⟩ => ⟨found.foldl collect dates, none⟩
  | ⟨found, .stopped why⟩ => ⟨found.foldl collect dates, some why⟩
  | ⟨found, .next t⟩ => l.collecting collect (found.foldl collect dates) t
  termination_by l.rank s
  decreasing_by exact l.rank_lt (by assumption)

/-- Whatever the collector does, it does it to the dates of the run in their order, and the run ends
as it does without a collector. -/
theorem Loop.collecting_eq (l : Loop σ) (collect : List Date → Date → List Date) (dates : List Date)
    (s : σ) :
    l.collecting collect dates s = ⟨(l.run s).dates.foldl collect dates, (l.run s).stop⟩ := by
  -- On the turns: what the next state collects, it adds to what is collected here.
  induction s using l.induction generalizing dates with
  | turn s ih =>
    rw [collecting]
    split
    · rename_i found h
      rw [run_of_finished h]
    · rename_i found why h
      rw [run_of_stopped h]
    · rename_i found t h
      rw [ih found t h, run_of_next h]
      simp only [Run.after, List.foldl_append]

/-- The collector of a generation leaves out what is not in the window and what is not in the
filter. -/
def collect (w : Window) (filter : Option Window) (dates : List Date) (d : Date) : List Date :=
  if w.contains d then
    if filter.all fun f => f.contains d then dates ++ [d] else dates
  else dates

theorem foldl_collect (w : Window) (filter : Option Window) (ds dates : List Date) :
    ds.foldl (collect w filter) dates =
      dates ++ ds.filter fun d => w.contains d && filter.all fun f => f.contains d := by
  induction ds generalizing dates with
  | nil => rw [List.foldl_nil, List.filter_nil, List.append_nil]
  | cons d ds ih =>
    rw [List.foldl_cons, ih, List.filter_cons, collect]
    by_cases hw : w.contains d = true
    · by_cases hf : (filter.all fun f => f.contains d) = true
      · simp [hw, hf]
      · simp [hw, hf]
    · simp [hw]

end Schedule

open Calendar Schedule

/-- The generation of a rule with the collector inside its loop. -/
def Rule.collected (r : Rule) (w : Window) (filter : Option Window) (firstWeekday : Weekday) :
    Run :=
  match r.period with
  | .day => (dayLoop r w).collecting (collect w filter) [] w.first
  | .week =>
    if r.days.isEmpty then .empty
    else (weekLoop r w firstWeekday).collecting (collect w filter) [] w.first
  | .month =>
    -- The collector is given the day of the month that the rule names, not the cursor.
    let day := r.index.getD w.first.day
    (monthLoop r w).collecting (fun dates v => collect w filter dates (v.withDay day)) []
      ⟨0, w.first⟩

namespace Schedule

open Service

variable {r : Rule} {l : LooseRule} {w : Window} {filter finer : Option Window}
  {firstWeekday : Weekday} {keep : Date → Bool}

theorem generate_eq_collected :
    r.generate w filter firstWeekday = r.collected w filter firstWeekday := by
  unfold Rule.generate Rule.candidates Rule.collected
  cases r.period with
  | day =>
    simp only [Loop.collecting_eq, foldl_collect, List.nil_append]
    rfl
  | week =>
    simp only [Loop.collecting_eq, foldl_collect, List.nil_append, weekly]
    split
    · rfl
    · rfl
  | month =>
    simp only [Loop.collecting_eq, ← List.foldl_map, foldl_collect, List.nil_append]
    rfl

/-! ## Another filter -/

/-- A filter that lets through a part of what another one lets through has this part of its
generation. -/
theorem generate_refined
    (h : ∀ d, (finer.all fun f => f.contains d) = ((filter.all fun f => f.contains d) && keep d)) :
    r.generate w finer firstWeekday = (r.generate w filter firstWeekday).select keep := by
  simp only [Rule.generate, Run.select, List.filter_filter, h]
  congr 1
  refine List.filter_congr ?_
  intro d _
  rw [← Bool.and_assoc, Bool.and_comm]

/-- It fails where the other one fails. -/
theorem loose_generate_refined
    (h : ∀ d, (finer.all fun f => f.contains d) = ((filter.all fun f => f.contains d) && keep d)) :
    l.generate w finer firstWeekday = (l.generate w filter firstWeekday).map (·.select keep) := by
  rcases generate_cases l w filter firstWeekday with ⟨odd, hlacks, herror⟩ | ⟨hdays, hok⟩
  · rw [herror, generate_eq_error_iff.2 ⟨odd, hlacks, rfl⟩]
    rfl
  · rw [hok, generate_eq_ok_iff.2 ⟨hdays, rfl⟩, generate_refined h]
    rfl

/-- What a generation logs is told by the stop of the candidates and by the number of its own dates.
-/
theorem runLogs_generate {run : Run} (hrun : l.generate w filter firstWeekday = .ok run) :
    runLogs l.checked run =
      (((l.plain.candidates w firstWeekday).stop.map Stop.message).map
        (weekWarning run.dates.length)).toList := by
  rcases generate_eq_ok_iff.1 hrun with ⟨-, rfl⟩
  cases hstop : (l.plain.candidates w firstWeekday).stop with
  | none => exact logs_of_stop hstop
  | some stop =>
    have hweek : l.plain.period = .week := by
      by_contra hne
      cases hstop.symm.trans (candidates_stop_eq_none fun hweek => absurd hweek hne)
    rw [l.period_plain] at hweek
    exact logs_of_weekStop hweek hstop

/-- A generation collects in its loop what the filter lets through. It is the generation without a
filter, less the dates that the filter does not contain, with the same failure and the same reason
to stop early. A filter changes no more of a warning than its count. Filtering again is generating
with what the filters have in common, and leaves nothing when they have nothing in common. -/
theorem filter_selects (l : LooseRule) (w : Window) (firstWeekday : Weekday) :
    (∀ filter run, l.generate w filter firstWeekday = .ok run →
        run = l.plain.collected w filter firstWeekday) ∧
      (∀ f, l.generate w (some f) firstWeekday =
        (l.generate w none firstWeekday).map (·.select f.contains)) ∧
      (∃ reason? : Option String, ∀ filter run, l.generate w filter firstWeekday = .ok run →
        runLogs l.checked run = (reason?.map (weekWarning run.dates.length)).toList) ∧
      ∀ f g run, l.generate w (some f) firstWeekday = .ok run →
        (∀ m, f.meet? g = some m → l.generate w (some m) firstWeekday =
          .ok (run.select g.contains)) ∧
          (f.meet? g = none → (run.select g.contains).dates = []) := by
  refine ⟨?_, ?_, ⟨_, fun filter run => runLogs_generate⟩, ?_⟩
  · intro filter run hrun
    rw [(generate_eq_ok_iff.1 hrun).2, generate_eq_collected]
  · intro f
    exact loose_generate_refined fun d => (Bool.true_and _).symm
  · intro f g run hrun
    refine ⟨?_, ?_⟩
    · intro m hm
      have hmeet (d : Date) : m.contains d = (f.contains d && g.contains d) := by
        rw [← Window.contains_meet?, hm, Option.any_some]
      have hrefined : l.generate w (some m) firstWeekday =
          (l.generate w (some f) firstWeekday).map (·.select g.contains) :=
            loose_generate_refined hmeet
      rw [hrefined, hrun]
      rfl
    · intro hnone
      have hmeet (d : Date) : (f.contains d && g.contains d) = false := by
        rw [← Window.contains_meet?, hnone, Option.any_none]
      rcases generate_eq_ok_iff.1 hrun with ⟨-, rfl⟩
      refine List.filter_eq_nil_iff.2 ?_
      intro d hd hg
      have hf : f.contains d = true := Window.contains_iff.2 ((mem_generate.1 hd).2.2 f rfl)
      have hboth := hmeet d
      rw [hf, hg] at hboth
      cases hboth

/-- From 9999-12-24 to the end of the calendar. -/
def christmasDays : Window := ⟨⟨3652051, by decide⟩, lastDays.last, by decide⟩

/-- The last day of the calendar. -/
def lastDay : Window := ⟨lastDays.last, lastDays.last, Nat.le_refl _⟩

/-- The generation stops early with the filter as it does without one, and reports the same reason.
-/
theorem filter_selects_at_calendar_end :
    ∃ run part, LooseRule.generate ⟨fridays, none⟩ lastDays none .monday = .ok run ∧
      LooseRule.generate ⟨fridays, none⟩ lastDays (some christmasDays) .monday = .ok part ∧
      part = run.select christmasDays.contains ∧
      (∃ reason? : Option String,
        runLogs fridays run = (reason?.map (weekWarning run.dates.length)).toList ∧
          runLogs fridays part = (reason?.map (weekWarning part.dates.length)).toList) ∧
      christmasDays.meet? lastDay = some lastDay ∧
      LooseRule.generate ⟨fridays, none⟩ lastDays (some lastDay) .monday =
        .ok (part.select lastDay.contains) := by
  rcases filter_selects ⟨fridays, none⟩ lastDays .monday
    with ⟨-, hselects, ⟨reason?, hlogs⟩, hmeets⟩
  have hpart : LooseRule.generate ⟨fridays, none⟩ lastDays (some christmasDays) .monday =
      .ok ((fridays.generate lastDays none .monday).select christmasDays.contains) :=
        hselects christmasDays
  have hmeet : christmasDays.meet? lastDay = some lastDay := by decide
  exact ⟨_, _, rfl, hpart, rfl, ⟨reason?, hlogs none _ rfl, hlogs (some christmasDays) _ hpart⟩,
    hmeet, (hmeets christmasDays lastDay _ hpart).1 lastDay hmeet⟩

end Schedule
end Cadence
