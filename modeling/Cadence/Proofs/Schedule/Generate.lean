import Cadence.Proofs.Calendar.Week
import Cadence.Schedule.Loose

/-!
# Generate — what every generation has in common

A generation selects from the candidates of its period. Which dates may be selected does not depend
on the rule, and selecting changes neither the order of the candidates nor the reason for an early
stop.

- `Admitted`: the dates that the window and the filter let through
- `mem_generate`, `pairwise_generate`: the selected candidates
- `moved_day`, `moved_week`: a step is taken, or there is no date to step to
-/

namespace Cadence
namespace Schedule

open Calendar

/-! ## Selection -/

/-- The date lies in the window, and in the filter when there is one. -/
def Admitted (w : Window) (filter : Option Window) (d : Date) : Prop :=
  (w.first ≤ d ∧ d ≤ w.last) ∧ ∀ f ∈ filter, f.first ≤ d ∧ d ≤ f.last

instance (w : Window) (filter : Option Window) (d : Date) : Decidable (Admitted w filter d) :=
  inferInstanceAs (Decidable (_ ∧ _))

theorem admitted_iff {w : Window} {filter : Option Window} {d : Date} :
    (w.contains d && filter.all fun f => f.contains d) = true ↔ Admitted w filter d := by
  cases filter <;> simp [Admitted, Window.contains]

variable {r : Rule} {w : Window} {filter : Option Window} {firstWeekday : Weekday}

theorem mem_generate {d : Date} :
    d ∈ (r.generate w filter firstWeekday).dates ↔
      d ∈ (r.candidates w firstWeekday).dates ∧ Admitted w filter d := by
  rw [← admitted_iff]
  exact List.mem_filter

theorem pairwise_generate (h : (r.candidates w firstWeekday).dates.Pairwise (· < ·)) :
    (r.generate w filter firstWeekday).dates.Pairwise (· < ·) :=
  List.Pairwise.filter _ h

/-- An odd index makes no difference unless the rule is monthly. -/
theorem generate_of_ne_month {l : LooseRule} (h : l.checked.period ≠ .month) :
    l.generate w filter firstWeekday = .ok (l.checked.generate w filter firstWeekday) := by
  unfold LooseRule.generate
  cases l.odd with
  | none => rfl
  | some odd => simp [h]

/-! ## Steps of a loop -/

theorem moved_of_ok {d e : Date} {p : Period} {n : Nat} (h : d.step p n = .ok e) :
    moved d p n = .next e := by
  rw [moved, h]

theorem moved_of_not_ok {d : Date} {p : Period} {n : Nat} (h : ∀ e, d.step p n ≠ .ok e) :
    moved d p n = .stopped (.noStep d n p) := by
  unfold moved
  split
  · rename_i e he
    exact absurd he (h e)
  · rfl

/-- A day step within the calendar is taken, however large the calendar's steps may be elsewhere. -/
theorem moved_day {d : Date} {n : Nat} (h : d.serial + n < dayCount) :
    moved d .day n = .next ⟨d.serial + n, h⟩ :=
  moved_of_ok (Date.step_day_eq_ok_iff.2 (by simp))

theorem moved_week {d : Date} {n : Nat} (h : d.serial + 7 * n < dayCount) :
    moved d .week n = .next ⟨d.serial + 7 * n, h⟩ :=
  moved_of_ok (Date.step_week_eq_ok_iff.2 (by simp))

theorem moved_week_of_le {d : Date} {n : Nat} (h : dayCount ≤ d.serial + 7 * n) :
    moved d .week n = .stopped (.noStep d n .week) := by
  refine moved_of_not_ok fun e he => ?_
  have hserial := Date.step_week_eq_ok_iff.1 he
  have := e.serial_lt
  omega

end Schedule
end Cadence
