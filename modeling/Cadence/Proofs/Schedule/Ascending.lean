import Cadence.Proofs.Ascending
import Cadence.Proofs.Schedule.Daily
import Cadence.Proofs.Schedule.Monthly
import Cadence.Proofs.Schedule.Weekly

/-!
# Ascending — the dates of any generation, in strict order

Each of the three loops finds its dates in ascending order and none of them twice, and a window has
no more dates to offer than it has days.

- `pairwise_generate_dates`, `length_generate_le`: the dates of a generation, whatever its period
-/

namespace Cadence

namespace Schedule

open Calendar

variable {r : Rule} {w : Window} {filter : Option Window} {firstWeekday : Weekday}

theorem pairwise_candidates : (r.candidates w firstWeekday).dates.Pairwise (· < ·) := by
  unfold Rule.candidates
  cases r.period with
  | day => exact pairwise_dayRun w.first
  | week => exact pairwise_weekly
  | month => exact pairwise_monthly

theorem pairwise_generate_dates : (r.generate w filter firstWeekday).dates.Pairwise (· < ·) :=
  pairwise_generate pairwise_candidates

/-- No more dates are generated than the window has. -/
theorem length_generate_le : (r.generate w filter firstWeekday).dates.length ≤ w.days := by
  have hnodup : (r.generate w filter firstWeekday).dates.Nodup :=
    nodup_of_ascending Date.serial pairwise_generate_dates
  have hsubset : (r.generate w filter firstWeekday).dates ⊆ w.dates := by
    intro d hd
    exact Window.mem_dates.2 (mem_generate.1 hd).2.1
  rw [← w.length_dates]
  exact (List.subperm_of_subset hnodup hsubset).length_le

end Schedule
end Cadence
