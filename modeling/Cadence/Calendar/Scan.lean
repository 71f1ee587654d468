import Cadence.Calendar.Step

/-!
# Scan — the dates of a window on some weekdays, found day by day

A scan looks at one date after the other and ends when it has come to a date behind the window. From
the last date of the calendar there is no step to such a date, so a scan that comes there ends at
once. All other dates have a next one, so a scan never fails.

- `Scan`, `Window.scanTurn`: where a scan stands, and what it does there
- `Window.scan`: the scan of a window
- `Window.scanned`: the dates that it finds
-/

namespace Cadence
namespace Calendar

/-! ## Turns -/

/-- The date to look at, and the dates found before it, the last one first. -/
structure Scan where
  current : Date
  earlier : List Date
  deriving DecidableEq, Repr

/-- How a scan goes on after a turn. -/
inductive ScanTurn
  | ended (found : List Date)
  | onward (next : Scan)
  deriving DecidableEq, Repr

/-- The dates found up to the current one, the last one first. -/
def Scan.taken (s : Scan) (positions : List Int) : List Date :=
  if positions.contains (s.current.weekday.position : Int) then s.current :: s.earlier
  else s.earlier

def Window.scanTurn (w : Window) (positions : List Int) (s : Scan) : Except StepError ScanTurn :=
  if s.current ≤ w.last then
    if s.current = .last then .ok (.ended (s.taken positions).reverse)
    else
      match s.current.step .day 1 with
      | .ok next => .ok (.onward ⟨next, s.taken positions⟩)
      | .error why => .error why
  else .ok (.ended s.earlier.reverse)

theorem Window.serial_of_scanTurn {w : Window} {positions : List Int} {s t : Scan}
    (h : w.scanTurn positions s = .ok (.onward t)) : t.current.serial = s.current.serial + 1 := by
  unfold scanTurn at h
  split at h
  · split at h
    · cases h
    · split at h
      · rename_i next hnext
        cases h
        have hserial := Date.step_day_eq_ok_iff.1 hnext
        simp only
        omega
      · cases h
  · cases h

/-- A date other than the last one has a next one in the calendar. -/
theorem Date.exists_next {d : Date} (h : d ≠ .last) :
    ∃ e, d.step .day 1 = .ok e ∧ e.serial = d.serial + 1 := by
  have hserial := d.serial_lt
  have hne : d.serial ≠ dayCount - 1 := fun heq => h (Date.ext_serial heq)
  exact ⟨⟨d.serial + 1, by omega⟩, Date.step_day_eq_ok_iff.2 (by simp), rfl⟩

/-- No turn takes a step that fails. -/
theorem Window.exists_scanTurn (w : Window) (positions : List Int) (s : Scan) :
    ∃ turn, w.scanTurn positions s = .ok turn := by
  unfold scanTurn
  split
  · split
    · exact ⟨_, rfl⟩
    · rename_i hended
      rcases Date.exists_next hended with ⟨next, hnext, -⟩
      rw [hnext]
      exact ⟨_, rfl⟩
  · exact ⟨_, rfl⟩

/-! ## Scans -/

def Window.scanFrom (w : Window) (positions : List Int) (s : Scan) : Except StepError (List Date) :=
  match _ : w.scanTurn positions s with
  | .ok (.ended found) => .ok found
  | .ok (.onward next) => w.scanFrom positions next
  | .error why => .error why
  termination_by dayCount - s.current.serial
  decreasing_by
    -- Every turn leads to a later date, and the calendar has a last one.
    have hlater := Window.serial_of_scanTurn (by assumption)
    have hlt := s.current.serial_lt
    omega

theorem Window.exists_scanFrom (w : Window) (positions : List Int) (s : Scan) :
    ∃ found, w.scanFrom positions s = .ok found := by
  fun_induction w.scanFrom positions s with
  | case1 s found => exact ⟨found, rfl⟩
  | case2 s next hturn ih => exact ih
  | case3 s why hturn =>
    rcases w.exists_scanTurn positions s with ⟨turn, hok⟩
    cases hok.symm.trans hturn

/-- Dates of the window whose weekday has one of the given positions, counted from Monday, 0.
Without positions there is nothing to look for. -/
def Window.scan (w : Window) (positions : List Int) : Except StepError (List Date) :=
  if positions.isEmpty then .ok [] else w.scanFrom positions ⟨w.first, []⟩

theorem Window.exists_scan (w : Window) (positions : List Int) :
    ∃ found, w.scan positions = .ok found := by
  unfold scan
  split
  · exact ⟨[], rfl⟩
  · exact w.exists_scanFrom positions _

theorem Window.scan_ne_error (w : Window) (positions : List Int) (why : StepError) :
    w.scan positions ≠ .error why := by
  rcases w.exists_scan positions with ⟨found, hfound⟩
  rw [hfound]
  nofun

/-- The dates that a scan finds. -/
def Window.scanned (w : Window) (positions : List Int) : List Date :=
  match h : w.scan positions with
  | .ok found => found
  | .error why => absurd h (w.scan_ne_error positions why)

theorem Window.scan_eq_scanned (w : Window) (positions : List Int) :
    w.scan positions = .ok (w.scanned positions) := by
  unfold scanned
  split
  · assumption
  · rename_i why h
    exact absurd h (w.scan_ne_error positions why)

end Calendar
end Cadence
