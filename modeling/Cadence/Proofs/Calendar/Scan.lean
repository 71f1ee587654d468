import Cadence.Calendar.Scan
import Cadence.Proofs.Calendar.Week

/-!
# Scan — a scan ends, and finds what its window holds

A scan takes one turn for every date of its window, and one more behind the window, unless the
window ends with the calendar: then the turn at the last date is the last one. No turn takes a step
that fails. What the turns find is the selection of the window's dates by their weekdays.

- `TurnAt`: all that a turn can do
- `Window.EndsAfter`: a scan that ends after a number of turns
- `endsAfter_scan`: the turns of a scan
- `scan_eq`, `scanned_eq`: the scan of a window as a selection of its dates
- `weekday_scan_exact`: the scan of a window
-/

namespace Cadence
namespace Calendar

variable {w u v : Window} {positions others : List Int} {s : Scan}

/-! ## Dates on weekdays -/

namespace Window

theorem onWeekdays_append (hfirst : u.first = w.first) (hlast : v.last = w.last)
    (hnext : v.first.serial = u.last.serial + 1) :
    w.onWeekdays positions = u.onWeekdays positions ++ v.onWeekdays positions := by
  rw [onWeekdays, dates_append hfirst hlast hnext, List.filter_append]
  rfl

/-- Only the positions of weekdays count, each of them once and in no order. -/
theorem onWeekdays_congr (h : ∀ p, 0 ≤ p → p ≤ 6 → (p ∈ positions ↔ p ∈ others)) :
    w.onWeekdays others = w.onWeekdays positions := by
  refine List.filter_congr ?_
  intro d _
  have hlt := d.weekday.position_lt
  have hsame := h d.weekday.position (by omega) (by omega)
  rw [Bool.eq_iff_iff, List.contains_iff_mem, List.contains_iff_mem]
  exact hsame.symm

theorem onWeekdays_of_all (h : ∀ p, 0 ≤ p → p ≤ 6 → p ∈ positions) :
    w.onWeekdays positions = w.dates := by
  refine List.filter_eq_self.2 ?_
  intro d _
  have hlt := d.weekday.position_lt
  exact List.contains_iff_mem.2 (h _ (by omega) (by omega))

/-- The window of one date. -/
def only (d : Date) : Window := ⟨d, d, Nat.le_refl d.serial⟩

theorem dates_only (d : Date) : (only d).dates = [d] := by
  have hdate : Date.ofSerial? (d.serial : Nat) = some d := Date.ofSerial?_eq_some_iff.2 rfl
  simp [dates, only, days, hdate]

/-- What a scan has taken at a date is what it has found before, and the date if it is on a weekday
of the scan. -/
theorem reverse_taken (s : Scan) (positions : List Int) :
    (s.taken positions).reverse = s.earlier.reverse ++ (only s.current).onWeekdays positions := by
  rw [onWeekdays, dates_only, Scan.taken, List.filter_singleton]
  split <;> simp_all

end Window

/-! ## Turns -/

/-- All that a turn of a scan can do. None of its steps fails. -/
inductive TurnAt (w : Window) (positions : List Int) (s : Scan) : Except StepError ScanTurn → Prop
  /-- The date lies behind the window. -/
  | behind (past : w.last < s.current) : TurnAt w positions s (.ok (.ended s.earlier.reverse))
  /-- The calendar ends with the date. -/
  | final (reached : s.current ≤ w.last) (ended : s.current = .last) :
      TurnAt w positions s (.ok (.ended (s.taken positions).reverse))
  | onward (next : Date) (reached : s.current ≤ w.last)
    (later : next.serial = s.current.serial + 1) :
      TurnAt w positions s (.ok (.onward ⟨next, s.taken positions⟩))

theorem scanTurn_spec (w : Window) (positions : List Int) (s : Scan) :
    TurnAt w positions s (w.scanTurn positions s) := by
  unfold Window.scanTurn
  split
  · rename_i hreached
    split
    · rename_i hended
      exact .final hreached hended
    · rename_i hended
      rcases Date.exists_next hended with ⟨next, hnext, hserial⟩
      rw [hnext]
      exact .onward next hreached hserial
  · rename_i hpast
    have hlt : ¬ s.current.serial ≤ w.last.serial := hpast
    exact .behind (Date.lt_iff.2 (by omega))

/-! ## Runs -/

/-- A scan that stands at `s` ends after so many turns, none of which fails, and has found the dates
then. -/
inductive Window.EndsAfter (w : Window) (positions : List Int) : Nat → Scan → List Date → Prop
  | ended {s : Scan} {found : List Date} (turn : w.scanTurn positions s = .ok (.ended found)) :
      EndsAfter w positions 1 s found
  | onward {s next : Scan} {found : List Date} {n : Nat}
    (turn : w.scanTurn positions s = .ok (.onward next))
      (rest : EndsAfter w positions n next found) : EndsAfter w positions (n + 1) s found

theorem scanFrom_of_endsAfter {n : Nat} {found : List Date} (h : w.EndsAfter positions n s found) :
    w.scanFrom positions s = .ok found := by
  induction h with
  | ended turn =>
    rw [Window.scanFrom]
    split <;> simp_all
  | onward turn rest ih =>
    rw [Window.scanFrom]
    split <;> simp_all

/-- The turns that a scan of the window takes: one for each date, and one behind the window if there
is a date there. -/
def Window.turns (w : Window) : Nat := if w.last = .last then w.days else w.days + 1

theorem endsAfter_behind (hpast : w.last < s.current) :
    w.EndsAfter positions 1 s s.earlier.reverse := by
  refine .ended ?_
  have hlt := Date.lt_iff.1 hpast
  have hnot : ¬ s.current ≤ w.last := fun hle => Nat.not_lt.2 hle hlt
  rw [Window.scanTurn, if_neg hnot]

/-- From a date of the window on, a scan takes the turns of the rest of the window and finds its
dates. -/
theorem endsAfter_scan (hfirst : v.first = s.current) (hlast : v.last = w.last) :
    w.EndsAfter positions v.turns s (s.earlier.reverse ++ v.onWeekdays positions) := by
  have hle : s.current.serial ≤ w.last.serial := hfirst ▸ hlast ▸ v.first_le_last
  -- On the number of dates ahead in the window.
  induction hahead : w.last.serial - s.current.serial generalizing v s with
  | zero =>
    have hend : s.current = w.last := Date.ext_serial (by omega)
    have hv : v = Window.only s.current := Window.eq_of_ends hfirst (by rw [hlast, ← hend]; rfl)
    have hdays : (Window.only s.current).days = 1 := by simp [Window.only, Window.days]
    have hspec := scanTurn_spec w positions s
    generalize hturn : w.scanTurn positions s = turn at hspec
    rw [hv, ← Window.reverse_taken]
    cases hspec with
    | behind past => exact absurd (Date.lt_iff.1 past) (by omega)
    | final reached ended =>
      have hturns : (Window.only s.current).turns = 1 := (if_pos ended).trans hdays
      rw [hturns]
      exact .ended hturn
    | onward next reached later =>
      -- There is a date behind the window, and the scan looks at it.
      have hnot : s.current ≠ .last := by
        intro heq
        have hserial : s.current.serial = dayCount - 1 := congrArg Date.serial heq
        have hlt := next.serial_lt
        omega
      have hturns : (Window.only s.current).turns = 1 + 1 :=
        (if_neg hnot).trans (congrArg (· + 1) hdays)
      rw [hturns]
      exact .onward hturn (endsAfter_behind (Date.lt_iff.2 (by simp only; omega)))
  | succ n ih =>
    have hspec := scanTurn_spec w positions s
    generalize hturn : w.scanTurn positions s = turn at hspec
    cases hspec with
    | behind past => exact absurd (Date.lt_iff.1 past) (by omega)
    | final reached ended =>
      have hserial : s.current.serial = dayCount - 1 := congrArg Date.serial ended
      have hlt := w.last.serial_lt
      omega
    | onward next reached later =>
      have hrest : next.serial ≤ w.last.serial := by omega
      have hdates : v.onWeekdays positions =
          (Window.only s.current).onWeekdays positions ++
            Window.onWeekdays ⟨next, w.last, hrest⟩ positions :=
        Window.onWeekdays_append hfirst.symm hlast.symm later
      have hturns : v.turns = Window.turns ⟨next, w.last, hrest⟩ + 1 := by
        unfold Window.turns Window.days
        rw [hfirst, hlast]
        split <;> (simp only; omega)
      rw [hdates, hturns, ← List.append_assoc, ← Window.reverse_taken]
      exact .onward hturn (ih rfl rfl hrest (by simp only; omega))

theorem endsAfter_first (w : Window) (positions : List Int) :
    w.EndsAfter positions w.turns ⟨w.first, []⟩ (w.onWeekdays positions) := by
  have hends : w.EndsAfter positions w.turns ⟨w.first, []⟩ ([].reverse ++ w.onWeekdays positions) :=
    endsAfter_scan rfl rfl
  rwa [List.reverse_nil, List.nil_append] at hends

theorem scan_eq (w : Window) (positions : List Int) :
    w.scan positions = .ok (w.onWeekdays positions) := by
  unfold Window.scan
  split
  · rename_i hempty
    have hnone : w.onWeekdays positions = [] := by
      rw [List.isEmpty_iff.1 hempty]
      exact List.filter_false _
    rw [hnone]
  · exact scanFrom_of_endsAfter (endsAfter_first w positions)

theorem scanned_eq (w : Window) (positions : List Int) :
    w.scanned positions = w.onWeekdays positions :=
  Except.ok.inj ((w.scan_eq_scanned positions).symm.trans (scan_eq w positions))

/-- A scan returns. Its turns end with the last date of the calendar, or else with the first one
behind the window, and none of them takes a step that fails. It finds the dates of the window on the
given weekdays, in strict order, and only the set of the weekdays counts. With all weekdays these
are all dates of the window, and of two adjacent windows one finds the first part of them and the
other one the rest. -/
theorem weekday_scan_exact (w : Window) (positions : List Int) :
    ∃ found, w.scan positions = .ok found ∧ w.EndsAfter positions w.turns ⟨w.first, []⟩ found ∧
      found = w.onWeekdays positions ∧ found.Pairwise (· < ·) ∧
      (∀ d, d ∈ found ↔ (w.first ≤ d ∧ d ≤ w.last) ∧ (d.weekday.position : Int) ∈ positions) ∧
      (∀ others : List Int, (∀ p, 0 ≤ p → p ≤ 6 → (p ∈ positions ↔ p ∈ others)) →
        w.scan others = .ok found) ∧
      ((∀ p, 0 ≤ p → p ≤ 6 → p ∈ positions) → found.length = w.days) ∧
      ∀ u v : Window, u.first = w.first → v.last = w.last → v.first.serial = u.last.serial + 1 →
        ∃ before after, u.scan positions = .ok before ∧ v.scan positions = .ok after ∧
          found = before ++ after := by
  refine ⟨_, scan_eq w positions, endsAfter_first w positions, rfl, w.pairwise_onWeekdays _,
    fun _ => Window.mem_onWeekdays_iff, ?_, ?_, ?_⟩
  · intro others hsame
    rw [scan_eq, Window.onWeekdays_congr hsame]
  · intro hall
    rw [Window.onWeekdays_of_all hall, Window.length_dates]
  · intro u v hfirst hlast hnext
    exact ⟨_, _, scan_eq u positions, scan_eq v positions,
      Window.onWeekdays_append hfirst hlast hnext⟩

/-- The last date of the calendar is a Friday. -/
example : ((Window.only .last).scan [4, -3, 4]).toOption = some [.last] := by decide +kernel

end Calendar
end Cadence
