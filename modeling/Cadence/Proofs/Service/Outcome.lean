import Cadence.Proofs.Schedule.Ascending
import Cadence.Proofs.Schedule.Loose
import Cadence.Proofs.Service.Answer

/-!
# Outcome — all that a request for dates can come to

Once its fields are read, a request for dates is refused for the first thing that is wrong with
them, or for its row, or it is answered with the dates of one generation. Neither the window nor the
generation can fail then, and since the window has been checked, no answer is longer than the
configuration allows.

- `DateBreach`: what is wrong with the dates of a request, in the order of the checks
- `windows_cases`: the checks, and the windows behind them
- `DatesOutcome`: the answers that are possible, each with its condition
- `dates_outcome_exact`: the answer to a request for dates, and the size of every answer
-/

namespace Cadence
namespace Service

open Calendar

variable {s : Settings} {t : Table} {q : Request} {i : Int} {f : DateFields} {greatest : Nat}

/-! ## Dates that are refused -/

inductive DateBreach
  | reversed
  | long
  | half
  | reversedFilter
  deriving DecidableEq, Repr

namespace DateBreach

/-- The checks in their order. -/
def all : List DateBreach := [reversed, long, half, reversedFilter]

/-- A window of dates has one day more than there are steps from its start to its end. -/
def Holds (greatest : Nat) (f : DateFields) : DateBreach → Prop
  | reversed => f.last < f.start
  | long => greatest < f.last.serial - f.start.serial + 1
  | half => f.filterStart.isSome ≠ f.filterLast.isSome
  | reversedFilter => ∃ a ∈ f.filterStart, ∃ b ∈ f.filterLast, b < a

instance (breach : DateBreach) : Decidable (breach.Holds greatest f) :=
  match breach with
  | reversed => inferInstanceAs (Decidable (f.last < f.start))
  | long => inferInstanceAs (Decidable (greatest < f.last.serial - f.start.serial + 1))
  | half => inferInstanceAs (Decidable (f.filterStart.isSome ≠ f.filterLast.isSome))
  | reversedFilter => inferInstanceAs (Decidable (∃ a ∈ f.filterStart, ∃ b ∈ f.filterLast, b < a))

/-- The first check that fails. -/
def first? (greatest : Nat) (f : DateFields) : Option DateBreach :=
  all.find? fun breach => breach.Holds greatest f

def detail (greatest : Nat) : DateBreach → String
  | reversed => "Start date must be on or before end date."
  | long => "Date window must not exceed " ++ toString greatest ++ " days."
  | half => "Filter start and end must be provided together."
  | reversedFilter => "Filter start must be on or before filter end."

def refusal (greatest : Nat) : DateBreach → Refusal
  | reversed => .reversedDates
  | long => .longWindow greatest
  | half => .halfFilter
  | reversedFilter => .reversedFilter

end DateBreach

/-- A refusal with a text. -/
def problem (status : Nat) (text : String) : Response :=
  ⟨status, .object [("detail", .text text)], []⟩

theorem response_refusal (greatest : Nat) (breach : DateBreach) :
    (breach.refusal greatest).response = problem 400 (breach.detail greatest) := by
  cases breach <;> rfl

/-! ## Dates that pass -/

/-- The window of two dates is constructed without a failure. -/
def Constructs (first last : Date) (w : Window) : Prop :=
  Window.between? ⟨first, none⟩ ⟨last, none⟩ = .ok w

/-- The filter of two dates, or none if both are absent. -/
inductive ConstructsFilter : Option Date → Option Date → Option Window → Prop
  | none : ConstructsFilter none none none
  | some {a b : Date} {w : Window} : Constructs a b w → ConstructsFilter (some a) (some b) (some w)

theorem constructs_of_le {a b : Date} (h : a ≤ b) : Constructs a b ⟨a, b, h⟩ := dif_pos h

/-- The first check that fails decides, and if none does, the windows are constructed. -/
theorem windows_cases (greatest : Nat) (f : DateFields) :
    (∃ breach, DateBreach.first? greatest f = some breach ∧
        windows greatest f = .error (breach.refusal greatest)) ∨
      (DateBreach.first? greatest f = none ∧
        ∃ w filter, windows greatest f = .ok (w, filter) ∧ Constructs f.start f.last w ∧
          ConstructsFilter f.filterStart f.filterLast filter ∧ w.days ≤ greatest) := by
  unfold DateBreach.first? DateBreach.all
  by_cases hreversed : DateBreach.Holds greatest f .reversed
  · refine .inl ⟨.reversed, List.find?_cons_of_pos (decide_eq_true hreversed), ?_⟩
    exact dif_neg (Nat.not_le.2 hreversed)
  rw [List.find?_cons_of_neg (by simpa using hreversed)]
  have hle : f.start ≤ f.last := Nat.not_lt.1 hreversed
  by_cases hlong : DateBreach.Holds greatest f .long
  · refine .inl ⟨.long, List.find?_cons_of_pos (decide_eq_true hlong), ?_⟩
    have hdays : greatest < (⟨f.start, f.last, hle⟩ : Window).days := hlong
    simp only [windows, dif_pos hle, if_pos hdays]
    rfl
  have hdays : (⟨f.start, f.last, hle⟩ : Window).days ≤ greatest := Nat.not_lt.1 hlong
  rw [List.find?_cons_of_neg (by simpa using hlong)]
  simp only [windows, dif_pos hle, if_neg (Nat.not_lt.2 hdays)]
  -- The window has passed, and only the filter is left.
  have hwindow := constructs_of_le hle
  cases hstart : f.filterStart with
  | none =>
    cases hlast : f.filterLast with
    | none =>
      refine .inr ⟨?_, _, none, rfl, hwindow, .none, hdays⟩
      simp [DateBreach.Holds, hstart, hlast]
    | some b =>
      refine .inl ⟨.half, ?_, rfl⟩
      simp [DateBreach.Holds, hstart, hlast]
  | some a =>
    cases hlast : f.filterLast with
    | none =>
      refine .inl ⟨.half, ?_, rfl⟩
      simp [DateBreach.Holds, hstart, hlast]
    | some b =>
      by_cases hfilter : a ≤ b
      · refine .inr ⟨?_, _, _, dif_pos hfilter, hwindow, .some (constructs_of_le hfilter), hdays⟩
        have hnot : ¬ b < a := Nat.not_lt.2 hfilter
        simp [DateBreach.Holds, hstart, hlast, hnot]
      · refine .inl ⟨.reversedFilter, ?_, dif_neg hfilter⟩
        have hlt : b < a := Nat.not_le.1 hfilter
        simp [DateBreach.Holds, hstart, hlast, hlt]

/-! ## Outcomes -/

/-- The answers to a request for the dates of an id. Each has its own condition, and they are
checked from the first to the last. -/
inductive DatesOutcome (s : Settings) (t : Table) (i : Int) (f : DateFields) : Response → Prop
  | refused {breach : DateBreach} :
    DateBreach.first? s.maxPreviewDays f = some breach →
      DatesOutcome s t i f (problem 400 (breach.detail s.maxPreviewDays))
  /-- The storage of the table does not take the id. -/
  | wide :
    DateBreach.first? s.maxPreviewDays f = none → ¬ IsRowId i →
      DatesOutcome s t i f ⟨500, .text "Internal Server Error", []⟩
  | missing :
    DateBreach.first? s.maxPreviewDays f = none → IsRowId i → (∀ r ∈ t.rows, (r.id : Int) ≠ i) →
      DatesOutcome s t i f (problem 404 "Recurrence not found.")
  | undecodable {r : Row} :
    DateBreach.first? s.maxPreviewDays f = none → IsRowId i → r ∈ t.rows → (r.id : Int) = i →
      Rule.decode r.payload = none →
      DatesOutcome s t i f (problem 422 "Stored recurrence could not be decoded.")
  | answered {r : Row} {rule : Rule} {w : Window} {filter : Option Window} {run : Schedule.Run} :
    DateBreach.first? s.maxPreviewDays f = none → IsRowId i → r ∈ t.rows → (r.id : Int) = i →
      Rule.decode r.payload = some rule → Constructs f.start f.last w →
      ConstructsFilter f.filterStart f.filterLast filter →
      LooseRule.generate ⟨rule, none⟩ w filter s.firstWeekday = .ok run →
      run.dates.length ≤ s.maxPreviewDays →
      DatesOutcome s t i f
        ⟨200, .object [("rule_id", .int i), ("dates", dateList run.dates)], runLogs rule run⟩

/-- No generation in a window that has been checked finds more dates than the configuration allows.
-/
theorem length_generate_le_of_windows {rule : Rule} {w : Window} {filter : Option Window}
    (h : windows greatest f = .ok (w, filter)) (firstWeekday : Weekday) :
    (rule.generate w filter firstWeekday).dates.length ≤ greatest := by
  rcases windows_cases greatest f with ⟨breach, -, herror⟩ | ⟨-, w', filter', hok, -, -, hdays⟩
  · rw [h] at herror
    cases herror
  · rw [h] at hok
    cases hok
    exact Nat.le_trans Schedule.length_generate_le hdays

/-- A request for dates has one of the outcomes. -/
theorem datesOutcome_respond {id : String} (hroute : route q = .ok (.dates id))
    (hq : datesRequest q id = .ok (i, f)) : DatesOutcome s t i f (respond s t q).2 := by
  rw [respond_of_map hroute rfl]
  show DatesOutcome s t i f (outcome (dates s t q id))
  rcases windows_cases s.maxPreviewDays f with
    ⟨breach, hfirst, hwindows⟩ | ⟨hfirst, w, filter, hwindows, hw, hfilter, -⟩
  · simp only [dates, hq, hwindows, bind, Except.bind, outcome, response_refusal]
    exact .refused hfirst
  -- The dates have passed, so the row decides.
  simp only [dates, hq, hwindows, bind, Except.bind]
  by_cases hi : IsRowId i
  · rw [row_of_isRowId hi]
    cases hfind : t.find? i with
    | none => exact .missing hfirst hi (Table.find?_eq_none_iff.1 hfind)
    | some r =>
      rcases Table.find?_eq_some_iff.1 hfind with ⟨hr, hid⟩
      cases hrule : Rule.decode r.payload with
      | none =>
        simp only [Option.elim, hrule]
        exact .undecodable hfirst hi hr hid hrule
      | some rule =>
        simp only [Option.elim, hrule]
        exact .answered hfirst hi hr hid hrule hw hfilter (Schedule.generate_of_odd_eq_none rfl)
          (length_generate_le_of_windows hwindows s.firstWeekday)
  · rw [row_of_not_isRowId hi]
    exact .wide hfirst hi

/-- A request for a few dates of 2024 from the row of an id. -/
def datesOfRow (id : String) : Request where
  method := .get
  path := ["recurrences".toList, id.toList, "dates".toList]
  query :=
    [("start_date", "2024-02-27"), ("end_date", "2024-03-04"), ("filter_start", "2024-03-02"),
      ("filter_end", "2024-12-31")]
  body := ""

def endOfFebruary : DateFields where
  start := ⟨738942, by decide⟩
  last := ⟨738948, by decide⟩
  filterStart := some ⟨738946, by decide⟩
  filterLast := some ⟨739250, by decide⟩

end Service
end Cadence
