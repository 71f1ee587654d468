import Cadence.Proofs.Calendar.Written
import Cadence.Proofs.Rule.Documented
import Cadence.Proofs.Service.Answer
import Cadence.Proofs.Service.Field

/-!
# Dates — requests that name dates, in a body or in a query

A window and a filter can be asked for in the members of a body or in the fields of a query. Written
as `YYYY-MM-DD`, the same dates are read from both, and are checked in the same way.

- `DateFields.HeldBy`, `DateFields.AskedBy`: the dates of a body and of a query
- `bodyDates_eq_ok`, `datesRequest_eq_ok`: both are read
- `preview_eq`, `dates_eq`: the answers for these dates
-/

namespace Cadence
namespace Service

open Calendar Json Schedule Text

variable {f : DateFields} {ms : Members} {q : Request}

/-! ## Single dates -/

theorem dateOfText_iso (d : Date) : dateOfText d.iso = .ok d := by
  simp only [dateOfText, civil?_iso, dateOfCivil, Date.ofCivil?_of_date]

theorem date_iso (d : Date) : date (.text d.iso) = .ok d := by
  show (dateOfText d.iso).mapError dateFault = .ok d
  rw [dateOfText_iso]
  rfl

/-! ## Dates of a request -/

/-- The members of a body name these dates. A filter that is not given is absent or null. -/
structure DateFields.HeldBy (f : DateFields) (ms : Members) : Prop where
  start : IsLast "start_date" (.text f.start.iso) ms
  last : IsLast "end_date" (.text f.last.iso) ms
  filterStart : HoldsOptional "filter_start" (fun d : Date => .text d.iso) ms f.filterStart
  filterLast : HoldsOptional "filter_end" (fun d : Date => .text d.iso) ms f.filterLast

instance (f : DateFields) (ms : Members) : Decidable (f.HeldBy ms) :=
  decidable_of_iff
    (IsLast "start_date" (.text f.start.iso) ms ∧ IsLast "end_date" (.text f.last.iso) ms ∧
      HoldsOptional "filter_start" (fun d : Date => .text d.iso) ms f.filterStart ∧
      HoldsOptional "filter_end" (fun d : Date => .text d.iso) ms f.filterLast)
    ⟨fun ⟨hstart, hlast, hfilterStart, hfilterLast⟩ => ⟨hstart, hlast, hfilterStart, hfilterLast⟩,
      fun h => ⟨h.start, h.last, h.filterStart, h.filterLast⟩⟩

/-- The fields of a query name these dates. -/
structure DateFields.AskedBy (f : DateFields) (q : Request) : Prop where
  start : q.queryValue? "start_date" = some f.start.iso
  last : q.queryValue? "end_date" = some f.last.iso
  filterStart : q.queryValue? "filter_start" = f.filterStart.map Date.iso
  filterLast : q.queryValue? "filter_end" = f.filterLast.map Date.iso

theorem required_date {name : String} {d : Date} (h : IsLast name (.text d.iso) ms) :
    required date ms name = .ok d :=
  required_eq_ok_iff.2 ⟨_, lookup_eq_some_iff.2 h, date_iso d⟩

theorem optional_date {name : String} {d? : Option Date}
    (h : HoldsOptional name (fun d : Date => .text d.iso) ms d?) :
    optional (one date) ms name = .ok d? := by
  cases d? with
  | none =>
    rcases h with habsent | hnull
    · rw [optional, lookup_eq_none_iff.2 habsent]
    · rw [optional, lookup_eq_some_iff.2 hnull]
  | some d =>
    rw [optional, lookup_eq_some_iff.2 h]
    simp only [one, located, date_iso]
    rfl

theorem bodyDates_eq_ok (h : f.HeldBy ms) :
    ((required date ms "start_date").and (required date ms "end_date")).and
        ((optional (one date) ms "filter_start").and (optional (one date) ms "filter_end")) =
      .ok ((f.start, f.last), (f.filterStart, f.filterLast)) := by
  rw [required_date h.start, required_date h.last, optional_date h.filterStart,
    optional_date h.filterLast]
  rfl

theorem queryDate_iso (d : Date) (name : String) : queryDate (some d.iso) name = .ok d := by
  simp only [queryDate, one, located, date_iso]
  rfl

theorem optionalQueryDate_iso (d? : Option Date) (name : String) :
    optionalQueryDate (d?.map Date.iso) name = .ok d? := by
  cases d? with
  | none => rfl
  | some d =>
    simp only [optionalQueryDate, Option.map_some, one, located, date_iso]
    rfl

theorem datesRequest_eq_ok {id : String} {i : Int} (hid : integerOfText id = .ok i)
    (h : f.AskedBy q) :
    datesRequest q id = .ok (i, f) := by
  have hrow : rowId id = .ok i := checked_eq_ok_iff.1 (rowId_eq_ok_iff.2 hid)
  rw [datesRequest, hrow, h.start, h.last, h.filterStart, h.filterLast, queryDate_iso,
    queryDate_iso, optionalQueryDate_iso, optionalQueryDate_iso]
  rfl

/-! ## Answers -/

section Answers

variable {s : Settings} {t : Table} {p : Payload} {rule : Rule}

def previewAnswer (s : Settings) (rule : Rule) (w : Window × Option Window) : Response :=
  let run := rule.generate w.1 w.2 s.firstWeekday
  ⟨200, .object [("dates", dateList run.dates),
    ("summary", summaryBody (rule.summarize (some w.1.first)))], runLogs rule run⟩

def datesAnswer (s : Settings) (i : Int) (rule : Rule) (w : Window × Option Window) : Response :=
  let run := rule.generate w.1 w.2 s.firstWeekday
  ⟨200, .object [("rule_id", .int i), ("dates", dateList run.dates)], runLogs rule run⟩

/-- A preview checks its rule first, then its dates. -/
theorem preview_eq {text : String} (hms : members text = .ok ms) (hp : ruleFields ms = .ok p)
    (hf : f.HeldBy ms) :
    preview s text = ((ruleOf p).mapError .rule).bind fun rule =>
      (windows s.maxPreviewDays f).map (previewAnswer s rule) := by
  have hfields :=
    checked_eq_ok_iff.2 (Checked.and_eq_ok_iff (x := (p, _)).2 ⟨hp, bodyDates_eq_ok hf⟩)
  simp only [preview, hms, hfields, bind, Except.bind]
  cases (ruleOf p).mapError Refusal.rule with
  | error refusal => rfl
  | ok rule => cases windows s.maxPreviewDays f <;> rfl

/-- Of a row that is there and readable, only the dates are left to check. -/
theorem dates_eq {id : String} {r : Row} (hid : integerOfText id = .ok (r.id : Int))
    (hi : IsRowId r.id) (hr : r ∈ t.rows) (hrule : Rule.decode r.payload = some rule)
    (hf : f.AskedBy q) :
    dates s t q id = (windows s.maxPreviewDays f).map (datesAnswer s r.id rule) := by
  have hrow : row t r.id = .ok r := row_eq_ok_iff.2 ⟨hi, hr, rfl⟩
  simp only [dates, datesRequest_eq_ok hid hf, bind, Except.bind]
  cases windows s.maxPreviewDays f with
  | error refusal => rfl
  | ok w =>
    simp only [hrow, hrule]
    rfl

end Answers

end Service
end Cadence
