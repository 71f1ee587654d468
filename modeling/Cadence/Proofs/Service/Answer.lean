import Cadence.Proofs.Except
import Cadence.Proofs.Service.Table
import Cadence.Service.Respond

/-!
# Answer — when an operation answers, and with what

A refusal has a status of 400 or more and leaves the table alone; every other answer has the status
200. Only storing a rule and deleting a row change the table.

- `Refusal.le_status`, `perform_status`: the two kinds of answers
- `rowId_eq_ok_iff`, `row_eq_ok_iff`: the row that a request names
- `create_eq_ok`, `delete_eq_ok`: the answers that change the table
- `respond_of_ok`, `respond_of_error`: the answer to a request, by what its operation returns
- `respond_cases`: a request is refused, or its operation answers
-/

namespace Cadence
namespace Service

open Text

variable {s : Settings} {t u : Table} {q : Request} {e : Endpoint} {a : Response}

/-! ## Refusals -/

theorem Refusal.le_status (r : Refusal) : 400 ≤ r.status := by
  unfold status
  split
  · decide
  · split <;> decide

/-! ## Ids -/

/-- The ids that the storage of the table takes. -/
def IsRowId (i : Int) : Prop := -9223372036854775808 ≤ i ∧ i ≤ 9223372036854775807

instance (i : Int) : Decidable (IsRowId i) := inferInstanceAs (Decidable (_ ∧ _))

theorem rowId_eq_ok_iff {id : String} {i : Int} :
    checked (rowId id) = .ok i ↔ integerOfText id = .ok i := by
  simp only [checked, rowId, one, located, integer, mapError_eq_ok_iff]

theorem row_of_isRowId {i : Int} (h : IsRowId i) :
    row t i = (t.find? i).elim (.error .noSuchRow) .ok := by
  rcases h with ⟨hlow, hhigh⟩
  rw [row, if_neg (by omega)]
  cases t.find? i <;> rfl

theorem row_of_not_isRowId {i : Int} (h : ¬ IsRowId i) : row t i = .error .wideId := by
  unfold IsRowId at h
  rw [row, if_pos (by omega)]

theorem row_eq_ok_iff {i : Int} {r : Row} :
    row t i = .ok r ↔ IsRowId i ∧ r ∈ t.rows ∧ (r.id : Int) = i := by
  by_cases hi : IsRowId i
  · rw [row_of_isRowId hi, ← Table.find?_eq_some_iff]
    cases t.find? i <;> simp [hi]
  · simp [row_of_not_isRowId hi, hi]

/-! ## Operations -/

theorem create_eq_ok {text : String} (h : create t text = .ok (u, a)) :
    ∃ name rule, createRequest text = .ok (.chars name, rule) ∧ u = t.insert name rule.encode ∧
      a.status = 200 ∧ a.body = rowBody ⟨t.nextId, name, rule.encode⟩ := by
  unfold create at h
  rcases bind_eq_ok h with ⟨⟨name, rule⟩, hrequest, h⟩
  cases name with
  | codes points => cases h
  | chars name =>
    cases h
    exact ⟨name, rule, hrequest, rfl, rfl, rfl⟩

theorem delete_eq_ok {id : String} (h : delete t id = .ok (u, a)) :
    ∃ r ∈ t.rows, integerOfText id = .ok (r.id : Int) ∧ u = t.erase r.id ∧ a.status = 200 := by
  unfold delete at h
  rcases bind_eq_ok h with ⟨i, hid, h⟩
  rcases bind_eq_ok h with ⟨r, hrow, h⟩
  cases h
  rcases row_eq_ok_iff.1 hrow with ⟨-, hr, rfl⟩
  exact ⟨r, hr, rowId_eq_ok_iff.1 hid, rfl, rfl⟩

/-- Only storing a rule and deleting a row change the table. -/
theorem perform_table (h : perform s t q e = .ok (u, a)) (hcreate : e ≠ .create)
    (hdelete : ∀ id, e ≠ .delete id) : u = t := by
  cases e with
  | health | list =>
    cases h
    rfl
  | preview | decode | fetch id | dates id =>
    rcases map_eq_ok_iff.1 h with ⟨_, -, hanswer⟩
    cases hanswer
    rfl
  | create => exact absurd rfl hcreate
  | delete id => exact absurd rfl (hdelete id)

theorem fetch_eq_ok {id : String} (h : fetch t id = .ok a) :
    ∃ r ∈ t.rows, integerOfText id = .ok (r.id : Int) ∧ a = ⟨200, rowBody r, rowLogs r⟩ := by
  unfold fetch at h
  rcases bind_eq_ok h with ⟨i, hid, h⟩
  rcases bind_eq_ok h with ⟨r, hrow, h⟩
  cases h
  rcases row_eq_ok_iff.1 hrow with ⟨-, hr, rfl⟩
  exact ⟨r, hr, rowId_eq_ok_iff.1 hid, rfl⟩

theorem fetch_eq {id : String} {i : Int} (hid : integerOfText id = .ok i) (hi : IsRowId i) :
    fetch t id = (t.find? i).elim (.error .noSuchRow) fun r => .ok ⟨200, rowBody r, rowLogs r⟩ := by
  rw [fetch, rowId_eq_ok_iff.2 hid]
  simp only [bind, Except.bind, row_of_isRowId hi]
  cases t.find? i <;> rfl

theorem delete_eq {id : String} {i : Int} (hid : integerOfText id = .ok i) (hi : IsRowId i) :
    delete t id = (t.find? i).elim (.error .noSuchRow) fun r =>
      .ok (t.erase r.id, ⟨200, .object [("status", .text "deleted")], []⟩) := by
  rw [delete, rowId_eq_ok_iff.2 hid]
  simp only [bind, Except.bind, row_of_isRowId hi]
  cases t.find? i <;> rfl

/-- A preview that is answered has passed the checks on its dates. -/
theorem preview_eq_ok {text : String} (h : preview s text = .ok a) :
    ∃ (rule : Rule) (f : DateFields) (w : Calendar.Window) (filter : Option Calendar.Window),
      windows s.maxPreviewDays f = .ok (w, filter) ∧
        a = ⟨200,
          .object
            [("dates", dateList (rule.generate w filter s.firstWeekday).dates),
              ("summary", summaryBody (rule.summarize (some w.first)))],
          runLogs rule (rule.generate w filter s.firstWeekday)⟩ := by
  unfold preview at h
  rcases bind_eq_ok h with ⟨ms, -, h⟩
  rcases bind_eq_ok h with ⟨⟨fields, ⟨start, last⟩, ⟨filterStart, filterLast⟩⟩, -, h⟩
  rcases bind_eq_ok h with ⟨rule, -, h⟩
  rcases bind_eq_ok h with ⟨⟨w, filter⟩, hwindows, h⟩
  cases h
  exact ⟨rule, _, w, filter, hwindows, rfl⟩

theorem decode_eq_ok {text : String} (h : decode text = .ok a) :
    ∃ rule, a = ⟨200, .object [("rule", optionalRule rule)], []⟩ := by
  unfold decode at h
  rcases bind_eq_ok h with ⟨ms, -, h⟩
  rcases bind_eq_ok h with ⟨payload, -, h⟩
  cases h
  exact ⟨_, rfl⟩

theorem dates_eq_ok {id : String} (h : dates s t q id = .ok a) :
    ∃ (i : Int) (rule : Rule) (run : Schedule.Run),
      a = ⟨200, .object [("rule_id", .int i), ("dates", dateList run.dates)],
        runLogs rule run⟩ := by
  unfold dates at h
  rcases bind_eq_ok h with ⟨⟨i, fields⟩, -, h⟩
  rcases bind_eq_ok h with ⟨⟨window, filter⟩, -, h⟩
  rcases bind_eq_ok h with ⟨stored, -, h⟩
  simp only at h
  split at h
  · cases h
    exact ⟨i, _, _, rfl⟩
  · cases h

theorem perform_status (h : perform s t q e = .ok (u, a)) : a.status = 200 := by
  cases e with
  | health | list =>
    cases h
    rfl
  | preview =>
    rcases map_eq_ok_iff.1 h with ⟨_, hanswer, ⟨⟩⟩
    rcases preview_eq_ok hanswer with ⟨rule, f, w, filter, -, rfl⟩
    rfl
  | decode =>
    rcases map_eq_ok_iff.1 h with ⟨_, hanswer, ⟨⟩⟩
    rcases decode_eq_ok hanswer with ⟨rule, rfl⟩
    rfl
  | fetch id =>
    rcases map_eq_ok_iff.1 h with ⟨_, hanswer, ⟨⟩⟩
    rcases fetch_eq_ok hanswer with ⟨r, -, -, rfl⟩
    rfl
  | dates id =>
    rcases map_eq_ok_iff.1 h with ⟨_, hanswer, ⟨⟩⟩
    rcases dates_eq_ok hanswer with ⟨i, rule, run, rfl⟩
    rfl
  | create =>
    rcases create_eq_ok h with ⟨name, rule, -, -, hstatus, -⟩
    exact hstatus
  | delete id =>
    rcases delete_eq_ok h with ⟨r, -, -, -, hstatus⟩
    exact hstatus

/-! ## Requests -/

/-- No operation is named by a request for the head of an answer. -/
theorem method_ne_head (h : route q = .ok e) : q.method ≠ .head := by
  intro hhead
  unfold route at h
  simp only [hhead, only, reduceCtorEq, decide_false, Bool.false_eq_true, if_false] at h
  split at h
  · split at h
    · cases h
    · split at h <;> cases h
  · split at h <;> cases h
  · split at h <;> cases h
  · cases h

theorem respond_of_ok (he : route q = .ok e) (h : perform s t q e = .ok (u, a)) :
    respond s t q = (u, a) := by
  simp only [respond, fullAnswer, he, h, if_neg (method_ne_head he)]

theorem respond_of_error {refusal : Refusal} (he : route q = .ok e)
    (h : perform s t q e = .error refusal) : respond s t q = (t, refusal.response) := by
  simp only [respond, fullAnswer, he, h, if_neg (method_ne_head he)]

/-- What is answered for an operation that leaves the table alone. -/
def outcome : Except Refusal Response → Response
  | .ok a => a
  | .error refusal => refusal.response

theorem respond_of_map {x : Except Refusal Response} (he : route q = .ok e)
    (h : perform s t q e = x.map (t, ·)) : respond s t q = (t, outcome x) := by
  cases x with
  | error refusal => exact respond_of_error he h
  | ok a => exact respond_of_ok he h

def RouteError.refusal : RouteError → Refusal
  | notFound => .noSuchPath
  | methodNotAllowed => .noSuchMethod

theorem respond_of_unrouted {cause : RouteError} (h : route q = .error cause) :
    respond s t q =
      (t, if q.method = .head then { cause.refusal.response with body := .text "" }
        else cause.refusal.response) := by
  cases cause with
  | notFound => simp only [respond, fullAnswer, h, RouteError.refusal]
  | methodNotAllowed => simp only [respond, fullAnswer, h, RouteError.refusal]

/-- A request is refused, or its operation answers. -/
theorem respond_cases (s : Settings) (t : Table) (q : Request) :
    ((respond s t q).1 = t ∧ 400 ≤ (respond s t q).2.status) ∨
      ∃ e u a, route q = .ok e ∧ perform s t q e = .ok (u, a) ∧ respond s t q = (u, a) := by
  cases hroute : route q with
  | error cause =>
    rw [respond_of_unrouted hroute]
    refine .inl ⟨rfl, ?_⟩
    simp only
    split
    · exact cause.refusal.le_status
    · exact cause.refusal.le_status
  | ok e =>
    cases hperform : perform s t q e with
    | error refusal =>
      rw [respond_of_error hroute hperform]
      exact .inl ⟨rfl, refusal.le_status⟩
    | ok answer =>
      rcases answer with ⟨u, a⟩
      exact .inr ⟨e, u, a, rfl, hperform, respond_of_ok hroute hperform⟩

/-! ### Paths -/

/-- A segment that names an id is not empty. -/
theorem segment_ne_nil {segment : List Char} {i : Int}
    (h : integerOfText (String.ofList segment) = .ok i) : segment ≠ [] := by
  rintro rfl
  cases h

section Paths

variable {segment : List Char}

theorem route_list (hmethod : q.method = .get) (hpath : q.path = ["recurrences".toList]) :
    route q = .ok .list := by
  simp [route, hmethod, hpath, isLast]

theorem route_fetch (hmethod : q.method = .get) (hpath : q.path = ["recurrences".toList, segment])
    (hsegment : segment ≠ []) : route q = .ok (.fetch (String.ofList segment)) := by
  simp [route, hmethod, hpath, hsegment]

theorem route_delete (hmethod : q.method = .delete)
    (hpath : q.path = ["recurrences".toList, segment]) (hsegment : segment ≠ []) :
    route q = .ok (.delete (String.ofList segment)) := by
  simp [route, hmethod, hpath, hsegment]

theorem route_dates (hmethod : q.method = .get)
    (hpath : q.path = ["recurrences".toList, segment, "dates".toList]) (hsegment : segment ≠ []) :
    route q = .ok (.dates (String.ofList segment)) := by
  simp [route, hmethod, hpath, hsegment, isLast, only]

theorem route_create (hmethod : q.method = .post) (hpath : q.path = ["recurrences".toList]) :
    route q = .ok .create := by
  simp [route, hmethod, hpath, isLast]

theorem route_preview (hmethod : q.method = .post)
    (hpath : q.path = ["recurrences".toList, "preview".toList]) : route q = .ok .preview := by
  simp [route, hmethod, hpath, isLast]

end Paths

end Service
end Cadence
