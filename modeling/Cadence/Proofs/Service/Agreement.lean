import Cadence.Proofs.Service.Create
import Cadence.Proofs.Service.Dates
import Cadence.Proofs.Service.History

/-!
# Agreement — a stored rule and its preview

A rule can be previewed without being stored. Once it is stored, and as long as its row is not
deleted, the dates that are asked of the row are those of the preview, and both are refused for the
same reasons.

- `Request.StoresRule`, `Request.PreviewsRule`, `Request.AsksForDates`: the three requests
- `Agree`: two answers with one status, one detail, the same dates and the same warnings
- `stored_rule_agrees_with_preview`: the answers to these requests
-/

namespace Cadence
namespace Service

open Calendar Json Text

variable {s : Settings} {t v : Table} {p : Payload} {f : DateFields} {q : Request}

/-! ## Requests -/

/-- A request to store the rule of some fields under a name that is not blank. -/
structure Request.StoresRule (q : Request) (p : Payload) : Prop where
  method : q.method = .post
  path : q.path = ["recurrences".toList]
  body : ∃ ms, readBody q.body = .ok (.object ms) ∧ ruleFields ms = .ok p ∧
    ∃ name, IsLast "name" (.text name) ms ∧ trimmedName name ≠ .chars ""

/-- A request to preview the rule of some fields for some dates. -/
structure Request.PreviewsRule (q : Request) (p : Payload) (f : DateFields) : Prop where
  method : q.method = .post
  path : q.path = ["recurrences".toList, "preview".toList]
  body : ∃ ms, readBody q.body = .ok (.object ms) ∧ ruleFields ms = .ok p ∧ f.HeldBy ms

/-- A request for the dates of the row of an id. -/
structure Request.AsksForDates (q : Request) (i : Int) (f : DateFields) : Prop where
  method : q.method = .get
  path : ∃ segment, q.path = ["recurrences".toList, segment, "dates".toList] ∧
    integerOfText (String.ofList segment) = .ok i
  dates : f.AskedBy q

/-! ### Deciding what a request asks -/

def bodyMembers? (text : String) : Option Members :=
  match readBody text with
  | .ok (.object ms) => some ms
  | _ => none

theorem bodyMembers?_eq_some_iff {text : String} {ms : Members} :
    bodyMembers? text = some ms ↔ readBody text = .ok (.object ms) := by
  unfold bodyMembers?
  split
  · rename_i h
    simp [h]
  · rename_i hne
    simpa using hne ms

instance (text : String) (P : Members → Prop) [DecidablePred P] :
    Decidable (∃ ms, readBody text = .ok (.object ms) ∧ P ms) :=
  decidable_of_iff (∃ ms ∈ bodyMembers? text, P ms) (by simp [bodyMembers?_eq_some_iff])

instance (name : Spelling) (ms : Members) (P : Spelling → Prop) [DecidablePred P] :
    Decidable (∃ s, IsLast name (.text s) ms ∧ P s) :=
  decidable_of_iff (∃ s ∈ (lookup name ms).bind text?, P s) (by simp [isLast_text_iff])

instance (ms : Members) (p : Payload) : Decidable (ruleFields ms = .ok p) :=
  decidable_of_iff _ toOption_eq_some_iff

instance : Decidable (q.StoresRule p) :=
  decidable_of_iff
    (q.method = .post ∧ q.path = ["recurrences".toList] ∧
      ∃ ms, readBody q.body = .ok (.object ms) ∧ ruleFields ms = .ok p ∧
        ∃ name, IsLast "name" (.text name) ms ∧ trimmedName name ≠ .chars "")
    ⟨fun ⟨hmethod, hpath, hbody⟩ => ⟨hmethod, hpath, hbody⟩,
      fun h => ⟨h.method, h.path, h.body⟩⟩

instance : Decidable (q.PreviewsRule p f) :=
  decidable_of_iff
    (q.method = .post ∧ q.path = ["recurrences".toList, "preview".toList] ∧
      ∃ ms, readBody q.body = .ok (.object ms) ∧ ruleFields ms = .ok p ∧ f.HeldBy ms)
    ⟨fun ⟨hmethod, hpath, hbody⟩ => ⟨hmethod, hpath, hbody⟩,
      fun h => ⟨h.method, h.path, h.body⟩⟩

/-! ## Answers -/

/-- Two answers agree when they have one status, and then one detail, or the same dates and
warnings. -/
structure Agree (a b : Response) : Prop where
  status : a.status = b.status
  refused : a.status = 400 →
    ∃ detail, a.body = .object [("detail", detail)] ∧ b.body = .object [("detail", detail)]
  answered : a.status = 200 →
    ∃ ds : List Date, Json.member? "dates" a.body = some (dateList ds) ∧
      Json.member? "dates" b.body = some (dateList ds) ∧ a.logs = b.logs

theorem Agree.of_refusal (refusal : Refusal) : Agree refusal.response refusal.response := by
  refine ⟨rfl, ?_, ?_⟩
  · intro hstatus
    cases hdetail : refusal.detail? with
    | none =>
      -- An answer that says nothing has the status 500.
      have hsilent : refusal.status = 500 := if_pos (by rw [hdetail]; rfl)
      rw [show refusal.status = 400 from hstatus] at hsilent
      cases hsilent
    | some detail =>
      have hbody : refusal.response.body = .object [("detail", detail)] := by
        show refusal.body = _
        rw [Refusal.body, hdetail]
        rfl
      exact ⟨detail, hbody, hbody⟩
  · intro hstatus
    have hrefused : 400 ≤ refusal.response.status := refusal.le_status
    omega

theorem agree_answers (s : Settings) (i : Int) (rule : Rule) (w : Window × Option Window) :
    Agree (datesAnswer s i rule w) (previewAnswer s rule w) := by
  refine ⟨rfl, nofun, ?_⟩
  intro _
  refine ⟨(rule.generate w.1 w.2 s.firstWeekday).dates, ?_, ?_, rfl⟩
  · simp [datesAnswer, Json.member?, lookup]
  · simp [previewAnswer, Json.member?, lookup]

/-- Whatever the checks on the dates say, they say it of both answers. -/
theorem agree_outcomes (s : Settings) (i : Int) (rule : Rule)
    (checks : Except Refusal (Window × Option Window)) :
    Agree (outcome (checks.map (datesAnswer s i rule)))
      (outcome (checks.map (previewAnswer s rule))) := by
  cases checks with
  | error refusal => exact .of_refusal refusal
  | ok w => exact agree_answers s i rule w

/-! ## The three requests -/

theorem respond_previewsRule (h : q.PreviewsRule p f) :
    (respond s t q).2 = outcome (((ruleOf p).mapError .rule).bind fun rule =>
      (windows s.maxPreviewDays f).map (previewAnswer s rule)) := by
  rcases h.body with ⟨ms, hbody, hp, hf⟩
  rw [respond_of_map (route_preview h.method h.path) rfl,
    preview_eq (members_eq_ok_iff.2 hbody) hp hf]

/-- A row that is stored is a rule that reads back, under the next id. -/
theorem respond_storesRule (h : q.StoresRule p) :
    (∃ cause, ruleOf p = .error cause ∧ respond s t q = (t, (Refusal.rule cause).response)) ∨
      ∃ rule, ruleOf p = .ok rule ∧ Rule.decode rule.encode = some rule ∧
        (respond s t q = (t, Refusal.malformedName.response) ∨
          ∃ name, (respond s t q).1 = t.insert name rule.encode ∧ (respond s t q).2.status = 200 ∧
            (respond s t q).2.body = rowBody ⟨t.nextId, name, rule.encode⟩) := by
  rcases h.body with ⟨ms, hbody, hp, given, hname, hblank⟩
  have hms := members_eq_ok_iff.2 hbody
  have hroute := route_create h.method h.path
  have hrequest := createRequest_eq hms hp (lookup_eq_some_iff.2 hname) hblank
  cases hrule : ruleOf p with
  | error cause =>
    rw [hrule] at hrequest
    refine .inl ⟨cause, rfl, respond_of_error hroute ?_⟩
    show create t q.body = _
    rw [create, hrequest]
    rfl
  | ok rule =>
    rw [hrule] at hrequest
    refine .inr ⟨rule, rfl, decode_of_ruleOf hms hp hrule, ?_⟩
    cases hname : trimmedName given with
    | codes points =>
      rw [hname] at hrequest
      refine .inl (respond_of_error hroute ?_)
      show create t q.body = _
      rw [create, hrequest]
      rfl
    | chars name =>
      rw [hname] at hrequest
      have hcreate : ∃ a : Response, create t q.body = .ok (t.insert name rule.encode, a) ∧
          a.status = 200 ∧ a.body = rowBody ⟨t.nextId, name, rule.encode⟩ := by
        rw [create, hrequest]
        exact ⟨_, rfl, rfl, rfl⟩
      rcases hcreate with ⟨a, hcreate, hstatus, hrow⟩
      rw [respond_of_ok hroute hcreate]
      exact .inr ⟨name, rfl, hstatus, hrow⟩

theorem respond_asksForDates {r : Row} {rule : Rule} (hr : r ∈ t.rows) (hi : IsRowId r.id)
    (hrule : Rule.decode r.payload = some rule) (h : q.AsksForDates r.id f) :
    (respond s t q).2 = outcome ((windows s.maxPreviewDays f).map (datesAnswer s r.id rule)) := by
  rcases h.path with ⟨segment, hpath, hid⟩
  rw [respond_of_map (route_dates h.method hpath (segment_ne_nil hid)) rfl,
    dates_eq hid hi hr hrule h.dates]

/-! ## Agreement -/

/-- A rule that is stored has the dates that its preview has, and a rule that is refused is refused
by both. The row may be asked after any events that do not delete it, as long as the storage takes
its id. -/
theorem stored_rule_agrees_with_preview (s : Settings) (t v : Table) {store view : Request}
    (hstore : store.StoresRule p) (hview : view.PreviewsRule p f) :
    ((respond s t store).2.status = 200 →
      ∃ i : Int, Json.member? "id" (respond s t store).2.body = some (.int i) ∧
        (IsRowId i → ∀ es ask, (∀ x ∈ history s (respond s t store).1 es, ¬ Removes x i) →
          ask.AsksForDates i f →
          Agree (respond s (run s (respond s t store).1 es).1 ask).2 (respond s v view).2)) ∧
      ((respond s t store).2.status = 400 → Agree (respond s t store).2 (respond s v view).2) := by
  rw [respond_previewsRule hview]
  rcases respond_storesRule (s := s) (t := t) hstore with
    ⟨cause, hrule, hanswer⟩ | ⟨rule, hrule, hdecode, hanswer⟩
  · rw [hanswer, hrule]
    refine ⟨nofun, ?_⟩
    intro _
    exact .of_refusal (.rule cause)
  · rw [hrule]
    rcases hanswer with hanswer | ⟨name, htable, hstatus, hbody⟩
    · rw [hanswer]
      exact ⟨nofun, nofun⟩
    · rw [htable, hstatus, hbody]
      refine ⟨?_, nofun⟩
      intro _
      refine ⟨t.nextId, by simp [rowBody, Json.member?, lookup], ?_⟩
      intro hi es ask hkept hask
      -- The new row is there at the end, since no event removes its id.
      have hrow : ⟨t.nextId, name, rule.encode⟩ ∈ (run s (t.insert name rule.encode) es).1.rows :=
        mem_run_iff.2 (.inl ⟨Table.mem_insert_iff.2 (.inr rfl), hkept⟩)
      rw [respond_asksForDates hrow hi hdecode hask]
      exact agree_outcomes s t.nextId rule (windows s.maxPreviewDays f)

/-! ### Every other weekend in March -/

/-- A request to store a rule for every other weekend, with lenient spellings. -/
def storeGym : Request where
  method := .post
  path := ["recurrences".toList]
  query := []
  body :=
    "\x7b\"name\": \" Gym \", \"frequency\": \"2\", \"period\": 1, \"weekdays\": [7, true]\x7d"

/-- A preview of the same rule in other spellings, for March 2025. -/
def previewGym : Request where
  method := .post
  path := ["recurrences".toList, "preview".toList]
  query := []
  body :=
    "\x7b\"frequency\": 2, \"period\": \"+1\", \"weekdays\": [7, 1]," ++
      "\"start_date\": \"2025-03-01\", \"end_date\": \"2025-03-31\"\x7d"

def datesOfGym : Request where
  method := .get
  path := ["recurrences".toList, "1".toList, "dates".toList]
  query := [("start_date", "2025-03-01"), ("end_date", "2025-03-31")]
  body := ""

def march : DateFields where
  start := ⟨739310, by decide⟩
  last := ⟨739340, by decide⟩
  filterStart := none
  filterLast := none

/-- Another row comes and goes. -/
def betweenGym : List Event :=
  [.insert "Note" "none",
    .request
      { method := .delete
        path := ["recurrences".toList, "2".toList]
        query := []
        body := "" }]

def defaults : Settings := .load fun _ => none

theorem stored_rule_agrees_with_preview_in_march :
    (respond defaults .empty storeGym).2.status = 200 ∧
      Agree
        (respond defaults (run defaults (respond defaults .empty storeGym).1 betweenGym).1
          datesOfGym).2
        (respond defaults .empty previewGym).2 := by
  have hstore : storeGym.StoresRule ⟨2, 1, none, some [7, 1]⟩ := by decide +kernel
  have hview : previewGym.PreviewsRule ⟨2, 1, none, some [7, 1]⟩ march := by decide +kernel
  have hstatus : (respond defaults .empty storeGym).2.status = 200 := by decide +kernel
  have hfirst : (Json.member? "id" (respond defaults .empty storeGym).2.body).bind Json.int? =
      some 1 := by
    decide +kernel
  have hdates : datesOfGym.AsksForDates 1 march :=
    ⟨rfl, ⟨_, rfl, rfl⟩, ⟨by decide, by decide, by decide, by decide⟩⟩
  rcases (stored_rule_agrees_with_preview defaults .empty .empty hstore hview).1 hstatus with
    ⟨i, hi, hagree⟩
  rw [hi] at hfirst
  cases hfirst
  refine ⟨hstatus, hagree (by decide) betweenGym datesOfGym ?_ hdates⟩
  -- Only the other row is deleted.
  intro x hx hremoves
  rcases hremoves.asked with ⟨q, id, hq, hroute, hid⟩
  rw [betweenGym, history_cons, history_cons, List.mem_cons, List.mem_cons] at hx
  rcases hx with rfl | rfl | hx
  · cases hq
  · cases hq
    cases hroute
    cases hid
  · cases hx

end Service
end Cadence
