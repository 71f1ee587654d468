import Cadence.Proofs.Service.Answer
import Cadence.Proofs.Service.Create

/-!
# Readable — requests alone store no rule that cannot be read back

Rules are taken from requests leniently and from the table strictly. Whatever requests come, each
row of the table holds a rule that its payload spells, and no answer has to do without it.

- `Row.IsReadable`: a trimmed name and the stored text of a rule
- `ShowsNullRule`, `undecodableLog`: how an answer tells of a payload that spells no rule
- `Response.IsClean`: an answer that tells of none
- `stored_rules_read_back`: the rows after any requests, and what is answered from them
-/

namespace Cadence
namespace Service

open Text

variable {s : Settings} {t u : Table} {q : Request} {e : Endpoint} {a : Response} {r : Row}

/-! ## Rows -/

/-- A row as a request leaves it: a trimmed name that is not empty, and the stored text of a rule.
-/
structure Row.IsReadable (r : Row) : Prop where
  named : r.name ≠ ""
  trimmed : trim isBlank r.name.toList = r.name.toList
  stored : ∃ rule : Rule, r.payload = rule.encode ∧ Rule.decode r.payload = some rule

def Table.IsReadable (t : Table) : Prop := ∀ r ∈ t.rows, r.IsReadable

theorem isReadable_of_createRequest {text name : String} {rule : Rule} {id : Nat}
    (h : createRequest text = .ok (.chars name, rule)) :
    Row.IsReadable ⟨id, name, rule.encode⟩ := by
  rcases name_of_createRequest h with ⟨hnamed, htrimmed⟩
  exact ⟨hnamed, htrimmed, rule, rfl, decode_of_createRequest h⟩

theorem isReadable_perform (ht : t.IsReadable) (h : perform s t q e = .ok (u, a)) :
    u.IsReadable := by
  cases e with
  | create =>
    rcases create_eq_ok h with ⟨name, rule, hrequest, rfl, -, -⟩
    intro r hr
    rcases Table.mem_insert_iff.1 hr with hr | rfl
    · exact ht r hr
    · exact isReadable_of_createRequest hrequest
  | delete id =>
    rcases delete_eq_ok h with ⟨b, -, -, rfl, -⟩
    intro r hr
    exact ht r (Table.mem_erase_iff.1 hr).1
  | _ =>
    cases perform_table h (by simp) (by simp)
    exact ht

theorem isReadable_respond (ht : t.IsReadable) (q : Request) : (respond s t q).1.IsReadable := by
  rcases respond_cases s t q with ⟨htable, -⟩ | ⟨o, u, a, -, hperform, hanswer⟩
  · rw [htable]
    exact ht
  · rw [hanswer]
    exact isReadable_perform ht hperform

theorem isReadable_run (ht : t.IsReadable) (qs : List Request) :
    (run s t (qs.map .request)).1.IsReadable := by
  induction qs generalizing t with
  | nil => exact ht
  | cons q qs ih => exact ih (isReadable_respond ht q)

/-! ## Answers -/

/-- A body, or an item of a list of bodies, shows a row without a rule. -/
def ShowsNullRule : Json → Prop
  | .array items => ∃ j ∈ items, Json.member? "rule" j = some .null
  | j => Json.member? "rule" j = some .null

/-- What is logged of a row whose payload spells no rule. -/
def undecodableLog (id : Nat) : Log.Entry :=
  ⟨Log.warning, "Stored recurrence " ++ toString id ++ " has an undecodable payload."⟩

/-- An answer that tells of no payload without a rule. -/
structure Response.IsClean (a : Response) : Prop where
  rules : ¬ ShowsNullRule a.body
  logs : ∀ id, undecodableLog id ∉ a.logs
  detail : a.body ≠ Refusal.undecodable.body

/-! ### Refusals -/

/-- A message that quotes a value does not end in a full stop, and one that cannot quote it begins
otherwise. -/
theorem unknown_ne_undecodable (given : Value) {kind : String}
    (hkind : kind.toList.getLast? = some 'd' ∨ kind.toList.getLast? = some 'y') :
    given.unknown kind ≠ "Stored recurrence could not be decoded." := by
  unfold Value.unknown
  cases given.shown? with
  | none =>
    show Value.overlong ≠ _
    decide
  | some shown =>
    intro h
    have hlast := congrArg (fun text : String => text.toList.getLast?) h
    rcases hkind with hkind | hkind
    · simp [List.getLast?_append, List.getLast?_cons, hkind] at hlast
    · simp [List.getLast?_append, List.getLast?_cons, hkind] at hlast

theorem message_ne_undecodable (cause : RuleError) :
    cause.message ≠ "Stored recurrence could not be decoded." := by
  cases cause with
  | unknownPeriod given => exact unknown_ne_undecodable given (.inl (by decide))
  | unknownWeekday given => exact unknown_ne_undecodable given (.inr (by decide))
  | _ => decide

theorem Refusal.detail?_ne_undecodable {refusal : Refusal} (h : refusal ≠ .undecodable) :
    refusal.detail? ≠ Refusal.undecodable.detail? := by
  intro hdetail
  cases refusal with
  | undecodable => exact h rfl
  | rule cause =>
    simp only [detail?, Option.some.injEq, Json.text.injEq, Spelling.chars.injEq] at hdetail
    exact message_ne_undecodable cause hdetail
  | longWindow greatest =>
    simp only [detail?, Option.some.injEq, Json.text.injEq, Spelling.chars.injEq] at hdetail
    have hfirst := congrArg (fun text : String => text.toList.head?) hdetail
    simp at hfirst
  | faults fs =>
    -- A report of faults is a list.
    simp only [detail?, report?] at hdetail
    split at hdetail
    · cases hdetail
    · cases hdetail
  | _ => simp [detail?] at hdetail

theorem Refusal.isClean {refusal : Refusal} (h : refusal ≠ .undecodable) :
    refusal.response.IsClean := by
  have hdetail := detail?_ne_undecodable h
  refine ⟨?_, nofun, ?_⟩
  · show ¬ ShowsNullRule refusal.body
    unfold body
    cases refusal.detail? with
    | none => simp [ShowsNullRule, Json.member?]
    | some detail => simp [ShowsNullRule, Json.member?, Json.lookup]
  · show refusal.body ≠ undecodable.body
    unfold body
    intro hbody
    cases hrefusal : refusal.detail? with
    | none =>
      rw [hrefusal] at hbody
      cases hbody
    | some detail =>
      rw [hrefusal] at hdetail hbody
      simp only [detail?, Option.elim_some, Json.object.injEq, List.cons.injEq, Prod.mk.injEq]
        at hbody
      exact hdetail (congrArg some hbody.1.2)

/-! ### Rows and dates -/

theorem Row.IsReadable.shows_rule (h : r.IsReadable) :
    Json.member? "rule" (rowBody r) ≠ some .null := by
  rcases h.stored with ⟨rule, -, hrule⟩
  simp [rowBody, Json.member?, Json.lookup, hrule, optionalRule, ruleBody]

theorem Row.IsReadable.rowLogs_eq_nil (h : r.IsReadable) : rowLogs r = [] := by
  rcases h.stored with ⟨rule, -, hrule⟩
  simp [rowLogs, hrule]

theorem undecodableLog_not_mem_runLogs (rule : Rule) (run : Schedule.Run) (id : Nat) :
    undecodableLog id ∉ runLogs rule run := by
  intro h
  simp only [runLogs, Schedule.Run.warning?, Option.map_map, Option.mem_toList,
    Option.map_eq_some_iff] at h
  rcases h with ⟨stop, -, h⟩
  -- The texts part at their fourth letter.
  have hletter := congrArg (fun entry : Log.Entry => entry.text.toList[3]?) h
  simp [undecodableLog] at hletter

/-! ### Operations -/

theorem isClean_list (ht : t.IsReadable) : (list t).IsClean := by
  refine ⟨?_, ?_, nofun⟩
  · rintro ⟨j, hj, hnull⟩
    rcases List.mem_map.1 hj with ⟨r, hr, rfl⟩
    exact (ht r hr).shows_rule hnull
  · intro id hlog
    rcases List.mem_flatMap.1 hlog with ⟨r, hr, hlog⟩
    rw [(ht r hr).rowLogs_eq_nil] at hlog
    cases hlog

theorem isClean_fetch {id : String} (ht : t.IsReadable) (h : fetch t id = .ok a) : a.IsClean := by
  rcases fetch_eq_ok h with ⟨r, hr, -, rfl⟩
  refine ⟨(ht r hr).shows_rule, ?_, ?_⟩
  · rw [(ht r hr).rowLogs_eq_nil]
    exact nofun
  · simp [rowBody, Refusal.body, Refusal.detail?]

theorem isClean_dates {id : String} (h : dates s t q id = .ok a) : a.IsClean := by
  rcases dates_eq_ok h with ⟨i, rule, run, rfl⟩
  refine ⟨?_, undecodableLog_not_mem_runLogs rule run, ?_⟩
  · simp [ShowsNullRule, Json.member?, Json.lookup]
  · simp [Refusal.body, Refusal.detail?]

theorem checked_ne_undecodable {α : Type} {c : Checked α} {refusal : Refusal}
    (h : checked c = .error refusal) : refusal ≠ .undecodable := by
  cases c with
  | ok x => cases h
  | error fs =>
    cases h
    exact nofun

theorem row_ne_undecodable {i : Int} {refusal : Refusal} (h : row t i = .error refusal) :
    refusal ≠ .undecodable := by
  unfold row at h
  split at h
  · cases h
    exact nofun
  · split at h
    · cases h
    · cases h
      exact nofun

theorem windows_ne_undecodable {greatest : Nat} {f : DateFields} {refusal : Refusal}
    (h : windows greatest f = .error refusal) : refusal ≠ .undecodable := by
  rintro rfl
  simp only [windows] at h
  repeat' split at h
  all_goals cases h

theorem fetch_ne_undecodable {id : String} {refusal : Refusal} (h : fetch t id = .error refusal) :
    refusal ≠ .undecodable := by
  unfold fetch at h
  rcases bind_eq_error h with h | ⟨i, -, h⟩
  · exact checked_ne_undecodable h
  · rcases bind_eq_error h with h | ⟨r, -, h⟩
    · exact row_ne_undecodable h
    · cases h

theorem dates_ne_undecodable {id : String} {refusal : Refusal} (ht : t.IsReadable)
    (h : dates s t q id = .error refusal) : refusal ≠ .undecodable := by
  unfold dates at h
  rcases bind_eq_error h with h | ⟨⟨i, f⟩, -, h⟩
  · unfold datesRequest at h
    rcases bind_eq_error h with h | ⟨_, -, h⟩
    · exact checked_ne_undecodable h
    · cases h
  rcases bind_eq_error h with h | ⟨⟨window, filter⟩, -, h⟩
  · exact windows_ne_undecodable h
  rcases bind_eq_error h with h | ⟨stored, hrow, h⟩
  · exact row_ne_undecodable h
  -- The row is readable, so its payload spells a rule.
  rcases (ht stored (row_eq_ok_iff.1 hrow).2.1).stored with ⟨rule, -, hrule⟩
  simp only [hrule] at h
  cases h

theorem route_get (hmethod : q.method = .get) (h : route q = .ok e) :
    e = .health ∨ e = .list ∨ (∃ id, e = .fetch id) ∨ ∃ id, e = .dates id := by
  unfold route at h
  simp only [hmethod, only] at h
  repeat' split at h
  all_goals cases h
  all_goals simp

theorem isClean_perform (ht : t.IsReadable) (hmethod : q.method = .get) (hroute : route q = .ok e)
    (h : perform s t q e = .ok (u, a)) : a.IsClean := by
  rcases route_get hmethod hroute with rfl | rfl | ⟨id, rfl⟩ | ⟨id, rfl⟩
  · cases h
    refine ⟨?_, nofun, ?_⟩
    · simp [health, ShowsNullRule, Json.member?, Json.lookup]
    · simp [health, Refusal.body, Refusal.detail?]
  · cases h
    exact isClean_list ht
  · rcases map_eq_ok_iff.1 h with ⟨_, hfetch, ⟨⟩⟩
    exact isClean_fetch ht hfetch
  · rcases map_eq_ok_iff.1 h with ⟨_, hdates, ⟨⟩⟩
    exact isClean_dates hdates

theorem perform_ne_undecodable {refusal : Refusal} (ht : t.IsReadable) (hmethod : q.method = .get)
    (hroute : route q = .ok e) (h : perform s t q e = .error refusal) : refusal ≠ .undecodable := by
  rcases route_get hmethod hroute with rfl | rfl | ⟨id, rfl⟩ | ⟨id, rfl⟩
  · cases h
  · cases h
  · exact fetch_ne_undecodable (map_eq_error_iff.1 h)
  · exact dates_ne_undecodable ht (map_eq_error_iff.1 h)

theorem isClean_respond (ht : t.IsReadable) (hmethod : q.method = .get) :
    (respond s t q).2.IsClean := by
  cases hroute : route q with
  | error cause =>
    rw [respond_of_unrouted hroute, if_neg (by simp [hmethod])]
    exact Refusal.isClean (by cases cause <;> simp [RouteError.refusal])
  | ok o =>
    cases hperform : perform s t q o with
    | error refusal =>
      rw [respond_of_error hroute hperform]
      exact Refusal.isClean (perform_ne_undecodable ht hmethod hroute hperform)
    | ok answer =>
      rcases answer with ⟨u, a⟩
      rw [respond_of_ok hroute hperform]
      exact isClean_perform ht hmethod hroute hperform

/-- After any requests every row reads back, and whatever is asked then is answered from rules. -/
theorem stored_rules_read_back (s : Settings) (qs : List Request) :
    (∀ r ∈ (run s .empty (qs.map .request)).1.rows, r.IsReadable) ∧
      ∀ q, q.method = .get → (respond s (run s .empty (qs.map .request)).1 q).2.IsClean := by
  have hempty : Table.empty.IsReadable := fun r hr => by cases hr
  have hrun : (run s .empty (qs.map .request)).1.IsReadable := isReadable_run hempty qs
  exact ⟨hrun, fun q hmethod => isClean_respond hrun hmethod⟩

/-- Lenient numbers are stored in their strict form, and the name is trimmed. -/
def lenientRequest : Request where
  method := .post
  path := ["recurrences".toList]
  query := []
  body :=
    "\x7b\"name\": \" Gym \", \"frequency\": 2.0, \"period\": true, \"weekdays\": [\"+7\", 1]\x7d"

example :
    (run (.load fun _ => none) .empty [.request lenientRequest]).1.rows =
      [⟨1, "Gym", "\x7b\"frequency\":2,\"period\":1,\"weekdays\":[7,1]\x7d"⟩] := by
  decide +kernel

end Service
end Cadence
