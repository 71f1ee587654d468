import Cadence.Proofs.Json.Compact
import Cadence.Proofs.Service.Agreement
import Cadence.Proofs.Service.Outcome
import Cadence.Proofs.Service.Readable

/-!
# Reading — one row read in four ways

A row is shown in the list and on its own, its payload can be decoded without it, and its dates can
be asked for. Payloads that are inserted directly may be any text. Whether a payload spells a rule,
and which, is the same in all four answers, and only the request for dates is refused when it spells
none.

- `Request.AsksForRow`, `Request.AsksToDecode`, `Request.AsksForAcceptedDates`: requests that read a
  row
- `decodeRequest`, `asksToDecode_decodeRequest`: every text can be asked to be decoded
- `ReportsRule`: the answers about a row
- `isRowId_of_mem_run`: the ids of a run, which the storage takes as long as there are enough of
  them
- `read_paths_agree`: the answers about all rows after a run
-/

namespace Cadence
namespace Service

open Calendar Json Text

variable {s : Settings} {t : Table} {q : Request} {r : Row} {e : Event} {es : List Event} {n : Nat}

/-! ## Requests -/

/-- A request for the row of an id, whatever way the id is written. -/
def Request.AsksForRow (q : Request) (i : Int) : Prop :=
  ∃ id, route q = .ok (.fetch id) ∧ integerOfText id = .ok i

/-- A request to decode a text. -/
def Request.AsksToDecode (q : Request) (payload : String) : Prop :=
  route q = .ok .decode ∧
    ∃ ms, readBody q.body = .ok (.object ms) ∧ IsLast "payload" (.text payload) ms

/-- A request for the dates of the row of an id. Its own dates pass all checks. -/
def Request.AsksForAcceptedDates (s : Settings) (q : Request) (i : Int) : Prop :=
  ∃ id f, route q = .ok (.dates id) ∧ datesRequest q id = .ok (i, f) ∧
    DateBreach.first? s.maxPreviewDays f = none

/-- A request to decode a text, with the text as a string of its body. -/
def decodeRequest (payload : String) : Request where
  method := .post
  path := ["recurrences".toList, "decode".toList]
  query := []
  body := compact (.object [("payload", .text payload)])

theorem asksToDecode_decodeRequest (payload : String) :
    (decodeRequest payload).AsksToDecode payload := by
  have hmember : ∀ m ∈ [(("payload" : Spelling), Json.text payload)],
      CompactMember requestText 965 m := by
    rintro m hm
    rcases List.mem_singleton.1 hm with rfl
    exact ⟨_, rfl, by decide, renders_text 965 payload⟩
  refine ⟨rfl, _, readBody_compact (renders_object hmember), [], [], rfl, ?_⟩
  exact nofun

/-! ## Answers -/

theorem respond_list (h : route q = .ok .list) :
    respond s t q = (t, ⟨200, .array (t.rows.map rowBody), t.rows.flatMap rowLogs⟩) :=
  respond_of_ok h rfl

theorem respond_asksForRow (h : q.AsksForRow r.id) (hi : IsRowId r.id) (hr : r ∈ t.rows) :
    respond s t q = (t, ⟨200, rowBody r, rowLogs r⟩) := by
  rcases h with ⟨id, hroute, hid⟩
  exact respond_fetch hroute hid hi hr

theorem respond_asksToDecode {payload : String} (h : q.AsksToDecode payload) :
    respond s t q = (t, ⟨200, .object [("rule", optionalRule (Rule.decode payload))], []⟩) := by
  rcases h with ⟨hroute, ms, hbody, hpayload⟩
  have hread : optional (one Service.text) ms "payload" = .ok (some (.chars payload)) := by
    rw [optional, lookup_eq_some_iff.2 hpayload]
    rfl
  have hdecode :
      decode q.body = .ok ⟨200, .object [("rule", optionalRule (Rule.decode payload))], []⟩ := by
    simp only [decode, members_eq_ok_iff.2 hbody, hread, bind, Except.bind]
    rfl
  rw [respond_of_map hroute rfl, hdecode]
  rfl

theorem optionalRule_eq_null_iff {rule : Option Rule} :
    optionalRule rule = .null ↔ rule = none := by
  cases rule with
  | none => exact iff_of_true rfl rfl
  | some rule => exact iff_of_false nofun nofun

/-- Once its dates are accepted, a request for the dates of a row is refused with 422 for its
payload only. -/
theorem status_asksForAcceptedDates (h : q.AsksForAcceptedDates s r.id) (hi : IsRowId r.id)
    (hr : r ∈ t.rows) : (respond s t q).2.status = 422 ↔ Rule.decode r.payload = none := by
  rcases h with ⟨id, f, hroute, hq, haccepted⟩
  have hsame {b : Row} (hb : b ∈ t.rows) (hid : (b.id : Int) = r.id) : b = r :=
    Table.eq_of_id hb hr (Int.ofNat.inj hid)
  have houtcome := datesOutcome_respond (s := s) (t := t) hroute hq
  generalize (respond s t q).2 = a at houtcome ⊢
  cases houtcome with
  | refused hbreach => cases haccepted.symm.trans hbreach
  | wide _ hwide => exact absurd hi hwide
  | missing _ _ hmissing => exact absurd rfl (hmissing r hr)
  | undecodable _ _ hb hid hnone =>
    cases hsame hb hid
    exact iff_of_true rfl hnone
  | answered _ _ hb hid hrule =>
    cases hsame hb hid
    rw [hrule]
    exact iff_of_false (by simp) nofun

/-- The list reports the rows whose payloads spell no rule, one by one. -/
theorem flatMap_rowLogs (rows : List Row) :
    rows.flatMap rowLogs =
      (rows.filter fun r => (Rule.decode r.payload).isNone).map fun r => undecodableLog r.id := by
  induction rows with
  | nil => rfl
  | cons r rows ih =>
    rw [List.flatMap_cons, ih, List.filter_cons, rowLogs]
    split
    · rfl
    · rfl

/-! ## Objects of a list -/

/-- The id that an object of a list shows. -/
def shownId? (object : Json) : Option Int := (Json.member? "id" object).bind Json.int?

theorem shownId?_rowBody (r : Row) : shownId? (rowBody r) = some (r.id : Int) := by
  simp [shownId?, rowBody, Json.member?, lookup, Json.int?]

theorem Table.filter_id_eq (hr : r ∈ t.rows) : (t.rows.filter fun b => b.id = r.id) = [r] := by
  have hnodup : (t.rows.filter fun b => b.id = r.id).Nodup := (t.nodup_ids.of_map).filter _
  refine List.perm_singleton.1 ((List.perm_ext_iff_of_nodup hnodup (List.nodup_singleton r)).2 ?_)
  intro b
  rw [List.mem_filter, decide_eq_true_eq, List.mem_singleton]
  constructor
  · rintro ⟨hb, hid⟩
    exact Table.eq_of_id hb hr hid
  · rintro rfl
    exact ⟨hr, rfl⟩

theorem filter_shownId? (hr : r ∈ t.rows) :
    ((t.rows.map rowBody).filter fun object => shownId? object = some (r.id : Int)) =
    [rowBody r] := by
  have hshown : ((fun object => decide (shownId? object = some (r.id : Int))) ∘ rowBody) =
      fun b : Row => decide (b.id = r.id) := by
    funext b
    simp [shownId?_rowBody]
  rw [List.filter_map, hshown, Table.filter_id_eq hr]
  rfl

/-! ## Ids of a run -/

theorem id_le_of_mem_handle (h : ∀ b ∈ t.rows, b.id ≤ n) (hr : r ∈ (handle s t e).1.rows) :
    r.id ≤ n + 1 := by
  have heffect := effect_handle s t e
  rcases heffect.mem_iff.1 hr with ⟨hold, -⟩ | hadds
  · have := h r hold
    omega
  · rw [heffect.fresh hadds]
    rcases t.nextId_eq with ⟨-, hone⟩ | ⟨b, hb, hnext⟩
    · omega
    · have := h b hb
      omega

/-- Each event makes room for one id. -/
theorem id_le_of_mem_run (h : ∀ b ∈ t.rows, b.id ≤ n) (hr : r ∈ (run s t es).1.rows) :
    r.id ≤ n + es.length := by
  -- On the events: the next id is at most one more than the ids before, and no event adds two rows.
  induction es generalizing t n with
  | nil => exact h r hr
  | cons e es ih =>
    have hnext := ih (fun b hb => id_le_of_mem_handle h hb) (run_cons s t e es ▸ hr)
    rw [List.length_cons]
    omega

theorem isRowId_of_mem_run (hlength : es.length ≤ 9223372036854775807)
    (hr : r ∈ (run s .empty es).1.rows) : IsRowId r.id := by
  have hempty : ∀ b ∈ Table.empty.rows, b.id ≤ 0 := fun b hb => by cases hb
  have hle := id_le_of_mem_run hempty hr
  unfold IsRowId
  omega

/-! ## All rows -/

/-- The answers about a row report one rule, or that there is none. -/
structure ReportsRule (s : Settings) (t : Table) (r : Row) (rule : Option Rule) : Prop where
  /-- The list has one object for the id of the row, and it is what is shown of the row alone. -/
  listed : ∀ list fetch, route list = .ok .list → fetch.AsksForRow r.id →
    ∃ objects, (respond s t list).2.body = .array objects ∧
      (objects.filter fun object => shownId? object = some (r.id : Int)) =
        [(respond s t fetch).2.body]
  fetched : ∀ fetch, fetch.AsksForRow r.id →
    (respond s t fetch).2.status = 200 ∧
      Json.member? "rule" (respond s t fetch).2.body = some (optionalRule rule) ∧
      (respond s t fetch).2.logs = if rule.isNone then [undecodableLog r.id] else []
  decoded : ∀ decode, decode.AsksToDecode r.payload →
    (respond s t decode).2.status = 200 ∧
      Json.member? "rule" (respond s t decode).2.body = some (optionalRule rule)
  dated : ∀ dates, dates.AsksForAcceptedDates s r.id →
    ((respond s t dates).2.status = 422 ↔ optionalRule rule = .null)

theorem reportsRule (hi : IsRowId r.id) (hr : r ∈ t.rows) :
    ReportsRule s t r (Rule.decode r.payload) := by
  refine
    { listed := ?listed
      fetched := ?fetched
      decoded := ?decoded
      dated := ?dated }
  case listed =>
    intro list fetch hlist hfetch
    rw [respond_list hlist, respond_asksForRow hfetch hi hr]
    exact ⟨_, rfl, filter_shownId? hr⟩
  case fetched =>
    intro fetch hfetch
    rw [respond_asksForRow hfetch hi hr]
    exact ⟨rfl, by simp [rowBody, Json.member?, lookup], rfl⟩
  case decoded =>
    intro decode hdecode
    rw [respond_asksToDecode hdecode]
    exact ⟨rfl, by simp [Json.member?, lookup]⟩
  case dated =>
    intro dates hdates
    rw [status_asksForAcceptedDates hdates hi hr, optionalRule_eq_null_iff]

/-- The answers about the rows of a table. -/
structure ReadsAgree (s : Settings) (t : Table) : Prop where
  reported : ∀ r ∈ t.rows, IsRowId r.id → ReportsRule s t r (Rule.decode r.payload)
  ascending : t.rows.Pairwise (·.id < ·.id)
  /-- The list warns of the rows without a rule, in its own order. -/
  listed : ∀ list, route list = .ok .list →
    (respond s t list).2.status = 200 ∧ (respond s t list).2.body = .array (t.rows.map rowBody) ∧
      (respond s t list).2.logs =
        (t.rows.filter fun r => (Rule.decode r.payload).isNone).map fun r => undecodableLog r.id

theorem readsAgree (s : Settings) (t : Table) : ReadsAgree s t := by
  refine ⟨fun r hr hi => reportsRule hi hr, t.ascending, ?_⟩
  intro list hlist
  rw [respond_list hlist]
  exact ⟨rfl, rfl, flatMap_rowLogs t.rows⟩

/-- After any requests and direct insertions, all answers about a row report its rule or that there
is none. The time a row was stored at is no part of the objects compared. Every text can be asked
to be decoded, and the storage takes the ids of all rows unless there are more events than ids. -/
theorem read_paths_agree (s : Settings) (es : List Event) :
    ReadsAgree s (run s .empty es).1 ∧
      (∀ payload, ∃ decode : Request, decode.AsksToDecode payload) ∧
      (es.length ≤ 9223372036854775807 → ∀ r ∈ (run s .empty es).1.rows, IsRowId r.id) := by
  refine ⟨readsAgree s _, ?_, ?_⟩
  · intro payload
    exact ⟨decodeRequest payload, asksToDecode_decodeRequest payload⟩
  · intro hlength r hr
    exact isRowId_of_mem_run hlength hr

/-- A rule and a text that spells none, both inserted directly. -/
def swimAndNoteInserted : List Event :=
  [.insert "Swim" "\x7b\"frequency\":3,\"period\":0\x7d", .insert "Note" "none"]

def listRequest : Request where
  method := .get
  path := ["recurrences".toList]
  query := []
  body := ""

def noteRequest : Request where
  method := .get
  path := ["recurrences".toList, "2".toList]
  query := []
  body := ""

/-- The row without a rule is listed and shown with a warning, and only the request for its dates is
refused. -/
theorem read_paths_agree_on_note :
    ∃ t, t = (run defaults .empty swimAndNoteInserted).1 ∧
      (respond defaults t listRequest).2.logs = [undecodableLog 2] ∧
      (respond defaults t noteRequest).2.status = 200 ∧
      (respond defaults t noteRequest).2.logs = [undecodableLog 2] ∧
      Json.member? "rule" (respond defaults t noteRequest).2.body =
        Json.member? "rule" (respond defaults t (decodeRequest "none")).2.body ∧
      (respond defaults t (datesOfRow "2")).2.status = 422 := by
  have hrows : (run defaults .empty swimAndNoteInserted).1.rows =
      [⟨1, "Swim", "\x7b\"frequency\":3,\"period\":0\x7d"⟩, ⟨2, "Note", "none"⟩] := rfl
  have hnone : Rule.decode "none" = none := by decide +kernel
  have hdates : (datesOfRow "2").AsksForAcceptedDates defaults 2 :=
    ⟨"2", endOfFebruary, rfl, toOption_eq_some (by decide +kernel), by decide +kernel⟩
  rcases read_paths_agree defaults swimAndNoteInserted with ⟨hreads, -, hids⟩
  have hmem : (⟨2, "Note", "none"⟩ : Row) ∈ (run defaults .empty swimAndNoteInserted).1.rows := by
    rw [hrows]
    exact List.mem_cons_of_mem _ List.mem_cons_self
  have hreports := hreads.reported _ hmem (hids (by decide) _ hmem)
  rcases hreports.fetched noteRequest ⟨"2", rfl, rfl⟩ with ⟨hstatus, hrule, hlogs⟩
  refine ⟨_, rfl, ?_, hstatus, ?_, ?_, ?_⟩
  · rw [(hreads.listed listRequest rfl).2.2, hrows]
    decide +kernel
  · rw [hlogs, hnone]
    rfl
  · rw [hrule, (hreports.decoded _ (asksToDecode_decodeRequest "none")).2]
  · rw [hreports.dated _ hdates, hnone]
    rfl

end Service
end Cadence
