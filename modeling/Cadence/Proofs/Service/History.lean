import Cadence.Proofs.Service.Answer
import Cadence.Proofs.Service.Integer

/-!
# History — the table after a run, told from the exchanges alone

An exchange is an event with its reply. It may add a row, remove an id, or do neither, and the
exchanges of a run tell which rows the table holds at its end: those that were added and whose id
was not removed later.

- `Exchange`, `history`: the exchanges of a run
- `Adds`, `Removes`: what an exchange says about the table
- `Effect`, `effect_handle`: what one event does to the table
- `IsKept`, `mem_run_iff`: the rows after a run
- `table_is_finite_map`: the table as a map from ids to rows
-/

namespace Cadence
namespace Service

variable {s : Settings} {t u : Table} {e : Event} {es : List Event} {r : Row} {i : Int}

/-! ## Exchanges -/

abbrev Exchange := Event × Reply

/-- The exchanges of a run: its events, each with its reply. -/
def history (s : Settings) (t : Table) (es : List Event) : List Exchange := es.zip (run s t es).2

theorem history_cons (s : Settings) (t : Table) (e : Event) (es : List Event) :
    history s t (e :: es) = (e, (handle s t e).2) :: history s (handle s t e).1 es := rfl

theorem run_cons (s : Settings) (t : Table) (e : Event) (es : List Event) :
    (run s t (e :: es)).1 = (run s (handle s t e).1 es).1 := rfl

/-- A row is added by a direct insertion, or by a request to store a rule that is answered with the
row. -/
inductive Adds : Exchange → Row → Prop
  | insert (r : Row) : Adds (.insert r.name r.payload, .inserted r.id) r
  | create {q : Request} {a : Response} {r : Row} (asked : route q = .ok .create)
      (status : a.status = 200) (body : a.body = rowBody r) : Adds (.request q, .response a) r

/-- An id is removed by a request to delete it that succeeds. -/
inductive Removes : Exchange → Int → Prop
  | delete {q : Request} {a : Response} {id : String} {i : Int} (asked : route q = .ok (.delete id))
      (named : integerOfText id = .ok i) (status : a.status = 200) :
      Removes (.request q, .response a) i

theorem rowBody_inj {a b : Row} (h : rowBody a = rowBody b) : a = b := by
  rcases a with ⟨id, name, payload⟩
  rcases b with ⟨id', name', payload'⟩
  simp only [rowBody, Json.object.injEq, List.cons.injEq, Prod.mk.injEq, Json.int.injEq,
    Json.text.injEq, Text.Spelling.chars.injEq, true_and] at h
  rcases h with ⟨hid, rfl, rfl, -⟩
  rw [Int.ofNat.inj hid]

theorem Adds.unique {x : Exchange} {a b : Row} (ha : Adds x a) (hb : Adds x b) : a = b := by
  cases ha with
  | insert =>
    rcases a with ⟨id, name, payload⟩
    rcases b with ⟨id', name', payload'⟩
    cases hb
    rfl
  | create _ _ hbody =>
    cases hb with
    | create _ _ hbody' => exact rowBody_inj (hbody.symm.trans hbody')

theorem Removes.unique {x : Exchange} {i j : Int} (hi : Removes x i) (hj : Removes x j) :
    i = j := by
  cases hi with
  | delete asked named _ =>
    cases hj with
    | delete asked' named' _ =>
      rw [asked] at asked'
      cases asked'
      rw [named] at named'
      exact Except.ok.inj named'

theorem Adds.asked {q : Request} {a : Response} (h : Adds (.request q, .response a) r) :
    route q = .ok .create := by
  cases h with
  | create asked _ _ => exact asked

theorem Removes.asked {x : Exchange} (h : Removes x i) :
    ∃ q id, x.1 = .request q ∧ route q = .ok (.delete id) ∧ integerOfText id = .ok i := by
  cases h with
  | delete asked named _ => exact ⟨_, _, rfl, asked, named⟩

/-! ## One event -/

/-- What an exchange does to the table: nothing, or it adds a row with the next id, or removes a
row. -/
inductive Effect (t : Table) (x : Exchange) : Table → Prop
  | kept (addsNone : ∀ r, ¬ Adds x r) (removesNone : ∀ i, ¬ Removes x i) : Effect t x t
  | added {r : Row} (adds : Adds x r) (fresh : r.id = t.nextId) (removesNone : ∀ i, ¬ Removes x i) :
      Effect t x (t.insert r.name r.payload)
  | removed {r : Row} (mem : r ∈ t.rows) (removes : Removes x r.id) (addsNone : ∀ r, ¬ Adds x r) :
      Effect t x (t.erase r.id)

/-- A request that is answered with an error neither adds nor removes. -/
theorem effect_of_error {q : Request} {a : Response} (h : 400 ≤ a.status) :
    Effect t (.request q, .response a) t := by
  refine .kept ?_ ?_
  · rintro r ⟨⟩
    omega
  · rintro i ⟨⟩
    omega

theorem effect_of_perform {q : Request} {o : Endpoint} {a : Response} (asked : route q = .ok o)
    (h : perform s t q o = .ok (u, a)) : Effect t (.request q, .response a) u := by
  have hadds {r : Row} (hr : Adds (.request q, .response a) r) : o = .create :=
    Except.ok.inj (asked.symm.trans hr.asked)
  have hremoves {i : Int} (hi : Removes (.request q, .response a) i) : ∃ id, o = .delete id := by
    rcases hi.asked with ⟨_, id, ⟨⟩, hid, -⟩
    exact ⟨id, Except.ok.inj (asked.symm.trans hid)⟩
  cases o with
  | create =>
    rcases create_eq_ok h with ⟨name, rule, -, rfl, hstatus, hbody⟩
    have hrow : Adds (.request q, .response a) ⟨t.nextId, name, rule.encode⟩ :=
      .create asked hstatus hbody
    refine .added hrow rfl ?_
    intro i hi
    rcases hremoves hi with ⟨id, hid⟩
    cases hid
  | delete id =>
    rcases delete_eq_ok h with ⟨r, hr, hid, rfl, hstatus⟩
    refine .removed hr (.delete asked hid hstatus) ?_
    intro b hb
    cases hadds hb
  | _ =>
    cases perform_table h (by simp) (by simp)
    refine .kept ?_ ?_
    · intro b hb
      cases hadds hb
    · intro i hi
      rcases hremoves hi with ⟨id, hid⟩
      cases hid

theorem effect_handle (s : Settings) (t : Table) (e : Event) :
    Effect t (e, (handle s t e).2) (handle s t e).1 := by
  cases e with
  | insert name payload =>
    refine .added (r := ⟨t.nextId, name, payload⟩) (.insert ⟨t.nextId, name, payload⟩) rfl ?_
    rintro i ⟨⟩
  | request q =>
    show Effect t (.request q, .response (respond s t q).2) (respond s t q).1
    rcases respond_cases s t q with ⟨htable, hstatus⟩ | ⟨o, u, a, hroute, hperform, hanswer⟩
    · rw [htable]
      exact effect_of_error hstatus
    · rw [hanswer]
      exact effect_of_perform hroute hperform

/-! ## Rows after a run -/

/-- A row that is added gets the next id. -/
theorem Effect.fresh {x : Exchange} (h : Effect t x u) (hr : Adds x r) : r.id = t.nextId := by
  cases h with
  | kept addsNone _ => exact absurd hr (addsNone r)
  | added adds fresh _ => rw [hr.unique adds, fresh]
  | removed _ _ addsNone => exact absurd hr (addsNone r)

theorem Effect.mem_iff {x : Exchange} (h : Effect t x u) :
    r ∈ u.rows ↔ (r ∈ t.rows ∧ ¬ Removes x r.id) ∨ Adds x r := by
  cases h with
  | kept addsNone removesNone => simp [addsNone, removesNone]
  | @added a adds fresh removesNone =>
    have hrow : (⟨t.nextId, a.name, a.payload⟩ : Row) = a := by rw [← fresh]
    have hadds : Adds x r ↔ r = a := ⟨fun hr => hr.unique adds, fun hr => hr ▸ adds⟩
    rw [Table.mem_insert_iff, hrow, hadds]
    simp [removesNone]
  | @removed a mem removes addsNone =>
    have hremoves : Removes x r.id ↔ (r.id : Int) = a.id :=
      ⟨fun hr => hr.unique removes, fun hr => hr ▸ removes⟩
    rw [Table.mem_erase_iff, hremoves]
    simp [addsNone]

/-- A row is kept when it is added and its id is not removed later. -/
def IsKept (xs : List Exchange) (r : Row) : Prop :=
  ∃ before x after, xs = before ++ x :: after ∧ Adds x r ∧ ∀ y ∈ after, ¬ Removes y r.id

theorem isKept_nil : ¬ IsKept [] r := by
  rintro ⟨before, x, after, h, -⟩
  cases before <;> cases h

theorem isKept_cons_iff {x : Exchange} {xs : List Exchange} :
    IsKept (x :: xs) r ↔ (Adds x r ∧ ∀ y ∈ xs, ¬ Removes y r.id) ∨ IsKept xs r := by
  refine ⟨?_, ?_⟩
  · rintro ⟨before, y, after, h, hadds, hafter⟩
    cases before with
    | nil =>
      cases h
      exact .inl ⟨hadds, hafter⟩
    | cons z before =>
      cases h
      exact .inr ⟨before, y, after, rfl, hadds, hafter⟩
  · rintro (⟨hadds, hafter⟩ | ⟨before, y, after, rfl, hadds, hafter⟩)
    · exact ⟨[], x, xs, rfl, hadds, hafter⟩
    · exact ⟨x :: before, y, after, rfl, hadds, hafter⟩

theorem mem_run_iff : r ∈ (run s t es).1.rows ↔
    (r ∈ t.rows ∧ ∀ x ∈ history s t es, ¬ Removes x r.id) ∨ IsKept (history s t es) r := by
  -- On the events: a row of the next table was there and stays, or it has just been added.
  induction es generalizing t with
  | nil => simp [run, history, isKept_nil]
  | cons e es ih =>
    rw [run_cons, history_cons, ih, isKept_cons_iff, (effect_handle s t e).mem_iff]
    simp only [List.forall_mem_cons]
    tauto

/-- The last row that was added under its id. -/
def IsLastAdded (xs : List Exchange) (x : Exchange) (r : Row) : Prop :=
  ∃ before after, xs = before ++ x :: after ∧ Adds x r ∧
    ∀ y ∈ after, ∀ b, Adds y b → b.id ≠ r.id

theorem IsLastAdded.cons {x y : Exchange} {xs : List Exchange} (h : IsLastAdded xs x r) :
    IsLastAdded (y :: xs) x r := by
  rcases h with ⟨before, after, rfl, hadds, hafter⟩
  exact ⟨y :: before, after, rfl, hadds, hafter⟩

/-- A row that a request added is shown as that request was answered. -/
theorem IsLastAdded.answered {xs : List Exchange} {p : Request} {a : Response}
    (h : IsLastAdded xs (.request p, .response a) r) : rowBody r = a.body := by
  rcases h with ⟨before, after, -, hadds, -⟩
  cases hadds with
  | create _ _ hbody => exact hbody.symm

/-- A row that is there at the end was there before, or it is the last one that was added under its
id. -/
theorem lastAdded_of_mem_run (hr : r ∈ (run s t es).1.rows) :
    (r ∈ t.rows ∧ ∀ x ∈ history s t es, ∀ b, Adds x b → b.id ≠ r.id) ∨
      ∃ x, IsLastAdded (history s t es) x r := by
  induction es generalizing t with
  | nil =>
    refine .inl ⟨hr, ?_⟩
    intro x hx
    cases hx
  | cons e es ih =>
    rw [history_cons]
    have heffect := effect_handle s t e
    rcases ih (run_cons s t e es ▸ hr) with ⟨hmem, hnone⟩ | ⟨x, hx⟩
    · rcases heffect.mem_iff.1 hmem with ⟨hold, -⟩ | hadds
      · refine .inl ⟨hold, ?_⟩
        rw [List.forall_mem_cons]
        refine ⟨?_, hnone⟩
        intro b hb
        -- The new id exceeds that of every row.
        have hfresh := heffect.fresh hb
        have hlt := t.id_lt_nextId hold
        omega
      · exact .inr ⟨_, [], _, rfl, hadds, hnone⟩
    · exact .inr ⟨x, hx.cons⟩

/-! ## The table as a map -/

/-- The table after a run is a map from ids to rows. Its answers are told from the exchanges of the
run. -/
structure IsFiniteMap (s : Settings) (t : Table) (xs : List Exchange) : Prop where
  rows : ∀ r, r ∈ t.rows ↔ IsKept xs r
  distinct : (t.rows.map Row.id).Nodup
  /-- A new id is one more than the greatest, or 1. -/
  fresh : ∀ e r, Adds (e, (handle s t e).2) r →
    (∀ b ∈ t.rows, b.id < r.id) ∧ ((t.rows = [] ∧ r.id = 1) ∨ ∃ b ∈ t.rows, r.id = b.id + 1)
  /-- Only storing a rule and deleting a row change the table, and no refusal does. -/
  unchanged : ∀ q, (route q ≠ .ok .create ∧ ∀ id, route q ≠ .ok (.delete id)) ∨
    400 ≤ (respond s t q).2.status → (respond s t q).1 = t
  /-- Every id has an address. -/
  addressed : ∀ i, IsRowId i → integerOfText (String.ofList (Json.integer i)) = .ok i
  listed : ∀ q, q.method = .get → q.path = ["recurrences".toList] →
    (respond s t q).2.status = 200 ∧ (respond s t q).2.body = .array (t.rows.map rowBody) ∧
      t.rows.Pairwise (·.id < ·.id)
  /-- A row that is there is shown as it was last added, and as the request that added it was
  answered. -/
  fetched : ∀ q segment i, q.method = .get → q.path = ["recurrences".toList, segment] →
    integerOfText (String.ofList segment) = .ok i → IsRowId i →
    ((∃ r ∈ t.rows, (r.id : Int) = i) →
      ∃ x r, IsLastAdded xs x r ∧ (r.id : Int) = i ∧ (respond s t q).2.status = 200 ∧
        (respond s t q).2.body = rowBody r ∧
        ∀ p a, x = (.request p, .response a) → (respond s t q).2.body = a.body) ∧
    ((∀ r ∈ t.rows, (r.id : Int) ≠ i) → (respond s t q).2.status = 404)
  /-- A row that is there is deleted alone, and not twice. -/
  deleted : ∀ q segment i, q.method = .delete → q.path = ["recurrences".toList, segment] →
    integerOfText (String.ofList segment) = .ok i → IsRowId i →
    ((∃ r ∈ t.rows, (r.id : Int) = i) →
      (respond s t q).2.status = 200 ∧
        (respond s t q).1.rows = t.rows.filter (fun r => (r.id : Int) ≠ i) ∧
        (respond s (respond s t q).1 q).2.status = 404) ∧
    ((∀ r ∈ t.rows, (r.id : Int) ≠ i) →
      (respond s t q).2.status = 404 ∧ (respond s t q).1 = t)

/-! ### Requests for one row -/

theorem short_of_isRowId (h : IsRowId i) : Short i := by
  apply short_of_natAbs_lt
  have hcapacity : Text.capacity 19 = 10000000000000000000 := by decide
  unfold IsRowId at h
  omega

section Rows

variable {q : Request} {segment : List Char}

theorem respond_fetch {id : String} (hroute : route q = .ok (.fetch id))
    (hid : integerOfText id = .ok (r.id : Int)) (hi : IsRowId r.id) (hr : r ∈ t.rows) :
    respond s t q = (t, ⟨200, rowBody r, rowLogs r⟩) := by
  have hfind : t.find? r.id = some r := Table.find?_eq_some_iff.2 ⟨hr, rfl⟩
  rw [respond_of_map hroute rfl, fetch_eq hid hi, hfind]
  rfl

theorem respond_fetch_of_mem (hmethod : q.method = .get)
    (hpath : q.path = ["recurrences".toList, segment])
    (hid : integerOfText (String.ofList segment) = .ok (r.id : Int)) (hi : IsRowId r.id)
    (hr : r ∈ t.rows) : respond s t q = (t, ⟨200, rowBody r, rowLogs r⟩) :=
  respond_fetch (route_fetch hmethod hpath (segment_ne_nil hid)) hid hi hr

theorem respond_fetch_of_absent (hmethod : q.method = .get)
    (hpath : q.path = ["recurrences".toList, segment])
    (hid : integerOfText (String.ofList segment) = .ok i) (hi : IsRowId i)
    (h : ∀ r ∈ t.rows, (r.id : Int) ≠ i) : respond s t q = (t, Refusal.noSuchRow.response) := by
  rw [respond_of_map (route_fetch hmethod hpath (segment_ne_nil hid)) rfl, fetch_eq hid hi,
    Table.find?_eq_none_iff.2 h]
  rfl

theorem respond_delete_of_mem (hmethod : q.method = .delete)
    (hpath : q.path = ["recurrences".toList, segment])
    (hid : integerOfText (String.ofList segment) = .ok (r.id : Int)) (hi : IsRowId r.id)
    (hr : r ∈ t.rows) :
    respond s t q = (t.erase r.id, ⟨200, .object [("status", .text "deleted")], []⟩) := by
  have hfind : t.find? r.id = some r := Table.find?_eq_some_iff.2 ⟨hr, rfl⟩
  have hdelete := delete_eq (t := t) hid hi
  rw [hfind] at hdelete
  exact respond_of_ok (route_delete hmethod hpath (segment_ne_nil hid)) hdelete

theorem respond_delete_of_absent (hmethod : q.method = .delete)
    (hpath : q.path = ["recurrences".toList, segment])
    (hid : integerOfText (String.ofList segment) = .ok i) (hi : IsRowId i)
    (h : ∀ r ∈ t.rows, (r.id : Int) ≠ i) : respond s t q = (t, Refusal.noSuchRow.response) := by
  have hdelete := delete_eq (t := t) hid hi
  rw [Table.find?_eq_none_iff.2 h] at hdelete
  exact respond_of_error (route_delete hmethod hpath (segment_ne_nil hid)) hdelete

/-- A row is deleted alone, and not twice. -/
theorem respond_delete_twice (hmethod : q.method = .delete)
    (hpath : q.path = ["recurrences".toList, segment])
    (hid : integerOfText (String.ofList segment) = .ok (r.id : Int)) (hi : IsRowId r.id)
    (hr : r ∈ t.rows) :
    (respond s t q).2.status = 200 ∧
      (respond s t q).1.rows = t.rows.filter (fun b => (b.id : Int) ≠ r.id) ∧
      (respond s (respond s t q).1 q).2.status = 404 := by
  have hgone : ∀ b ∈ (t.erase r.id).rows, (b.id : Int) ≠ r.id :=
    fun b hb => (Table.mem_erase_iff.1 hb).2
  rw [respond_delete_of_mem hmethod hpath hid hi hr,
    respond_delete_of_absent hmethod hpath hid hi hgone]
  refine ⟨rfl, ?_, rfl⟩
  simp [Table.erase, bne, beq_eq_decide]

end Rows

/-! ### All requests -/

/-- A request changes the table only when it stores a rule or deletes a row, and is not refused. -/
theorem respond_table {q : Request}
    (h : (route q ≠ .ok .create ∧ ∀ id, route q ≠ .ok (.delete id)) ∨
      400 ≤ (respond s t q).2.status) : (respond s t q).1 = t := by
  rcases respond_cases s t q with ⟨htable, -⟩ | ⟨o, u, a, hroute, hperform, hanswer⟩
  · exact htable
  · rw [hanswer] at h ⊢
    rcases h with ⟨hcreate, hdelete⟩ | hstatus
    · rw [hroute] at hcreate hdelete
      exact perform_table hperform (by simpa using hcreate) (by simpa using hdelete)
    · have hanswered : a.status = 200 := perform_status hperform
      have hrefused : 400 ≤ a.status := hstatus
      omega

/-- Over every run the table is the map that its exchanges tell of. -/
theorem table_is_finite_map (s : Settings) (es : List Event) :
    IsFiniteMap s (run s .empty es).1 (history s .empty es) := by
  have hempty : ∀ r, r ∉ Table.empty.rows := fun r hr => by cases hr
  refine
    { rows := ?rows
      distinct := Table.nodup_ids _
      fresh := ?fresh
      unchanged := fun q => respond_table
      addressed := ?addressed
      listed := ?listed
      fetched := ?fetched
      deleted := ?deleted }
  case rows =>
    intro r
    rw [mem_run_iff]
    simp [hempty]
  case fresh =>
    intro e r hadds
    have hfresh := (effect_handle s _ e).fresh hadds
    refine ⟨?_, ?_⟩
    · intro b hb
      rw [hfresh]
      exact Table.id_lt_nextId _ hb
    · rw [hfresh]
      exact Table.nextId_eq _
  case addressed =>
    intro i hi
    exact integerOfText_integer (short_of_isRowId hi)
  case listed =>
    intro q hmethod hpath
    rw [respond_of_ok (route_list hmethod hpath) rfl]
    exact ⟨rfl, rfl, Table.ascending _⟩
  case fetched =>
    intro q segment i hmethod hpath hid hi
    refine ⟨?_, ?_⟩
    · rintro ⟨r, hr, rfl⟩
      rw [respond_fetch_of_mem hmethod hpath hid hi hr]
      rcases lastAdded_of_mem_run hr with ⟨hold, -⟩ | ⟨x, hx⟩
      · exact absurd hold (hempty r)
      · exact ⟨x, r, hx, rfl, rfl, rfl, fun p a hxa => (hxa ▸ hx).answered⟩
    · intro h
      rw [respond_fetch_of_absent hmethod hpath hid hi h]
      rfl
  case deleted =>
    intro q segment i hmethod hpath hid hi
    refine ⟨?_, ?_⟩
    · rintro ⟨r, hr, rfl⟩
      exact respond_delete_twice hmethod hpath hid hi hr
    · intro h
      rw [respond_delete_of_absent hmethod hpath hid hi h]
      exact ⟨rfl, rfl⟩

end Service
end Cadence
