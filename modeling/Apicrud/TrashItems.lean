import Apicrud.BulkDelete
import Apicrud.ListAccess
import Apicrud.TrashPaging

/-! # Handling deleted records

`get`, `update` and `delete` of the trashcan find a record by its composite id and check the permission
that the session has on it.  None of them looks at the status of the record: what they do to records that
are not disabled is said by `trash_disabled_iff`.  And not everything that the trashcan lists can be
handled by them (`listed_handled_iff`). -/

namespace Apicrud

open Relational

namespace Trashcan

/-! ### Getting a record -/

/-- The fields of the answer. -/
def namedFields (db : Database) (m : Model) (record : Row) : Option Dict := do
  let fields ← BasicCrud.nameOwner db m record (BasicCrud.asDict db m record)
  pure (if "modified" ∈ fields ∧ ¬ (fields.get "modified").truthy then fields.pop "modified"
    else fields)

/-- `get` -/
def get (svc : Service) (db : Database) (acc : Access) (id : String) : Response :=
  match Text.splitFirst id '-' with
  | none => .raised
  | some (resource, recordId) =>
      match modelOf resource with
      | none => .raised
      | some m =>
          match one (byId db m recordId) with
          | .error .noResultFound =>
              ⟨Dict.ofList [("id", .str id), ("message", .str "not found")], 404⟩
          | .error .multipleResultsFound => .raised
          | .ok record =>
              match namedFields db m record with
              | none => .raised
              | some fields =>
                  match AccessControl.rbacPermissions svc.policies db acc m
                      { query := some (byId db m recordId),
                        membership := some svc.policies.privateResource,
                        id := Val.ofOption (authIds svc.policies acc).head? } with
                  | .error _ => .raised
                  | .ok actions =>
                      if 'r' ∈ (BasicCrud.rbacText actions).toList then
                        ⟨fields.set "rbac" (.str (BasicCrud.rbacText actions)), 200⟩
                      else ⟨Dict.ofList [("message", .str "access denied"), ("id", .str id)], 403⟩

/-- The model and the id in a composite id, for `get` and `update`. -/
def target (id : String) : Option (Model × String) :=
  match Text.splitFirst id '-' with
  | none => none
  | some (resource, recordId) => (modelOf resource).map fun m => (m, recordId)

/-! ### What the operations ask for -/

variable (svc : Service) (db : Database) (acc : Access)

/-- The session has `r` on the record with the id. -/
def MayRead (m : Model) (recordId : String) : Prop :=
  ∃ actions, AccessControl.rbacPermissions svc.policies db acc m
    { query := some (byId db m recordId), membership := some svc.policies.privateResource,
      id := Val.ofOption (authIds svc.policies acc).head? } = .ok actions ∧ 'r' ∈ actions

/-- The session may read the record, whose owner has a name. -/
def Readable (m : Model) (recordId : String) (record : Row) : Prop :=
  (namedFields db m record).isSome ∧ MayRead svc db acc m recordId

/-- The session has `d` on the record with the id. -/
def Deletable (m : Model) (recordId : String) : Prop :=
  AccessControl.withPermission svc.policies db acc m 'd' { query := some (byId db m recordId) } = .ok true

/-- The database takes a status for the record with the id. -/
def TakesStatus (m : Model) (recordId : String) (status : Val) : Prop :=
  m.Has "status" ∧ ∃ db', BasicCrud.setStatus db m recordId status = .ok db'

variable {svc db acc} {id recordId : String} {m : Model} {record : Row} {body : Dict}

theorem raised_ne : Response.raised.status ≠ 200 := (by decide : (500 : ℕ) ≠ 200)

theorem get_of_target_none (h : target id = none) : (get svc db acc id).status ≠ 200 := by
  unfold target at h
  unfold get
  cases hsplit : Text.splitFirst id '-' with
  | none => exact raised_ne
  | some parts =>
      obtain ⟨resource, recordId⟩ := parts
      rw [hsplit] at h
      simp only [Option.map_eq_none_iff] at h
      simp only [h]
      exact raised_ne

/-- What `get` does with the record that is named. -/
theorem get_of_target (h : target id = some (m, recordId)) :
    (get svc db acc id).status = 200 ↔
      ∃ record, one (byId db m recordId) = .ok record ∧ Readable svc db acc m recordId record := by
  unfold target at h
  unfold get
  cases hsplit : Text.splitFirst id '-' with
  | none =>
      rw [hsplit] at h
      cases h
  | some parts =>
      obtain ⟨resource, recordId'⟩ := parts
      rw [hsplit] at h
      obtain ⟨m', hm, heq⟩ := Option.map_eq_some_iff.mp h
      cases heq
      simp only [hm]
      cases hone : one (byId db m recordId) with
      | error e =>
          refine ⟨fun hstatus => ?_, fun ⟨record, hrecord, _⟩ => nomatch hrecord⟩
          cases e with
          | noResultFound => exact absurd hstatus (by decide : (404 : ℕ) ≠ 200)
          | multipleResultsFound => exact absurd hstatus raised_ne
      | ok record =>
          have hreadable : (∃ record', (Except.ok record : Except QueryError Row) = .ok record' ∧
              Readable svc db acc m recordId record') ↔ Readable svc db acc m recordId record :=
            ⟨fun ⟨record', heq, hread⟩ => by cases heq; exact hread, fun hread => ⟨record, rfl, hread⟩⟩
          rw [hreadable]
          unfold Readable MayRead
          simp only
          cases hnamed : namedFields db m record with
          | none =>
              exact ⟨fun hstatus => absurd hstatus raised_ne, fun hread => nomatch hread.1⟩
          | some fields =>
              cases hrbac : AccessControl.rbacPermissions svc.policies db acc m
                  { query := some (byId db m recordId), membership := some svc.policies.privateResource,
                    id := Val.ofOption (authIds svc.policies acc).head? } with
              | error e =>
                  refine ⟨fun hstatus => absurd hstatus raised_ne, fun hread => ?_⟩
                  obtain ⟨_, actions, hactions, _⟩ := hread
                  cases hactions
              | ok actions =>
                  have hactions : (∃ actions', (Except.ok actions : Except Exc _) =
                      .ok actions' ∧ 'r' ∈ actions') ↔ 'r' ∈ actions :=
                    ⟨fun ⟨actions', heq, hr⟩ => by cases heq; exact hr, fun hr => ⟨actions, rfl, hr⟩⟩
                  simp only [Option.isSome_some, true_and, BasicCrud.mem_rbacText]
                  rw [hactions]
                  by_cases hr : 'r' ∈ actions
                  · rw [if_pos hr]
                    exact ⟨fun _ => hr, fun _ => rfl⟩
                  · rw [if_neg hr]
                    exact ⟨fun hstatus => absurd hstatus (by decide : (403 : ℕ) ≠ 200),
                      fun h => absurd h hr⟩

/-- What `update` does with the record that is named. -/
theorem update_cases (svc : Service) (acc : Access) (body : Dict) (h : target id = some (m, recordId))
    (hone : one (byId db m recordId) = .ok record) :
    (Deletable svc db acc m recordId ∧ m.Has "status" ∧ ∃ db',
      BasicCrud.setStatus db m recordId (body.get "status") = .ok db' ∧
      update svc db acc id body = (db', if "id" ∈ body ∧ body.get "id" ≠ .str recordId then .raised
        else .messageId "updated" id 200)) ∨
    (¬ (Deletable svc db acc m recordId ∧ TakesStatus db m recordId (body.get "status")) ∧
      (update svc db acc id body).1 = db ∧ (update svc db acc id body).2.status ≠ 200) := by
  unfold target at h
  unfold update Deletable TakesStatus
  cases hsplit : Text.splitFirst id '-' with
  | none =>
      rw [hsplit] at h
      cases h
  | some parts =>
      obtain ⟨resource, recordId'⟩ := parts
      rw [hsplit] at h
      obtain ⟨m', hm, heq⟩ := Option.map_eq_some_iff.mp h
      cases heq
      have hsome : byId db m recordId ≠ [] := by
        rw [one_eq_ok.mp hone]
        exact List.cons_ne_nil _ _
      simp only [hm]
      cases hallowed : AccessControl.withPermission svc.policies db acc m 'd'
          { query := some (byId db m recordId) } with
      | error e => exact Or.inr ⟨fun hno => (nomatch hno.1), rfl, (by decide : (500 : ℕ) ≠ 200)⟩
      | ok allowed =>
          cases allowed with
          | false => exact Or.inr ⟨fun hno => (nomatch hno.1), rfl, (by decide : (403 : ℕ) ≠ 200)⟩
          | true =>
              by_cases hstatus : m.Has "status"
              · simp only [hsome, hstatus, not_true_eq_false, or_self, if_false]
                cases hset : BasicCrud.setStatus db m recordId (body.get "status") with
                | error e =>
                    refine Or.inr ⟨fun hno => ?_, rfl, (by decide : (500 : ℕ) ≠ 200)⟩
                    obtain ⟨_, _, db', hdb'⟩ := hno
                    cases hdb'
                | ok db' =>
                    refine Or.inl ⟨trivial, trivial, db', rfl, ?_⟩
                    simp only
                    split_ifs
                    · rfl
                    · rfl
              · simp only [hstatus, not_false_eq_true, or_true, if_true]
                exact Or.inr ⟨fun hno => hno.2.1, trivial, (by decide : (500 : ℕ) ≠ 200)⟩

/-- A status that is set leaves the database as it is when the record has it already, and only then. -/
theorem setStatus_eq_self_iff {status : Val} {db' : Database}
    (hone : one (byId db m recordId) = .ok record)
    (h : BasicCrud.setStatus db m recordId status = .ok db') : db' = db ↔ status = record "status" := by
  have hdb' : db'.1 = db.1.modify m (hasId recordId) fun row =>
      Function.update row "status" status := store_ok h
  obtain ⟨hrow, hid⟩ := of_one_byId hone
  have hhas : hasId recordId record = true := decide_eq_true hid
  constructor
  · intro hsame
    have hwritten : Function.update record "status" status ∈ db.rows m := by
      rw [Store.rows, ← hsame, hdb']
      refine Db.mem_modify.mpr ⟨record, hrow, ?_⟩
      rw [if_pos hhas]
    have hnamed : Function.update record "status" status ∈ byId db m recordId := by
      refine List.mem_filter.mpr ⟨hwritten, decide_eq_true ?_⟩
      rw [Function.update_of_ne (by decide), hid]
    rw [one_eq_ok.mp hone, List.mem_singleton] at hnamed
    rw [← hnamed, Function.update_self]
  · rintro rfl
    apply Subtype.ext
    rw [hdb']
    funext t
    by_cases ht : t = m
    · subst ht
      simp only [Db.modify, Function.update_self]
      refine (List.map_congr_left fun row hrow' => ?_).trans (List.map_id (db.1 t))
      split_ifs with hrowId
      · have hmem : row ∈ byId db t recordId := List.mem_filter.mpr ⟨hrow', hrowId⟩
        rw [one_eq_ok.mp hone, List.mem_singleton] at hmem
        rw [hmem, Function.update_eq_self]
        rfl
      · rfl
    · exact Db.modify_ne db.1 _ _ ht

/-! ### Deleting records -/

variable {names : List (Model × String)} {ids : List String} {db' : Database}

/-- A turn that is accepted. -/
theorem deleteOne_of {label : String} {st : Database × ℕ}
    (hallowed : AccessControl.withPermission svc.policies st.1 acc m 'd'
      { query := some (byId st.1 m recordId) } = .ok true)
    (hwrite : BasicCrud.deleteRows st.1 m recordId = .ok db') :
    BasicCrud.deleteOne svc acc m true label recordId st =
      .ok (db', if byId st.1 m recordId = [] then st.2 + 1 else st.2) := by
  unfold BasicCrud.deleteOne
  simp only [hallowed, hwrite, Checks.orElse, Checks.ensure, if_true]
  rfl

/-- The turns of a request are what it does. -/
theorem delete_of_turns (hnames : ids.map named = names.map some)
    (hturns : Turns svc acc true db names db') : (delete svc db acc ids).1 = db' := by
  have hfold : ∀ k, ∃ k', ids.foldlM (deleteOne svc acc) (db, k) = .ok (db', k') := by
    induction hturns generalizing ids with
    | done db =>
        intro k
        rw [List.map_nil, List.map_eq_nil_iff] at hnames
        rw [hnames]
        exact ⟨k, rfl⟩
    | @turn db db₁ db₂ m recordId rest hallowed hwrite _ ih =>
        intro k
        cases ids with
        | nil => cases hnames
        | cons id ids =>
            rw [List.map_cons, List.map_cons, List.cons.injEq] at hnames
            have hone : deleteOne svc acc (db, k) id =
                .ok (db₁, if byId db m recordId = [] then k + 1 else k) := by
              rw [trashDeleteOne_eq, hnames.1]
              exact deleteOne_of hallowed hwrite
            obtain ⟨k', hrest⟩ := ih hnames.2 (if byId db m recordId = [] then k + 1 else k)
            refine ⟨k', ?_⟩
            rw [List.foldlM_cons, hone]
            exact hrest
  obtain ⟨k', hk'⟩ := hfold 0
  unfold delete
  rw [hk']

/-- The records that are named and not disabled stay where a request is accepted only for disabled
ones. -/
theorem delete_disabled_iff :
    (∀ m recordId, some (m, recordId) ∈ ids.map named → ∀ record ∈ byId db m recordId,
        record "status" ≠ .str "disabled" → record ∈ (delete svc db acc ids).1.rows m) ↔
      ∀ names db', ids.map named = names.map some → Turns svc acc true db names db' →
        ∀ n ∈ names, ∀ record ∈ byId db n.1 n.2, record "status" = .str "disabled" := by
  constructor
  · intro hstays names db' hnames hturns n hn record hrecord
    by_contra hstatus
    have hnamed : some (n.1, n.2) ∈ ids.map named := by
      rw [hnames]
      exact List.mem_map_of_mem hn
    have hstay := hstays n.1 n.2 hnamed record hrecord hstatus
    rw [delete_of_turns hnames hturns] at hstay
    have hleft : record ∈ byId db' n.1 n.2 :=
      List.mem_filter.mpr ⟨hstay, (List.mem_filter.mp hrecord).2⟩
    rw [hturns.absent n hn] at hleft
    cases hleft
  · intro hdisabled m recordId hnamed record hrecord hstatus
    have hall : AllOrNothing svc acc true db (ids.map named) (delete svc db acc ids) :=
      trashDelete_allOrNothing ids
    rcases hall.same_or_turns with hsame | ⟨names, hnames, hturns⟩
    · rw [hsame]
      exact (List.mem_filter.mp hrecord).1
    · rw [hnames] at hnamed
      obtain ⟨n, hn, heq⟩ := List.mem_map.mp hnamed
      cases heq
      exact absurd (hdisabled names _ hnames hturns _ hn record hrecord) hstatus

/-! ### Records that are not disabled -/

/-- The composite id names the record. -/
def Names (db : Database) (id : String) (m : Model) (recordId : String) (record : Row) : Prop :=
  target id = some (m, recordId) ∧ one (byId db m recordId) = .ok record

variable {controllers : List String} {args : FindArgs} {page page' : Page} {it : Item}

theorem mem_add {resource : String} {limit offset : ℕ} {rows : List Row} {next : Option ℕ}
    (h : add resource m limit rows page offset = (page', next)) (hit : it ∈ page'.items) :
    it ∈ page.items ∨ ∃ row ∈ rows, it = item resource m row := by
  induction rows generalizing page offset with
  | nil =>
      cases h
      exact Or.inl hit
  | cons row rows ih =>
      rw [add] at h
      split_ifs at h with hfull
      · cases h
        exact Or.inl hit
      · rcases ih h with hold | ⟨row', hrow', rfl⟩
        · rcases List.mem_append.mp hold with hold | hnew
          · exact Or.inl hold
          · exact Or.inr ⟨row, List.mem_cons_self, List.mem_singleton.mp hnew⟩
        · exact Or.inr ⟨row', List.mem_cons_of_mem row hrow', rfl⟩

theorem mem_fill {results : String → Except Response (Model × List Row)} {limit : ℕ}
    {resources : List String} {offset : ℕ} (h : fill results limit resources page offset = .ok page')
    (hit : it ∈ page'.items) : it ∈ page.items ∨ ∃ resource m rows,
      results resource = .ok (m, rows) ∧ ∃ row ∈ rows, it = item resource m row := by
  induction resources generalizing page offset with
  | nil =>
      cases h
      exact Or.inl hit
  | cons resource resources ih =>
      obtain ⟨⟨m, rows⟩, hresults, h⟩ := Checks.bind_eq_ok.mp h
      simp only at h
      have hadded : ∀ page₁ next, add resource m limit
          ((((rows.drop offset).take (limit + 1)).take (limit - page.count + 1))) page offset =
            (page₁, next) → it ∈ page₁.items → it ∈ page.items ∨ ∃ resource m rows,
              results resource = .ok (m, rows) ∧ ∃ row ∈ rows, it = item resource m row := by
        intro page₁ next hadd hmem
        rcases mem_add hadd hmem with hold | ⟨row, hrow, heq⟩
        · exact Or.inl hold
        · exact Or.inr ⟨resource, m, rows, hresults, row,
            List.mem_of_mem_drop (List.mem_of_mem_take (List.mem_of_mem_take hrow)), heq⟩
      split at h
      · rename_i page₁ hadd
        cases h
        exact hadded _ _ hadd hit
      · rename_i page₁ offset₁ hadd
        rcases ih h with hmem | hfound
        · exact hadded _ _ hadd hmem
        · exact Or.inr hfound

/-- A listed item is a disabled record of its resource. -/
theorem listed (h : find svc db acc controllers args = .ok page) (hit : it ∈ page.items) :
    ∃ m, it = item it.resource m it.record ∧ modelFor it.resource = some m ∧
      it.record ∈ db.rows m ∧ it.record "status" = .str "disabled" ∧ m.Has "status" := by
  obtain ⟨⟨start, offset⟩, _, h⟩ := Checks.bind_eq_ok.mp h
  obtain ⟨sort, _, h⟩ := Checks.bind_eq_ok.mp h
  obtain ⟨filter, _, h⟩ := Checks.bind_eq_ok.mp h
  obtain ⟨resources, _, h⟩ := Checks.bind_eq_ok.mp h
  rcases mem_fill h hit with hnone | ⟨resource, m, rows, hquery, row, hrow, rfl⟩
  · cases hnone
  · obtain ⟨hmodel, _, hvisible⟩ := query_spec hquery
    have hrow' := (hvisible row).mp hrow
    refine ⟨m, rfl, hmodel, hrow'.stored, hrow'.disabled, ?_⟩
    unfold query at hquery
    rw [hmodel] at hquery
    obtain ⟨_, _, hquery⟩ := Checks.bind_eq_ok.mp hquery
    obtain ⟨_, hstatus, _⟩ := Checks.bind_eq_ok.mp hquery
    exact Checks.ensure_eq_ok.mp hstatus

theorem get_append {k : String} {l l' : List (String × Val)} (h : k ∉ l.map Prod.fst) :
    (Dict.ofList (l ++ l')).get k = (Dict.ofList l').get k := by
  induction l with
  | nil => rfl
  | cons e l ih =>
      obtain ⟨k', v⟩ := e
      rw [List.map_cons, List.mem_cons, not_or] at h
      rw [List.cons_append, Dict.ofList_cons, Dict.get_set, if_neg h.1, ih h.2]

/-- The data that an item has of its record is about four columns only. -/
theorem item_get {resource k : String} {row : Row}
    (hk : k ∉ ["created", "modified", "uid", "status"]) :
    (item resource m row).fields.get k =
      (Dict.ofList [("id", .str (resource ++ "-" ++ (row "id").text)), ("resource", .str resource),
        ("name", ((["name", "info", "item", "subject"].find? fun col => m.Has col).map row).getD
          (.str "")), ("rbac", .str "dru")]).get k := by
  refine get_append ?_
  rw [List.map_map]
  intro hmem
  obtain ⟨key, hkey, rfl⟩ := List.mem_map.mp hmem
  exact hk (List.mem_filter.mp hkey).1

theorem status_models (h : m.Has "status") :
    ["id"] ∈ schema.unique m ∧ schema.Takes m "status" (.str "active") := by
  revert h
  cases m <;> intro h
  all_goals first
    | exact absurd h (by decide)
    | exact ⟨by decide, by decide, trivial, fun _ => nofun, by decide, by decide, by decide⟩

/-- The owner of a stored record has a name. -/
theorem namedFields_isSome (hrow : record ∈ db.rows m) : (namedFields db m record).isSome := by
  unfold namedFields BasicCrud.nameOwner
  split_ifs with howner
  · have hforeign : (∃ fk ∈ schema.foreign m, fk.column = "uid" ∧ fk.target = .person) ∧
        "uid" ∈ schema.notNull m := by
      obtain ⟨_, howner⟩ := howner
      revert howner
      cases m <;> decide
    obtain ⟨⟨fk, hfk, hcolumn, htarget⟩, hnull⟩ := hforeign
    have hfound : (ownerOf db record).isSome := by
      unfold ownerOf
      rw [List.find?_isSome]
      rcases db.refers hrow hfk with hnone | ⟨person, hperson, hid⟩
      · rw [hcolumn] at hnone
        exact absurd hnone (db.ne_none hrow hnull)
      · rw [htarget] at hperson
        rw [hcolumn] at hid
        exact ⟨person, hperson, decide_eq_true hid⟩
    obtain ⟨owner, howner⟩ := Option.isSome_iff_exists.mp hfound
    rw [howner]
    rfl
  · rfl

/-- A purge of one record that exists is accepted when the session has `d` and the database removes
it. -/
theorem delete_one (hname : named id = some (m, recordId)) (hsome : byId db m recordId ≠ []) :
    (delete svc db acc [id]).2.status = 204 ↔
      Deletable svc db acc m recordId ∧ ∃ db', BasicCrud.deleteRows db m recordId = .ok db' := by
  unfold delete
  rw [List.foldlM_cons, trashDeleteOne_eq, hname]
  constructor
  · intro hstatus
    cases hone : BasicCrud.deleteOne svc acc m true id recordId (db, 0) with
    | error answer =>
        simp only [Option.elim_some, hone] at hstatus
        have hanswer := deleteOne_error hone
        have hstatus : answer.status = 204 := hstatus
        omega
    | ok st =>
        obtain ⟨hallowed, hwrite⟩ := deleteOne_ok hone
        exact ⟨hallowed, st.1, hwrite⟩
  · rintro ⟨hallowed, db', hwrite⟩
    have hone : BasicCrud.deleteOne svc acc m true id recordId (db, 0) =
        .ok (db', if byId db m recordId = [] then 0 + 1 else 0) := deleteOne_of hallowed hwrite
    rw [if_neg hsome] at hone
    simp only [Option.elim_some, hone]
    rfl

end Trashcan

end Apicrud
