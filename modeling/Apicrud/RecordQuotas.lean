import Apicrud.BulkDelete
import Apicrud.Creates
import Apicrud.Grants
import Apicrud.Seed

/-! # Quotas on records

`create` counts the records that a user has of a resource, disabled ones included, and refuses another one
when the limit is reached.  The other requests on records hide, restore or remove them.  `Keeps` is what each
of them does to the number of records, and `records_within` what a run of them does. -/

namespace Apicrud

open Relational

/-- The number of records that a user has of a resource, active or disabled. -/
def recordCount (db : Database) (t : Model) (u : String) : ℕ :=
  ((db.rows t).filter fun row => decide (row "uid" = .str u)).length

/-- A request adds no record of the user, or one that there was room for. -/
def Keeps (t : Model) (u : String) (limit : ℤ) (db db' : Database) : Prop :=
  recordCount db' t u ≤ recordCount db t u ∨
    recordCount db' t u = recordCount db t u + 1 ∧ (recordCount db t u : ℤ) < limit

/-- The requests that make, hide, restore and remove records. -/
def Call.OnRecords : Call → Prop
  | .post m _ => m ≠ .account
  | .put m id _ => m = .grant ∧ Text.Contains id ":"
  | .delete .. | .trashUpdate .. | .trashDelete .. => True
  | _ => False

/-- Whoever makes a record of the user, the limit is the same. -/
def LimitIs (svc : Service) (t : Model) (u : String) (limit : ℤ) (w : World) (e : Event) : Prop :=
  ∀ body, CreateBody e.req (e.req.access svc (w.at e)) e.call t body →
    ownerFor (e.req.access svc (w.at e)) body = .str u →
    e.req.amb.grants (BasicCrud.grantName t.resource) = .int limit

variable {svc : Service} {db db' : Database} {acc : Access} {amb : Ambient} {now : ℕ} {t m : Model}
  {u : String} {limit : ℤ} {body : Dict} {pre : String} {limits : List (String × Val)}

theorem keeps_of_rows (h : db'.rows t = db.rows t) : Keeps t u limit db db' := by
  left
  unfold recordCount
  rw [h]

/-! ### Create -/

/-- The limit leaves room for one more. -/
theorem checkQuota_room {uid : Val} (h : BasicCrud.checkQuota svc db amb m uid = .ok ())
    (hquota : BasicCrud.grantName m.resource ∈ svc.conf.defaultGrants)
    (hlimit : amb.grants (BasicCrud.grantName m.resource) = .int limit) :
    (((db.rows m).filter fun row => decide (row "uid" = uid)).length : ℤ) < limit := by
  unfold BasicCrud.checkQuota at h
  rw [if_pos hquota] at h
  simp only [hlimit, exceeds] at h
  split_ifs at h
  by_contra hfull
  have hover : limit < ((((db.rows m).filter fun row => decide (row "uid" = uid)).length + 1 : ℕ) : ℤ) := by
    push_cast
    omega
  rw [decide_eq_true hover] at h
  cases h

/-- A record is added at the end of its table, and the other resources stay as they are. -/
theorem create_rows (svc : Service) (db : Database) (acc : Access) (amb : Ambient) (now : ℕ) (m : Model)
    (body : Dict) (pre : String) (limits : List (String × Val)) (ht : t ∈ Controllers.routed) :
    (BasicCrud.create svc db acc amb now m body pre limits).1.rows t = db.rows t ∨
    t = m ∧ ∃ p db₁, Inserts svc db acc amb now m body pre limits p db₁ ∧
      (BasicCrud.create svc db acc amb now m body pre limits).1.rows t =
        db.rows t ++ [BasicCrud.newRow m p.body] := by
  have hassoc : ∀ r ∈ BasicCrud.relatedOf m body, t ≠ r.1.assoc := by
    intro r hr
    have hrel : r.1 ∈ m.restRelated := mem_relatedOf hr
    revert ht
    cases m
    case apikey | list | person =>
      rw [List.mem_singleton.mp hrel]
      cases t <;> decide
    all_goals cases hrel
  rcases create_cases svc db acc amb now m body pre limits with
    ⟨-, answer, hcreate, -⟩ | ⟨p, db₁, hinserts, hcreate⟩
  · rw [hcreate]
    exact Or.inl rfl
  have hdb₁ : db₁.1 = db.1.insert m (BasicCrud.newRow m p.body) := store_ok hinserts.2
  rw [hcreate]
  by_cases htm : t = m
  · subst htm
    refine Or.inr ⟨rfl, p, db₁, hinserts, ?_⟩
    rcases createRelated_cases (p.answered (amb.genIdWith pre .record)) hinserts with
      ⟨-, db₂, hrelated, hdb₂⟩ | ⟨-, refusal, -, hrelated⟩
    · rw [hrelated, Store.rows, hdb₂]
      exact withLinks_self hassoc
    · rw [hrelated, Store.rows, hdb₁, Db.insert, Function.update_self]
      rfl
  · left
    rcases createRelated_cases (p.answered (amb.genIdWith pre .record)) hinserts with
      ⟨-, db₂, hrelated, hdb₂⟩ | ⟨-, refusal, -, hrelated⟩
    · rw [hrelated, Store.rows, hdb₂]
      exact withLinks_other htm hassoc
    · rw [hrelated, Store.rows, hdb₁]
      exact Db.insert_ne _ _ htm

theorem create_keeps (ht : t ∈ Controllers.routed) (huid : t.Has "uid")
    (hquota : BasicCrud.grantName t.resource ∈ svc.conf.defaultGrants)
    (hlimit : t = m → ownerFor acc body = .str u →
      amb.grants (BasicCrud.grantName t.resource) = .int limit) :
    Keeps t u limit db (BasicCrud.create svc db acc amb now m body pre limits).1 := by
  rcases create_rows svc db acc amb now m body pre limits ht with
    hsame | ⟨rfl, p, db₁, hinserts, hrows⟩
  · exact keeps_of_rows hsame
  · have howner : BasicCrud.newRow t p.body "uid" = ownerFor acc body :=
      BasicCrud.newRow_uid huid hinserts.1
    unfold Keeps recordCount
    rw [hrows, List.filter_append, List.length_append]
    by_cases hu : ownerFor acc body = .str u
    · right
      have hroom := checkQuota_room (BasicCrud.prepare_quota huid hinserts.1) hquota (hlimit rfl hu)
      rw [hu] at hroom
      have hone : [BasicCrud.newRow t p.body].filter (fun row => decide (row "uid" = .str u)) =
          [BasicCrud.newRow t p.body] := by
        simp [howner, hu]
      rw [hone]
      exact ⟨rfl, hroom⟩
    · left
      have hnone : [BasicCrud.newRow t p.body].filter (fun row => decide (row "uid" = .str u)) = [] := by
        simp [howner, hu]
      rw [hnone]
      simp

/-- What the controllers add after `create`: nothing, but the contact of a new person. -/
theorem afterCreate_rows (svc : Service) (w : World) (amb : Ambient) (m : Model) (body : Dict)
    (answer : Response) (ht : t ∈ Controllers.routed) :
    (Controllers.afterCreate svc w amb m body answer).1.db.rows t = w.db.rows t ∨
    t = .contact ∧ m = .person ∧ (Controllers.afterCreate svc w amb m body answer).1.db.rows t =
      w.db.rows t ++ [Controllers.personContact amb (amb.genIdWith (Controllers.idPrefix .person) .record)
        (body.get "identity")] := by
  cases m with
  | contact =>
      left
      exact congrArg (fun db : Database => db.rows t) (confirmed_db w amb _ answer)
  | message =>
      left
      unfold Controllers.afterCreate
      simp only
      split
      · split
        · rename_i hstore
          rw [Store.rows, store_ok hstore]
          refine Db.insert_ne _ _ ?_
          rintro rfl
          exact absurd ht (by decide)
        · rfl
      · rfl
  | person =>
      unfold Controllers.afterCreate
      simp only
      split
      · rename_i hstore
        by_cases hcontact : t = .contact
        · subst hcontact
          right
          refine ⟨rfl, trivial, ?_⟩
          rw [Store.rows, store_ok hstore, Db.insert, Function.update_self]
          rfl
        · left
          rw [Store.rows, store_ok hstore]
          exact Db.insert_ne _ _ hcontact
      · exact Or.inl rfl
  | _ => exact Or.inl rfl

/-- A new person has no contacts. -/
theorem count_of_fresh {id : String} (hfresh : byId db .person id = []) :
    recordCount db .contact id = 0 := by
  unfold recordCount
  rw [List.length_eq_zero_iff, List.filter_eq_nil_iff]
  intro row hrow huid
  have huid : row "uid" = .str id := by simpa using huid
  rcases db.refers hrow (List.mem_singleton_self Model.ownedBy) with hnull | ⟨person, hperson, hid⟩
  · rw [show row "uid" = .none from hnull] at huid
    cases huid
  · have hfound : person ∈ byId db .person id :=
      List.mem_filter.mpr ⟨hperson, by simpa [hasId] using hid.trans huid⟩
    rw [hfresh] at hfound
    cases hfound

/-- The contact of a new person is its first one. -/
theorem personContact_keeps {w : World} {req : Request} {identity : Val} (hone : 1 ≤ limit)
    (hstatus : (Controllers.created svc w req .person body).2.status = 201)
    (hrows : db'.rows .contact = (Controllers.created svc w req .person body).1.rows .contact ++
      [Controllers.personContact req.amb (req.amb.genIdWith (Controllers.idPrefix .person) .record)
        identity]) :
    Keeps .contact u limit w.db db' := by
  have huid : Controllers.personContact req.amb (req.amb.genIdWith (Controllers.idPrefix .person) .record)
      identity "uid" = .str (req.amb.genIdWith (Controllers.idPrefix .person) .record) :=
    record_cell (by simp) nofun
  have hcontacts : (Controllers.created svc w req .person body).1.rows .contact =
      w.db.rows .contact := by
    rcases create_rows svc w.db (req.access svc w) req.amb w.now .person
      (Controllers.createBody req.amb (req.access svc w) .person body) (Controllers.idPrefix .person)
      (Controllers.limits svc req.amb .person) (by decide : Model.contact ∈ Controllers.routed) with
      hsame | ⟨hperson, -⟩
    · exact hsame
    · cases hperson
  have hfresh : byId w.db .person (req.amb.genIdWith (Controllers.idPrefix .person) .record) = [] := by
    rcases create_cases svc w.db (req.access svc w) req.amb w.now .person
      (Controllers.createBody req.amb (req.access svc w) .person body) (Controllers.idPrefix .person)
      (Controllers.limits svc req.amb .person) with ⟨-, answer, hcreate, hrefuses⟩ | ⟨p, db₁, hinserts, -⟩
    · refine absurd ?_ hrefuses.ne_created
      rw [← hstatus]
      exact (congrArg (fun r => r.2.status) hcreate).symm
    · exact hinserts.fresh (by decide)
  by_cases hu : req.amb.genIdWith (Controllers.idPrefix .person) .record = u
  · right
    subst hu
    have hzero := count_of_fresh hfresh
    have hnew : recordCount db' .contact
        (req.amb.genIdWith (Controllers.idPrefix .person) .record) = 0 + 1 := by
      rw [← hzero]
      unfold recordCount
      rw [hrows, hcontacts, List.filter_append, List.length_append]
      simp [huid]
    rw [hzero, hnew]
    exact ⟨rfl, by push_cast; omega⟩
  · left
    unfold recordCount
    rw [hrows, hcontacts, List.filter_append, List.length_append]
    simp [huid, hu]

/-- A controller that makes a record keeps to the quota, whatever it does afterwards. -/
theorem post_keeps {w : World} {req : Request} (hm : m ≠ .account) (ht : t ∈ Controllers.routed)
    (huid : t.Has "uid") (hquota : BasicCrud.grantName t.resource ∈ svc.conf.defaultGrants)
    (hone : 1 ≤ limit)
    (hlimit : t = m → ownerFor (req.access svc w) (Controllers.createBody req.amb (req.access svc w) m
      body) = .str u → req.amb.grants (BasicCrud.grantName t.resource) = .int limit) :
    Keeps t u limit w.db (Controllers.post svc w req m body).1.db := by
  have hcreated : Keeps t u limit w.db (Controllers.created svc w req m body).1 :=
    create_keeps ht huid hquota hlimit
  by_cases hpath : m ∉ Controllers.routed ∨ m = .settings
  · unfold Controllers.post
    rw [if_neg hm, if_pos hpath]
    exact keeps_of_rows rfl
  by_cases hdaily : m = .message ∧ req.amb.withinDailyTotal = false
  · unfold Controllers.post
    rw [if_neg hm, if_neg hpath, if_pos hdaily]
    exact keeps_of_rows rfl
  rw [post_eq hm hpath hdaily]
  by_cases hstatus : (Controllers.created svc w req m body).2.status = 201
  · rw [if_pos hstatus]
    rcases afterCreate_rows svc { w with db := (Controllers.created svc w req m body).1 } req.amb m body
      (Controllers.created svc w req m body).2 ht with hsame | ⟨rfl, rfl, hrows⟩
    · unfold Keeps recordCount at hcreated ⊢
      rw [hsame]
      exact hcreated
    · exact personContact_keeps hone hstatus hrows
  · rw [if_neg hstatus]
    exact hcreated

/-! ### The other requests -/

theorem setStatus_count {id : String} {status : Val}
    (h : BasicCrud.setStatus db m id status = .ok db') : recordCount db' t u = recordCount db t u := by
  unfold recordCount
  rw [Store.rows, store_ok h]
  by_cases ht : t = m
  · subst ht
    rw [Db.modify, Function.update_self, List.filter_map, List.length_map, Store.rows]
    congr 1
    refine List.filter_congr fun row _ => ?_
    simp only [Function.comp_apply]
    split
    · rw [Function.update_of_ne (by decide)]
    · rfl
  · rw [Db.modify_ne _ _ _ ht]
    rfl

/-- A deletion takes rows out, and leaves the others as they are. -/
theorem turnWrite_sublist {id : String} (h : turnWrite true db m id = .ok db') :
    (db'.rows t).Sublist (db.rows t) := by
  rw [Store.rows, store_ok h]
  refine (schema.cascade_sublist _ t).trans ?_
  by_cases ht : t = m
  · subst ht
    rw [Db.remove, Function.update_self]
    exact List.filter_sublist
  · rw [Db.remove_ne _ _ ht]
    exact List.Sublist.refl _

theorem turnWrite_count {force : Bool} {id : String} (h : turnWrite force db m id = .ok db') :
    recordCount db' t u ≤ recordCount db t u := by
  cases force with
  | true => exact ((turnWrite_sublist h).filter _).length_le
  | false => exact (setStatus_count h).le

/-- Records only go by deletes. -/
theorem Turns.count_le {force : Bool} {names : List (Model × String)}
    (h : Turns svc acc force db names db') : recordCount db' t u ≤ recordCount db t u := by
  induction h with
  | done db => exact Nat.le_refl _
  | turn hallowed hwrite hrest ih => exact ih.trans (turnWrite_count hwrite)

/-- Records that are deleted for good leave the others as they are. -/
theorem Turns.sublist {names : List (Model × String)} (h : Turns svc acc true db names db') :
    (db'.rows t).Sublist (db.rows t) := by
  induction h with
  | done db => exact List.Sublist.refl _
  | turn hallowed hwrite hrest ih => exact ih.trans (turnWrite_sublist hwrite)

theorem AllOrNothing.keeps {force : Bool} {named : List (Option (Model × String))}
    {r : Database × Response} (h : AllOrNothing svc acc force db named r) :
    Keeps t u limit db r.1 := by
  rcases h.same_or_turns with hsame | ⟨names, -, hturns⟩
  · rw [hsame]
    exact keeps_of_rows rfl
  · exact Or.inl hturns.count_le

theorem trashUpdate_keeps {id : String} :
    Keeps t u limit db (Trashcan.update svc db acc id body).1 := by
  rcases trashUpdate_cases svc db acc id body with hsame | ⟨resource, recordId, m, -, -, -, hok⟩
  · rw [hsame]
    exact keeps_of_rows rfl
  · exact Or.inl (setStatus_count hok).le

/-! ### Runs -/

/-- Every request of the kind keeps to the quota. -/
theorem handle_keeps {w : World} {e : Event} (ht : t ∈ Controllers.routed) (huid : t.Has "uid")
    (hquota : BasicCrud.grantName t.resource ∈ svc.conf.defaultGrants) (hone : 1 ≤ limit)
    (hcall : e.call.OnRecords) (hlimit : LimitIs svc t u limit w e) :
    Keeps t u limit w.db ((machine svc).next w e).db := by
  obtain ⟨elapsed, req, call⟩ := e
  cases call with
  | post m body =>
      refine post_keeps (w := w.at ⟨elapsed, req, .post m body⟩) hcall ht huid hquota hone ?_
      rintro rfl howner
      exact hlimit _ (.post t body hcall) howner
  | put m id body =>
      obtain ⟨rfl, hcolon⟩ := hcall
      have hput : ((machine svc).next w ⟨elapsed, req, .put .grant id body⟩).db =
          (BasicCrud.create svc w.db (req.access svc (w.at ⟨elapsed, req, .put .grant id body⟩)) req.amb
            (w.now + elapsed) .grant (Controllers.hybridBody req.amb id body) "x-" []).1 := by
        simp only [Machine.next, machine, handle, Controllers.put]
        rw [if_neg (by decide), if_neg (by decide), if_pos ⟨trivial, hcolon⟩]
        rfl
      rw [hput]
      refine create_keeps ht huid hquota ?_
      rintro rfl howner
      exact hlimit _ (.hybrid id body) howner
  | delete m ids force =>
      simp only [Machine.next, machine, handle, Controllers.delete]
      by_cases hm : m ∉ Controllers.routed
      · rw [if_pos hm]
        exact keeps_of_rows rfl
      · rw [if_neg hm]
        exact (delete_allOrNothing m ids force).keeps
  | trashUpdate id body => exact trashUpdate_keeps
  | trashDelete ids => exact (trashDelete_allOrNothing ids).keeps
  | _ => exact hcall.elim

/-- Along a run of such requests the records of a user stay within the limit, and one is only added where
there were fewer. -/
theorem records_within {w : World} {es : List Event} (ht : t ∈ Controllers.routed)
    (huid : t.Has "uid") (hquota : BasicCrud.grantName t.resource ∈ svc.conf.defaultGrants)
    (hone : 1 ≤ limit)
    (h : (machine svc).Along (fun w e => e.call.OnRecords ∧ LimitIs svc t u limit w e) w es)
    (hstart : (recordCount w.db t u : ℤ) ≤ limit) :
    (machine svc).Along (fun w e => (recordCount ((machine svc).next w e).db t u : ℤ) ≤ limit ∧
      (recordCount w.db t u < recordCount ((machine svc).next w e).db t u →
        (recordCount w.db t u : ℤ) < limit)) w es := by
  have hkeeps : ∀ w e, (recordCount w.db t u : ℤ) ≤ limit →
      e.call.OnRecords ∧ LimitIs svc t u limit w e →
      (recordCount ((machine svc).next w e).db t u : ℤ) ≤ limit ∧
      (recordCount w.db t u < recordCount ((machine svc).next w e).db t u →
        (recordCount w.db t u : ℤ) < limit) := by
    intro w e hw he
    rcases handle_keeps ht huid hquota hone he.1 he.2 with hless | ⟨hmore, hroom⟩
    · omega
    · omega
  exact h.of_invariant (fun w e hw he => (hkeeps w e hw he).1) hkeeps hstart

/-- The seeded service, where the other user is logged in. -/
def quotaWorld : World :=
  ((Seed.world Seed.shared).createSession Seed.service (some "u-0002") ["user"] none "t1" 7200 []).1

/-- A request of the other user, who may have two contacts. -/
def withinTwo (id : String) (call : Call) : Event :=
  ⟨1, ⟨{ authorization := some ("u-0002", "t1") }, { Seed.ambient id with grants := fun _ => .int 2 }⟩,
    call⟩

/-- A second contact is made and hidden, a third one is refused, and the second restored. -/
def contactRun : List Event :=
  [withinTwo "q1" (.post .contact (contact "second@example.org")),
    withinTwo "q2" (.delete .contact ["x-q1"] false),
    withinTwo "q3" (.post .contact (contact "second@example.net")),
    withinTwo "q4" (.trashUpdate "contact-x-q1" (Dict.ofList [("status", .str "active")]))]
where
  /-- The body of a contact. -/
  contact (info : String) : Dict := Dict.ofList [("type", .str "email"), ("info", .str info)]

theorem contactRun_within :
    recordCount ((machine Seed.service).run quotaWorld contactRun).db .contact "u-0002" = 2 ∧
    (machine Seed.service).Along (fun w e =>
      (recordCount ((machine Seed.service).next w e).db .contact "u-0002" : ℤ) ≤ 2 ∧
      (recordCount w.db .contact "u-0002" <
          recordCount ((machine Seed.service).next w e).db .contact "u-0002" →
        (recordCount w.db .contact "u-0002" : ℤ) < 2)) quotaWorld contactRun := by
  refine ⟨by decide +kernel, records_within (by decide) (by decide) (by decide) (by decide) ?_
    (by decide +kernel)⟩
  refine ⟨⟨?_, fun _ _ _ => rfl⟩, ⟨trivial, fun _ _ _ => rfl⟩, ⟨?_, fun _ _ _ => rfl⟩,
    ⟨trivial, fun _ _ _ => rfl⟩, trivial⟩
  · exact (by decide : Model.contact ≠ Model.account)
  · exact (by decide : Model.contact ≠ Model.account)

end Apicrud
