import Apicrud.LoginNames
import Apicrud.NewestTokens
import Apicrud.TokenAddresses

/-! # Active contacts

A contact is unconfirmed until a token that was sent to it is confirmed, or until `register` activates it for a
user whom an external login has authenticated.  The body of a creation and that of a restored record may name the
status as well, and neither is held against that.  The history of a run here is the list of the addresses that
were confirmed and are still those of their contacts; `active_confirmed` says of which runs every active contact
is in it. -/

namespace Apicrud

open Relational Confirmation

namespace Contacts

/-- A request, or a registration. -/
inductive Call where
  | serve (call : Apicrud.Call)
  | register (identity username name : Val) (template : Bool) (picture : Val)

/-- A call with the time that passed before it. -/
structure Event where
  elapsed : ℕ
  req : Request
  call : Call

/-- Contacts are made, changed, deleted, restored and confirmed, and people made and registered. -/
def Call.Listed : Call → Prop
  | .serve (.post m _) => m = .contact ∨ m = .person
  | .serve (.put m _ _) => m = .contact
  | .serve (.delete ..) | .serve (.trashUpdate ..) | .serve (.trashDelete _) => True
  | .serve (.confirmationGet _) | .serve (.confirm _) => True
  | .register .. => True
  | _ => False

/-- The state at the time of an event. -/
def worldAt (w : World) (e : Event) : World := { w with now := w.now + e.elapsed }

variable (svc : Service)

/-- One call is served. -/
def serve (w : World) (req : Request) : Call → World × Response
  | .serve call => handle svc w req call
  | .register identity username name template picture =>
      SessionAuth.register svc w req.amb identity username name template picture

/-- The service with the registrations as calls of their own. -/
def machine : Machine World Event Response where
  step w e := serve svc (worldAt w e) e.req e.call

/-- A contact and the address it has. -/
def addressOf (contact : Row) : Val × Val := (contact "id", contact "info")

/-- The contacts that a call confirms: that of the token, where `confirm` goes through, and that of a user who is
registered without a template. -/
def confirmedIds (w : World) (req : Request) : Call → List String
  | .serve (.confirm token) =>
      match check svc w token with
      | .ok (id, _, _, _) =>
          if (confirm svc w req.amb token false).2.status = 200 then [id] else []
      | .error _ => []
  | .register identity username name false picture =>
      match SessionAuth.registrant svc w.db req.amb identity username name with
      | .ok (_, _, cid) =>
          if (SessionAuth.register svc w req.amb identity username name false picture).2.status = 200 then [cid]
          else []
      | .error _ => []
  | _ => []

/-- The addresses that were confirmed, now or since their contacts have them. -/
def recordConfirmed (known : List (Val × Val)) (w : World) (e : Event) : List (Val × Val) :=
  ((((machine svc).next w e).db.rows .contact).map addressOf).filter fun a =>
    decide (a ∈ known ∨ ∃ id ∈ confirmedIds svc (worldAt w e) e.req e.call, a.1 = .str id)

/-- The service, watched for the addresses that are confirmed. -/
def watched : Machine (World × List (Val × Val)) Event Response :=
  (machine svc).withHistory (recordConfirmed svc)

/-- Every active contact was confirmed since it has its address. -/
def ActiveConfirmed (p : World × List (Val × Val)) : Prop :=
  ∀ contact ∈ p.1.db.rows .contact, contact "status" = .str "active" → addressOf contact ∈ p.2

/-- No contact is created as an active one, none is restored as one that was not confirmed, and a confirmation
finds the slot of its login session free, unless the contact was confirmed before. -/
structure KeepsConfirmed (p : World × List (Val × Val)) (e : Event) : Prop where
  created : ∀ body prepared db₁, e.call = .serve (.post .contact body) →
    Inserts svc p.1.db (e.req.access svc (worldAt p.1 e)) e.req.amb (p.1.now + e.elapsed) .contact body "x-" []
      prepared db₁ → body.get "status" ≠ .str "active"
  restored : ∀ id body resource recordId contact, e.call = .serve (.trashUpdate id body) →
    body.get "status" = .str "active" → Text.splitFirst id '-' = some (resource, recordId) →
    Trashcan.modelOf resource = some .contact →
    AccessControl.withPermission svc.policies p.1.db (e.req.access svc (worldAt p.1 e)) .contact 'd'
      { query := some (byId p.1.db .contact recordId) } = .ok true →
    contact ∈ p.1.db.rows .contact → contact "id" = .str recordId → addressOf contact ∈ p.2
  confirms : ∀ token id info nonce contact, e.call = .serve (.confirm token) →
    check svc (worldAt p.1 e) token = .ok (id, info, nonce, contact) →
    p.1.redis.get (p.1.now + e.elapsed) (SessionManager.key (some (contact "uid").text)
      (e.req.amb.genId .session) none) = none ∨ addressOf contact ∈ p.2

variable {svc} {w : World} {req : Request} {db db' db₁ : Database} {acc : Access} {id : String}
  {ids : List String} {m : Model}

/-! ### What is activated -/

/-- The contacts that are active are so at the address at which they were before, or are among those with the
given ids. -/
def Activates (ids : List String) (db db' : Database) : Prop :=
  ∀ contact ∈ db'.rows .contact, contact "status" = .str "active" →
    (∃ old ∈ db.rows .contact, addressOf old = addressOf contact ∧ old "status" = .str "active") ∨
      ∃ id ∈ ids, contact "id" = .str id

theorem activates_of_rows (h : db'.rows .contact = db.rows .contact) : Activates ids db db' :=
  fun contact hcontact hactive => Or.inl ⟨contact, h ▸ hcontact, rfl, hactive⟩

theorem Activates.trans (h : Activates ids db db₁) (h' : Activates ids db₁ db') : Activates ids db db' := by
  intro contact hcontact hactive
  rcases h' contact hcontact hactive with ⟨old, hold, hsame, hwas⟩ | hid
  · rcases h old hold hwas with ⟨first, hfirst, hsame', hwas'⟩ | ⟨id, hid, holdid⟩
    · exact Or.inl ⟨first, hfirst, hsame'.trans hsame, hwas'⟩
    · exact Or.inr ⟨id, hid, (congrArg Prod.fst hsame).symm.trans holdid⟩
  · exact Or.inr hid

/-- A contact comes that is not active. -/
theorem activates_of_append {row : Row} (h : db'.rows .contact = db.rows .contact ++ [row])
    (hrow : row "status" ≠ .str "active") : Activates ids db db' := by
  intro contact hcontact hactive
  rw [h] at hcontact
  rcases List.mem_append.mp hcontact with hold | hnew
  · exact Or.inl ⟨contact, hold, rfl, hactive⟩
  · rw [List.mem_singleton.mp hnew] at hactive
    exact absurd hactive hrow

theorem activates_of_subset (h : db'.rows .contact ⊆ db.rows .contact) : Activates ids db db' :=
  fun contact hcontact hactive => Or.inl ⟨contact, h hcontact, rfl, hactive⟩

/-- A status that is set activates the record that it is set for, if any. -/
theorem setStatus_activates {status : Val} (h : BasicCrud.setStatus db m id status = .ok db')
    (hids : m = .contact → status = .str "active" → id ∈ ids) : Activates ids db db' := by
  by_cases hm : m = .contact
  · subst hm
    intro contact hcontact hactive
    rw [Store.rows, store_ok h, Db.mem_modify] at hcontact
    obtain ⟨old, hold, rfl⟩ := hcontact
    split_ifs at hactive ⊢ with hid
    · right
      rw [Function.update_self] at hactive
      refine ⟨id, hids rfl hactive, ?_⟩
      rw [Function.update_of_ne (by decide)]
      exact of_decide_eq_true hid
    · exact Or.inl ⟨old, hold, rfl, hactive⟩
  · refine activates_of_rows ?_
    rw [Store.rows, store_ok h, Db.modify_ne _ _ _ (Ne.symm hm)]
    rfl

theorem turnWrite_activates {force : Bool} (h : turnWrite force db m id = .ok db') :
    Activates ids db db' := by
  cases force with
  | true => exact activates_of_subset (turnWrite_sublist h).subset
  | false => exact setStatus_activates h fun _ hactive => absurd hactive (by decide)

theorem turns_activates {force : Bool} {names : List (Model × String)}
    (h : Turns svc acc force db names db') : Activates ids db db' := by
  induction h with
  | done db => exact activates_of_rows rfl
  | turn hallowed hwrite hrest ih => exact (turnWrite_activates hwrite).trans ih

theorem allOrNothing_activates {force : Bool} {named : List (Option (Model × String))}
    {r : Database × Response} (h : AllOrNothing svc acc force db named r) : Activates ids db r.1 := by
  rcases h.same_or_turns with hsame | ⟨names, -, hturns⟩
  · exact activates_of_rows (by rw [hsame])
  · exact turns_activates hturns

/-- An update of a contact leaves it unconfirmed or disabled. -/
theorem updateContact_activates {now : ℕ} {body : Dict}
    (h : BasicCrud.updateContact svc db acc now id body = .ok db') : Activates ids db db' := by
  obtain ⟨checked, first, db₁, hupdated⟩ := BasicCrud.updateContact_ok h
  intro contact hcontact hactive
  rw [hupdated.contacts, List.mem_map] at hcontact
  obtain ⟨old, hold, rfl⟩ := hcontact
  split_ifs at hactive ⊢ with hid
  · have hstatus : "status" ∈ BasicCrud.contactBody now checked ∧
        (BasicCrud.contactBody now checked).get "status" ≠ .str "active" := by
      unfold BasicCrud.contactBody
      split_ifs with hdisabled
      · exact ⟨Dict.mem_of_get (by rw [hdisabled]; nofun), by rw [hdisabled]; decide⟩
      · exact ⟨by simp, by simp⟩
    rw [Row.write_of_mem old hstatus.1] at hactive
    exact absurd hactive hstatus.2
  · exact Or.inl ⟨old, hold, rfl, hactive⟩

/-- A person's first contact is unconfirmed. -/
theorem post_person_activates (svc : Service) (w : World) (req : Request) (body : Dict) :
    Activates ids w.db (Controllers.post svc w req .person body).1.db := by
  have hcreated : (Controllers.created svc w req .person body).1.rows .contact = w.db.rows .contact := by
    rcases create_rows svc w.db (req.access svc w) req.amb w.now .person
      (Controllers.createBody req.amb (req.access svc w) .person body) (Controllers.idPrefix .person)
      (Controllers.limits svc req.amb .person) (by decide : Model.contact ∈ Controllers.routed) with
      hsame | ⟨hperson, -⟩
    · exact hsame
    · cases hperson
  rw [post_eq (by decide) (by decide) fun h => absurd h.1 (by decide)]
  split_ifs
  · rcases afterCreate_rows svc { w with db := (Controllers.created svc w req .person body).1 } req.amb
      .person body (Controllers.created svc w req .person body).2
      (by decide : Model.contact ∈ Controllers.routed) with hsame | ⟨-, -, hrows⟩
    · exact activates_of_rows (hsame.trans hcreated)
    · refine activates_of_append (hrows.trans (congrArg (· ++ _) hcreated)) ?_
      have hstatus : Controllers.personContact req.amb
          (req.amb.genIdWith (Controllers.idPrefix .person) .record) (body.get "identity") "status" =
          .str "unconfirmed" := record_cell (by simp) nofun
      rw [hstatus]
      decide
  · exact activates_of_rows hcreated

/-- A new contact has the status that the body names, or none that is active. -/
theorem post_contact_activates {body : Dict}
    (hcreated : ∀ prepared db₁, Inserts svc w.db (req.access svc w) req.amb w.now .contact body "x-" []
      prepared db₁ → body.get "status" ≠ .str "active") :
    Activates ids w.db (Controllers.post svc w req .contact body).1.db := by
  rcases post_contact svc w req body with ⟨hsame, -⟩ | ⟨prepared, db₁, hinserts, hrows⟩
  · exact activates_of_rows hsame
  · refine activates_of_append hrows ?_
    have hstatus := (prepare_ok hinserts.1).contact_status rfl
    have hne : prepared.body.get "status" ≠ .str "active" := by
      rw [hstatus]
      split_ifs
      · exact hcreated prepared db₁ hinserts
      · decide
    have hnone : prepared.body.get "status" ≠ .none := by
      rw [hstatus]
      split_ifs with htruthy
      · intro hnone
        rw [hnone] at htruthy
        cases htruthy
      · nofun
    rw [newRow_of_ne hnone]
    exact hne

/-- A contact that a status was set for has the address that it had. -/
theorem setStatus_address {status : Val} (h : BasicCrud.setStatus db m id status = .ok db') :
    ∀ contact ∈ db'.rows .contact, ∃ old ∈ db.rows .contact, addressOf old = addressOf contact := by
  intro contact hcontact
  rw [Store.rows, store_ok h] at hcontact
  by_cases hm : m = .contact
  · subst hm
    obtain ⟨old, hold, rfl⟩ := Db.mem_modify.mp hcontact
    refine ⟨old, hold, ?_⟩
    split
    · simp [addressOf]
    · rfl
  · rw [Db.modify_ne _ _ _ (Ne.symm hm)] at hcontact
    exact ⟨contact, hcontact, rfl⟩

/-- A restored record is a contact that gets active, or activates none. -/
theorem trashUpdate_activates (svc : Service) (db : Database) (acc : Access) (id : String) (body : Dict) :
    Activates [] db (Trashcan.update svc db acc id body).1 ∨
    ∃ resource recordId, body.get "status" = .str "active" ∧
      Text.splitFirst id '-' = some (resource, recordId) ∧ Trashcan.modelOf resource = some .contact ∧
      AccessControl.withPermission svc.policies db acc .contact 'd'
        { query := some (byId db .contact recordId) } = .ok true ∧
      BasicCrud.setStatus db .contact recordId (.str "active") =
        .ok (Trashcan.update svc db acc id body).1 := by
  rcases trashUpdate_cases svc db acc id body with
    hsame | ⟨resource, recordId, m, hid, hm, hallowed, hok⟩
  · exact Or.inl (activates_of_rows (by rw [hsame]))
  · by_cases hactive : m = .contact ∧ body.get "status" = .str "active"
    · obtain ⟨rfl, hstatus⟩ := hactive
      exact Or.inr ⟨resource, recordId, hstatus, hid, hm, hallowed, hstatus ▸ hok⟩
    · exact Or.inl (setStatus_activates hok fun hcontact hstatus => absurd ⟨hcontact, hstatus⟩ hactive)

/-- A registration activates the contact of the user at most, and does so without a template. -/
theorem register_activates (svc : Service) (w : World) (req : Request)
    (identity username name : Val) (template : Bool) (picture : Val) :
    Activates (confirmedIds svc w req (.register identity username name template picture)) w.db
      (SessionAuth.register svc w req.amb identity username name template picture).1.db := by
  cases hreg : SessionAuth.registrant svc w.db req.amb identity username name with
  | error answer =>
      refine activates_of_rows ?_
      unfold SessionAuth.register
      rw [hreg]
  | ok parts =>
      obtain ⟨db, uid, cid⟩ := parts
      have hprofiles : Activates [] w.db (SessionAuth.addProfiles db req.amb uid picture) := by
        have hrows : (SessionAuth.addProfiles db req.amb uid picture).rows .contact = db.rows .contact :=
          LocalFunc.addProfiles_rows (by decide) db req.amb uid picture
        rcases LocalFunc.registrant_cases hreg with ⟨_, _, -, -, rfl, -, -⟩ | ⟨-, id, -, hdb⟩
        · exact activates_of_rows hrows
        · have hnew : (SessionAuth.addProfiles db req.amb uid picture).rows .contact =
              w.db.rows .contact ++ [record .contact [("id", .str cid), ("uid", .str id),
                ("type", .str "email"), ("info", svc.lib.identityNormalize identity)]] := by
            rw [hrows, Store.rows, hdb, SessionAuth.addPerson, Db.insert, Function.update_self,
              Db.insert_ne _ _ (by decide)]
            rfl
          refine activates_of_append hnew ?_
          have hstatus : record .contact [("id", .str cid), ("uid", .str id), ("type", .str "email"),
              ("info", svc.lib.identityNormalize identity)] "status" = .str "unconfirmed" := by
            unfold record BasicCrud.newRow Schema.fill
            rw [if_pos (by simp)]
            rfl
          rw [hstatus]
          decide
      have hnone : Activates (confirmedIds svc w req (.register identity username name template picture))
          w.db (SessionAuth.addProfiles db req.amb uid picture) := by
        intro contact hcontact hactive
        rcases hprofiles contact hcontact hactive with hold | ⟨id, hid, -⟩
        · exact Or.inl hold
        · cases hid
      cases template with
      | true =>
          have hdb : (SessionAuth.register svc w req.amb identity username name true picture).1.db =
              SessionAuth.addProfiles db req.amb uid picture := by
            unfold SessionAuth.register
            rw [hreg]
            simp only [if_true]
            split
            · exact requested_db ‹_›
            · exact requested_db ‹_›
          rw [hdb]
          exact hnone
      | false =>
          cases hok : BasicCrud.setStatus (SessionAuth.addProfiles db req.amb uid picture) .contact cid
              (.str "active") with
          | error error =>
              have hdb : (SessionAuth.register svc w req.amb identity username name false picture).1.db =
                  SessionAuth.addProfiles db req.amb uid picture := by
                unfold SessionAuth.register
                rw [hreg]
                simp only [Bool.false_eq_true, if_false, hok]
              rw [hdb]
              exact hnone
          | ok db' =>
              have hregister : (SessionAuth.register svc w req.amb identity username name false
                    picture).1.db = db' ∧
                  (SessionAuth.register svc w req.amb identity username name false picture).2.status =
                    200 := by
                unfold SessionAuth.register
                rw [hreg]
                simp only [Bool.false_eq_true, if_false, hok]
                exact ⟨trivial, trivial⟩
              have hids : confirmedIds svc w req (.register identity username name false picture) =
                  [cid] := by
                simp only [confirmedIds, hreg]
                exact if_pos hregister.2
              rw [hregister.1, hids]
              rw [hids] at hnone
              exact hnone.trans (setStatus_activates hok fun _ _ => List.mem_singleton_self cid)

/-! ### Runs -/

/-- Where every active contact was confirmed, those that a call leaves active were, or are among those that it
confirms. -/
theorem Activates.known {p : World × List (Val × Val)} (h : Activates ids p.1.db db')
    (hp : ActiveConfirmed p) : ∀ contact ∈ db'.rows .contact, contact "status" = .str "active" →
      addressOf contact ∈ p.2 ∨ ∃ id ∈ ids, contact "id" = .str id := by
  intro contact hcontact hactive
  rcases h contact hcontact hactive with ⟨old, hold, hsame, hwas⟩ | hid
  · exact Or.inl (hsame ▸ hp old hold hwas)
  · exact Or.inr hid

/-- A token that is confirmed is recorded, unless its contact was confirmed before. -/
theorem confirm_known {p : World × List (Val × Val)} {e : Event} {token : String}
    (hp : ActiveConfirmed p) (hcall : e.call = .serve (.confirm token)) (hkeeps : KeepsConfirmed svc p e) :
    ∀ contact ∈ (confirm svc (worldAt p.1 e) e.req.amb token false).1.db.rows .contact,
      contact "status" = .str "active" → addressOf contact ∈ p.2 ∨
        ∃ id ∈ confirmedIds svc (worldAt p.1 e) e.req e.call, contact "id" = .str id := by
  rcases confirm_db svc (worldAt p.1 e) e.req.amb token false with
    ⟨hsame, -⟩ | ⟨id, info, nonce, named, hcheck, hdb⟩
  · have hstays : Activates (confirmedIds svc (worldAt p.1 e) e.req e.call) p.1.db
        (confirm svc (worldAt p.1 e) e.req.amb token false).1.db :=
      activates_of_rows (congrArg (fun db : Database => db.rows .contact) hsame)
    exact hstays.known hp
  · intro contact hcontact hactive
    have hrows := (congrFun hdb .contact).trans (activate_contacts p.1.db id _)
    rw [Store.rows, hrows, List.mem_map] at hcontact
    obtain ⟨old, hold, rfl⟩ := hcontact
    split_ifs at hactive ⊢ with hid
    · have hnamed : old = named := by
        obtain ⟨-, -, hone⟩ := check_ok hcheck
        exact Except.ok.inj ((one_byId hold (by decide) (of_decide_eq_true hid)).symm.trans hone)
      rcases hkeeps.confirms token id info nonce named hcall hcheck with hfree | hknown
      · right
        refine ⟨id, ?_, ?_⟩
        · have hok : (confirm svc (worldAt p.1 e) e.req.amb token false).2.status = 200 :=
            (confirm_status hcheck).mpr hfree
          rw [hcall]
          simp only [confirmedIds, hcheck]
          rw [if_pos hok]
          exact List.mem_singleton_self id
        · rw [Function.update_of_ne (by decide)]
          exact of_decide_eq_true hid
      · left
        have hsame : addressOf (Function.update old "status" (.str "active")) = addressOf named := by
          rw [hnamed]
          simp [addressOf]
        exact hsame ▸ hknown
    · exact Or.inl (hp old hold hactive)

/-- A contact that is restored as an active one was confirmed. -/
theorem trashUpdate_known {p : World × List (Val × Val)} {e : Event} {body : Dict}
    (hp : ActiveConfirmed p) (hcall : e.call = .serve (.trashUpdate id body))
    (hkeeps : KeepsConfirmed svc p e) :
    ∀ contact ∈ (Trashcan.update svc p.1.db (e.req.access svc (worldAt p.1 e)) id body).1.rows .contact,
      contact "status" = .str "active" → addressOf contact ∈ p.2 := by
  intro contact hcontact hactive
  rcases trashUpdate_activates svc p.1.db (e.req.access svc (worldAt p.1 e)) id body with
    hsame | ⟨resource, recordId, hstatus, hid, hm, hallowed, hok⟩
  · rcases hsame.known hp contact hcontact hactive with hknown | ⟨_, hnil, -⟩
    · exact hknown
    · cases hnil
  · rw [Store.rows, store_ok hok, Db.mem_modify] at hcontact
    obtain ⟨old, hold, rfl⟩ := hcontact
    split_ifs at hactive ⊢ with hrestored
    · have hknown := hkeeps.restored id body resource recordId old hcall hstatus hid hm hallowed hold
        (of_decide_eq_true hrestored)
      have hsame : addressOf (Function.update old "status" (.str "active")) = addressOf old := by
        simp [addressOf]
      exact hsame ▸ hknown
    · exact hp old hold hactive

theorem activeConfirmed_next (p : World × List (Val × Val)) (e : Event) (hp : ActiveConfirmed p)
    (he : e.call.Listed ∧ KeepsConfirmed svc p e) : ActiveConfirmed ((watched svc).next p e) := by
  obtain ⟨hlisted, hkeeps⟩ := he
  have hknown : ∀ contact ∈ (serve svc (worldAt p.1 e) e.req e.call).1.db.rows .contact,
      contact "status" = .str "active" → addressOf contact ∈ p.2 ∨
        ∃ id ∈ confirmedIds svc (worldAt p.1 e) e.req e.call, contact "id" = .str id := by
    obtain ⟨elapsed, req, call⟩ := e
    cases call with
    | register identity username name template picture =>
        exact (register_activates svc (worldAt p.1 _) req identity username name template picture).known hp
    | serve call =>
        cases call with
        | post m body =>
            rcases hlisted with rfl | rfl
            · refine (post_contact_activates (w := worldAt p.1 _) ?_).known hp
              exact fun prepared db₁ hinserts => hkeeps.created body prepared db₁ rfl hinserts
            · exact (post_person_activates svc (worldAt p.1 _) req body).known hp
        | put m id body =>
            obtain rfl : m = .contact := hlisted
            refine Activates.known ?_ hp
            change Activates _ p.1.db (Controllers.put svc (worldAt p.1 _) req .contact id body).1.db
            cases hok : BasicCrud.updateContact svc (worldAt p.1 ⟨elapsed, req, .serve (.put .contact id body)⟩).db
                (req.access svc (worldAt p.1 _)) (worldAt p.1 _).now id body with
            | error answer =>
                rw [put_contact_error hok]
                exact activates_of_rows rfl
            | ok db' =>
                rw [put_contact_ok hok]
                exact updateContact_activates hok
        | delete m ids force =>
            refine Activates.known ?_ hp
            simp only [serve, handle, Controllers.delete]
            by_cases hm : m ∉ Controllers.routed
            · rw [if_pos hm]
              exact activates_of_rows rfl
            · rw [if_neg hm]
              exact allOrNothing_activates (delete_allOrNothing m ids force)
        | trashUpdate id body =>
            intro contact hcontact hactive
            exact Or.inl (trashUpdate_known hp rfl hkeeps contact hcontact hactive)
        | trashDelete ids => exact (allOrNothing_activates (trashDelete_allOrNothing ids)).known hp
        | confirmationGet id =>
            have hdb := confirmationGet_db svc (worldAt p.1 ⟨elapsed, req, .serve (.confirmationGet id)⟩) req id
            exact (activates_of_rows (congrArg (fun db : Database => db.rows .contact) hdb)).known hp
        | confirm token => exact confirm_known hp rfl hkeeps
        | _ => exact hlisted.elim
  intro contact hcontact hactive
  change addressOf contact ∈ recordConfirmed svc p.2 p.1 e
  exact List.mem_filter.mpr ⟨List.mem_map_of_mem hcontact,
    decide_eq_true (hknown contact hcontact hactive)⟩

/-- From a database without contacts on: as long as no contact is created as an active one or restored as one that
was not confirmed, every active contact was confirmed since it has its address, or activated for a user who was
registered without a template. -/
theorem active_confirmed {w : World} {es : List Event} (hstart : w.db.rows .contact = [])
    (h : (watched svc).Along (fun p e => e.call.Listed ∧ KeepsConfirmed svc p e) (w, []) es) :
    ActiveConfirmed ((watched svc).run (w, []) es) := by
  refine Machine.invariant activeConfirmed_next h ?_
  intro contact hcontact
  rw [hstart] at hcontact
  cases hcontact

/-- The contact that a token names. -/
theorem mem_of_check {e : Event} {token info nonce : String} {contact : Row}
    (h : check svc (worldAt w e) token = .ok (id, info, nonce, contact)) :
    contact ∈ w.db.rows .contact := by
  obtain ⟨-, -, hone⟩ := check_ok h
  exact (of_one_byId hone).1

/-- Where no owner of a contact has a session in the slot of the new one, a confirmation finds it free. -/
theorem confirms_of_free {p : World × List (Val × Val)} {e : Event}
    (hfree : ∀ contact ∈ p.1.db.rows .contact, p.1.redis.get (p.1.now + e.elapsed)
      (SessionManager.key (some (contact "uid").text) (e.req.amb.genId .session) none) = none) :
    ∀ token id info nonce contact, e.call = .serve (.confirm token) →
      check svc (worldAt p.1 e) token = .ok (id, info, nonce, contact) →
      p.1.redis.get (p.1.now + e.elapsed) (SessionManager.key (some (contact "uid").text)
        (e.req.amb.genId .session) none) = none ∨ addressOf contact ∈ p.2 :=
  fun _ _ _ _ contact _ hcheck => Or.inl (hfree contact (mem_of_check hcheck))

/-- The seeded installation without its contacts. -/
def bare : Database :=
  ⟨Seed.tables ((Seed.records ++ Seed.member).filter fun r => decide (r.1 ≠ .contact)), by decide +kernel⟩

/-- The other user is logged in there. -/
def bareWorld : World :=
  ((Seed.world bare).createSession Seed.service (some "u-0002") ["user"] none "t1" 7200 []).1

/-- A request of the other user. -/
def ofUser (id : String) (call : Apicrud.Call) : Event :=
  ⟨1, Seed.request { authorization := some ("u-0002", "t1") } id, .serve call⟩

/-- The body of a new contact. -/
def newContact (status : List (String × Val)) : Dict :=
  Dict.ofList ([("type", .str "email"), ("info", .str "new@example.com")] ++ status)

/-- A contact is made as the body says. -/
def making (status : List (String × Val)) : Event := ofUser "q1" (.post .contact (newContact status))

/-- The state and the confirmed addresses when the contact is made. -/
def afterMaking (status : List (String × Val)) : World × List (Val × Val) :=
  (watched Seed.service).next (bareWorld, []) (making status)

/-- The token of the new contact is confirmed. -/
def confirming : Event := ofUser "q2" (.confirm "101|x-q1:new@example.com:nonceq1")

/-- A contact is made, confirmed and disabled. -/
def disabledRun : List Event :=
  [making [], confirming, ofUser "q3" (.delete .contact ["x-q1"] false)]

/-- The contact that was disabled is restored. -/
def restoring : Event :=
  ofUser "q4" (.trashUpdate "contact-x-q1" (Dict.ofList [("status", .str "active")]))

theorem bareWorld_contacts : bareWorld.db.rows .contact = [] :=
  List.length_eq_zero_iff.mp (by decide +kernel)

/-- A contact that was confirmed may be restored as an active one. -/
theorem restored_confirmed :
    (∃ contact ∈ ((watched Seed.service).run (bareWorld, []) (disabledRun ++ [restoring])).1.db.rows .contact,
      contact "status" = .str "active") ∧
    ActiveConfirmed ((watched Seed.service).run (bareWorld, []) (disabledRun ++ [restoring])) := by
  refine ⟨by decide +kernel, active_confirmed bareWorld_contacts ⟨⟨Or.inl rfl, ?_, ?_, ?_⟩,
    ⟨trivial, ?_, ?_, ?_⟩, ⟨trivial, ?_, ?_, ?_⟩, ⟨trivial, ?_, ?_, ?_⟩, trivial⟩⟩
  · intro body prepared db₁ hcall _
    obtain ⟨-, rfl⟩ := Apicrud.Call.post.inj (Call.serve.inj hcall)
    decide
  · intro id body resource recordId contact hcall
    cases hcall
  · intro token id info nonce contact hcall
    cases hcall
  · intro body prepared db₁ hcall
    cases hcall
  · intro id body resource recordId contact hcall
    cases hcall
  · exact confirms_of_free (by decide +kernel)
  · intro body prepared db₁ hcall
    cases hcall
  · intro id body resource recordId contact hcall
    cases hcall
  · intro token id info nonce contact hcall
    cases hcall
  · intro body prepared db₁ hcall
    cases hcall
  · intro id body resource recordId contact _ _ _ _ _ hcontact _
    have hknown : ∀ contact ∈ ((watched Seed.service).run (bareWorld, []) disabledRun).1.db.rows .contact,
        addressOf contact ∈ ((watched Seed.service).run (bareWorld, []) disabledRun).2 := by
      decide +kernel
    exact hknown contact hcontact
  · intro token id info nonce contact hcall
    cases hcall

/-- A contact whose body says that it is active was never confirmed. -/
theorem createdActive_unconfirmed : ¬ ∀ (svc : Service) (w : World) (es : List Event),
    w.db.rows .contact = [] → (watched svc).Along (fun _ e => e.call.Listed) (w, []) es →
    ActiveConfirmed ((watched svc).run (w, []) es) := by
  intro hall
  have hconfirmed : ActiveConfirmed (afterMaking [("status", .str "active")]) :=
    hall Seed.service bareWorld [making [("status", .str "active")]] bareWorld_contacts ⟨Or.inl rfl, trivial⟩
  have hactive : ∃ contact ∈ (afterMaking [("status", .str "active")]).1.db.rows .contact,
      contact "status" = .str "active" ∧
        addressOf contact ∉ (afterMaking [("status", .str "active")]).2 := by
    decide +kernel
  obtain ⟨contact, hcontact, hstatus, hnever⟩ := hactive
  exact hnever (hconfirmed contact hcontact hstatus)

end Contacts

end Apicrud
