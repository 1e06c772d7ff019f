import Apicrud.Bodies

/-! # What a request commits

`Commit` lists every kind of write that a request can commit, each with what was checked before
it; `handle_commits` says that serving a call takes the database from one commit to the next.  An
invariant of the database is then proved by cases on `Commit`, and no later proof unfolds a
controller. -/

namespace Apicrud

open Relational Dict

/-- The bodies that reach `BasicCRUD.create`. -/
inductive CreateBody (req : Request) (acc : Access) : Call → Model → Dict → Prop
  | post (m : Model) (body : Dict) (hm : m ≠ .account) :
      CreateBody req acc (.post m body) m (Controllers.createBody req.amb acc m body)
  | hybrid (id : String) (body : Dict) :
      CreateBody req acc (.put .grant id body) .grant (Controllers.hybridBody req.amb id body)

/-- The cells that logins, enrolments, password changes and used API keys set. -/
def stampedCells : List String :=
  ["last_login", "backup_codes", "totp_secret", "password", "password_must_change", "last_used"]

/-- A call that may register an externally authenticated user. -/
def Call.IsExternal : Call → Prop
  | .login .. | .callback .. => True
  | _ => False

/-- One committed write of a request that found the world `w`. -/
inductive Commit (svc : Service) (w : World) (req : Request) (call : Call) :
    Database → Database → Prop
  | created {m : Model} {body : Dict} {p : BasicCrud.Prepared} {pre : String}
      {limits : List (String × Val)} {db db' : Database}
      (hbody : CreateBody req (req.access svc w) call m body)
      (hpre : pre = Controllers.idPrefix m)
      (hp : BasicCrud.prepare svc db (req.access svc w) req.amb w.now m body pre limits = .ok p)
      (hdb : db'.1 = db.1.insert m (BasicCrud.newRow m p.body)) : Commit svc w req call db db'
  | related {m : Model} {rel : Related} {rows : List Row} {db db' : Database}
      (hrel : rel ∈ m.restRelated) (hdb : db'.1 = Function.update db.1 rel.assoc rows) :
      Commit svc w req call db db'
  | messageListed {row : Row} {db db' : Database} (hdb : db'.1 = db.1.insert .listMessage row) :
      Commit svc w req call db db'
  | personContact {body : Dict} {db db' : Database} (hcall : call = .post .person body)
      (hdb : db'.1 = db.1.insert .contact (Controllers.personContact req.amb
        (req.amb.genIdWith (Controllers.idPrefix .person) .record) (body.get "identity"))) :
      Commit svc w req call db db'
  | written {m : Model} {id : String} {body body' : Dict} {db db' : Database}
      (hcall : call = .put m id body) (hm : m ≠ .contact) (hfirst : m.restRelated = [] → db = w.db)
      (hbody : AgreeOff touchedKeys body body')
      (hallowed : AccessControl.withPermission svc.policies db (req.access svc w) m 'u'
        { query := some (byId db m id) } = .ok true)
      (hkeys : ∀ k ∈ body'.keys, m.Has k)
      (hdb : db'.1 = db.1.modify m (hasId id) (·.write body')) : Commit svc w req call db db'
  | contactWritten {id : String} {body : Dict} {db db' : Database}
      (hcall : call = .put .contact id body) (hfirst : db = w.db)
      (hok : BasicCrud.updateContact svc db (req.access svc w) w.now id body = .ok db') :
      Commit svc w req call db db'
  | disabled {m : Model} {id : String} {db db' : Database}
      (hok : BasicCrud.setStatus db m id (.str "disabled") = .ok db') : Commit svc w req call db db'
  | restored {id resource recordId : String} {body : Dict} {m : Model} {db db' : Database}
      (hcall : call = .trashUpdate id body) (hfirst : db = w.db)
      (hid : Text.splitFirst id '-' = some (resource, recordId))
      (hm : Trashcan.modelOf resource = some m)
      (hallowed : AccessControl.withPermission svc.policies db (req.access svc w) m 'd'
        { query := some (byId db m recordId) } = .ok true)
      (hok : BasicCrud.setStatus db m recordId (body.get "status") = .ok db') :
      Commit svc w req call db db'
  | deleted {m : Model} {id : String} {db db' : Database}
      (hallowed : AccessControl.withPermission svc.policies db (req.access svc w) m 'd'
        { query := some (byId db m id) } = .ok true)
      (hok : BasicCrud.deleteRows db m id = .ok db') : Commit svc w req call db db'
  | confirmed {token id info nonce : String} {contact : Row} {db db' : Database}
      (hdb₀ : db = w.db) (hcheck : Confirmation.check svc w token = .ok (id, info, nonce, contact))
      (hdb : db'.1 = Confirmation.activate db id (contact "uid")) : Commit svc w req call db db'
  | activated {cid : String} {db db' : Database} (hcall : call.IsExternal)
      (hok : BasicCrud.setStatus db .contact cid (.str "active") = .ok db') :
      Commit svc w req call db db'
  | stamped {m : Model} {p : Row → Bool} {f : Row → Row} {db db' : Database}
      (hm : m = .account ∨ m = .apikey) (hf : ∀ row, ∀ c ∉ stampedCells, f row c = row c)
      (hdb : db'.1 = db.1.modify m p f) : Commit svc w req call db db'
  | registered {identity name : Val} {db db' : Database}
      (hnew : lookup db .person [("identity", identity)] = .error .noResultFound)
      (hdb : db'.1 = SessionAuth.addPerson db (req.amb.genIdWith "u-" .person)
        (req.amb.genIdWith "x-" .contact) identity name) : Commit svc w req call db db'
  | accountAdded {id : String} {uid username settingsId : Val} {db db' : Database}
      (hdb : db'.1 = db.1.insert .account (record .account [("id", .str id), ("uid", uid),
        ("name", username), ("password_must_change", .bool true), ("password", .str ""),
        ("settings_id", settingsId), ("status", .str "active")])) : Commit svc w req call db db'
  | profiled {row : Row} {db db' : Database} (hdb : db'.1 = db.1.insert .profile row) :
      Commit svc w req call db db'

/-- The commits of one request, in turn. -/
def Commits (svc : Service) (w : World) (req : Request) (call : Call) :
    Database → Database → Prop :=
  Relation.ReflTransGen (Commit svc w req call)

variable {svc : Service} {w : World} {req : Request} {call : Call}

theorem Commit.commits {db db' : Database} (h : Commit svc w req call db db') :
    Commits svc w req call db db' :=
  Relation.ReflTransGen.single h

theorem Commits.refl (db : Database) : Commits svc w req call db db := Relation.ReflTransGen.refl

/-- A relation that every commit respects holds between the ends of the request. -/
theorem Commits.relation {R : Database → Database → Prop} {db db' : Database}
    (h : Commits svc w req call db db') (hrefl : ∀ db, R db db)
    (htrans : ∀ db₁ db₂ db₃, R db₁ db₂ → R db₂ db₃ → R db₁ db₃)
    (hstep : ∀ db₁ db₂, Commit svc w req call db₁ db₂ → R db₁ db₂) : R db db' := by
  induction h with
  | refl => exact hrefl db
  | tail _ hlast ih => exact htrans _ _ _ ih (hstep _ _ hlast)

theorem store_ok {db : Db Model} {db' : Database} (h : schema.store db = .ok db') : db'.1 = db :=
  (schema.store_eq_ok).mp h

/-! ### Related records -/

/-- What `_update_related` checks before it rewrites the association. -/
theorem updateRelated_ok {db db' : Database} {m : Model} {id : String} {rel : Related} {value : Val}
    (h : BasicCrud.updateRelated db m id rel value = .ok db') :
    ∃ ids, value.items = some ids ∧ byId db m id ≠ [] ∧
      (∀ x ∈ ids, Val.str x ∉ BasicCrud.currentRelated db rel id → byId db rel.target x ≠ []) ∧
      db'.1 = BasicCrud.rewriteAssoc db rel id ids := by
  obtain ⟨_, hrow, h⟩ := Checks.bind_eq_ok.mp h
  cases hitems : value.items with
  | none =>
      rw [hitems] at h
      cases h
  | some ids =>
      rw [hitems] at h
      obtain ⟨_, hids, h⟩ := Checks.bind_eq_ok.mp h
      refine ⟨ids, rfl, Checks.ensure_eq_ok.mp hrow, Checks.ensure_eq_ok.mp hids, ?_⟩
      cases hstore : schema.store (BasicCrud.rewriteAssoc db rel id ids) with
      | ok db'' =>
          rw [hstore] at h
          cases h
          exact store_ok hstore
      | error e =>
          rw [hstore] at h
          cases e <;> cases h

theorem createRelated_commits {m : Model} {id : String} {answer : Response}
    {related : List (Related × Val)} (hrelated : ∀ r ∈ related, r.1 ∈ m.restRelated)
    (db : Database) :
    Commits svc w req call db (BasicCrud.createRelated m id answer db related).1 := by
  induction related generalizing db with
  | nil => exact Commits.refl db
  | cons r related ih =>
      obtain ⟨rel, value⟩ := r
      have hrel : rel ∈ m.restRelated := hrelated _ List.mem_cons_self
      rw [BasicCrud.createRelated]
      cases hup : BasicCrud.updateRelated db m id rel value with
      | ok db' =>
          obtain ⟨_, _, _, _, hrows⟩ := updateRelated_ok hup
          exact (Commit.related hrel hrows).commits.trans
            (ih (fun r hr => hrelated r (List.mem_cons_of_mem _ hr)) db')
      | error e => cases e <;> exact Commits.refl db

theorem updateRelateds_commits {m : Model} {id : String} {limits : List (String × Val)}
    {rels : List Related} (hrels : ∀ r ∈ rels, r ∈ m.restRelated) (db : Database) (body : Dict) :
    Commits svc w req call db (BasicCrud.updateRelateds m id limits db rels body).1 := by
  induction rels generalizing db body with
  | nil => exact Commits.refl db
  | cons rel rels ih =>
      have hrest : ∀ r ∈ rels, r ∈ m.restRelated := fun r hr => hrels r (List.mem_cons_of_mem _ hr)
      rw [BasicCrud.updateRelateds]
      simp only
      split_ifs with hmem hbad hover
      · exact Commits.refl db
      · exact Commits.refl db
      · cases hup : BasicCrud.updateRelated db m id rel (body.get rel.attr) with
        | ok db' =>
            obtain ⟨_, _, _, _, hrows⟩ := updateRelated_ok hup
            exact (Commit.related (hrels _ List.mem_cons_self) hrows).commits.trans (ih hrest db' _)
        | error e => exact Commits.refl db
      · exact ih hrest db body

/-! ### Create, update and delete -/

theorem create_commits {m : Model} {body : Dict} {pre : String} {limits : List (String × Val)}
    {db : Database} (hbody : CreateBody req (req.access svc w) call m body)
    (hpre : pre = Controllers.idPrefix m) :
    Commits svc w req call db
      (BasicCrud.create svc db (req.access svc w) req.amb w.now m body pre limits).1 := by
  unfold BasicCrud.create
  cases hp : BasicCrud.prepare svc db (req.access svc w) req.amb w.now m body pre limits with
  | error answer => exact Commits.refl db
  | ok p =>
      simp only
      cases hstore : schema.store (db.1.insert m (BasicCrud.newRow m p.body)) with
      | error e => exact Commits.refl db
      | ok db' =>
          exact (Commit.created hbody hpre hp (store_ok hstore)).commits.trans
            (createRelated_commits (prepare_ok hp).related db')

/-- What the checks before the write of `update` establish. -/
theorem writeRow_ok {db db' : Database} {acc : Access} {m : Model} {id : String} {body : Dict}
    {access : Char} (h : BasicCrud.writeRow svc db acc m id body access = .ok db') :
    AccessControl.withPermission svc.policies db acc m access { query := some (byId db m id) } =
        .ok true ∧
      byId db m id ≠ [] ∧ (∀ k ∈ body.keys, m.Has k) ∧
      db'.1 = db.1.modify m (hasId id) (·.write body) := by
  obtain ⟨allowed, hallowed, h⟩ := Checks.bind_eq_ok.mp h
  obtain ⟨_, hens, h⟩ := Checks.bind_eq_ok.mp h
  obtain ⟨_, hrow, h⟩ := Checks.bind_eq_ok.mp h
  obtain ⟨_, hkeys, h⟩ := Checks.bind_eq_ok.mp h
  rw [Checks.ensure_eq_ok] at hens hrow hkeys
  rw [Checks.orElse_eq_ok] at hallowed h
  exact ⟨hens ▸ hallowed, hrow, hkeys, store_ok h⟩

theorem update_commits {m : Model} {id : String} {body : Dict} {limits : List (String × Val)}
    (hcall : call = .put m id body) (hm : m ≠ .contact) :
    Commits svc w req call w.db (BasicCrud.update svc w.db (req.access svc w) w.now m id
      (Controllers.updateBody req.amb m body) 'u' limits).1 := by
  unfold BasicCrud.update
  cases hbody : BasicCrud.updateBody svc w.now id (Controllers.updateBody req.amb m body) with
  | error answer => exact Commits.refl _
  | ok b₁ =>
      simp only
      have hrel : Commits svc w req call w.db
          (BasicCrud.updateRelateds m id limits w.db m.restRelated b₁).1 :=
        updateRelateds_commits (fun r hr => hr) w.db b₁
      cases hres : BasicCrud.updateRelateds m id limits w.db m.restRelated b₁ with
      | mk db₁ res =>
          rw [hres] at hrel
          cases res with
          | error answer => exact hrel
          | ok b₂ =>
              simp only
              cases hwrite : BasicCrud.writeRow svc db₁ (req.access svc w) m id b₂ 'u' with
              | error answer => exact hrel
              | ok db₂ =>
                  obtain ⟨hallowed, _, hkeys, hdb⟩ := writeRow_ok hwrite
                  have hsame : AgreeOff touchedKeys body b₂ :=
                    (((controllerBody_agree req.amb m body).trans (updateBody_agree hbody)).trans
                      ((updateRelateds_agree hres).mono (restRelated_touched m))).mono
                        (by decide)
                  have hfirst : m.restRelated = [] → db₁ = w.db := by
                    intro hnone
                    rw [hnone] at hres
                    cases hres
                    rfl
                  exact hrel.tail (Commit.written hcall hm hfirst hsame hallowed hkeys hdb)

/-- What a delete of one id found and wrote. -/
theorem deleteOne_ok {acc : Access} {m : Model} {force : Bool} {label id : String}
    {st st' : Database × ℕ} (h : BasicCrud.deleteOne svc acc m force label id st = .ok st') :
    AccessControl.withPermission svc.policies st.1 acc m 'd' { query := some (byId st.1 m id) } =
        .ok true ∧
      (if force then BasicCrud.deleteRows st.1 m id
        else BasicCrud.setStatus st.1 m id (.str "disabled")) = .ok st'.1 := by
  obtain ⟨allowed, hallowed, h⟩ := Checks.bind_eq_ok.mp h
  obtain ⟨_, hens, h⟩ := Checks.bind_eq_ok.mp h
  rw [Checks.ensure_eq_ok] at hens
  rw [Checks.orElse_eq_ok, hens] at hallowed
  refine ⟨hallowed, ?_⟩
  cases force with
  | true =>
      obtain ⟨db₁, hdb₁, h⟩ := Checks.bind_eq_ok.mp h
      cases h
      exact Checks.orElse_eq_ok.mp hdb₁
  | false =>
      obtain ⟨_, _, h⟩ := Checks.bind_eq_ok.mp h
      obtain ⟨db₁, hdb₁, h⟩ := Checks.bind_eq_ok.mp h
      cases h
      exact Checks.orElse_eq_ok.mp hdb₁

/-- What one id of a delete request commits. -/
theorem deleteOne_commits {m : Model} {force : Bool} {label id : String} {st st' : Database × ℕ}
    (h : BasicCrud.deleteOne svc (req.access svc w) m force label id st = .ok st') :
    Commits svc w req call st.1 st'.1 := by
  obtain ⟨hallowed, hwrite⟩ := deleteOne_ok h
  cases force with
  | true => exact (Commit.deleted hallowed hwrite).commits
  | false => exact (Commit.disabled hwrite).commits

/-- A delete request commits what its ids do in turn. -/
theorem foldlM_commits {f : Database × ℕ → String → Except Response (Database × ℕ)}
    (hf : ∀ st id st', f st id = .ok st' → Commits svc w req call st.1 st'.1)
    {ids : List String} {st st' : Database × ℕ} (h : ids.foldlM f st = .ok st') :
    Commits svc w req call st.1 st'.1 := by
  induction ids generalizing st with
  | nil =>
      cases h
      exact Commits.refl _
  | cons id ids ih =>
      rw [List.foldlM_cons] at h
      obtain ⟨mid, hmid, h⟩ := Checks.bind_eq_ok.mp h
      exact (hf _ _ _ hmid).trans (ih h)

theorem delete_commits {m : Model} {ids : List String} {force : Bool} {db : Database} :
    Commits svc w req call db
      (BasicCrud.delete svc db (req.access svc w) m ids force).1 := by
  unfold BasicCrud.delete
  cases h : ids.foldlM (fun st id => BasicCrud.deleteOne svc (req.access svc w) m force id id st)
      (db, 0) with
  | error answer => exact Commits.refl db
  | ok st => exact foldlM_commits (fun _ _ _ h => deleteOne_commits h) h

theorem trashDelete_commits {ids : List String} {db : Database} :
    Commits svc w req call db (Trashcan.delete svc db (req.access svc w) ids).1 := by
  unfold Trashcan.delete
  cases h : ids.foldlM (Trashcan.deleteOne svc (req.access svc w)) (db, 0) with
  | error answer => exact Commits.refl db
  | ok st =>
      refine foldlM_commits (fun st id st' h => ?_) h
      unfold Trashcan.deleteOne at h
      split at h
      · cases h
      · split at h
        · cases h
        · exact deleteOne_commits h

/-- What `Trashcan.update` writes. -/
theorem trashUpdate_cases (svc : Service) (db : Database) (acc : Access) (id : String) (body : Dict) :
    (Trashcan.update svc db acc id body).1 = db ∨ ∃ resource recordId m,
      Text.splitFirst id '-' = some (resource, recordId) ∧ Trashcan.modelOf resource = some m ∧
      AccessControl.withPermission svc.policies db acc m 'd' { query := some (byId db m recordId) } =
        .ok true ∧
      BasicCrud.setStatus db m recordId (body.get "status") =
        .ok (Trashcan.update svc db acc id body).1 := by
  unfold Trashcan.update
  cases hid : Text.splitFirst id '-' with
  | none => exact Or.inl rfl
  | some parts =>
      obtain ⟨resource, recordId⟩ := parts
      cases hm : Trashcan.modelOf resource with
      | none =>
          simp only [hm]
          exact Or.inl trivial
      | some m =>
          simp only [hm]
          cases hallowed : AccessControl.withPermission svc.policies db acc m 'd'
              { query := some (byId db m recordId) } with
          | error e => exact Or.inl rfl
          | ok allowed =>
              cases allowed with
              | false => exact Or.inl rfl
              | true =>
                  simp only
                  split_ifs with hrow
                  · exact Or.inl rfl
                  all_goals
                    cases hstatus : BasicCrud.setStatus db m recordId (body.get "status") with
                    | error e => exact Or.inl rfl
                    | ok db' => exact Or.inr ⟨resource, recordId, m, rfl, hm, hallowed, hstatus⟩

theorem trashUpdate_commits {id : String} {body : Dict} (hcall : call = .trashUpdate id body) :
    Commits svc w req call w.db (Trashcan.update svc w.db (req.access svc w) id body).1 := by
  rcases trashUpdate_cases svc w.db (req.access svc w) id body with
    hsame | ⟨resource, recordId, m, hid, hm, hallowed, hok⟩
  · rw [hsame]
    exact Commits.refl _
  · exact (Commit.restored hcall rfl hid hm hallowed hok).commits

/-! ### Confirmations and logins -/

theorem request_db (svc : Service) (w : World) (amb : Ambient) (id : String) :
    (Confirmation.request svc w amb id).1.db = w.db := by
  unfold Confirmation.request
  cases Confirmation.issue svc w.db w.now amb id <;> rfl

theorem confirm_commits {amb : Ambient} {token : String} {clear : Bool} :
    Commits svc w req call w.db (Confirmation.confirm svc w amb token clear).1.db := by
  unfold Confirmation.confirm
  cases hcheck : Confirmation.check svc w token with
  | error answer => exact Commits.refl _
  | ok parts =>
      obtain ⟨id, info, nonce, contact⟩ := parts
      simp only
      cases hstore : schema.store (Confirmation.activate w.db id (contact "uid")) with
      | error e => exact Commits.refl _
      | ok db =>
          have hcommit : Commits svc w req call w.db db :=
            (Commit.confirmed rfl hcheck (store_ok hstore)).commits
          simp only
          split <;> exact hcommit

theorem stamped_commits {m : Model} {p : Row → Bool} {f : Row → Row} {db db' : Database}
    (hm : m = .account ∨ m = .apikey) (hf : ∀ row, ∀ c ∉ stampedCells, f row c = row c)
    (h : schema.store (db.1.modify m p f) = .ok db') : Commits svc w req call db db' :=
  (Commit.stamped hm hf (store_ok h)).commits

/-- Setting one cell leaves the others. -/
theorem update_off {cell : String} {v : Val} (hcell : cell ∈ stampedCells) (row : Row) :
    ∀ c ∉ stampedCells, Function.update row cell v c = row c :=
  fun c hc => Function.update_of_ne (fun h : c = cell => hc (h ▸ hcell)) _ _

theorem write_off {cells : Dict} (hcells : ∀ c ∈ cells, c ∈ stampedCells) (row : Row) :
    ∀ c ∉ stampedCells, row.write cells c = row c :=
  fun c hc => Row.write_of_not_mem row fun h => hc (hcells c h)

theorem stampLogin_commits {w₀ : World} (w : World) (a : SessionAuth.Accepted) (account : Row) :
    Commits svc w₀ req call w.db (SessionAuth.stampLogin w a account).db := by
  unfold SessionAuth.stampLogin
  split
  · split
    · rename_i db h
      exact stamped_commits (Or.inl rfl) (update_off (by decide)) h
    · exact Commits.refl _
  · exact Commits.refl _

theorem loginAccepted_commits {w₀ : World} (w : World) (account : Row) (method : Val) :
    Commits svc w₀ req call w.db (SessionAuth.loginAccepted svc w req account method).1.db := by
  unfold SessionAuth.loginAccepted
  simp only
  split
  · exact Commits.refl _
  · have hstamp : Commits svc w₀ req call w.db
        (SessionAuth.stampLogin w (SessionAuth.acceptedAs svc w req account method) account).db :=
      stampLogin_commits ..
    split <;> exact hstamp

theorem storePassword_commits {w₀ : World} (w : World) (amb : Ambient) (uid : String)
    (account : Row) (new : Val) :
    Commits svc w₀ req call w.db (LocalUser.storePassword svc w amb uid account new).1.db := by
  unfold LocalUser.storePassword
  split
  · rename_i db h
    exact stamped_commits (Or.inl rfl) (write_off (by simp [stampedCells])) h
  · exact Commits.refl _

theorem verify_commits {w₀ : World} {account : Row} {otp : String} {db : Database}
    (h : TotpFunc.verify svc w account otp = .ok db) : Commits svc w₀ req call w.db db := by
  unfold TotpFunc.verify at h
  split_ifs at h with h1 h2 h3
  · split at h
    · split at h
      · split at h
        · rw [Checks.orElse_eq_ok] at h
          exact stamped_commits (Or.inl rfl) (update_off (by decide)) h
        · cases h
      · cases h
    · cases h
  · cases h
    exact Commits.refl _

theorem totpLogin_commits {w₀ : World} {username otp : String} :
    Commits svc w₀ req call w.db (TotpFunc.login svc w req username otp).1.db := by
  unfold TotpFunc.login
  simp only
  split
  · exact Commits.refl _
  · exact Commits.refl _
  · split
    · exact Commits.refl _
    · rename_i db hverify
      have hdb : Commits svc w₀ req call w.db db := verify_commits hverify
      split
      · exact hdb
      · split_ifs
        · exact hdb
        · split <;> exact hdb

/-! ### Registration -/

theorem registrant_commits {identity username name uid : Val} {cid : String} {db db' : Database}
    (h : SessionAuth.registrant svc db req.amb identity username name = .ok (db', uid, cid)) :
    Commits svc w req call db db' := by
  obtain ⟨_, _, h⟩ := Checks.bind_eq_ok.mp h
  simp only at h
  split at h
  · cases h
  · cases h
  · split at h
    · cases h
    · split at h
      · cases h
      · cases h
      · split at h
        · cases h
          exact Commits.refl db
        · cases h
    · rename_i hnew
      split at h
      · rename_i hstore
        cases h
        exact (Commit.registered hnew (store_ok hstore)).commits
      · cases h

theorem addProfile_commits (db : Database) (id : String) (uid : Val) (item : String) (value : Val) :
    Commits svc w req call db (SessionAuth.addProfile db id uid item value) := by
  unfold SessionAuth.addProfile
  split
  · rename_i h
    exact (Commit.profiled (store_ok h)).commits
  · exact Commits.refl db

theorem addProfiles_commits (db : Database) (amb : Ambient) (uid picture : Val) :
    Commits svc w req call db (SessionAuth.addProfiles db amb uid picture) := by
  have hpicture : ∀ db', Commits svc w req call db db' → Commits svc w req call db
      (if picture.truthy then
        SessionAuth.addProfile db' (amb.genIdWith "x-" .picture) uid "picture" picture
      else db') := by
    intro db' h
    split
    · exact h.trans (addProfile_commits ..)
    · exact h
  unfold SessionAuth.addProfiles
  refine hpicture _ ?_
  split
  · split
    · exact addProfile_commits ..
    · exact Commits.refl db
  · exact Commits.refl db

/-- Without a template the contact is activated, which only external logins do. -/
theorem register_commits {w₀ : World} {identity username name picture : Val}
    {template : Bool} (htemplate : template = false → call.IsExternal) :
    Commits svc w₀ req call w.db
      (SessionAuth.register svc w req.amb identity username name template picture).1.db := by
  unfold SessionAuth.register
  split
  · exact Commits.refl _
  · rename_i db uid cid hreg
    have hdb : Commits svc w₀ req call w.db (SessionAuth.addProfiles db req.amb uid picture) :=
      (registrant_commits hreg).trans (addProfiles_commits ..)
    cases template with
    | true =>
        have hreq := request_db svc { w with db := SessionAuth.addProfiles db req.amb uid picture } req.amb cid
        simp only [if_true]
        split
        · rename_i hr
          rw [hr] at hreq
          exact hreq ▸ hdb
        · rename_i hr
          rw [hr] at hreq
          exact hreq ▸ hdb
    | false =>
        simp only [Bool.false_eq_true, if_false]
        split
        · rename_i hok
          exact hdb.tail (Commit.activated (htemplate rfl) hok)
        · exact hdb

theorem accountAdd_commits {w₀ : World} {amb : Ambient} {username uid : Val} :
    Commits svc w₀ req call w.db (SessionAuth.accountAdd w amb username uid).1.db := by
  unfold SessionAuth.accountAdd
  split
  · exact Commits.refl _
  · simp only
    split
    · rename_i h
      exact (Commit.accountAdded (store_ok h)).commits
    · exact Commits.refl _

/-- An external user is registered and given an account. -/
theorem registerExternal_commits {w₀ : World} (hcall : call.IsExternal)
    (identity username name picture : Val) :
    Commits svc w₀ req call w.db
      (SessionAuth.registerExternal svc w req.amb identity username name picture).1.db := by
  have hreg : Commits svc w₀ req call w.db
      (SessionAuth.register svc w req.amb identity username name false picture).1.db :=
    register_commits fun _ => hcall
  unfold SessionAuth.registerExternal
  revert hreg
  rcases SessionAuth.register svc w req.amb identity username name false picture with ⟨w₁, answer⟩
  intro hreg
  simp only at hreg ⊢
  split
  · exact hreg
  · have hadd : Commits svc w₀ req call w.db
        (SessionAuth.accountAdd w₁ req.amb username (answer.body.get "uid")).1.db :=
      hreg.trans accountAdd_commits
    revert hadd
    rcases SessionAuth.accountAdd w₁ req.amb username (answer.body.get "uid") with ⟨w₂, answer₂⟩
    intro hadd
    simp only at hadd ⊢
    split
    · exact hadd
    · split <;> exact hadd

theorem ldapLogin_commits {w₀ : World} (hcall : call.IsExternal) :
    Commits svc w₀ req call w.db (LdapFunc.login svc w req.amb).1.db := by
  unfold LdapFunc.login
  split
  · exact Commits.refl _
  · simp only
    split
    · split
      · exact Commits.refl _
      · exact Commits.refl _
      · exact registerExternal_commits hcall ..
    · exact Commits.refl _

theorem tryMethods_commits {w₀ : World} {username : String} {password : Val}
    (hcall : call.IsExternal) (items : List String) (w : World) (answer : Response) :
    Commits svc w₀ req call w.db
      (SessionAuth.tryMethods svc req.amb username password w answer items).1.db := by
  induction items generalizing w answer with
  | nil => exact Commits.refl _
  | cons item items ih =>
      rw [SessionAuth.tryMethods]
      split
      · split
        · exact Commits.refl _
        · exact ih w _
      · split
        · have hldap : Commits svc w₀ req call w.db (LdapFunc.login svc w req.amb).1.db :=
            ldapLogin_commits hcall
          split
          · rename_i hr
            rw [hr] at hldap
            exact hldap
          · rename_i hr
            rw [hr] at hldap
            exact hldap.trans (ih _ _)
        · exact ih w _

theorem accountLogin_commits {username : String} {password method otp : Val}
    (hcall : call.IsExternal) :
    Commits svc w req call w.db
      (SessionAuth.accountLogin svc w req username password method otp).1.db := by
  unfold SessionAuth.accountLogin
  simp only
  split
  · exact Commits.refl _
  · split
    · split
      · have hotp : Commits svc w req call w.db
            (TotpFunc.login svc w req username otp.text).1.db := totpLogin_commits
        split
        · rename_i hr
          rw [hr] at hotp
          exact hotp.trans (loginAccepted_commits ..)
        · rename_i hr
          rw [hr] at hotp
          exact hotp
      · exact Commits.refl _
    · split
      · exact Commits.refl _
      · split
        · have htry : Commits svc w req call w.db (SessionAuth.tryMethods svc req.amb username password
              w (.message "access denied" 403) (SessionAuth.methodItems svc method)).1.db :=
            tryMethods_commits hcall ..
          split
          · rename_i hr
            rw [hr] at htry
            exact htry.trans (loginAccepted_commits ..)
          · rename_i hr
            rw [hr] at htry
            exact htry
        · exact Commits.refl _

theorem handleUnknownUser_commits {method : String} {user : UserInfo} (hcall : call.IsExternal) :
    Commits svc w req call w.db (OAuth2.handleUnknownUser svc w req method user).1.db := by
  unfold OAuth2.handleUnknownUser
  extract_lets identity username
  split
  · exact Commits.refl _
  · split
    · have hreg : Commits svc w req call w.db (SessionAuth.registerExternal svc w req.amb identity
          username user.name user.picture).1.db := registerExternal_commits hcall ..
      split
      · rename_i hr
        rw [hr] at hreg
        exact hreg.trans (loginAccepted_commits ..)
      · rename_i hr
        rw [hr] at hreg
        exact hreg
    · split
      · have hreg : Commits svc w req call w.db (SessionAuth.register svc w req.amb identity username
            user.name true user.picture).1.db := register_commits nofun
        revert hreg
        rcases SessionAuth.register svc w req.amb identity username user.name true user.picture
          with ⟨w₁, answer⟩
        intro hreg
        simp only at hreg ⊢
        split
        · exact hreg
        · exact hreg.trans accountAdd_commits
      · exact Commits.refl _

theorem callback_commits {method : String} (hcall : call.IsExternal) :
    Commits svc w req call w.db (OAuth2.callback svc w req method).1.db := by
  unfold OAuth2.callback
  split
  · exact Commits.refl _
  · simp only
    split
    · split
      · exact handleUnknownUser_commits hcall
      · exact Commits.refl _
      · split
        · exact Commits.refl _
        · split
          · exact Commits.refl _
          · split
            · exact Commits.refl _
            · exact loginAccepted_commits ..
    · exact Commits.refl _

theorem totpRegister_commits {body : Dict} :
    Commits svc w req call w.db (AuthTotp.register svc w req body).1.db := by
  unfold AuthTotp.register
  simp only
  split
  · split
    · exact Commits.refl _
    · split
      · exact Commits.refl _
      · split
        · exact Commits.refl _
        · split
          · exact Commits.refl _
          · split
            · rename_i h
              exact stamped_commits (Or.inl rfl) (write_off (by simp [stampedCells])) h
            · exact Commits.refl _
  · exact Commits.refl _

theorem totpGenerate_commits : Commits svc w req call w.db (AuthTotp.generate svc w req).1.db := by
  unfold AuthTotp.generate
  simp only
  split
  · exact Commits.refl _
  · split
    · exact Commits.refl _
    · split <;> exact Commits.refl _

theorem changePassword_commits {amb : Ambient} {uid : String} {new token old verify : Val} :
    Commits svc w req call w.db
      (LocalUser.changePassword svc w amb uid new token old verify).1.db := by
  unfold LocalUser.changePassword
  split
  · exact Commits.refl _
  · split
    · split
      · exact Commits.refl _
      · split
        · exact storePassword_commits ..
        · exact Commits.refl _
    · split
      · rename_i token
        have hconfirm : Commits svc w req call w.db
            (Confirmation.confirm svc w amb token true).1.db := confirm_commits
        simp only
        split
        · exact hconfirm.trans (storePassword_commits ..)
        · split <;> exact hconfirm
      · exact Commits.refl _

theorem requested_db {amb : Ambient} {id : String} {w' : World} {r : Option Response}
    (h : Confirmation.request svc w amb id = (w', r)) : w'.db = w.db := by
  rw [← request_db svc w amb id, h]

theorem forgotPassword_db (w : World) (amb : Ambient) (identity username : Val) :
    (LocalUser.forgotPassword svc w amb identity username).1.db = w.db := by
  unfold LocalUser.forgotPassword
  simp only
  split
  · rfl
  · rfl
  · split
    · rfl
    · rfl
    · split
      · exact requested_db ‹_›
      · exact requested_db ‹_›

/-! ### Controllers -/

theorem confirmed_db (w : World) (amb : Ambient) (id : String) (answer : Response) :
    (Controllers.confirmed svc w amb id answer).1.db = w.db := by
  unfold Controllers.confirmed
  split
  · exact requested_db ‹_›
  · exact requested_db ‹_›

theorem register_post_commits {body : Dict} :
    Commits svc w req call w.db (Controllers.register svc w req body).1.db := by
  unfold Controllers.register
  split
  · rw [forgotPassword_db]
    exact Commits.refl _
  · have hreg : Commits svc w req call w.db (SessionAuth.register svc w req.amb (body.get "identity")
        (body.get "username") (body.get "name") true .none).1.db := register_commits nofun
    revert hreg
    rcases SessionAuth.register svc w req.amb (body.get "identity") (body.get "username")
      (body.get "name") true .none with ⟨w₁, answer⟩
    intro hreg
    simp only at hreg ⊢
    split
    · exact hreg
    · exact hreg.trans accountAdd_commits

theorem afterCreate_commits {m : Model} {body : Dict} (hcall : call = .post m body) (w₁ : World)
    (answer : Response) :
    Commits svc w req call w₁.db
      (Controllers.afterCreate svc w₁ req.amb m body answer).1.db := by
  unfold Controllers.afterCreate
  simp only
  split
  · rw [confirmed_db]
    exact Commits.refl _
  · split
    · split
      · rename_i h
        exact (Commit.messageListed (store_ok h)).commits
      · exact Commits.refl _
    · exact Commits.refl _
  · split
    · rename_i h
      exact (Commit.personContact hcall (store_ok h)).commits
    · exact Commits.refl _
  · exact Commits.refl _

theorem post_commits {m : Model} {body : Dict} (hcall : call = .post m body) :
    Commits svc w req call w.db (Controllers.post svc w req m body).1.db := by
  unfold Controllers.post
  split
  · exact register_post_commits
  · rename_i hm
    split
    · exact Commits.refl _
    · split
      · exact Commits.refl _
      · have hcreate : Commits svc w req call w.db (Controllers.created svc w req m body).1 :=
          create_commits (hcall ▸ CreateBody.post m body hm) rfl
        simp only
        split
        · exact hcreate.trans (afterCreate_commits hcall { w with db := _ } _)
        · exact hcreate

theorem put_commits {m : Model} {id : String} {body : Dict} (hcall : call = .put m id body) :
    Commits svc w req call w.db (Controllers.put svc w req m id body).1.db := by
  unfold Controllers.put
  simp only
  split
  · exact Commits.refl _
  · split
    · rename_i hm
      subst hm
      split
      · rename_i hok
        rw [confirmed_db]
        exact (Commit.contactWritten hcall rfl hok).commits
      · exact Commits.refl _
    · rename_i hcontact
      split
      · rename_i hgrant
        obtain ⟨rfl, _⟩ := hgrant
        exact create_commits (hcall ▸ CreateBody.hybrid id body) rfl
      · exact update_commits hcall hcontact

/-! ### The service -/

theorem apikeyVerify_commits {keyId secret : String} :
    Commits svc w req call w.db (ApiKey.verify svc w.db w.now keyId secret).1 := by
  unfold ApiKey.verify
  split
  · exact Commits.refl _
  · split
    · exact Commits.refl _
    · rename_i hstamp
      unfold ApiKey.stampKey at hstamp
      split at hstamp
      · exact stamped_commits (Or.inr rfl) (update_off (by decide)) hstamp
      · cases hstamp
        exact Commits.refl _

theorem cached_commits {keyId secret : String} :
    Commits svc w req call w.db (ApiKey.cached svc w keyId secret).1.db := by
  have hrefill : Commits svc w req call w.db (ApiKey.cached.refill svc w keyId secret).1.db := by
    have hverify : Commits svc w req call w.db (ApiKey.verify svc w.db w.now keyId secret).1 :=
      apikeyVerify_commits
    unfold ApiKey.cached.refill
    split
    · rename_i hr
      rw [hr] at hverify
      exact hverify
    · rename_i hr
      rw [hr] at hverify
      simp only
      split
      · split <;> exact hverify
      · exact hverify
  unfold ApiKey.cached
  split
  · split
    · exact Commits.refl _
    · exact hrefill
  · exact hrefill

theorem openSession_db (w : World) (keyId secret : String) (item : CachedKey) :
    (ApiKey.openSession svc w keyId secret item).1.db = w.db := by
  unfold ApiKey.openSession
  simp only
  split <;> rfl

theorem access_commits {h : Headers} {endpoint apikey : String} :
    Commits svc w req call w.db (ApiKey.access svc w h endpoint apikey).1.db := by
  unfold ApiKey.access
  split
  · rename_i keyId secret _
    have hcached : Commits svc w req call w.db (ApiKey.cached svc w keyId secret).1.db :=
      cached_commits
    split
    · rename_i hr
      rw [hr] at hcached
      exact hcached
    · rename_i hr
      rw [hr] at hcached
      split
      · exact hcached
      · split
        · exact hcached
        · simp only
          rw [openSession_db]
          exact hcached
  · exact Commits.refl _

theorem auth_commits {h : Headers} {endpoint apikey : String} {required : List String} :
    Commits svc w req call w.db (ApiKey.auth svc w h endpoint apikey required).1.db := by
  have haccess : Commits svc w req call w.db (ApiKey.access svc w h endpoint apikey).1.db :=
    access_commits
  unfold ApiKey.auth
  split
  · exact Commits.refl _
  · split
    all_goals
      rename_i hr
      rw [hr] at haccess
      exact haccess

/-- Serving a call goes from commit to commit. -/
theorem handle_commits (svc : Service) (w : World) (req : Request) (call : Call) :
    Commits svc w req call w.db (handle svc w req call).1.db := by
  cases call with
  | authBasic username password =>
      have : (basic w username password).1.db = w.db := by
        unfold basic
        split
        · rfl
        · split <;> rfl
      exact this ▸ Commits.refl _
  | authApikey endpoint apikey required =>
      have hauth : Commits svc w req (.authApikey endpoint apikey required) w.db
          (ApiKey.auth svc w req.headers endpoint apikey required).1.db := auth_commits
      simp only [handle]
      rcases hr : ApiKey.auth svc w req.headers endpoint apikey required with ⟨w₁, uid | answer⟩
      all_goals
        rw [hr] at hauth
        exact hauth
  | login username password method otp => exact accountLogin_commits trivial
  | logout =>
      simp only [handle]
      rcases req.headers.authorization with _ | ⟨username, password⟩
      · exact Commits.refl _
      · exact Commits.refl _
  | callback method => exact callback_commits trivial
  | totpGenerate => exact totpGenerate_commits
  | totpRegister body => exact totpRegister_commits
  | changePassword uid body => exact changePassword_commits
  | post m body => exact post_commits rfl
  | put m id body => exact put_commits rfl
  | delete m ids force =>
      simp only [handle, Controllers.delete]
      by_cases hm : m ∉ Controllers.routed
      · rw [if_pos hm]
        exact Commits.refl _
      · rw [if_neg hm]
        exact delete_commits
  | trashUpdate id body => exact trashUpdate_commits rfl
  | trashDelete ids => exact trashDelete_commits
  | confirmationGet id =>
      have hdb := request_db svc w req.amb id
      simp only [handle]
      rcases hr : Confirmation.request svc w req.amb id with ⟨w₁, _ | answer⟩
      all_goals
        rw [hr] at hdb
        exact hdb ▸ Commits.refl _
  | confirm token => exact confirm_commits

end Apicrud
