import Apicrud.Commits
import Apicrud.ContactUpdates
import Apicrud.Seed
import Apicrud.Updates

/-! # Administrators

`is_admin` decides whether a login gets the role `admin`.  No request sets it but a `PUT` on an account,
which writes the body to the row: a user who may update the own account makes it an administrator's
(`promotes_along_iff`). -/

namespace Apicrud

open Relational

/-- The account is an administrator's. -/
def IsAdmin (db : Database) (id : Val) : Prop :=
  ∃ row ∈ db.rows .account, row "id" = id ∧ (row "is_admin").truthy = true

/-- No account goes from `is_admin = false` to `is_admin = true`. -/
def NoPromotion (db db' : Database) : Prop :=
  ∀ row ∈ db.rows .account, ∀ after ∈ db'.rows .account, after "id" = row "id" →
    (row "is_admin").truthy = false → (after "is_admin").truthy = false

instance (db db' : Database) : Decidable (NoPromotion db db') :=
  inferInstanceAs (Decidable (∀ row ∈ _, ∀ row' ∈ _, _ → _ → _))

/-- Who is an administrator was one. -/
def AdminsFrom (db db' : Database) : Prop := ∀ id, IsAdmin db' id → IsAdmin db id

variable {svc : Service} {w : World} {req : Request} {call : Call} {db db' : Database}

theorem AdminsFrom.noPromotion (h : AdminsFrom db db') : NoPromotion db db' := by
  intro row hrow row' hrow' hid hfalse
  by_contra htrue
  rw [Bool.not_eq_false] at htrue
  obtain ⟨row₀, hrow₀, hid₀, htrue₀⟩ := h (row "id") ⟨row', hrow', hid, htrue⟩
  have hsame : row₀ = row :=
    db.eq_of_column (by decide : ["id"] ∈ schema.unique .account) (by decide) hrow₀ hrow hid₀
  rw [hsame, hfalse] at htrue₀
  cases htrue₀

/-! ### What the commits do to administrators -/

theorem adminsFrom_of_rows (h : ∀ row ∈ db'.rows .account, row ∈ db.rows .account) :
    AdminsFrom db db' := by
  rintro id ⟨row, hrow, hid, htrue⟩
  exact ⟨row, h row hrow, hid, htrue⟩

theorem adminsFrom_of_eq (h : db'.1 .account = db.1 .account) : AdminsFrom db db' :=
  adminsFrom_of_rows fun row hrow => by rwa [Store.rows, h] at hrow

/-- A rewrite that leaves the two columns alone. -/
theorem adminsFrom_modify {m : Model} {p : Row → Bool} {f : Row → Row} (h : db'.1 = db.1.modify m p f)
    (hf : ∀ row, f row "id" = row "id" ∧ f row "is_admin" = row "is_admin") : AdminsFrom db db' := by
  by_cases hm : m = .account
  · subst hm
    rintro id ⟨row', hrow', hid, htrue⟩
    rw [Store.rows, h, Db.mem_modify] at hrow'
    obtain ⟨row, hrow, rfl⟩ := hrow'
    refine ⟨row, hrow, ?_⟩
    split_ifs at hid htrue
    · rw [(hf row).1] at hid
      rw [(hf row).2] at htrue
      exact ⟨hid, htrue⟩
    · exact ⟨hid, htrue⟩
  · refine adminsFrom_of_eq ?_
    rw [h, Db.modify_ne _ _ _ (Ne.symm hm)]

theorem adminsFrom_insert {m : Model} {row : Row} (h : db'.1 = db.1.insert m row)
    (hrow : m = .account → (row "is_admin").truthy = false) : AdminsFrom db db' := by
  by_cases hm : m = .account
  · subst hm
    rintro id ⟨row', hrow', hid, htrue⟩
    rw [Store.rows, h, Db.mem_insert] at hrow'
    rcases hrow' with hrow' | rfl
    · exact ⟨row', hrow', hid, htrue⟩
    · rw [hrow rfl] at htrue
      cases htrue
  · refine adminsFrom_of_eq ?_
    rw [h, Db.insert_ne _ _ (Ne.symm hm)]

theorem adminsFrom_setStatus {m : Model} {id : String} {status : Val}
    (h : BasicCrud.setStatus db m id status = .ok db') : AdminsFrom db db' :=
  adminsFrom_modify (store_ok h) fun _ =>
    ⟨Function.update_of_ne (by decide) _ _, Function.update_of_ne (by decide) _ _⟩

theorem mem_of_mem_remove {m m' : Model} {p : Row → Bool} {row : Row}
    (h : row ∈ db.1.remove m p m') : row ∈ db.1 m' := by
  by_cases hm : m' = m
  · subst hm
    exact (Db.mem_remove.mp h).1
  · rwa [Db.remove_ne _ _ hm] at h

/-- The association tables hold neither accounts nor persons. -/
theorem assoc_ne {m : Model} {rel : Related} (h : rel ∈ m.restRelated) :
    rel.assoc ≠ .account ∧ rel.assoc ≠ .person := by
  have hall : ∀ r ∈ m.restRelated, r.assoc ≠ .account ∧ r.assoc ≠ .person := by cases m <;> decide
  exact hall rel h

/-- No commit makes an administrator but that of a `PUT` on an account. -/
theorem Commit.adminsFrom (h : Commit svc w req call db db')
    (hcall : ∀ id body, call ≠ .put .account id body) : AdminsFrom db db' := by
  cases h with
  | created hbody _ _ hdb =>
      refine adminsFrom_insert hdb fun hm => ?_
      cases hbody with
      | post _ _ hne => exact absurd hm hne
      | hybrid => cases hm
  | related hrel hdb =>
      refine adminsFrom_of_eq ?_
      rw [hdb, Function.update_of_ne (assoc_ne hrel).1.symm]
  | messageListed hdb =>
      refine adminsFrom_insert hdb fun hm => ?_
      cases hm
  | personContact _ hdb =>
      refine adminsFrom_insert hdb fun hm => ?_
      cases hm
  | @written m id body _ _ _ hput _ _ _ _ _ hdb =>
      have hm : Model.account ≠ m := by
        rintro rfl
        exact hcall id body hput
      refine adminsFrom_of_eq ?_
      rw [hdb, Db.modify_ne _ _ _ hm]
  | contactWritten _ _ hok =>
      obtain ⟨_, _, _, hupdated⟩ := BasicCrud.updateContact_ok hok
      exact adminsFrom_of_eq (hupdated.rows_eq (by decide) (by decide))
  | disabled hok => exact adminsFrom_setStatus hok
  | restored _ _ _ _ _ hok => exact adminsFrom_setStatus hok
  | deleted _ hok =>
      refine adminsFrom_of_rows fun row hrow => ?_
      rw [Store.rows, store_ok hok] at hrow
      exact mem_of_mem_remove (schema.mem_of_mem_cascade hrow)
  | confirmed _ _ hdb =>
      refine adminsFrom_of_eq ?_
      rw [hdb, Confirmation.activate, Db.modify_ne _ _ _ (by decide), Db.modify_ne _ _ _ (by decide)]
  | activated _ hok => exact adminsFrom_setStatus hok
  | stamped _ hf hdb =>
      exact adminsFrom_modify hdb fun row => ⟨hf row _ (by decide), hf row _ (by decide)⟩
  | registered _ hdb =>
      refine adminsFrom_of_eq ?_
      rw [hdb, SessionAuth.addPerson, Db.insert_ne _ _ (by decide), Db.insert_ne _ _ (by decide)]
  | accountAdded hdb => exact adminsFrom_insert hdb fun _ => rfl
  | profiled hdb =>
      refine adminsFrom_insert hdb fun hm => ?_
      cases hm

theorem AdminsFrom.trans {db₁ db₂ db₃ : Database} (h : AdminsFrom db₁ db₂) (h' : AdminsFrom db₂ db₃) :
    AdminsFrom db₁ db₃ := fun id hadmin => h id (h' id hadmin)

/-- Every other call makes nobody an administrator. -/
theorem handle_adminsFrom (hcall : ∀ id body, call ≠ .put .account id body) :
    AdminsFrom w.db (handle svc w req call).1.db :=
  (handle_commits svc w req call).relation (fun _ _ h => h) (fun _ _ _ h h' => h.trans h')
    fun _ _ h => h.adminsFrom hcall

/-! ### PUT on an account -/

/-- A `PUT` on an account that goes through with `is_admin` set is on an administrator's account. -/
def PromotesNobody (svc : Service) (w : World) (req : Request) (call : Call) : Prop :=
  ∀ id body, call = .put .account id body → (body.get "is_admin").truthy = true →
    ∀ b, BasicCrud.updateBody svc w.now id body = .ok b →
      BasicCrud.RowAccepted svc w.db (req.access svc w) .account id b 'u' →
      ∀ row ∈ w.db.rows .account, hasId id row = true → (row "is_admin").truthy = true

theorem handle_put_account (svc : Service) (w : World) (req : Request) (id : String) (body : Dict) :
    (handle svc w req (.put .account id body)).1.db =
      (BasicCrud.update svc w.db (req.access svc w) w.now .account id body 'u' []).1 := rfl

/-- What is written says of `is_admin` what the body says, and the id stays. -/
theorem write_account {now : ℕ} {id : String} {body b : Dict} {row : Row}
    (hb : BasicCrud.updateBody svc now id body = .ok b) (hid : hasId id row = true) :
    row.write b "id" = row "id" ∧
      row.write b "is_admin" = if "is_admin" ∈ body then body.get "is_admin" else row "is_admin" := by
  refine ⟨BasicCrud.write_id hb hid, ?_⟩
  have hadmin := updateBody_agree hb "is_admin" (by decide)
  by_cases hmem : "is_admin" ∈ b
  · rw [Row.write_of_mem row hmem, if_pos (hadmin.1.mp hmem), hadmin.2]
  · rw [Row.write_of_not_mem row hmem, if_neg fun h => hmem (hadmin.1.mpr h)]

theorem truthy_mem {body : Dict} {key : String} (h : (body.get key).truthy = true) : key ∈ body := by
  refine Dict.mem_of_get fun hnone => ?_
  rw [hnone] at h
  cases h

/-- Nobody is promoted where the administrators are the same, or the written account was one's. -/
theorem put_noPromotion {id : String} {body : Dict}
    (h : PromotesNobody svc w req (.put .account id body)) :
    NoPromotion w.db (handle svc w req (.put .account id body)).1.db := by
  refine AdminsFrom.noPromotion ?_
  rw [handle_put_account]
  have hcases := @BasicCrud.update_cases svc w.db (req.access svc w) w.now .account id body 'u' [] rfl
  rcases hcases with hsame | ⟨b, hb, hwrite⟩
  · rw [hsame]
    exact fun _ h => h
  · have hdb := (writeRow_ok hwrite).2.2.2
    have haccepted := BasicCrud.writeRow_isOk.mp ⟨_, hwrite⟩
    rintro uid ⟨row', hrow', huid, htrue⟩
    rw [Store.rows, hdb, Db.mem_modify] at hrow'
    obtain ⟨row, hrow, rfl⟩ := hrow'
    refine ⟨row, hrow, ?_⟩
    by_cases hid : hasId id row = true
    · rw [if_pos hid] at huid htrue
      rw [(write_account hb hid).1] at huid
      rw [(write_account hb hid).2] at htrue
      refine ⟨huid, ?_⟩
      split_ifs at htrue with hmem
      · exact h id body rfl htrue b hb haccepted row hrow hid
      · exact htrue
    · rw [if_neg hid] at huid htrue
      exact ⟨huid, htrue⟩

/-- A `PUT` with `is_admin` that goes through promotes the account. -/
theorem put_promotes {id : String} {body : Dict}
    (h : NoPromotion w.db (handle svc w req (.put .account id body)).1.db) :
    PromotesNobody svc w req (.put .account id body) := by
  intro id' body' hcall htruthy b hb haccepted row hrow hid
  cases hcall
  obtain ⟨db', hwrite⟩ := BasicCrud.writeRow_isOk.mpr haccepted
  rw [handle_put_account, BasicCrud.update_of_ok rfl hb hwrite] at h
  have hrow' : row.write b ∈ db'.rows .account := by
    rw [Store.rows, (writeRow_ok hwrite).2.2.2, Db.mem_modify]
    exact ⟨row, hrow, if_pos hid⟩
  by_contra hfalse
  rw [Bool.not_eq_true] at hfalse
  have hstays := h row hrow _ hrow' (write_account hb hid).1 hfalse
  rw [(write_account hb hid).2, if_pos (truthy_mem htruthy), htruthy] at hstays
  cases hstays

theorem noPromotion_iff (svc : Service) (w : World) (req : Request) (call : Call) :
    NoPromotion w.db (handle svc w req call).1.db ↔ PromotesNobody svc w req call := by
  by_cases hput : ∃ id body, call = .put .account id body
  · obtain ⟨id, body, rfl⟩ := hput
    exact ⟨put_promotes, put_noPromotion⟩
  · refine ⟨fun _ id body hcall => absurd ⟨id, body, hcall⟩ hput, fun _ => ?_⟩
    exact (handle_adminsFrom fun id body hcall => hput ⟨id, body, hcall⟩).noPromotion

/-- Along a run, nobody becomes an administrator exactly when every `PUT` that goes through with
`is_admin` set is on an administrator's account. -/
theorem promotes_along_iff (svc : Service) (w : World) (es : List Event) :
    (machine svc).Along (fun w e => NoPromotion w.db ((machine svc).next w e).db) w es ↔
      (machine svc).Along (fun w e => PromotesNobody svc (w.at e) e.req e.call) w es :=
  ⟨Machine.Along.imp fun (w : World) (e : Event) => (noPromotion_iff svc (w.at e) e.req e.call).mp,
    Machine.Along.imp fun (w : World) (e : Event) => (noPromotion_iff svc (w.at e) e.req e.call).mpr⟩

/-- The seeded service, where the other user is logged in. -/
def userWorld : World :=
  ((Seed.world Seed.shared).createSession Seed.service (some "u-0002") ["user"] none "t1" 7200 []).1

/-- A request of the other user. -/
def byUser (call : Call) : Event :=
  ⟨1, Seed.request { authorization := some ("u-0002", "t1") } "q1", call⟩

/-- The other user makes the own account an administrator's. -/
def selfPromotion : Event :=
  byUser (.put .account "x-a0002" (Dict.ofList [("name", .str "second"), ("uid", .str "u-0002"),
    ("is_admin", .bool true)]))

theorem selfPromotion_promotes :
    ¬ (selfPromotion.req.access Seed.service userWorld).HasRole "admin" ∧
      ¬ (machine Seed.service).Along
        (fun w e => NoPromotion w.db ((machine Seed.service).next w e).db) userWorld [selfPromotion] := by
  refine ⟨by decide +kernel, fun h => absurd h.1 (by decide +kernel)⟩

end Apicrud
