import Apicrud.FindsReadable
import Apicrud.Referrals
import Apicrud.TokenAddresses

/-! # Owners of records

`create` looks at the owner that the body names: a session without the role `admin` makes records of its own only
(`creates_own`).  The updates look at the owner that the record has, and write the one of the body.  So a record
stays with its owner along a run exactly where no update that goes through names another one
(`owners_along_iff`). -/

namespace Apicrud

open Relational

/-- The models with an owner that have no roles of their own. -/
def ownedModels : List Model :=
  [.account, .apikey, .category, .contact, .credential, .list, .location, .message, .profile]

/-- Records are made, changed, deleted and restored. -/
def Call.OnOwned : Call → Prop
  | .post m _ => m ≠ .account ∧ m ≠ .person
  | .put .. | .delete .. | .trashUpdate .. | .trashDelete .. => True
  | _ => False

/-- A record that comes belongs to the principal, and one that stays to whom it belonged. -/
structure OwnersKept (acc : Access) (db db' : Database) : Prop where
  created : ∀ m ∈ ownedModels, ∀ record ∈ db'.rows m,
    (∀ old ∈ db.rows m, record "id" ≠ old "id") → (record "uid").text = acc.uidText
  stays : ∀ m ∈ ownedModels, ∀ old ∈ db.rows m, ∀ record ∈ db'.rows m,
    record "id" = old "id" → record "uid" = old "uid"

variable (svc : Service)

/-- An update passes its checks, and the database accepts it. -/
def GoesThrough (w : World) (req : Request) (m : Model) (id : String) (body : Dict) : Prop :=
  if m = .contact then ∃ db, BasicCrud.updateContact svc w.db (req.access svc w) w.now id body = .ok db
  else ∃ db b, BasicCrud.Rewritten svc w.db w.now m id (Controllers.updateBody req.amb m body)
      (Controllers.limits svc req.amb m) db b ∧ BasicCrud.RowAccepted svc db (req.access svc w) m id b 'u'

/-- An update that goes through names no other owner than the record has. -/
def KeepsOwner (w : World) (req : Request) (call : Call) : Prop :=
  ∀ m ∈ ownedModels, ∀ id body, call = .put m id body → "uid" ∈ body → GoesThrough svc w req m id body →
    ∀ row ∈ w.db.rows m, row "id" = .str id → body.get "uid" = row "uid"

variable {svc} {w : World} {req : Request} {call : Call} {db db' db₁ : Database} {acc : Access}
  {m t : Model} {id : String} {body b : Dict}

theorem owned_routed (hm : m ∈ ownedModels) : m ∈ Controllers.routed := by
  revert hm
  cases m <;> decide

theorem owned_uid (hm : m ∈ ownedModels) : m.Has "uid" := by
  revert hm
  cases m <;> decide

theorem owned_keyed (hm : m ∈ ownedModels) : ["id"] ∈ schema.unique m ∧ "id" ∈ schema.notNull m := by
  revert hm
  cases m <;> decide

/-! ### Records that stay -/

/-- Every record was there before, with the same owner. -/
def OwnersFrom (db db' : Database) : Prop :=
  ∀ m ∈ ownedModels, ∀ record ∈ db'.rows m, ∃ old ∈ db.rows m, old "id" = record "id" ∧
    old "uid" = record "uid"

theorem ownersFrom_of_rows (h : ∀ m ∈ ownedModels, db'.rows m ⊆ db.rows m) : OwnersFrom db db' :=
  fun m hm record hrecord => ⟨record, h m hm hrecord, rfl, rfl⟩

theorem OwnersFrom.trans (h : OwnersFrom db db₁) (h' : OwnersFrom db₁ db') : OwnersFrom db db' := by
  intro m hm record hrecord
  obtain ⟨mid, hmid, hid, huid⟩ := h' m hm record hrecord
  obtain ⟨old, hold, hid', huid'⟩ := h m hm mid hmid
  exact ⟨old, hold, hid'.trans hid, huid'.trans huid⟩

/-- No id is there twice, so the record that was there is the one with the id. -/
theorem OwnersFrom.kept (h : OwnersFrom db db') : OwnersKept acc db db' where
  created m hm record hrecord hnew := by
    obtain ⟨old, hold, hid, -⟩ := h m hm record hrecord
    exact absurd hid.symm (hnew old hold)
  stays m hm old hold record hrecord hid := by
    obtain ⟨same, hsame, hid', huid⟩ := h m hm record hrecord
    obtain ⟨hkey, hnull⟩ := owned_keyed hm
    rw [← db.eq_of_column hkey hnull hsame hold (hid'.trans hid)]
    exact huid.symm

theorem setStatus_ownersFrom {status : Val} (h : BasicCrud.setStatus db m id status = .ok db') :
    OwnersFrom db db' := by
  intro t ht record hrecord
  rw [Store.rows, store_ok h] at hrecord
  by_cases htm : t = m
  · subst htm
    obtain ⟨old, hold, rfl⟩ := Db.mem_modify.mp hrecord
    refine ⟨old, hold, ?_⟩
    split
    · exact ⟨(Function.update_of_ne (by decide) _ _).symm, (Function.update_of_ne (by decide) _ _).symm⟩
    · exact ⟨rfl, rfl⟩
  · rw [Db.modify_ne _ _ _ htm] at hrecord
    exact ⟨record, hrecord, rfl, rfl⟩

theorem turns_ownersFrom {force : Bool} {names : List (Model × String)}
    (h : Turns svc acc force db names db') : OwnersFrom db db' := by
  induction h with
  | done db => exact ownersFrom_of_rows fun _ _ => List.Subset.refl _
  | turn hallowed hwrite hrest ih =>
      refine OwnersFrom.trans ?_ ih
      cases force with
      | true => exact ownersFrom_of_rows fun _ _ => (turnWrite_sublist hwrite).subset
      | false => exact setStatus_ownersFrom hwrite

theorem allOrNothing_ownersFrom {force : Bool} {named : List (Option (Model × String))}
    {r : Database × Response} (h : AllOrNothing svc acc force db named r) : OwnersFrom db r.1 := by
  rcases h.same_or_turns with hsame | ⟨names, -, hturns⟩
  · exact ownersFrom_of_rows fun _ _ => hsame ▸ List.Subset.refl _
  · exact turns_ownersFrom hturns

theorem trashUpdate_ownersFrom (svc : Service) (db : Database) (acc : Access) (id : String) (body : Dict) :
    OwnersFrom db (Trashcan.update svc db acc id body).1 := by
  rcases trashUpdate_cases svc db acc id body with hsame | ⟨resource, recordId, m, -, -, -, hok⟩
  · rw [hsame]
    exact ownersFrom_of_rows fun _ _ => List.Subset.refl _
  · exact setStatus_ownersFrom hok

/-! ### Records that are made -/

namespace AccessControl

/-- The entries of the example application that let a session make a record with an owner are for the
administrator, the owner and the roles of a list. -/
theorem example_creates (hm : m ∈ ownedModels) (haccount : m ≠ .account) {rules : List Policy}
    (hrules : rulesOf examplePolicies m = .ok rules) : ∀ p ∈ rules, 'c' ∈ p.actions →
      p.principal = "admin" ∨ p.principal = "user/{uid}" ∨ "list-".toList <+: p.principal.toList := by
  revert hm haccount
  cases m <;> intro hm haccount <;> first
    | exact absurd hm (by decide)
    | exact absurd rfl haccount
    | (cases hrules; decide)

/-- A text that starts in a list starts there when it is filled in. -/
theorem fill_list {uid text filled : String} (hlist : "list-".toList <+: text.toList)
    (h : fill id uid text = .ok filled) : filled.toList.head? = some 'l' := by
  obtain ⟨rest, hrest⟩ := hlist
  unfold fill Text.format at h
  rw [← hrest, Text.formatAux_append _ _ _ (by decide) (by decide)] at h
  cases hformat : Text.formatAux [("eid", id), ("list_id", id), ("uid", uid)] none rest with
  | none =>
      rw [hformat] at h
      cases h
  | some cs =>
      rw [hformat] at h
      cases h
      rw [String.toList_ofList]
      rfl

/-- No issued role reads like one of a list. -/
theorem nameOf_ne_list {role : String} (h : role ∈ issuedRoles) :
    (nameOf acc role).toList.head? ≠ some 'l' := by
  simp only [issuedRoles, List.mem_cons, List.not_mem_nil, or_false] at h
  rcases h with rfl | rfl | rfl | rfl | rfl | rfl | rfl | rfl <;> simp [nameOf]

/-- Without a record, the owner is the one that is given. -/
theorem resolve_owner {pol : Policies} {target : Target} {r : Resolved} (hquery : target.query = none)
    (h : resolve pol db acc m target = .ok r) : r.ownerUid = target.ownerUid := by
  obtain ⟨found, hfound, h⟩ := Checks.bind_eq_ok.mp h
  unfold fromRecord at hfound
  rw [hquery] at hfound
  cases hfound
  cases m <;> (rw [hquery] at h; cases h; rfl)

/-- A session with issued roles that are not the administrator's makes records of its own. -/
theorem creates_own (hissued : acc.Issued) (hadmin : ¬ acc.HasRole "admin") (hm : m ∈ ownedModels)
    (haccount : m ≠ .account) {target : Target} (hquery : target.query = none)
    (h : withPermission examplePolicies db acc m 'c' target = .ok true) :
    target.ownerUid.text = acc.uidText := by
  obtain ⟨actions, hactions, hc⟩ := Checks.bind_eq_ok.mp h
  rw [Checks.pure_eq_ok, decide_eq_true_eq] at hc
  obtain ⟨r, rules, hr, hrules, hsource⟩ := mem_rbacPermissions hactions hc
  have hentries := example_creates hm haccount hrules
  cases hsource with
  | privacy _ hx => exact absurd hx (by decide)
  | everyone p hp hall hx =>
      have hnone := hentries p hp hx
      rw [hall] at hnone
      exact absurd hnone (by decide)
  | role p hp role hrole happlies hx _ =>
      obtain ⟨principal, hprincipal, hname, -⟩ :=
        (applies_eq_true (principal_ne_wildcard (BasicCrud.example_entries hrules p hp))).mp happlies
      rw [fill_roleName (noBrace_of_issued (hissued role hrole)), Except.ok.injEq] at hname
      subst hname
      rw [← resolve_owner hquery hr]
      by_contra hother
      have hstranger : Stranger r.ownerUid.text acc := ⟨fun hsame => hother hsame.symm, hissued, hadmin⟩
      obtain ⟨hnameAdmin, hnameUser, -⟩ := hstranger.name hrole
      rcases hentries p hp hx with heq | heq | hlist
      · rw [heq, fill_of_noBrace (by decide), Except.ok.injEq] at hprincipal
        exact hnameAdmin hprincipal.symm
      · have hfill := fill_uid "user/" (by decide) r.id.text r.ownerUid.text
        rw [heq] at hprincipal
        exact hnameUser (Except.ok.inj (hprincipal.symm.trans hfill))
      · exact nameOf_ne_list (hissued role hrole) (fill_list hlist hprincipal)

end AccessControl

/-- A controller other than that of people adds at most the record that `create` makes. -/
theorem post_rows (svc : Service) (w : World) (req : Request) (body : Dict)
    (hm : m ≠ .account ∧ m ≠ .person) (ht : t ∈ Controllers.routed) :
    (Controllers.post svc w req m body).1.db.rows t = w.db.rows t ∨
    t = m ∧ ∃ p db₁, Inserts svc w.db (req.access svc w) req.amb w.now m
        (Controllers.createBody req.amb (req.access svc w) m body) (Controllers.idPrefix m)
        (Controllers.limits svc req.amb m) p db₁ ∧
      (Controllers.post svc w req m body).1.db.rows t = w.db.rows t ++ [BasicCrud.newRow m p.body] := by
  by_cases hpath : m ∉ Controllers.routed ∨ m = .settings
  · left
    unfold Controllers.post
    rw [if_neg hm.1, if_pos hpath]
  by_cases hdaily : m = .message ∧ req.amb.withinDailyTotal = false
  · left
    unfold Controllers.post
    rw [if_neg hm.1, if_neg hpath, if_pos hdaily]
  have hrows : (Controllers.post svc w req m body).1.db.rows t =
      (Controllers.created svc w req m body).1.rows t := by
    rw [post_eq hm.1 hpath hdaily]
    split_ifs
    · rcases afterCreate_rows svc { w with db := (Controllers.created svc w req m body).1 } req.amb m body
        (Controllers.created svc w req m body).2 ht with hsame | ⟨-, hperson, -⟩
      · exact hsame
      · exact absurd hperson hm.2
    · rfl
  rw [hrows]
  exact create_rows svc w.db (req.access svc w) req.amb w.now m _ _ _ ht

theorem post_kept (hpol : svc.policies = examplePolicies) (hissued : (req.access svc w).Issued)
    (hadmin : ¬ (req.access svc w).HasRole "admin") (hm : m ≠ .account ∧ m ≠ .person) :
    OwnersKept (req.access svc w) w.db (Controllers.post svc w req m body).1.db where
  created t ht record hrecord hnew := by
    rcases post_rows svc w req body hm (owned_routed ht) with hsame | ⟨rfl, p, db₁, hinserts, hrows⟩
    · rw [hsame] at hrecord
      exact absurd rfl (hnew record hrecord)
    · rw [hrows] at hrecord
      rcases List.mem_append.mp hrecord with hold | hmade
      · exact absurd rfl (hnew record hold)
      · have hallowed := (prepare_ok hinserts.1).allowed
        rw [if_pos (owned_uid ht), hpol] at hallowed
        rw [List.mem_singleton.mp hmade, BasicCrud.newRow_uid (owned_uid ht) hinserts.1]
        exact AccessControl.creates_own hissued hadmin ht hm.1 rfl hallowed
  stays t ht old hold record hrecord hid := by
    have hkept : old ∈ (Controllers.post svc w req m body).1.db.rows t := by
      rcases post_rows svc w req body hm (owned_routed ht) with hsame | ⟨rfl, p, db₁, -, hrows⟩
      · exact hsame.symm ▸ hold
      · exact hrows.symm ▸ List.mem_append_left _ hold
    obtain ⟨hkey, hnull⟩ := owned_keyed ht
    rw [Store.eq_of_column _ hkey hnull hrecord hkept hid]

/-! ### Records that are written -/

/-- The association tables have no endpoints of their own. -/
theorem assoc_not_routed {rel : Related} (h : rel ∈ m.restRelated) : rel.assoc ∉ Controllers.routed := by
  have hall : ∀ r ∈ m.restRelated, r.assoc ∉ Controllers.routed := by cases m <;> decide
  exact hall rel h

theorem updateRelateds_rows {limits : List (String × Val)} {rels : List Related}
    (hrels : ∀ rel ∈ rels, rel ∈ m.restRelated) (ht : t ∈ Controllers.routed) (db : Database) (body : Dict) :
    (BasicCrud.updateRelateds m id limits db rels body).1.rows t = db.rows t := by
  induction rels generalizing db body with
  | nil => rfl
  | cons rel rels ih =>
      have hrest : ∀ r ∈ rels, r ∈ m.restRelated := fun r hr => hrels r (List.mem_cons_of_mem _ hr)
      rw [BasicCrud.updateRelateds]
      simp only
      split_ifs with hmem hbad hover
      · rfl
      · rfl
      · cases hup : BasicCrud.updateRelated db m id rel (body.get rel.attr) with
        | error e => rfl
        | ok db' =>
            obtain ⟨_, _, _, _, hrows⟩ := updateRelated_ok hup
            refine (ih hrest db' _).trans ?_
            have hne : t ≠ rel.assoc := by
              rintro rfl
              exact assoc_not_routed (hrels _ List.mem_cons_self) ht
            rw [Store.rows, hrows, BasicCrud.rewriteAssoc, Function.update_of_ne hne]
            rfl
      · exact ih hrest db body

/-- An update leaves the rows of the endpoints, or writes the one of the record. -/
theorem update_rows {access : Char} {limits : List (String × Val)} (now : ℕ) :
    (¬ (∃ db₁ b, BasicCrud.Rewritten svc db now m id body limits db₁ b ∧
        BasicCrud.RowAccepted svc db₁ acc m id b access) ∧
      ∀ t ∈ Controllers.routed,
        (BasicCrud.update svc db acc now m id body access limits).1.rows t = db.rows t) ∨
    ∃ checked db₁ b, BasicCrud.updateBody svc now id body = .ok checked ∧
      BasicCrud.updateRelateds m id limits db m.restRelated checked = (db₁, .ok b) ∧
      BasicCrud.RowAccepted svc db₁ acc m id b access ∧
      ∀ t ∈ Controllers.routed, (BasicCrud.update svc db acc now m id body access limits).1.rows t =
        if t = m then (db.rows t).map fun row => if hasId id row then row.write b else row
        else db.rows t := by
  unfold BasicCrud.update
  cases hbody : BasicCrud.updateBody svc now id body with
  | error answer =>
      refine Or.inl ⟨?_, fun _ _ => rfl⟩
      rintro ⟨_, _, ⟨checked, hchecked, -⟩, -⟩
      rw [hbody] at hchecked
      cases hchecked
  | ok checked =>
      have hrows : ∀ t ∈ Controllers.routed,
          (BasicCrud.updateRelateds m id limits db m.restRelated checked).1.rows t = db.rows t :=
        fun t ht => updateRelateds_rows (fun _ h => h) ht db checked
      rcases hrelated : BasicCrud.updateRelateds m id limits db m.restRelated checked with ⟨db₁, answer | b⟩
      · rw [hrelated] at hrows
        simp only [hrelated]
        refine Or.inl ⟨?_, hrows⟩
        rintro ⟨_, _, ⟨checked', hchecked, hreached⟩, -⟩
        obtain rfl := Except.ok.inj (hbody.symm.trans hchecked)
        rw [hrelated] at hreached
        cases hreached
      · rw [hrelated] at hrows
        simp only [hrelated]
        cases hwrite : BasicCrud.writeRow svc db₁ acc m id b access with
        | error answer =>
            refine Or.inl ⟨?_, hrows⟩
            rintro ⟨db₂, b', ⟨checked', hchecked, hreached⟩, haccepted⟩
            obtain rfl := Except.ok.inj (hbody.symm.trans hchecked)
            rw [hrelated, Prod.mk.injEq, Except.ok.injEq] at hreached
            obtain ⟨rfl, rfl⟩ := hreached
            obtain ⟨db₃, hok⟩ := BasicCrud.writeRow_isOk.mpr haccepted
            rw [hok] at hwrite
            cases hwrite
        | ok db₂ =>
            refine Or.inr ⟨checked, db₁, b, rfl, hrelated, BasicCrud.writeRow_isOk.mp ⟨db₂, hwrite⟩, ?_⟩
            intro t ht
            rw [Store.rows, (writeRow_ok hwrite).2.2.2]
            by_cases htm : t = m
            · subst htm
              rw [if_pos rfl, Db.modify, Function.update_self, ← hrows t ht]
              rfl
            · rw [if_neg htm, Db.modify_ne _ _ _ htm]
              exact hrows t ht

/-- A record that is written stays with its owner exactly where the body names that owner, or none. -/
theorem written_kept_iff (hm : m ∈ ownedModels)
    (hrows : ∀ t ∈ ownedModels, db'.rows t =
      if t = m then (db.rows t).map fun row => if hasId id row then row.write b else row else db.rows t)
    (hid : ∀ row, hasId id row = true → row.write b "id" = row "id")
    (huid : ("uid" ∈ b ↔ "uid" ∈ body) ∧ b.get "uid" = body.get "uid") :
    OwnersKept acc db db' ↔
      ("uid" ∈ body → ∀ row ∈ db.rows m, row "id" = .str id → body.get "uid" = row "uid") := by
  constructor
  · intro h hmem row hrow hrowid
    have hwritten : row.write b ∈ db'.rows m := by
      rw [hrows m hm, if_pos rfl, List.mem_map]
      exact ⟨row, hrow, if_pos (decide_eq_true hrowid)⟩
    have hstays := h.stays m hm row hrow _ hwritten (hid row (decide_eq_true hrowid))
    rwa [Row.write_of_mem row (huid.1.mpr hmem), huid.2] at hstays
  · intro h
    refine OwnersFrom.kept fun t ht record hrecord => ?_
    rw [hrows t ht] at hrecord
    by_cases htm : t = m
    · subst htm
      rw [if_pos rfl] at hrecord
      obtain ⟨old, hold, rfl⟩ := List.mem_map.mp hrecord
      refine ⟨old, hold, ?_⟩
      split_ifs with hsame
      · refine ⟨(hid old hsame).symm, ?_⟩
        by_cases hmem : "uid" ∈ b
        · rw [Row.write_of_mem old hmem, huid.2]
          exact (h (huid.1.mp hmem) old hold (of_decide_eq_true hsame)).symm
        · rw [Row.write_of_not_mem old hmem]
      · exact ⟨rfl, rfl⟩
    · rw [if_neg htm] at hrecord
      exact ⟨record, hrecord, rfl, rfl⟩

theorem contactBody_uid (now : ℕ) {checked : Dict} (h : BasicCrud.contactInfo svc body = .ok checked) :
    ("uid" ∈ BasicCrud.contactBody now checked ↔ "uid" ∈ body) ∧
      (BasicCrud.contactBody now checked).get "uid" = body.get "uid" := by
  obtain ⟨hmem, hget⟩ := contactInfo_agree h "uid" (by decide)
  rw [← hmem, ← hget]
  unfold BasicCrud.contactBody
  split <;> simp

theorem put_contact_kept_iff :
    OwnersKept (req.access svc w) w.db (Controllers.put svc w req .contact id body).1.db ↔
    ("uid" ∈ body → GoesThrough svc w req .contact id body →
      ∀ row ∈ w.db.rows .contact, row "id" = .str id → body.get "uid" = row "uid") := by
  cases hok : BasicCrud.updateContact svc w.db (req.access svc w) w.now id body with
  | error answer =>
      rw [put_contact_error hok]
      refine iff_of_true (OwnersFrom.kept (ownersFrom_of_rows fun _ _ => List.Subset.refl _)) ?_
      rintro - ⟨db, hgoes⟩
      rw [hok] at hgoes
      cases hgoes
  | ok db' =>
      have hgoes : GoesThrough svc w req .contact id body := ⟨db', hok⟩
      obtain ⟨checked, contact, db₁, hupdated⟩ := BasicCrud.updateContact_ok hok
      rw [put_contact_ok hok, written_kept_iff (by decide : Model.contact ∈ ownedModels) ?_ ?_
        (contactBody_uid w.now hupdated.checked_eq)]
      · exact ⟨fun h hmem _ => h hmem, fun h hmem => h hmem hgoes⟩
      · intro t ht
        by_cases hcontact : t = .contact
        · subst hcontact
          rw [if_pos rfl]
          exact hupdated.contacts
        · rw [if_neg hcontact]
          refine hupdated.rows_eq hcontact ?_
          rintro rfl
          exact absurd ht (by decide)
      · intro row hid
        have hrowid : row "id" = .str id := of_decide_eq_true hid
        rw [hrowid]
        exact hupdated.write_id hrowid

/-- Bodies that say the same of a column write the same to it. -/
theorem write_congr (row : Row) {b' : Dict} {c : String} (h : (c ∈ b ↔ c ∈ b') ∧ b.get c = b'.get c) :
    row.write b c = row.write b' c := by
  by_cases hmem : c ∈ b
  · rw [Row.write_of_mem row hmem, Row.write_of_mem row (h.1.mp hmem), h.2]
  · rw [Row.write_of_not_mem row hmem, Row.write_of_not_mem row fun hmem' => hmem (h.1.mpr hmem')]

/-- A `PUT` leaves the records with their owners exactly where it names no other one. -/
theorem put_kept_iff : OwnersKept (req.access svc w) w.db (Controllers.put svc w req m id body).1.db ↔
    KeepsOwner svc w req (.put m id body) := by
  have hkeeps : KeepsOwner svc w req (.put m id body) ↔ (m ∈ ownedModels → "uid" ∈ body →
      GoesThrough svc w req m id body → ∀ row ∈ w.db.rows m, row "id" = .str id → body.get "uid" = row "uid") := by
    refine ⟨fun h hm => h m hm id body rfl, fun h m' hm' id' body' hcall => ?_⟩
    cases hcall
    exact h hm'
  rw [hkeeps]
  by_cases hcontact : m = .contact
  · subst hcontact
    rw [put_contact_kept_iff]
    exact ⟨fun h _ => h, fun h => h (by decide)⟩
  have hsame : OwnersFrom w.db (Controllers.put svc w req m id body).1.db →
      ¬ (m ∈ ownedModels ∧ GoesThrough svc w req m id body) →
      (OwnersKept (req.access svc w) w.db (Controllers.put svc w req m id body).1.db ↔
        (m ∈ ownedModels → "uid" ∈ body → GoesThrough svc w req m id body →
          ∀ row ∈ w.db.rows m, row "id" = .str id → body.get "uid" = row "uid")) :=
    fun hfrom hnot => iff_of_true hfrom.kept fun hm _ hgoes => absurd ⟨hm, hgoes⟩ hnot
  by_cases hrouted : m ∉ Controllers.routed
  · refine hsame ?_ fun h => hrouted (owned_routed h.1)
    unfold Controllers.put
    rw [if_pos hrouted]
    exact ownersFrom_of_rows fun _ _ => List.Subset.refl _
  by_cases hybrid : m = .grant ∧ Text.Contains id ":"
  · refine hsame (ownersFrom_of_rows fun t ht => ?_) fun h => ?_
    · unfold Controllers.put
      rw [if_neg hrouted, if_neg hcontact, if_pos hybrid]
      rcases create_rows svc w.db (req.access svc w) req.amb w.now .grant (Controllers.hybridBody req.amb id body)
        "x-" [] (owned_routed ht) with hrows | ⟨rfl, -⟩
      · rw [hrows]
        exact List.Subset.refl _
      · exact absurd ht (by decide)
    · rw [hybrid.1] at h
      exact absurd h.1 (by decide)
  have hput : (Controllers.put svc w req m id body).1.db = (BasicCrud.update svc w.db (req.access svc w) w.now m
      id (Controllers.updateBody req.amb m body) 'u' (Controllers.limits svc req.amb m)).1 := by
    unfold Controllers.put
    rw [if_neg hrouted, if_neg hcontact, if_neg hybrid]
  have hgoes : GoesThrough svc w req m id body ↔ ∃ db₁ b, BasicCrud.Rewritten svc w.db w.now m id
      (Controllers.updateBody req.amb m body) (Controllers.limits svc req.amb m) db₁ b ∧
        BasicCrud.RowAccepted svc db₁ (req.access svc w) m id b 'u' := by
    unfold GoesThrough
    rw [if_neg hcontact]
  rcases update_rows w.now with ⟨hnot, hrows⟩ | ⟨checked, db₁, b, hchecked, hrelated, haccepted, hrows⟩
  · refine hsame (ownersFrom_of_rows fun t ht => ?_) fun h => hnot (hgoes.mp h.2)
    rw [hput, hrows t (owned_routed ht)]
    exact List.Subset.refl _
  · by_cases hm : m ∈ ownedModels
    · have hrest : Dict.AgreeOff touchedKeys checked b :=
        (updateRelateds_agree hrelated).mono (restRelated_touched m)
      have hagree : Dict.AgreeOff touchedKeys body b :=
        (((controllerBody_agree req.amb m body).trans (updateBody_agree hchecked)).trans hrest).mono (by decide)
      rw [hput, written_kept_iff hm (fun t ht => hrows t (owned_routed ht)) ?_ (hagree "uid" (by decide))]
      · exact ⟨fun h _ hmem _ => h hmem, fun h hmem =>
          h hm hmem (hgoes.mpr ⟨db₁, b, ⟨checked, hchecked, hrelated⟩, haccepted⟩)⟩
      · intro row hid
        rw [← BasicCrud.write_id hchecked hid]
        exact write_congr row (hrest "id" (by decide))
    · refine hsame (ownersFrom_of_rows fun t ht => ?_) fun h => hm h.1
      have htm : t ≠ m := fun heq => hm (heq ▸ ht)
      rw [hput, hrows t (owned_routed ht), if_neg htm]
      exact List.Subset.refl _

/-! ### Runs -/

/-- One request keeps the owners exactly where it is no update that names another one. -/
theorem owners_kept_iff (hpol : svc.policies = examplePolicies) (hissued : (req.access svc w).Issued)
    (hadmin : ¬ (req.access svc w).HasRole "admin") (hcall : call.OnOwned) :
    OwnersKept (req.access svc w) w.db (handle svc w req call).1.db ↔ KeepsOwner svc w req call := by
  have hother : (∀ m id body, call ≠ .put m id body) → KeepsOwner svc w req call :=
    fun hput m _ id body heq => absurd heq (hput m id body)
  cases call with
  | post m body => exact iff_of_true (post_kept hpol hissued hadmin hcall) (hother fun _ _ _ h => by cases h)
  | put m id body => exact put_kept_iff
  | delete m ids force =>
      refine iff_of_true (OwnersFrom.kept ?_) (hother fun _ _ _ h => by cases h)
      simp only [handle, Controllers.delete]
      by_cases hm : m ∉ Controllers.routed
      · rw [if_pos hm]
        exact ownersFrom_of_rows fun _ _ => List.Subset.refl _
      · rw [if_neg hm]
        exact allOrNothing_ownersFrom (delete_allOrNothing m ids force)
  | trashUpdate id body =>
      exact iff_of_true (trashUpdate_ownersFrom svc w.db _ id body).kept (hother fun _ _ _ h => by cases h)
  | trashDelete ids =>
      exact iff_of_true (allOrNothing_ownersFrom (trashDelete_allOrNothing ids)).kept
        (hother fun _ _ _ h => by cases h)
  | _ => exact hcall.elim

theorem quotaWorld_issued : RolesIssued quotaWorld ∧ KeysVerified Seed.service quotaWorld := by
  refine ⟨fun k ses d hk => ?_, fun keyId item hitem => by cases hitem⟩
  obtain ⟨-, rfl, -⟩ | hold := Expiring.set_cases hk
  · decide +kernel
  · cases hold

/-- The contact of the other user is given to somebody. -/
def givenTo (owner : String) : Event :=
  ofSecond "q2" (.put .contact "x-c0002" (secondContact "second@example.com" [("uid", .str owner)]))

theorem givenTo_owned (owner : String) : (machine Seed.service).Along (fun w e => e.call.OnOwned ∧
    ¬ (e.req.access Seed.service (w.at e)).HasRole "admin") quotaWorld [givenTo owner] := by
  refine ⟨⟨trivial, ?_⟩, trivial⟩
  have hroles : ¬ ((givenTo "").req.access Seed.service (quotaWorld.at (givenTo ""))).HasRole "admin" := by
    decide +kernel
  exact hroles

/-- Another owner that is named gets the contact. -/
example : ∃ record ∈ ((machine Seed.service).next quotaWorld (givenTo "x-23450001")).db.rows .contact,
    record "id" = .str "x-c0002" ∧ record "uid" = .str "x-23450001" := by
  decide +kernel
end Apicrud
