import Apicrud.Creates
import Apicrud.ListAccess
import Apicrud.Lockout

/-! # The two login names of an account

`register` keeps an address in the form that `identity_normalize` gives it, but `local_func.login`
looks the given name up as it is.  So an account is found by the address that registered it exactly
if its owner's identity is that address to the letter (`leads_iff`), and not after
`First.Last@gmail.com` was registered (`dotted_address_refused`).

The owner is a new person, with the normalized address, or one that existed without an account; a
confirmed registration opens the account for the owner of the address's contact. -/

namespace Apicrud

open Relational

namespace LocalFunc

variable (svc : Service)

/-! ### Registering -/

/-- What a registration is made with. -/
structure SignUp where
  amb : Ambient
  email : String
  username : String
  name : Val
  template : Bool
  picture : Val

/-- The state and the answer after `register`. -/
def SignUp.registered (s : SignUp) (w : World) : World × Response :=
  SessionAuth.register svc w s.amb (.str s.email) (.str s.username) s.name s.template s.picture

/-- The state and the answer after `account_add`, which gets the uid that was answered. -/
def SignUp.added (s : SignUp) (w : World) : World × Response :=
  SessionAuth.accountAdd (s.registered svc w).1 s.amb (.str s.username)
    ((s.registered svc w).2.body.get "uid")

/-- The database and the id of the account, if both succeed. -/
def SignUp.run (s : SignUp) (w : World) : Option (Database × Val) :=
  if (s.registered svc w).2.status = 200 ∧ (s.added svc w).2.status = 201 then
    some ((s.added svc w).1.db, (s.added svc w).2.body.get "id")
  else none

/-- The identity of the person with an id. -/
def identityIn (db : Database) (uid : Val) : Option Val :=
  ((db.rows .person).find? fun person => decide (person "id" = uid)).map fun person =>
    person "identity"

/-- The identity of the owner of the account with an id. -/
def accountIdentity (db : Database) (id : Val) : Option Val :=
  ((db.rows .account).find? fun account => decide (account "id" = id)).bind fun account =>
    identityIn db (account "uid")

/-- The identity of the user that a registration opens the account for: of the owner of the
address's contact, when the address is to be confirmed and a person has it as identity already. -/
def openedFor (db : Database) (identity : Val) (template : Bool) : Option Val :=
  match lookup db .person [("identity", identity)], template with
  | .ok _, true =>
      match lookup db .contact [("info", identity), ("type", .str "email")] with
      | .ok contact =>
          (one (byId db .contact (contact "id").text)).toOption.bind fun contact =>
            identityIn db (contact "uid")
      | .error _ => none
  | _, _ => some identity

/-! ### Later logins -/

/-- A later state of an account: active, with a password, its owner's identity as it was. -/
structure Standing (registered : Database) (id : Val) (db : Database) (account : Row) : Prop where
  mem : account ∈ db.rows .account
  isId : account "id" = id
  active : account "status" = .str "active"
  password : account "password" ≠ .str ""
  identity : accountIdentity db id = accountIdentity registered id

/-- Either name leads a login to the account. -/
structure Lead (db : Database) (email username : String) (account : Row) : Prop where
  byEmail : find db email = .ok account
  byName : find db username = .ok account
  alike : ∀ password, login svc db email password = login svc db username password

variable {svc} {db db' : Database} {account person : Row} {uid : Val}

/-- A row is the first one with its id. -/
theorem find?_id {m : Model} {row : Row} (hrow : row ∈ db.rows m) (hkey : ["id"] ∈ schema.unique m)
    (hnull : "id" ∈ schema.notNull m) :
    ((db.rows m).find? fun r => decide (r "id" = row "id")) = some row := by
  rw [← List.head?_filter, db.filter_column hkey hnull (fun r _ h => of_decide_eq_true h) hrow
    (by simp), List.head?_cons]

theorem identityIn_of_mem (hperson : person ∈ db.rows .person) :
    identityIn db (person "id") = some (person "identity") := by
  rw [identityIn, find?_id hperson (by decide) (by decide), Option.map_some]

theorem identityIn_eq_some {identity : Val} (h : identityIn db uid = some identity) :
    ∃ person ∈ db.rows .person, person "id" = uid ∧ person "identity" = identity := by
  obtain ⟨person, hfind, hidentity⟩ := Option.map_eq_some_iff.mp h
  exact ⟨person, List.mem_of_find?_eq_some hfind, by simpa using List.find?_some hfind, hidentity⟩

/-- An identity belongs to one person. -/
theorem uid_of_identityIn {uid' identity : Val} (h : identityIn db uid = some identity)
    (h' : identityIn db uid' = some identity) : uid' = uid := by
  obtain ⟨person, hperson, rfl, rfl⟩ := identityIn_eq_some h
  obtain ⟨person', hperson', rfl, hsame⟩ := identityIn_eq_some h'
  have heq : person = person' :=
    db.eq_of_column (by decide : ["identity"] ∈ schema.unique .person) (by decide) hperson hperson'
      hsame.symm
  rw [heq]

theorem identityIn_congr (h : db'.rows .person = db.rows .person) (uid : Val) :
    identityIn db' uid = identityIn db uid := by
  rw [identityIn, h, identityIn]

theorem accountIdentity_of_mem (haccount : account ∈ db.rows .account) :
    accountIdentity db (account "id") = identityIn db (account "uid") := by
  rw [accountIdentity, find?_id haccount (by decide) (by decide), Option.bind_some]

/-! ### What a registration leaves -/

theorem addProfile_rows {m : Model} (hm : m ≠ .profile) (db : Database) (id : String) (uid : Val)
    (item : String) (value : Val) :
    (SessionAuth.addProfile db id uid item value).rows m = db.rows m := by
  unfold SessionAuth.addProfile
  split
  · rename_i hstore
    rw [Store.rows, store_ok hstore, Db.insert_ne _ _ hm, Store.rows]
  · rfl

/-- The profile items leave the other tables as they are. -/
theorem addProfiles_rows {m : Model} (hm : m ≠ .profile) (db : Database) (amb : Ambient)
    (uid picture : Val) : (SessionAuth.addProfiles db amb uid picture).rows m = db.rows m := by
  unfold SessionAuth.addProfiles
  simp only
  split_ifs
  · rw [addProfile_rows hm]
    split
    · split_ifs
      · exact addProfile_rows hm ..
      · rfl
    · rfl
  · split
    · split_ifs
      · exact addProfile_rows hm ..
      · rfl
    · rfl

/-- The user that `register` works for: one that has the identity but no account, or a new one. -/
theorem registrant_cases {amb : Ambient} {identity username name uid : Val} {cid : String}
    (h : SessionAuth.registrant svc db amb identity username name = .ok (db', uid, cid)) :
    (∃ existing contact, lookup db .person [("identity", svc.lib.identityNormalize identity)] =
        .ok existing ∧ lookup db .contact [("info", svc.lib.identityNormalize identity),
          ("type", .str "email")] = .ok contact ∧
        db' = db ∧ uid = existing "id" ∧ cid = (contact "id").text) ∨
      (lookup db .person [("identity", svc.lib.identityNormalize identity)] = .error .noResultFound ∧
        ∃ id, uid = .str id ∧
          db'.1 = SessionAuth.addPerson db id cid (svc.lib.identityNormalize identity) name) := by
  obtain ⟨_, _, h⟩ := Checks.bind_eq_ok.mp h
  simp only at h
  split at h
  · cases h
  · cases h
  · split at h
    · cases h
    · rename_i existing hexisting
      split at h
      · cases h
      · cases h
      · split at h
        · rename_i contact hcontact
          cases h
          exact Or.inl ⟨existing, contact, hexisting, hcontact, rfl, rfl, rfl⟩
        · cases h
    · rename_i hnew
      split at h
      · rename_i hstore
        cases h
        exact Or.inr ⟨hnew, _, rfl, store_ok hstore⟩
      · cases h

/-- A column without a default holds what the record was made with. -/
theorem record_plain {m : Model} {c : String} (h : (schema.defaults m).lookup c = none)
    (cells : List (String × Val)) : record m cells c = (Dict.ofList cells).get c := by
  by_cases hcell : (Dict.ofList cells).get c = .none
  · rw [record, BasicCrud.newRow, Schema.fill, Row.ofDict_apply, if_pos hcell, h, hcell,
      Option.getD_none]
  · exact newRow_of_ne hcell

/-- The new user has the given identity, and the contact is the user's. -/
theorem addPerson_identity {id cid : String} {identity name : Val}
    (h : db'.1 = SessionAuth.addPerson db id cid identity name) :
    identityIn db' (.str id) = some identity ∧
      ∀ contact, one (byId db' .contact cid) = .ok contact → contact "uid" = .str id := by
  have hperson : record .person [("id", .str id), ("name", name), ("identity", identity),
      ("status", .str "active")] ∈ db'.rows .person := by
    rw [Store.rows, h, SessionAuth.addPerson, Db.insert_ne _ _ (by decide)]
    exact Db.mem_insert.mpr (Or.inr rfl)
  have hcontact : record .contact [("id", .str cid), ("uid", .str id), ("type", .str "email"),
      ("info", identity)] ∈ db'.rows .contact := by
    rw [Store.rows, h, SessionAuth.addPerson]
    exact Db.mem_insert.mpr (Or.inr rfl)
  constructor
  · have hfound := identityIn_of_mem hperson
    rw [record_plain rfl, record_plain rfl] at hfound
    simpa using hfound
  · intro contact hone
    have hid := record_plain (m := .contact) (c := "id") rfl [("id", .str cid), ("uid", .str id),
      ("type", .str "email"), ("info", identity)]
    rw [one_byId hcontact (by decide) (hid.trans (by simp)), Except.ok.injEq] at hone
    rw [← hone, record_plain rfl]
    simp

/-- A successful registration answers the user, or the owner of the contact to be confirmed. -/
theorem register_ok {w w' : World} {amb : Ambient} {identity username name picture : Val}
    {template : Bool} {answer : Response}
    (h : SessionAuth.register svc w amb identity username name template picture = (w', answer))
    (hok : answer.status = 200) :
    ∃ db₁ uid cid, SessionAuth.registrant svc w.db amb identity username name = .ok (db₁, uid, cid) ∧
      w'.db.rows .person = db₁.rows .person ∧
      ((template = false ∧ answer.body.get "uid" = uid) ∨
        (template = true ∧ ∃ contact, one (byId db₁ .contact cid) = .ok contact ∧
          answer.body.get "uid" = contact "uid")) := by
  unfold SessionAuth.register at h
  rcases hreg : SessionAuth.registrant svc w.db amb identity username name with
    refused | ⟨db₁, uid, cid⟩
  · rw [hreg] at h
    cases h
    exact absurd (Or.inl hok) (registrant_error hreg).1
  · rw [hreg] at h
    simp only at h
    have hpersons : (SessionAuth.addProfiles db₁ amb uid picture).rows .person = db₁.rows .person :=
      addProfiles_rows (by decide) ..
    refine ⟨db₁, uid, cid, rfl, ?_⟩
    cases template with
    | true =>
        rw [if_pos rfl, Confirmation.request, Confirmation.issue, byId, addProfiles_rows (by decide)] at h
        cases hone : one (byId db₁ .contact cid) with
        | error e =>
            rw [← byId, hone] at h
            cases h
            cases hok
        | ok contact =>
            rw [← byId, hone] at h
            cases h
            exact ⟨hpersons, Or.inr ⟨rfl, contact, rfl, by simp⟩⟩
    | false =>
        simp only [Bool.false_eq_true, if_false, BasicCrud.setStatus] at h
        split at h
        · rename_i hstore
          cases h
          refine ⟨?_, Or.inl ⟨rfl, by simp⟩⟩
          rw [Store.rows, store_ok hstore, Db.modify_ne _ _ _ (by decide)]
          exact hpersons
        · cases h
          cases hok

/-- The uid that a successful registration answers belongs to the one it opens the account for. -/
theorem register_identity {w w' : World} {amb : Ambient} {identity username name picture : Val}
    {template : Bool} {answer : Response}
    (h : SessionAuth.register svc w amb identity username name template picture = (w', answer))
    (hok : answer.status = 200) : identityIn w'.db (answer.body.get "uid") =
      openedFor w.db (svc.lib.identityNormalize identity) template := by
  obtain ⟨db₁, uid, cid, hreg, hpersons, hanswer⟩ := register_ok h hok
  rw [identityIn_congr hpersons]
  unfold openedFor
  rcases registrant_cases hreg with ⟨existing, contact, hexisting, hcontact, rfl, rfl, rfl⟩ |
    ⟨hnew, id, rfl, hadded⟩
  · rw [hexisting]
    rcases hanswer with ⟨rfl, huid⟩ | ⟨rfl, found, hone, huid⟩
    · obtain ⟨hrow, hconds⟩ := of_one_filterBy hexisting
      rw [huid, identityIn_of_mem hrow, hconds _ List.mem_cons_self]
    · simp only [hcontact, hone, huid]
      rfl
  · rw [hnew]
    obtain ⟨hid, howner⟩ := addPerson_identity hadded
    rcases hanswer with ⟨rfl, huid⟩ | ⟨rfl, found, hone, huid⟩
    · rw [huid, hid]
    · rw [huid, howner found hone, hid]

/-- `account_add` adds an account of the user and leaves the people as they are. -/
theorem accountAdd_ok {w w' : World} {amb : Ambient} {username : Val} {added : Response}
    (h : SessionAuth.accountAdd w amb username uid = (w', added)) (hok : added.status = 201) :
    w'.db.rows .person = w.db.rows .person ∧ ∃ account ∈ w'.db.rows .account,
      account "id" = added.body.get "id" ∧ account "uid" = uid := by
  unfold SessionAuth.accountAdd at h
  split at h
  · cases h
    cases hok
  · rename_i settings _
    simp only at h
    split at h
    · rename_i hstore
      cases h
      have hdb := store_ok hstore
      refine ⟨?_, _, by rw [Store.rows, hdb]; exact Db.mem_insert.mpr (Or.inr rfl), ?_, ?_⟩
      · rw [Store.rows, hdb, Db.insert_ne _ _ (by decide), Store.rows]
      · rw [record_plain rfl]
        simp
      · rw [record_plain rfl]
        simp
    · cases h
      cases hok

/-- The account that a registration adds is the one of that user. -/
theorem run_identity {s : SignUp} {w : World} {registered : Database} {id : Val}
    (h : s.run svc w = some (registered, id)) : accountIdentity registered id =
      openedFor w.db (svc.lib.identityNormalize (.str s.email)) s.template := by
  unfold SignUp.run at h
  split_ifs at h with hok
  cases h
  obtain ⟨hpersons, account, haccount, hid, huid⟩ := accountAdd_ok (Prod.mk.eta (p := s.added svc w)).symm
    hok.2
  rw [← register_identity (Prod.mk.eta (p := s.registered svc w)).symm hok.1, ← hid,
    accountIdentity_of_mem haccount, huid, identityIn_congr hpersons]

/-! ### Either name -/

theorem contains_at {name : String} : Text.Contains name "@" ↔ '@' ∈ name.toList :=
  List.singleton_infix_iff _ _

/-- The account that an identity leads to. -/
theorem find_email_iff {email : String} (hat : '@' ∈ email.toList)
    (haccount : account ∈ db.rows .account) (hactive : account "status" = .str "active") :
    find db email = .ok account ↔ identityIn db (account "uid") = some (.str email) := by
  have hidentity : ∀ r owner, ownerOf db r = some owner →
      identityIn db (r "uid") = some (owner "identity") := by
    intro r owner howner
    have hmap : identityIn db (r "uid") = (ownerOf db r).map fun owner => owner "identity" := rfl
    rw [hmap, howner, Option.map_some]
  rw [find, if_pos (contains_at.mpr hat)]
  constructor
  · intro hfind
    obtain ⟨-, owner, howner, hp⟩ := mem_of_one_accountsOf hfind
    rw [hidentity account owner howner, (of_decide_eq_true hp).1]
  · intro h
    obtain ⟨owner, howner, hemail⟩ := Option.map_eq_some_iff.mp h
    rw [one_eq_ok]
    refine db.filter_column (by decide : ["uid"] ∈ schema.unique .account) (by decide)
      (fun r hr hpr => ?_) haccount ?_
    · split at hpr
      · rename_i owner' howner'
        refine uid_of_identityIn h ?_
        rw [hidentity r owner' howner', (of_decide_eq_true hpr).1]
      · cases hpr
    · rw [show ownerOf db account = some owner from howner]
      exact decide_eq_true ⟨hemail, hactive⟩

/-- The account that a username leads to. -/
theorem find_username_iff {username : String} (hplain : '@' ∉ username.toList)
    (haccount : account ∈ db.rows .account) (hactive : account "status" = .str "active") :
    find db username = .ok account ↔ account "name" = .str username := by
  rw [find, if_neg (fun h => hplain (contains_at.mp h))]
  constructor
  · intro hfind
    exact (mem_of_lookup hfind).2 ("name", .str username) List.mem_cons_self
  · intro hname
    rw [lookup, one_eq_ok, filterBy]
    refine db.filter_column (by decide : ["name"] ∈ schema.unique .account) (by decide)
      (fun r _ hpr => ?_) haccount ?_
    · simp only [List.all_cons, Bool.and_eq_true, decide_eq_true_eq] at hpr
      rw [hpr.1, hname]
    · simp [hname, hactive]

/-- An address that was registered and the username lead to the account exactly if the identity of
its owner is that address to the letter and the account has the username still. -/
theorem leads_iff (svc : Service) (s : SignUp) (w : World) {registered : Database} {id : Val}
    (hat : '@' ∈ s.email.toList) (hplain : '@' ∉ s.username.toList)
    (hrun : s.run svc w = some (registered, id)) (hlater : Standing registered id db account) :
    Lead svc db s.email s.username account ↔
      openedFor w.db (svc.lib.identityNormalize (.str s.email)) s.template = some (.str s.email) ∧
        account "name" = .str s.username := by
  obtain ⟨hmem, rfl, hactive, -, hidentity⟩ := hlater
  rw [accountIdentity_of_mem hmem, run_identity hrun] at hidentity
  rw [← hidentity, ← find_email_iff hat hmem hactive, ← find_username_iff hplain hmem hactive]
  constructor
  · intro h
    exact ⟨h.byEmail, h.byName⟩
  · rintro ⟨hemail, hname⟩
    refine ⟨hemail, hname, fun password => ?_⟩
    rw [login, login, hemail, hname]

/-! ### An address with a dot -/

/-- A registration with an address, on the seeded installation. -/
def fred (email : String) : SignUp where
  amb := Seed.ambient "9"
  email := email
  username := "fsmith"
  name := .str "Fred Smith"
  template := true
  picture := .none

/-- The state after it. -/
def fredAdded (email : String) : World := ((fred email).added Seed.service (Seed.world Seed.shared)).1

/-- The password is set with the token that was sent to the address. -/
def fredEquipped (email : String) : World :=
  (LocalUser.changePassword Seed.service (fredAdded email) (Seed.ambient "10") "u-9"
    (.str "Fred5mith!")
    (((fred email).registered Seed.service (Seed.world Seed.shared)).2.body.get "token") .none
    (.str "Fred5mith!")).1

theorem fred_run {email : String}
    (h : ((fred email).registered Seed.service (Seed.world Seed.shared)).2.status = 200 ∧
      ((fred email).added Seed.service (Seed.world Seed.shared)).2.status = 201 ∧
      ((fred email).added Seed.service (Seed.world Seed.shared)).2.body.get "id" = .str "x-9") :
    (fred email).run Seed.service (Seed.world Seed.shared) =
      some ((fredAdded email).db, .str "x-9") := by
  rw [SignUp.run, if_pos ⟨h.1, h.2.1⟩, h.2.2]
  rfl

theorem fred_standing {email : String}
    (hcells : (((fredEquipped email).db.rows .account).find? fun r => decide (r "id" = .str "x-9")).map
      (fun r => (r "id", r "status", r "name", decide (r "password" = .str ""))) =
        some (.str "x-9", .str "active", .str "fsmith", false))
    (hidentity : accountIdentity (fredEquipped email).db (.str "x-9") =
      accountIdentity (fredAdded email).db (.str "x-9")) :
    ∃ account, Standing (fredAdded email).db (.str "x-9") (fredEquipped email).db account ∧
      account "name" = .str "fsmith" := by
  obtain ⟨account, hfound, hrow⟩ := Option.map_eq_some_iff.mp hcells
  simp only [Prod.mk.injEq] at hrow
  obtain ⟨hid, hstatus, hname, hpassword⟩ := hrow
  exact ⟨account, ⟨List.mem_of_find?_eq_some hfound, hid, hstatus, of_decide_eq_false hpassword,
    hidentity⟩, hname⟩

/-- A plain address leads to the account that it registered. -/
theorem plain_address_leads : ∃ account,
    Standing (fredAdded "fred@example.com").db (.str "x-9") (fredEquipped "fred@example.com").db
      account ∧
      Lead Seed.service (fredEquipped "fred@example.com").db "fred@example.com" "fsmith" account := by
  obtain ⟨account, hstanding, hname⟩ :=
    @fred_standing "fred@example.com" (by decide +kernel) (by decide +kernel)
  have hiff := leads_iff Seed.service (fred "fred@example.com") (Seed.world Seed.shared) (by decide)
    (by decide) (fred_run (by decide +kernel)) hstanding
  exact ⟨account, hstanding, hiff.mpr ⟨by decide +kernel, hname⟩⟩

/-- The account that `fred.smith@gmail.com` registered is not found by that address. -/
theorem dotted_address_refused : ∃ registered id db account,
    (fred "fred.smith@gmail.com").run Seed.service (Seed.world Seed.shared) = some (registered, id) ∧
      Standing registered id db account ∧ account "name" = .str "fsmith" ∧
      ¬ Lead Seed.service db "fred.smith@gmail.com" "fsmith" account := by
  obtain ⟨account, hstanding, hname⟩ :=
    @fred_standing "fred.smith@gmail.com" (by decide +kernel) (by decide +kernel)
  refine ⟨_, _, _, account, fred_run (by decide +kernel), hstanding, hname, fun h => ?_⟩
  have hnone : (find (fredEquipped "fred.smith@gmail.com").db "fred.smith@gmail.com").toOption.isNone =
      true := by decide +kernel
  rw [h.byEmail] at hnone
  cases hnone

end LocalFunc

end Apicrud
