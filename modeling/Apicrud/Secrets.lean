import Apicrud.DisabledAccounts
import Apicrud.LoginNames
import Apicrud.Owners

/-! # Who changes the secrets of an account

The hash of the password, the TOTP secret and the backup codes of an account are the columns that
`__rest_exclude__` hides.  `Resets` lists the requests that change them: a change of the password with the
old one or with a token that is confirmed, an enrolment, a backup code that is used up, and a `PUT` that names
such a column.  Along a run without such a request for the account, the secrets stay what they were
(`secrets_along`). -/

namespace Apicrud

open Relational

/-- The secrets of an account. -/
def secretCells : List String := Model.restExclude .account

/-- An account that was never given a secret: there is no password to log in with. -/
structure Unset (row : Row) : Prop where
  password : row "password" = .str ""
  totp : row "totp_secret" = .none
  codes : row "backup_codes" = .none

/-- The account with the id has the secrets that it had, or is a new one that never had any. -/
structure SecretsFrom (a : Val) (db db' : Database) : Prop where
  origin : ∀ after ∈ db'.rows .account, after "id" = a →
    (∃ row ∈ db.rows .account, row "id" = a ∧ ∀ c ∈ secretCells, after c = row c) ∨ Unset after

variable {svc : Service} {w w' : World} {req : Request} {db db' db₁ : Database} {a : Val} {m : Model}

/-- A request that may change the secrets of the account with the id. -/
inductive Resets (svc : Service) (w : World) (req : Request) (a : Val) : Call → Prop
  | changed {uid : String} {body : Dict} {account : Row}
      (hnew : LocalUser.checkNew w.db uid (body.get "new_password") (body.get "verify_password") =
        .ok account) (hid : account "id" = a)
      (hproof : ((body.get "old_password").truthy ∧
          svc.lib.cryptVerify (body.get "old_password").text (account "password").text = true) ∨
        ∃ token parts, body.get "reset_token" = .str token ∧
          Confirmation.check svc w token = .ok parts) :
      Resets svc w req a (.changePassword uid body)
  | enrolled {body : Dict} {nonce : String} {account : Row}
      (haccount : AuthTotp.account w (req.access svc w) = .ok account) (hid : account "id" = a)
      (hnonce : body.get "nonce" = .str nonce) (hfirst : hasTotp account = false)
      (hsecret : (SessionManager.get w.redis w.now (req.access svc w).uid nonce "totp").truthy)
      (hotp : body.get "otp_first" = .str (svc.lib.totpNow
        (SessionManager.get w.redis w.now (req.access svc w).uid nonce "totp").text w.now)) :
      Resets svc w req a (.totpRegister body)
  | spent {username : String} {password method otp : Val} {account : Row} {db : Database}
      (haccount : TotpFunc.account w (req.access svc w) username = .ok account) (hid : account "id" = a)
      (hcode : otp.text.toList.length = 8) (hverify : TotpFunc.verify svc w account otp.text = .ok db) :
      Resets svc w req a (.login username password method otp)
  | written {id : String} {body : Dict} (hid : a = .str id)
      (hallowed : AccessControl.withPermission svc.policies w.db (req.access svc w) .account 'u'
        { query := some (byId w.db .account id) } = .ok true)
      (hcell : ∃ c ∈ "totp" :: secretCells, c ∈ body) : Resets svc w req a (.put .account id body)

/-! ### Rewrites of the accounts -/

namespace SecretsFrom

theorem of_rows (h : ∀ row ∈ db'.rows .account, row ∈ db.rows .account) : SecretsFrom a db db' :=
  ⟨fun after hafter hid => Or.inl ⟨after, h after hafter, hid, fun _ _ => rfl⟩⟩

theorem of_eq (h : db'.rows .account = db.rows .account) : SecretsFrom a db db' :=
  of_rows fun _ hrow => h ▸ hrow

theorem refl (db : Database) : SecretsFrom a db db := of_eq rfl

theorem of_db (h : db' = db) : SecretsFrom a db db' := by
  rw [h]
  exact refl db

theorem trans (h : SecretsFrom a db db₁) (h' : SecretsFrom a db₁ db') : SecretsFrom a db db' := by
  refine ⟨fun after hafter hid => ?_⟩
  rcases h'.origin after hafter hid with ⟨mid, hmid, hmidId, hsame'⟩ | hunset
  · rcases h.origin mid hmid hmidId with ⟨row, hrow, hrowId, hsame⟩ | ⟨hpassword, htotp, hcodes⟩
    · exact Or.inl ⟨row, hrow, hrowId, fun c hc => (hsame' c hc).trans (hsame c hc)⟩
    · exact Or.inr ⟨(hsame' _ (by decide)).trans hpassword, (hsame' _ (by decide)).trans htotp,
        (hsame' _ (by decide)).trans hcodes⟩
  · exact Or.inr hunset

/-- A rewrite that keeps the ids, and the secrets of the account. -/
theorem of_modify {p : Row → Bool} {f : Row → Row} (hdb : db'.1 = db.1.modify m p f)
    (hf : m = .account → ∀ row ∈ db.rows .account, p row = true → f row "id" = row "id" ∧
      (row "id" = a → ∀ c ∈ secretCells, f row c = row c)) : SecretsFrom a db db' := by
  by_cases hm : m = .account
  · subst hm
    refine ⟨fun after hafter hid => ?_⟩
    rw [Store.rows, hdb, Db.mem_modify] at hafter
    obtain ⟨row, hrow, rfl⟩ := hafter
    by_cases hp : p row = true
    · rw [if_pos hp] at hid ⊢
      obtain ⟨hsame, hsecrets⟩ := hf rfl row hrow hp
      rw [hsame] at hid
      exact Or.inl ⟨row, hrow, hid, hsecrets hid⟩
    · rw [if_neg hp] at hid ⊢
      exact Or.inl ⟨row, hrow, hid, fun _ _ => rfl⟩
  · refine of_eq ?_
    rw [Store.rows, hdb, Db.modify_ne _ _ _ (Ne.symm hm), Store.rows]

/-- A rewrite of one account leaves the others. -/
theorem of_other {account : Row} {f : Row → Row}
    (hdb : db'.1 = db.1.modify .account (fun row => decide (row "id" = account "id")) f)
    (hf : ∀ row, f row "id" = row "id") (hid : account "id" ≠ a) : SecretsFrom a db db' :=
  of_modify hdb fun _ row _ hp =>
    ⟨hf row, fun ha => absurd ((of_decide_eq_true hp).symm.trans ha) hid⟩

theorem of_insert {row : Row} (hdb : db'.1 = db.1.insert m row) (hrow : m = .account → Unset row) :
    SecretsFrom a db db' := by
  by_cases hm : m = .account
  · subst hm
    refine ⟨fun after hafter hid => ?_⟩
    rw [Store.rows, hdb, Db.mem_insert] at hafter
    rcases hafter with hold | rfl
    · exact Or.inl ⟨after, hold, hid, fun _ _ => rfl⟩
    · exact Or.inr (hrow rfl)
  · refine of_eq ?_
    rw [Store.rows, hdb, Db.insert_ne _ _ (Ne.symm hm), Store.rows]

theorem of_setStatus {id : String} {status : Val} (h : BasicCrud.setStatus db m id status = .ok db') :
    SecretsFrom a db db' :=
  of_modify (store_ok h) fun _ _ _ _ => ⟨Function.update_of_ne (by decide) _ _, fun _ c hc =>
    Function.update_of_ne (by rintro rfl; revert hc; decide) _ _⟩

end SecretsFrom

/-! ### Records -/

theorem turnWrite_secretsFrom {force : Bool} {id : String} (h : turnWrite force db m id = .ok db') :
    SecretsFrom a db db' := by
  cases force with
  | true => exact SecretsFrom.of_rows fun _ hrow => (turnWrite_sublist h).subset hrow
  | false => exact SecretsFrom.of_setStatus h

theorem AllOrNothing.secretsFrom {acc : Access} {force : Bool} {named : List (Option (Model × String))}
    {r : Database × Response} (h : AllOrNothing svc acc force db named r) : SecretsFrom a db r.1 := by
  rcases h.same_or_turns with hsame | ⟨names, -, hturns⟩
  · exact SecretsFrom.of_db hsame
  · clear h
    generalize r.1 = db₂ at hturns ⊢
    induction hturns with
    | done db => exact SecretsFrom.refl db
    | turn _ hwrite _ ih => exact (turnWrite_secretsFrom hwrite).trans ih

theorem trashUpdate_secretsFrom {acc : Access} {id : String} {body : Dict} :
    SecretsFrom a db (Trashcan.update svc db acc id body).1 := by
  rcases trashUpdate_cases svc db acc id body with hsame | ⟨_, _, _, -, -, -, hok⟩
  · exact SecretsFrom.of_db hsame
  · exact SecretsFrom.of_setStatus hok

/-- No secret is named in the body that is written when none is in the request. -/
theorem updateBody_secrets {now : ℕ} {id : String} {body b : Dict}
    (hb : BasicCrud.updateBody svc now id body = .ok b) (hnone : ∀ c ∈ "totp" :: secretCells, c ∉ body) :
    ∀ c ∈ secretCells, c ∉ b := by
  obtain ⟨_, _, hb⟩ := Checks.bind_eq_ok.mp hb
  obtain ⟨converted, hconverted, hb⟩ := Checks.bind_eq_ok.mp hb
  rw [Checks.pure_eq_ok] at hb
  have hagree := (Dict.agreeOff_set body "modified" (.time now)).trans (convertExpires_agree hconverted)
  have hmem : ∀ c ∈ "totp" :: secretCells, c ∉ converted := by
    intro c hc
    rw [(hagree c (by revert c; decide)).1]
    exact hnone c hc
  rw [if_neg (hmem "totp" List.mem_cons_self)] at hb
  subst hb
  exact fun c hc => hmem c (List.mem_cons_of_mem _ hc)

theorem putAccount_secretsFrom {id : String} {body : Dict} (h : ¬ Resets svc w req a (.put .account id body)) :
    SecretsFrom a w.db (handle svc w req (.put .account id body)).1.db := by
  rw [handle_put_account]
  rcases @BasicCrud.update_cases svc w.db (req.access svc w) w.now .account id body 'u' [] rfl with
    hsame | ⟨b, hb, hwrite⟩
  · exact SecretsFrom.of_db hsame
  · obtain ⟨hallowed, -, -, hdb⟩ := writeRow_ok hwrite
    refine SecretsFrom.of_modify hdb fun _ row _ hid => ⟨BasicCrud.write_id hb hid, fun ha c hc => ?_⟩
    refine Row.write_of_not_mem row (updateBody_secrets hb ?_ c hc)
    by_contra hnamed
    push Not at hnamed
    exact h (.written (ha.symm.trans (of_decide_eq_true hid)) hallowed hnamed)

/-- A person is added with a contact of its own. -/
theorem postPerson_secretsFrom (svc : Service) (w : World) (req : Request) (body : Dict) :
    SecretsFrom a w.db (Controllers.post svc w req .person body).1.db := by
  have hcreated : (Controllers.created svc w req .person body).1.rows .account = w.db.rows .account := by
    rcases create_rows svc w.db (req.access svc w) req.amb w.now .person
      (Controllers.createBody req.amb (req.access svc w) .person body) (Controllers.idPrefix .person)
      (Controllers.limits svc req.amb .person) (by decide : Model.account ∈ Controllers.routed) with
      hsame | ⟨hm, -⟩
    · exact hsame
    · cases hm
  refine SecretsFrom.of_eq ?_
  rw [post_eq (by decide) (by decide) (by simp)]
  split_ifs
  · rcases afterCreate_rows svc { w with db := (Controllers.created svc w req .person body).1 } req.amb
      .person body (Controllers.created svc w req .person body).2
      (by decide : Model.account ∈ Controllers.routed) with hsame | ⟨hm, -⟩
    · exact hsame.trans hcreated
    · cases hm
  · exact hcreated

theorem put_secretsFrom {id : String} {body : Dict} (hm : m ≠ .account) :
    SecretsFrom a w.db (Controllers.put svc w req m id body).1.db := by
  unfold Controllers.put
  simp only
  split
  · exact SecretsFrom.refl w.db
  · split
    · split
      · rename_i hok
        rw [confirmed_db]
        obtain ⟨_, _, _, hupdated⟩ := BasicCrud.updateContact_ok hok
        exact SecretsFrom.of_eq (hupdated.rows_eq (by decide) (by decide))
      · exact SecretsFrom.refl w.db
    · split
      · rcases create_rows svc w.db (req.access svc w) req.amb w.now .grant
          (Controllers.hybridBody req.amb id body) "x-" []
          (by decide : Model.account ∈ Controllers.routed) with hsame | ⟨hgrant, -⟩
        · exact SecretsFrom.of_eq hsame
        · cases hgrant
      · rcases @update_rows svc w.db (req.access svc w) m id (Controllers.updateBody req.amb m body) 'u'
          (Controllers.limits svc req.amb m) w.now with ⟨-, hsame⟩ | ⟨_, _, _, -, -, -, hrows⟩
        · exact SecretsFrom.of_eq (hsame .account (by decide))
        · refine SecretsFrom.of_eq ((hrows .account (by decide)).trans ?_)
          rw [if_neg (Ne.symm hm)]

/-! ### Registrations -/

theorem register_secretsFrom (svc : Service) (w : World) (amb : Ambient) (identity username name : Val)
    (template : Bool) (picture : Val) :
    SecretsFrom a w.db (SessionAuth.register svc w amb identity username name template picture).1.db := by
  unfold SessionAuth.register
  cases hreg : SessionAuth.registrant svc w.db amb identity username name with
  | error answer => exact SecretsFrom.refl w.db
  | ok registered =>
      obtain ⟨db, uid, cid⟩ := registered
      have hdb : SecretsFrom a w.db (SessionAuth.addProfiles db amb uid picture) := by
        refine SecretsFrom.of_eq ((LocalFunc.addProfiles_rows (by decide) db amb uid picture).trans ?_)
        rcases LocalFunc.registrant_cases hreg with ⟨_, _, -, -, rfl, -⟩ | ⟨-, _, -, hadded⟩
        · rfl
        · rw [Store.rows, hadded, SessionAuth.addPerson, Db.insert_ne _ _ (by decide),
            Db.insert_ne _ _ (by decide), Store.rows]
      simp only
      split
      · have hrequest := request_db svc { w with db := SessionAuth.addProfiles db amb uid picture } amb cid
        split
        all_goals
          rename_i hr
          rw [hr] at hrequest
          exact hrequest.symm ▸ hdb
      · split
        · rename_i hstatus
          exact hdb.trans (SecretsFrom.of_setStatus hstatus)
        · exact hdb

theorem accountAdd_secretsFrom (w : World) (amb : Ambient) (username uid : Val) :
    SecretsFrom a w.db (SessionAuth.accountAdd w amb username uid).1.db := by
  unfold SessionAuth.accountAdd
  split
  · exact SecretsFrom.refl w.db
  · simp only
    split
    · rename_i hstore
      refine SecretsFrom.of_insert (store_ok hstore) fun _ => ⟨?_, ?_, ?_⟩
      · exact record_cell (by simp) (by simp)
      · rw [LocalFunc.record_plain rfl]
        simp
      · rw [LocalFunc.record_plain rfl]
        simp
    · exact SecretsFrom.refl w.db

theorem registerExternal_secretsFrom (svc : Service) (w : World) (amb : Ambient)
    (identity username name picture : Val) :
    SecretsFrom a w.db (SessionAuth.registerExternal svc w amb identity username name picture).1.db := by
  have hreg := @register_secretsFrom a svc w amb identity username name false picture
  unfold SessionAuth.registerExternal
  revert hreg
  rcases SessionAuth.register svc w amb identity username name false picture with ⟨w₁, answer⟩
  intro hreg
  have hadd := hreg.trans (accountAdd_secretsFrom w₁ amb username (answer.body.get "uid"))
  revert hadd
  simp only
  split
  · exact fun _ => hreg
  · rcases SessionAuth.accountAdd w₁ amb username (answer.body.get "uid") with ⟨w₂, answer'⟩
    intro hadd
    simp only at hadd ⊢
    split
    · exact hadd
    · split <;> exact hadd

theorem ldapLogin_secretsFrom (svc : Service) (w : World) (amb : Ambient) :
    SecretsFrom a w.db (LdapFunc.login svc w amb).1.db := by
  unfold LdapFunc.login
  split
  · exact SecretsFrom.refl w.db
  · simp only
    split
    · split
      · exact SecretsFrom.refl w.db
      · exact SecretsFrom.refl w.db
      · exact registerExternal_secretsFrom ..
    · exact SecretsFrom.refl w.db

theorem tryMethods_secretsFrom (svc : Service) (amb : Ambient) (username : String) (password : Val)
    (items : List String) (w : World) (answer : Response) :
    SecretsFrom a w.db (SessionAuth.tryMethods svc amb username password w answer items).1.db := by
  induction items generalizing w answer with
  | nil => exact SecretsFrom.refl w.db
  | cons item items ih =>
      rw [SessionAuth.tryMethods]
      split
      · split
        · exact SecretsFrom.refl w.db
        · exact ih w _
      · split
        · have hldap := @ldapLogin_secretsFrom a svc w amb
          split
          · rename_i hr
            rw [hr] at hldap
            exact hldap
          · rename_i hr
            rw [hr] at hldap
            exact hldap.trans (ih _ _)
        · exact ih w _

/-! ### Logins -/

theorem loginAccepted_secretsFrom (svc : Service) (w : World) (req : Request) (account : Row) (method : Val) :
    SecretsFrom a w.db (SessionAuth.loginAccepted svc w req account method).1.db := by
  have hstamp : SecretsFrom a w.db
      (SessionAuth.stampLogin w (SessionAuth.acceptedAs svc w req account method) account).db := by
    unfold SessionAuth.stampLogin
    split
    · split
      · rename_i hstore
        exact SecretsFrom.of_modify (store_ok hstore) fun _ _ _ _ =>
          ⟨Function.update_of_ne (by decide) _ _, fun _ c hc =>
            Function.update_of_ne (by rintro rfl; revert hc; decide) _ _⟩
      · exact SecretsFrom.refl w.db
    · exact SecretsFrom.refl w.db
  unfold SessionAuth.loginAccepted
  simp only
  split
  · exact SecretsFrom.refl w.db
  · split <;> exact hstamp

/-- A verified password of the second factor leaves the secrets, but for a backup code that is used up. -/
theorem verify_secretsFrom {account : Row} {otp : String}
    (hverify : TotpFunc.verify svc w account otp = .ok db)
    (hcode : account "id" = a → otp.toList.length ≠ 8) : SecretsFrom a w.db db := by
  by_cases hid : account "id" = a
  · have hsame : db = w.db := by
      unfold TotpFunc.verify at hverify
      rw [if_neg (hcode hid)] at hverify
      split_ifs at hverify
      cases hverify
      rfl
    exact SecretsFrom.of_db hsame
  · rcases verify_rows hverify with hsame | ⟨v, hdb⟩
    · exact SecretsFrom.of_db hsame
    · exact SecretsFrom.of_other hdb (fun _ => Function.update_of_ne (by decide) _ _) hid

theorem totpLogin_secretsFrom {username : String} {otp : Val}
    (h : ∀ account db, TotpFunc.account w (req.access svc w) username = .ok account → account "id" = a →
      otp.text.toList.length = 8 → TotpFunc.verify svc w account otp.text ≠ .ok db) :
    SecretsFrom a w.db (TotpFunc.login svc w req username otp.text).1.db := by
  unfold TotpFunc.login
  simp only
  split
  · exact SecretsFrom.refl w.db
  · exact SecretsFrom.refl w.db
  · rename_i account haccount
    split
    · exact SecretsFrom.refl w.db
    · rename_i db hverify
      have hkept : SecretsFrom a w.db db :=
        verify_secretsFrom hverify fun hid hcode =>
          h account db haccount hid hcode hverify
      split
      · exact hkept
      · split
        · exact hkept
        · split <;> exact hkept

theorem accountLogin_secretsFrom {username : String} {password method otp : Val}
    (h : ¬ Resets svc w req a (.login username password method otp)) :
    SecretsFrom a w.db (SessionAuth.accountLogin svc w req username password method otp).1.db := by
  unfold SessionAuth.accountLogin
  simp only
  split
  · exact SecretsFrom.refl w.db
  · split
    · split
      · have hlogin : SecretsFrom a w.db (TotpFunc.login svc w req username otp.text).1.db :=
          totpLogin_secretsFrom fun account db haccount hid hcode hverify =>
            h (.spent haccount hid hcode hverify)
        split
        · rename_i hr
          rw [hr] at hlogin
          exact hlogin.trans (loginAccepted_secretsFrom ..)
        · rename_i hr
          rw [hr] at hlogin
          exact hlogin
      · exact SecretsFrom.refl w.db
    · split
      · exact SecretsFrom.refl w.db
      · split
        · have htry := @tryMethods_secretsFrom a svc req.amb username password
            (SessionAuth.methodItems svc method) w (.message "access denied" 403)
          split
          · rename_i hr
            rw [hr] at htry
            exact htry.trans (loginAccepted_secretsFrom ..)
          · rename_i hr
            rw [hr] at htry
            exact htry
        · exact SecretsFrom.refl w.db

theorem callback_secretsFrom (svc : Service) (w : World) (req : Request) (method : String) :
    SecretsFrom a w.db (OAuth2.callback svc w req method).1.db := by
  unfold OAuth2.callback
  split
  · exact SecretsFrom.refl w.db
  · rename_i user _
    simp only
    split
    · split
      · unfold OAuth2.handleUnknownUser
        extract_lets identity username
        split
        · exact SecretsFrom.refl w.db
        · split
          · have hreg := @registerExternal_secretsFrom a svc w req.amb identity username user.name user.picture
            split
            · rename_i hr
              rw [hr] at hreg
              exact hreg.trans (loginAccepted_secretsFrom ..)
            · rename_i hr
              rw [hr] at hreg
              exact hreg
          · split
            · have hreg := @register_secretsFrom a svc w req.amb identity username user.name true user.picture
              revert hreg
              rcases SessionAuth.register svc w req.amb identity username user.name true user.picture
                with ⟨w₁, answer⟩
              intro hreg
              simp only at hreg ⊢
              split
              · exact hreg
              · exact hreg.trans (accountAdd_secretsFrom ..)
            · exact SecretsFrom.refl w.db
      · exact SecretsFrom.refl w.db
      · split
        · exact SecretsFrom.refl w.db
        · split
          · exact SecretsFrom.refl w.db
          · split
            · exact SecretsFrom.refl w.db
            · exact loginAccepted_secretsFrom ..
    · exact SecretsFrom.refl w.db

/-! ### Passwords, enrolments and confirmations -/

theorem confirm_secretsFrom (svc : Service) (w : World) (amb : Ambient) (token : String) (clear : Bool) :
    SecretsFrom a w.db (Confirmation.confirm svc w amb token clear).1.db := by
  unfold Confirmation.confirm
  cases Confirmation.check svc w token with
  | error answer => exact SecretsFrom.refl w.db
  | ok parts =>
      obtain ⟨id, info, nonce, contact⟩ := parts
      simp only
      cases hstore : schema.store (Confirmation.activate w.db id (contact "uid")) with
      | error e => exact SecretsFrom.refl w.db
      | ok db =>
          have hactive : SecretsFrom a w.db db := by
            refine SecretsFrom.of_eq ?_
            rw [Store.rows, store_ok hstore, Confirmation.activate, Db.modify_ne _ _ _ (by decide),
              Db.modify_ne _ _ _ (by decide), Store.rows]
          simp only
          split <;> exact hactive

/-- A new password is stored for one account. -/
theorem storePassword_secretsFrom {amb : Ambient} {uid : String} {account : Row} {new : Val}
    (hid : account "id" ≠ a) :
    SecretsFrom a w.db (LocalUser.storePassword svc w amb uid account new).1.db := by
  unfold LocalUser.storePassword
  split
  · rename_i hstore
    exact SecretsFrom.of_other (store_ok hstore) (fun row => Row.write_of_not_mem row (by simp)) hid
  · exact SecretsFrom.refl w.db

theorem changePassword_secretsFrom {uid : String} {body : Dict}
    (h : ¬ Resets svc w req a (.changePassword uid body)) :
    SecretsFrom a w.db (LocalUser.changePassword svc w req.amb uid (body.get "new_password")
      (body.get "reset_token") (body.get "old_password") (body.get "verify_password")).1.db := by
  unfold LocalUser.changePassword
  split
  · exact SecretsFrom.refl w.db
  · rename_i account hnew
    split
    · rename_i hold
      split
      · exact SecretsFrom.refl w.db
      · split
        · rename_i hverify
          exact storePassword_secretsFrom fun hid => h (.changed hnew hid (Or.inl ⟨hold, hverify⟩))
        · exact SecretsFrom.refl w.db
    · split
      · rename_i token htoken
        have hconfirm := @confirm_secretsFrom a svc w req.amb token true
        simp only
        split
        · rename_i hok
          refine hconfirm.trans (storePassword_secretsFrom fun hid => ?_)
          cases hcheck : Confirmation.check svc w token with
          | error answer =>
              have hanswer : (Confirmation.confirm svc w req.amb token true).2 = answer := by
                unfold Confirmation.confirm
                simp only [hcheck]
              rw [hanswer] at hok
              exact check_error hcheck hok
          | ok parts => exact h (.changed hnew hid (Or.inr ⟨token, parts, htoken, hcheck⟩))
        · split <;> exact hconfirm
      · exact SecretsFrom.refl w.db

theorem totpGenerate_secretsFrom (svc : Service) (w : World) (req : Request) :
    SecretsFrom a w.db (AuthTotp.generate svc w req).1.db := by
  unfold AuthTotp.generate
  simp only
  split
  · exact SecretsFrom.refl w.db
  · split
    · exact SecretsFrom.refl w.db
    · split <;> exact SecretsFrom.refl w.db

theorem totpRegister_secretsFrom {body : Dict} (h : ¬ Resets svc w req a (.totpRegister body)) :
    SecretsFrom a w.db (AuthTotp.register svc w req body).1.db := by
  unfold AuthTotp.register
  simp only
  split
  · rename_i nonce hnonce
    split
    · exact SecretsFrom.refl w.db
    · rename_i hsecret
      split
      · exact SecretsFrom.refl w.db
      · rename_i account haccount
        split
        · exact SecretsFrom.refl w.db
        · rename_i hfirst
          split
          · exact SecretsFrom.refl w.db
          · rename_i hotp
            have hid : account "id" ≠ a := fun hid => h (.enrolled haccount hid hnonce
              (Bool.not_eq_true _ ▸ hfirst) (not_not.mp hsecret) (not_not.mp hotp))
            split
            · rename_i hstore
              exact SecretsFrom.of_other (store_ok hstore)
                (fun row => Row.write_of_not_mem row (by simp)) hid
            · exact SecretsFrom.refl w.db
  · exact SecretsFrom.refl w.db

theorem post_secretsFrom (svc : Service) (w : World) (req : Request) (m : Model) (body : Dict) :
    SecretsFrom a w.db (Controllers.post svc w req m body).1.db := by
  by_cases haccount : m = .account
  · unfold Controllers.post
    rw [if_pos haccount]
    unfold Controllers.register
    split
    · rw [forgotPassword_db]
      exact SecretsFrom.refl w.db
    · have hreg := @register_secretsFrom a svc w req.amb (body.get "identity") (body.get "username")
        (body.get "name") true .none
      revert hreg
      rcases SessionAuth.register svc w req.amb (body.get "identity") (body.get "username")
        (body.get "name") true .none with ⟨w₁, answer⟩
      intro hreg
      simp only at hreg ⊢
      split
      · exact hreg
      · exact hreg.trans (accountAdd_secretsFrom ..)
  · by_cases hperson : m = .person
    · subst hperson
      exact postPerson_secretsFrom ..
    · rcases post_rows svc w req body ⟨haccount, hperson⟩
        (by decide : Model.account ∈ Controllers.routed) with hsame | ⟨hm, -⟩
      · exact SecretsFrom.of_eq hsame
      · exact absurd hm.symm haccount

/-! ### API keys -/

/-- Verifying a key stamps its own row only. -/
theorem verifyKey_secretsFrom (svc : Service) (db : Database) (now : ℕ) (keyId secret : String) :
    SecretsFrom a db (ApiKey.verify svc db now keyId secret).1 := by
  unfold ApiKey.verify
  split
  · exact SecretsFrom.refl db
  · split
    · exact SecretsFrom.refl db
    · rename_i hstamp
      unfold ApiKey.stampKey at hstamp
      split_ifs at hstamp
      · refine SecretsFrom.of_modify (store_ok hstamp) fun hm => ?_
        cases hm
      · cases hstamp
        exact SecretsFrom.refl db

theorem cached_secretsFrom (svc : Service) (w : World) (keyId secret : String) :
    SecretsFrom a w.db (ApiKey.cached svc w keyId secret).1.db := by
  have hverify := @verifyKey_secretsFrom a svc w.db w.now keyId secret
  rcases ApiKey.cached_cases svc w keyId secret with ⟨_, -, -, hcached⟩ | ⟨-, hcached⟩
  · rw [hcached]
    exact SecretsFrom.refl w.db
  · rw [hcached]
    unfold ApiKey.cached.refill
    split
    · rename_i hr
      rw [hr] at hverify
      exact hverify
    · rename_i hr
      rw [hr] at hverify
      simp only
      split
      · split <;> exact hverify
      · exact hverify

theorem auth_secretsFrom (svc : Service) (w : World) (h : Headers) (endpoint apikey : String)
    (required : List String) :
    SecretsFrom a w.db (ApiKey.auth svc w h endpoint apikey required).1.db := by
  have haccess : SecretsFrom a w.db (ApiKey.access svc w h endpoint apikey).1.db := by
    unfold ApiKey.access
    split
    · rename_i keyId secret _
      have hcached := @cached_secretsFrom a svc w keyId secret
      split
      · rename_i hr
        rw [hr] at hcached
        exact hcached
      · rename_i hr
        rw [hr] at hcached
        split
        · exact hcached
        · split
          · exact hcached
          · unfold ApiKey.openSession
            simp only
            split <;> exact hcached
    · exact SecretsFrom.refl w.db
  unfold ApiKey.auth
  split
  · exact SecretsFrom.refl w.db
  · split
    all_goals
      rename_i hr
      rw [hr] at haccess
      exact haccess

/-! ### Every run -/

/-- A request that does not reset the secrets of the account leaves them. -/
theorem handle_secretsFrom {call : Call} (h : ¬ Resets svc w req a call) :
    SecretsFrom a w.db (handle svc w req call).1.db := by
  cases call with
  | authBasic username password =>
      simp only [handle, basic]
      split
      · exact SecretsFrom.refl w.db
      · split <;> exact SecretsFrom.refl w.db
  | authApikey endpoint apikey required =>
      have hauth := @auth_secretsFrom a svc w req.headers endpoint apikey required
      simp only [handle]
      rcases hr : ApiKey.auth svc w req.headers endpoint apikey required with ⟨w₁, uid | answer⟩
      all_goals
        rw [hr] at hauth
        exact hauth
  | login username password method otp => exact accountLogin_secretsFrom h
  | logout =>
      simp only [handle]
      split <;> exact SecretsFrom.refl w.db
  | callback method => exact callback_secretsFrom ..
  | totpGenerate => exact totpGenerate_secretsFrom ..
  | totpRegister body => exact totpRegister_secretsFrom h
  | changePassword uid body => exact changePassword_secretsFrom h
  | post m body => exact post_secretsFrom ..
  | put m id body =>
      by_cases hm : m = .account
      · subst hm
        exact putAccount_secretsFrom h
      · exact put_secretsFrom hm
  | delete m ids force =>
      simp only [handle, Controllers.delete]
      split
      · exact SecretsFrom.refl w.db
      · exact (delete_allOrNothing m ids force).secretsFrom
  | trashUpdate id body => exact trashUpdate_secretsFrom
  | trashDelete ids => exact (trashDelete_allOrNothing ids).secretsFrom
  | confirmationGet id =>
      have hrequest := request_db svc w req.amb id
      simp only [handle]
      rcases hr : Confirmation.request svc w req.amb id with ⟨w₁, _ | answer⟩
      all_goals
        rw [hr] at hrequest
        exact SecretsFrom.of_db hrequest
  | confirm token => exact confirm_secretsFrom ..

/-- Along a run in which no request resets the secrets of an account, the hash of its password, its TOTP secret
and its backup codes stay what they were; an account that was added under the id has none. -/
theorem secrets_along (svc : Service) (w : World) (es : List Event) (a : Val)
    (h : (machine svc).Along (fun w e => ¬ Resets svc (w.at e) e.req a e.call) w es) :
    SecretsFrom a w.db ((machine svc).run w es).db :=
  Machine.invariant (I := fun w' => SecretsFrom a w.db w'.db)
    (fun _ _ hfrom hnone => hfrom.trans (handle_secretsFrom hnone)) h (SecretsFrom.refl w.db)

/-- The other user logs in and takes another password. -/
def memberChanges : List Event :=
  [⟨1, Seed.request {} "t1", .login "second" (.str "Second2!") .none .none⟩,
    ⟨1, Seed.request { authorization := some ("u-0002", "t1") } "q1",
      .changePassword "u-0002" (Dict.ofList [("new_password", .str "Third3!!"),
        ("verify_password", .str "Third3!!"), ("old_password", .str "Second2!")])⟩]

theorem memberChanges_kept :
    ((machine Seed.service).outputs (Seed.world Seed.shared) memberChanges).map Response.status = [201, 200] ∧
      SecretsFrom (.str "x-54320001") Seed.shared
        ((machine Seed.service).run (Seed.world Seed.shared) memberChanges).db := by
  refine ⟨by decide +kernel, ?_⟩
  refine secrets_along Seed.service (Seed.world Seed.shared) memberChanges _ ⟨?_, ?_, trivial⟩
  · intro hresets
    cases hresets with
    | spent _ _ hcode _ => exact absurd hcode (by decide +kernel)
  · intro hresets
    cases hresets with
    | changed hnew hid _ =>
        have haccount : (LocalUser.checkNew ((machine Seed.service).run (Seed.world Seed.shared)
            (memberChanges.take 1)).db "u-0002" (.str "Third3!!") (.str "Third3!!")).toOption.map
            (fun account => account "id") = some (.str "x-a0002") := by decide +kernel
        have hfound := congrArg (fun r => r.toOption.map fun account : Row => account "id") hnew
        have hsame := haccount.symm.trans hfound
        rw [show Except.toOption (Except.ok _) = some _ from rfl, Option.map_some, hid] at hsame
        exact absurd hsame (by decide)

end Apicrud
