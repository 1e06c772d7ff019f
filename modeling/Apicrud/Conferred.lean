import Apicrud.DisabledAccounts

/-! # What serving a call confers

A session gets the role `user` or `admin` in two places, by a login that is accepted and for an API key; the
sessions of confirmations, of enrolments and of second factors get neither.  `handle_confers` says so of every
call, with the account that a session is for, its token and its end: what holds of the sessions along a run is
then proved by cases on `Confers`. -/

namespace Apicrud

open Relational
open SessionManager (key content)

/-! ### Contents of sessions -/

/-- What `create` stores under a name that its caller does not pass. -/
theorem content_get {conf : Config} {uid : Option String} {roles : List String} {token name : String}
    {expires : ℕ} {kwargs : List (String × Val)} (hname : name ∉ kwargs.map Prod.fst) :
    (content conf uid roles token expires kwargs).get name =
      (content conf uid roles token expires []).get name := by
  unfold content
  induction kwargs with
  | nil => rfl
  | cons entry kwargs ih =>
      rw [List.map_cons, List.mem_cons, not_or] at hname
      rw [List.cons_append, Dict.ofList_cons, Dict.get_set, if_neg hname.1]
      exact ih hname.2

theorem content_roles {conf : Config} {uid : Option String} {roles : List String} {token : String}
    {expires : ℕ} {kwargs : List (String × Val)} (hauth : "auth" ∉ kwargs.map Prod.fst) :
    (content conf uid roles token expires kwargs).roles = Text.split (Text.join roles ':') ':' := by
  rw [Session.roles, content_get hauth]
  simp [content, Val.text]

theorem content_jti {conf : Config} {uid : Option String} {roles : List String} {token : String}
    {expires : ℕ} {kwargs : List (String × Val)} (hjti : "jti" ∉ kwargs.map Prod.fst) :
    (content conf uid roles token expires kwargs).get "jti" = .str token := by
  rw [content_get hjti]
  simp [content]

/-! ### Sessions without the roles of accounts -/

/-- The roles of the sessions that are not for the resources of an account. -/
def lesserRoles : List (List String) :=
  [[], ["person"], ["pending"], ["pendingtotp"], ["person", "pwchange"], ["mfarequired"]]

/-- The tokens of the sessions that a request may open, but for those of an API key. -/
def Ambient.tokens (amb : Ambient) : List String :=
  [amb.genId .session, amb.genId .bypass, amb.genId .enrolment, amb.nonce, "1"]

/-- A session that has none of the roles of an account, under a token of the request. -/
structure Minor (amb : Ambient) (ses : Session) : Prop where
  roles : ∀ role ∈ ["user", "admin"], role ∉ ses.roles
  token : ∃ t ∈ amb.tokens, ses.get "jti" = .str t

theorem minor_content {amb : Ambient} {conf : Config} {uid : Option String} {roles : List String}
    {token : String} {expires : ℕ} {kwargs : List (String × Val)}
    (hkwargs : ∀ name ∈ ["auth", "jti"], name ∉ kwargs.map Prod.fst) (hroles : roles ∈ lesserRoles)
    (htoken : token ∈ amb.tokens) : Minor amb (content conf uid roles token expires kwargs) := by
  have hall : ∀ roles ∈ lesserRoles, ∀ role ∈ ["user", "admin"],
      role ∉ Text.split (Text.join roles ':') ':' := by decide +kernel
  refine ⟨fun role hrole => ?_, token, htoken, content_jti (hkwargs "jti" (by simp))⟩
  rw [content_roles (hkwargs "auth" (by simp))]
  exact hall roles hroles role hrole

/-- A world whose sessions were there before, or are minor ones of the request. -/
structure Lesser (amb : Ambient) (w w' : World) : Prop where
  now : w'.now = w.now
  keys : w'.apikeys = w.apikeys
  opens : ∀ k ses d, w'.redis k = some (ses, d) → w.redis k = some (ses, d) ∨ Minor amb ses

variable {svc : Service} {w w' : World} {req : Request} {amb : Ambient}

namespace Lesser

theorem refl (w : World) : Lesser amb w w := ⟨rfl, rfl, fun _ _ _ hk => Or.inl hk⟩

theorem withDb (w : World) (db : Database) : Lesser amb w { w with db := db } :=
  ⟨rfl, rfl, fun _ _ _ hk => Or.inl hk⟩

theorem trans {w'' : World} (h : Lesser amb w w') (h' : Lesser amb w' w'') : Lesser amb w w'' := by
  refine ⟨h'.now.trans h.now, h'.keys.trans h.keys, fun k ses d hk => ?_⟩
  rcases h'.opens k ses d hk with hold | hses
  · exact h.opens k ses d hold
  · exact Or.inr hses

theorem delete (w : World) (uid : Option String) (token : String) :
    Lesser amb w { w with redis := SessionManager.delete w.redis uid token none } :=
  ⟨rfl, rfl, fun _ _ _ hk => Or.inl (Expiring.del_some hk)⟩

theorem create (w : World) {uid : Option String} {roles : List String} {token : String} {ttl : ℕ}
    {kwargs : List (String × Val)} (hkwargs : ∀ name ∈ ["auth", "jti"], name ∉ kwargs.map Prod.fst)
    (hroles : roles ∈ lesserRoles) (htoken : token ∈ amb.tokens) :
    Lesser amb w (w.createSession svc uid roles none token ttl kwargs).1 := by
  refine ⟨rfl, rfl, fun k ses d hk => ?_⟩
  unfold World.createSession at hk
  simp only at hk
  rcases SessionManager.create_cases svc.conf w.redis w.now uid roles none token ttl kwargs with
    ⟨hcreate, -⟩ | ⟨hcreate, -⟩
  · rw [hcreate] at hk
    rcases Expiring.set_cases hk with ⟨-, rfl, -⟩ | hold
    · exact Or.inr (minor_content hkwargs hroles htoken)
    · exact Or.inl hold
  · rw [hcreate] at hk
    exact Or.inl hk

end Lesser

/-! ### Confirmations and registrations -/

theorem nonce_mem {db : Database} {now : ℕ} {id : String} {i : Confirmation.Issue}
    (h : Confirmation.issue svc db now amb id = some i) : i.nonce ∈ amb.tokens := by
  unfold Confirmation.issue at h
  split at h
  · cases h
    simp only [Ambient.tokens]
    split <;> simp
  · cases h

theorem request_lesser (svc : Service) (w : World) (amb : Ambient) (id : String) :
    Lesser amb w (Confirmation.request svc w amb id).1 := by
  unfold Confirmation.request
  split
  · rename_i hissue
    exact Lesser.create w (by simp) (by decide) (nonce_mem hissue)
  · exact Lesser.refl w

theorem confirm_lesser (svc : Service) (w : World) (amb : Ambient) (token : String) (clear : Bool) :
    Lesser amb w (Confirmation.confirm svc w amb token clear).1 := by
  unfold Confirmation.confirm
  cases Confirmation.check svc w token with
  | error answer => exact Lesser.refl w
  | ok parts =>
      obtain ⟨id, info, nonce, contact⟩ := parts
      simp only
      cases schema.store (Confirmation.activate w.db id (contact "uid")) with
      | error e => exact Lesser.refl w
      | ok db =>
          have hcleared : Lesser amb w { w with
              db := db
              redis := if clear then SessionManager.delete w.redis (some id) nonce none else w.redis } := by
            cases clear with
            | true => exact ⟨rfl, rfl, fun _ _ _ hk => Or.inl (Expiring.del_some hk)⟩
            | false => exact Lesser.withDb ..
          have hroles : [if clear = true then "pending" else "person"] ∈ lesserRoles := by
            cases clear <;> decide
          simp only
          split
          all_goals exact hcleared.trans (Lesser.create _ (by simp) hroles (by simp [Ambient.tokens]))

theorem register_lesser (svc : Service) (w : World) (amb : Ambient)
    (identity username name : Val) (template : Bool) (picture : Val) :
    Lesser amb w (SessionAuth.register svc w amb identity username name template picture).1 := by
  unfold SessionAuth.register
  split
  · exact Lesser.refl w
  · rename_i db uid cid _
    have hdb : Lesser amb w { w with db := SessionAuth.addProfiles db amb uid picture } :=
      Lesser.withDb ..
    simp only
    split
    · have hrequest := hdb.trans (request_lesser svc _ amb cid)
      split
      all_goals
        rename_i hr
        rw [hr] at hrequest
        exact hrequest
    · split
      · exact Lesser.withDb ..
      · exact hdb

theorem accountAdd_lesser (w : World) (amb : Ambient) (username uid : Val) :
    Lesser amb w (SessionAuth.accountAdd w amb username uid).1 := by
  unfold SessionAuth.accountAdd
  split
  · exact Lesser.refl w
  · simp only
    split
    · exact Lesser.withDb ..
    · exact Lesser.refl w

theorem registerExternal_lesser (svc : Service) (w : World) (amb : Ambient)
    (identity username name picture : Val) :
    Lesser amb w (SessionAuth.registerExternal svc w amb identity username name picture).1 := by
  have hreg := register_lesser svc w amb identity username name false picture
  unfold SessionAuth.registerExternal
  revert hreg
  rcases SessionAuth.register svc w amb identity username name false picture with ⟨w₁, answer⟩
  intro hreg
  have hadd := hreg.trans (accountAdd_lesser w₁ amb username (answer.body.get "uid"))
  revert hadd
  simp only
  split
  · exact fun _ => hreg
  · rcases SessionAuth.accountAdd w₁ amb username (answer.body.get "uid") with ⟨w₂, answer'⟩
    intro hadd
    simp only at hadd ⊢
    split
    · exact hadd
    · split <;> exact hadd

theorem ldapLogin_lesser (svc : Service) (w : World) (amb : Ambient) :
    Lesser amb w (LdapFunc.login svc w amb).1 := by
  unfold LdapFunc.login
  split
  · exact Lesser.refl w
  · simp only
    split
    · split
      · exact Lesser.refl w
      · exact Lesser.refl w
      · exact registerExternal_lesser ..
    · exact Lesser.refl w

theorem tryMethods_lesser (svc : Service) (amb : Ambient) (username : String) (password : Val)
    (items : List String) (w : World) (answer : Response) :
    Lesser amb w (SessionAuth.tryMethods svc amb username password w answer items).1 := by
  induction items generalizing w answer with
  | nil => exact Lesser.refl w
  | cons item items ih =>
      rw [SessionAuth.tryMethods]
      split
      · split
        · exact Lesser.refl w
        · exact ih w _
      · split
        · have hldap := ldapLogin_lesser svc w amb
          split
          · rename_i hr
            rw [hr] at hldap
            exact hldap
          · rename_i hr
            rw [hr] at hldap
            exact hldap.trans (ih _ _)
        · exact ih w _

theorem forgotPassword_lesser (svc : Service) (w : World) (amb : Ambient) (identity username : Val) :
    Lesser amb w (LocalUser.forgotPassword svc w amb identity username).1 := by
  unfold LocalUser.forgotPassword
  simp only
  split
  · exact Lesser.refl w
  · exact Lesser.refl w
  · split
    · exact Lesser.refl w
    · exact Lesser.refl w
    · rename_i contact _
      have hrequest := request_lesser svc w amb (contact "id").text
      split
      all_goals
        rename_i hr
        rw [hr] at hrequest
        exact hrequest

theorem confirmed_lesser (svc : Service) (w : World) (amb : Ambient) (id : String) (answer : Response) :
    Lesser amb w (Controllers.confirmed svc w amb id answer).1 := by
  have hrequest := request_lesser svc w amb id
  unfold Controllers.confirmed
  split
  all_goals
    rename_i hr
    rw [hr] at hrequest
    exact hrequest

theorem register_post_lesser (svc : Service) (w : World) (req : Request) (body : Dict) :
    Lesser req.amb w (Controllers.register svc w req body).1 := by
  unfold Controllers.register
  split
  · exact forgotPassword_lesser ..
  · have hreg := register_lesser svc w req.amb (body.get "identity") (body.get "username")
      (body.get "name") true .none
    revert hreg
    rcases SessionAuth.register svc w req.amb (body.get "identity") (body.get "username")
      (body.get "name") true .none with ⟨w₁, answer⟩
    intro hreg
    simp only at hreg ⊢
    split
    · exact hreg
    · exact hreg.trans (accountAdd_lesser ..)

theorem post_lesser (svc : Service) (w : World) (req : Request) (m : Model) (body : Dict) :
    Lesser req.amb w (Controllers.post svc w req m body).1 := by
  unfold Controllers.post
  split
  · exact register_post_lesser ..
  · split
    · exact Lesser.refl w
    · split
      · exact Lesser.refl w
      · have hdb : Lesser req.amb w { w with db := (Controllers.created svc w req m body).1 } :=
          Lesser.withDb ..
        simp only
        split
        · unfold Controllers.afterCreate
          simp only
          split
          · exact hdb.trans (confirmed_lesser ..)
          · split
            · split <;> exact Lesser.withDb ..
            · exact hdb
          · split <;> exact Lesser.withDb ..
          · exact hdb
        · exact hdb

theorem put_lesser (svc : Service) (w : World) (req : Request) (m : Model) (id : String) (body : Dict) :
    Lesser req.amb w (Controllers.put svc w req m id body).1 := by
  unfold Controllers.put
  simp only
  split
  · exact Lesser.refl w
  · split
    · split
      · rename_i db _
        have hdb : Lesser req.amb w { w with db := db } := Lesser.withDb ..
        exact hdb.trans (confirmed_lesser ..)
      · exact Lesser.refl w
    · split <;> exact Lesser.withDb ..

theorem storePassword_lesser (svc : Service) (w : World) (amb : Ambient) (uid : String) (account : Row)
    (new : Val) : Lesser amb w (LocalUser.storePassword svc w amb uid account new).1 := by
  unfold LocalUser.storePassword
  split <;> exact Lesser.withDb ..

theorem changePassword_lesser (svc : Service) (w : World) (amb : Ambient) (uid : String)
    (new resetToken old verify : Val) :
    Lesser amb w (LocalUser.changePassword svc w amb uid new resetToken old verify).1 := by
  unfold LocalUser.changePassword
  split
  · exact Lesser.refl w
  · split
    · split
      · exact Lesser.refl w
      · split
        · exact storePassword_lesser ..
        · exact Lesser.refl w
    · split
      · rename_i token
        have hconfirm := confirm_lesser svc w amb token true
        simp only
        split
        · exact hconfirm.trans (storePassword_lesser ..)
        · split <;> exact hconfirm
      · exact Lesser.refl w

theorem totpGenerate_lesser (svc : Service) (w : World) (req : Request) :
    Lesser req.amb w (AuthTotp.generate svc w req).1 := by
  unfold AuthTotp.generate
  simp only
  split
  · exact Lesser.refl w
  · split
    · exact Lesser.refl w
    · split <;> exact Lesser.create w (by simp) (by decide) (by simp [Ambient.tokens])

theorem totpRegister_lesser (svc : Service) (w : World) (req : Request) (body : Dict) :
    Lesser req.amb w (AuthTotp.register svc w req body).1 := by
  unfold AuthTotp.register
  simp only
  split
  · split
    · exact Lesser.refl w
    · split
      · exact Lesser.refl w
      · split
        · exact Lesser.refl w
        · split
          · exact Lesser.refl w
          · split <;> exact Lesser.withDb ..
  · exact Lesser.refl w

/-! ### Logins -/

theorem totpLogin_lesser (svc : Service) (w : World) (req : Request) (username otp : String) :
    Lesser req.amb w (TotpFunc.login svc w req username otp).1 := by
  unfold TotpFunc.login
  simp only
  split
  · exact Lesser.refl w
  · exact Lesser.refl w
  · split
    · exact Lesser.refl w
    · split
      · exact Lesser.withDb ..
      · rename_i db _ _ otps _
        have hmarked : Lesser req.amb w { w with db := db, otps := otps } :=
          ⟨rfl, rfl, fun _ _ _ hk => Or.inl hk⟩
        split
        · exact hmarked
        · split
          all_goals exact hmarked.trans (Lesser.create { w with db := db, otps := otps } (by simp) (by decide)
            (by simp [Ambient.tokens]))

/-- A row of the account, with the same word on whether it is an administrator's. -/
def Holds (db : Database) (account : Row) : Prop :=
  ∃ row ∈ db.rows .account, row "id" = account "id" ∧ row "is_admin" = account "is_admin"

theorem Holds.of_mem {db : Database} {account : Row} (h : account ∈ db.rows .account) : Holds db account :=
  ⟨account, h, rfl, rfl⟩

/-- Rewriting other cells of the accounts keeps what they say. -/
theorem Holds.modify {db db' : Database} {account : Row} {p : Row → Bool} {f : Row → Row}
    (h : Holds db account) (hdb : db'.1 = db.1.modify .account p f)
    (hf : ∀ row, f row "id" = row "id" ∧ f row "is_admin" = row "is_admin") : Holds db' account := by
  obtain ⟨row, hrow, hid, hadmin⟩ := h
  refine ⟨if p row then f row else row, ?_, ?_⟩
  · rw [Store.rows, hdb, Db.mem_modify]
    exact ⟨row, hrow, rfl⟩
  · split_ifs
    · exact ⟨(hf row).1.trans hid, (hf row).2.trans hadmin⟩
    · exact ⟨hid, hadmin⟩

/-- What reaches `login_accepted` is an account of the database, with no session opened for it yet. -/
theorem loginArgs_spec {username : String} {password method otp m : Val} {account : Row}
    (h : loginArgs svc w req username password method otp = some (w', account, m)) :
    Lesser req.amb w w' ∧ Holds w'.db account := by
  unfold loginArgs at h
  simp only at h
  split at h
  · cases h
  · split at h
    · split at h
      · have hlesser := totpLogin_lesser svc w req username otp.text
        split at h
        · rename_i hlogin
          rw [hlogin] at hlesser
          cases h
          obtain ⟨haccount, hverify⟩ := totpLogin_ok hlogin
          have hrow := Holds.of_mem (totpAccount_mem haccount)
          refine ⟨hlesser, ?_⟩
          rcases verify_rows hverify with hsame | ⟨v, hdb⟩
          · rwa [hsame]
          · exact hrow.modify hdb fun row =>
              ⟨Function.update_of_ne (by decide) _ _, Function.update_of_ne (by decide) _ _⟩
        · cases h
      · cases h
    · split at h
      · cases h
      · split at h
        · have hlesser := tryMethods_lesser svc req.amb username password
            (SessionAuth.methodItems svc method) w (.message "access denied" 403)
          split at h
          · rename_i hr
            rw [hr] at hlesser
            cases h
            exact ⟨hlesser, Holds.of_mem (tryMethods_active hr).1⟩
          · cases h
        · cases h

theorem unknownArgs_spec {method : String} {user : UserInfo} {account : Row} {m : Val}
    (h : OAuth2.unknownArgs svc w req method user = some (w', account, m)) :
    Lesser req.amb w w' ∧ Holds w'.db account := by
  have hactive := unknownArgs_active h
  unfold OAuth2.unknownArgs at h
  extract_lets identity username at h
  split at h
  · have hlesser := registerExternal_lesser svc w req.amb identity username user.name user.picture
    split at h
    · rename_i hr
      rw [hr] at hlesser
      cases h
      exact ⟨hlesser, Holds.of_mem hactive.1⟩
    · cases h
  · cases h

theorem callbackArgs_spec {method : String} {account : Row} {m : Val}
    (h : OAuth2.callbackArgs svc w req method = some (w', account, m)) :
    Lesser req.amb w w' ∧ Holds w'.db account := by
  unfold OAuth2.callbackArgs at h
  split at h
  · cases h
  · rename_i user _
    simp only at h
    split at h
    · split at h
      · exact unknownArgs_spec h
      · cases h
      · split at h
        · cases h
        · rename_i haccount
          split at h
          · cases h
          · split at h
            · cases h
            · cases h
              exact ⟨Lesser.refl w, Holds.of_mem (accountFor_mem haccount)⟩
    · cases h

theorem accountLogin_lesser {username : String} {password method otp : Val}
    (hnone : loginArgs svc w req username password method otp = none) :
    Lesser req.amb w (SessionAuth.accountLogin svc w req username password method otp).1 := by
  unfold SessionAuth.accountLogin
  unfold loginArgs at hnone
  simp only at hnone ⊢
  split
  · exact Lesser.refl w
  · rename_i hopen
    rw [if_neg hopen] at hnone
    split
    · rename_i hstep
      rw [if_pos hstep] at hnone
      split
      · rename_i hotp
        rw [if_pos hotp] at hnone
        have hlesser := totpLogin_lesser svc w req username otp.text
        rcases hlogin : TotpFunc.login svc w req username otp.text with ⟨w₁, answer | account⟩
        · rw [hlogin] at hlesser
          exact hlesser
        · rw [hlogin] at hnone
          cases hnone
      · exact Lesser.refl w
    · rename_i hstep
      rw [if_neg hstep] at hnone
      split
      · exact Lesser.refl w
      · rename_i hmethod
        rw [if_neg hmethod] at hnone
        split
        · rename_i hitems
          rw [if_pos hitems] at hnone
          have hlesser := tryMethods_lesser svc req.amb username password
            (SessionAuth.methodItems svc method) w (.message "access denied" 403)
          rcases hr : SessionAuth.tryMethods svc req.amb username password w
            (.message "access denied" 403) (SessionAuth.methodItems svc method) with
            ⟨w₁, answer | ⟨item, account⟩⟩
          · rw [hr] at hlesser
            exact hlesser
          · rw [hr] at hnone
            cases hnone
        · exact Lesser.refl w

theorem handleUnknownUser_lesser {method : String} {user : UserInfo}
    (hnone : OAuth2.unknownArgs svc w req method user = none) :
    Lesser req.amb w (OAuth2.handleUnknownUser svc w req method user).1 := by
  revert hnone
  unfold OAuth2.handleUnknownUser OAuth2.unknownArgs
  extract_lets identity username
  intro hnone
  split
  · exact Lesser.refl w
  · split
    · rename_i hpolicy
      rw [if_pos hpolicy] at hnone
      have hlesser := registerExternal_lesser svc w req.amb identity username user.name user.picture
      rcases hr : SessionAuth.registerExternal svc w req.amb identity username user.name user.picture with
        ⟨w₁, answer | account⟩
      · rw [hr] at hlesser
        exact hlesser
      · rw [hr] at hnone
        cases hnone
    · split
      · have hreg := register_lesser svc w req.amb identity username user.name true user.picture
        revert hreg
        rcases SessionAuth.register svc w req.amb identity username user.name true user.picture
          with ⟨w₁, answer⟩
        intro hreg
        simp only at hreg ⊢
        split
        · exact hreg
        · exact hreg.trans (accountAdd_lesser ..)
      · exact Lesser.refl w

theorem callback_lesser {method : String} (hnone : OAuth2.callbackArgs svc w req method = none) :
    Lesser req.amb w (OAuth2.callback svc w req method).1 := by
  unfold OAuth2.callback
  unfold OAuth2.callbackArgs at hnone
  cases huser : req.amb.userInfo with
  | none => exact Lesser.refl w
  | some user =>
      rw [huser] at hnone
      simp only at hnone ⊢
      split
      · rename_i hidentity
        rw [if_pos hidentity] at hnone
        split
        · rename_i hcontact
          rw [hcontact] at hnone
          exact handleUnknownUser_lesser hnone
        · exact Lesser.refl w
        · rename_i hcontact
          rw [hcontact] at hnone
          simp only at hnone
          split
          · exact Lesser.refl w
          · rename_i haccount
            rw [haccount] at hnone
            simp only at hnone
            split
            · exact Lesser.refl w
            · rename_i howner
              rw [howner] at hnone
              simp only at hnone
              split
              · exact Lesser.refl w
              · rename_i hopen
                rw [if_neg hopen] at hnone
                cases hnone
      · exact Lesser.refl w

/-- But for an accepted login and the scheme of the API keys, no call opens a session with these roles. -/
theorem handle_lesser {call : Call} (hnone : acceptedBy svc w req call = none)
    (hcall : ∀ endpoint apikey required, call ≠ .authApikey endpoint apikey required) :
    Lesser req.amb w (handle svc w req call).1 := by
  cases call with
  | authBasic username password =>
      simp only [handle, basic]
      split
      · exact Lesser.refl w
      · split
        · exact Lesser.refl w
        · exact Lesser.delete ..
  | authApikey endpoint apikey required => exact absurd rfl (hcall endpoint apikey required)
  | login username password method otp => exact accountLogin_lesser hnone
  | logout =>
      simp only [handle]
      rcases req.headers.authorization with _ | ⟨username, password⟩
      · exact Lesser.refl w
      · exact Lesser.delete ..
  | callback method => exact callback_lesser hnone
  | totpGenerate => exact totpGenerate_lesser ..
  | totpRegister body => exact totpRegister_lesser ..
  | changePassword uid body => exact changePassword_lesser ..
  | post m body => exact post_lesser ..
  | put m id body => exact put_lesser ..
  | delete m ids force =>
      simp only [handle, Controllers.delete]
      split
      · exact Lesser.refl w
      · exact Lesser.withDb ..
  | trashUpdate id body => exact Lesser.withDb ..
  | trashDelete ids => exact Lesser.withDb ..
  | confirmationGet id =>
      have hrequest := request_lesser svc w req.amb id
      simp only [handle]
      rcases hr : Confirmation.request svc w req.amb id with ⟨w₁, _ | answer⟩
      all_goals
        rw [hr] at hrequest
        exact hrequest
  | confirm token => exact confirm_lesser ..

/-! ### The session of an accepted login -/

theorem stampLogin_spec {account : Row} (h : Holds w.db account) (a : SessionAuth.Accepted) :
    (SessionAuth.stampLogin w a account).redis = w.redis ∧
      (SessionAuth.stampLogin w a account).now = w.now ∧
      (SessionAuth.stampLogin w a account).apikeys = w.apikeys ∧
      Holds (SessionAuth.stampLogin w a account).db account := by
  unfold SessionAuth.stampLogin
  split
  · split
    · rename_i db hstore
      exact ⟨rfl, rfl, rfl, h.modify (store_ok hstore) fun row =>
        ⟨Function.update_of_ne (by decide) _ _, Function.update_of_ne (by decide) _ _⟩⟩
    · exact ⟨rfl, rfl, rfl, h⟩
  · exact ⟨rfl, rfl, rfl, h⟩

/-- A session with a role of the account, that the account was given at an instant and that ends when
its time is up. -/
structure AccountSession (svc : Service) (amb : Ambient) (now : ℕ) (account : Row) (ses : Session) (d : ℕ) :
    Prop where
  acc : ses.get "acc" = account "id"
  token : ses.get "jti" = .str (amb.genId .session)
  admin : "admin" ∈ ses.roles → (account "is_admin").truthy = true
  ends : d = now + SessionAuth.Accepted.full.duration svc account

/-- The roles of an account. -/
theorem admin_of_rank {account : Row}
    (h : "admin" ∈ Text.split (Text.join
      (if (account "is_admin").truthy = true then ["admin", "user"] else ["user"]) ':') ':') :
    (account "is_admin").truthy = true := by
  by_contra hno
  rw [if_neg hno] at h
  exact absurd h (by decide +kernel)

theorem openLogin_ranked {account : Row} {m : Val} (h : Holds w.db account) :
    (SessionAuth.openLogin svc w req account m).1.now = w.now ∧
      (SessionAuth.openLogin svc w req account m).1.apikeys = w.apikeys ∧
      Holds (SessionAuth.openLogin svc w req account m).1.db account ∧
      ∀ k ses d, (SessionAuth.openLogin svc w req account m).1.redis k = some (ses, d) →
        w.redis k = some (ses, d) ∨ Minor req.amb ses ∨ AccountSession svc req.amb w.now account ses d := by
  unfold SessionAuth.openLogin
  extract_lets a
  split
  · exact ⟨rfl, rfl, h, fun _ _ _ hk => Or.inl hk⟩
  · obtain ⟨hredis, hnow, hkeys, hholds⟩ := stampLogin_spec h a
    refine ⟨hnow, hkeys, hholds, fun k ses d hk => ?_⟩
    unfold World.createSession at hk
    simp only at hk
    rw [hredis, hnow] at hk
    rcases SessionManager.create_cases svc.conf w.redis w.now (some (account "uid").text) (a.roles account)
      none (req.amb.genId .session) (a.duration svc account)
      (SessionAuth.loginKwargs (SessionAuth.stampLogin w a account).db account m) with
      ⟨hcreate, -⟩ | ⟨hcreate, -⟩
    · rw [hcreate] at hk
      rcases Expiring.set_cases hk with ⟨-, rfl, rfl⟩ | hold
      · refine Or.inr ?_
        have hkwargs : ∀ name ∈ ["auth", "jti"], name ∉ (SessionAuth.loginKwargs
            (SessionAuth.stampLogin w a account).db account m).map Prod.fst := by
          simp [SessionAuth.loginKwargs]
        by_cases hfull : a = .full
        · rw [hfull] at hkwargs ⊢
          refine Or.inr ⟨by simp [content, SessionAuth.loginKwargs], content_jti (hkwargs "jti" (by simp)),
            fun hadmin => ?_, rfl⟩
          rw [content_roles (hkwargs "auth" (by simp))] at hadmin
          exact admin_of_rank hadmin
        · refine Or.inl (minor_content hkwargs ?_ (by simp [Ambient.tokens]))
          cases ha : a with
          | full => exact absurd ha hfull
          | _ => simp [SessionAuth.Accepted.roles, lesserRoles]
      · exact Or.inl hold
    · rw [hcreate] at hk
      exact Or.inl hk

/-! ### API keys -/

/-- A cache entry that a key of the account leaves at an instant. -/
structure KeyOf (svc : Service) (now : ℕ) (account : Row) (item : CachedKey) : Prop where
  acc : item.accountId = account "id"
  roles : item.roles = if (account "is_admin").truthy = true then ["admin", "user"] else ["user"]
  expires : item.expires = now + svc.conf.redisTtl

/-- A session that is opened for a cached key, when its secret is presented. -/
structure KeySession (svc : Service) (now : ℕ) (secret : String) (item : CachedKey) (ses : Session)
    (d : ℕ) :
    Prop where
  acc : ses.get "acc" = item.accountId
  token : ses.get "jti" = .str (ApiKey.sessionToken svc secret)
  roles : ses.roles = Text.split (Text.join item.roles ':') ':'
  fresh : now ≤ item.expires
  ends : d = now + if "admin" ∈ item.roles then svc.conf.loginAdminLimit else svc.conf.loginSessionLimit

/-- What serving a call that presents some API keys leaves: the sessions with a role of an account are for an
account of the database, or for a cached key, and so are the cached keys. -/
structure Confers (svc : Service) (amb : Ambient) (presents : String → String → Prop) (w w' : World) :
    Prop where
  now : w'.now = w.now
  opens : ∀ k ses d, w'.redis k = some (ses, d) → w.redis k = some (ses, d) ∨ Minor amb ses ∨
    (∃ account, Holds w'.db account ∧ AccountSession svc amb w.now account ses d) ∨
    ∃ keyId secret item, presents keyId secret ∧ w'.apikeys keyId = some item ∧
      KeySession svc w.now secret item ses d
  keys : ∀ keyId item, w'.apikeys keyId = some item → w.apikeys keyId = some item ∨
    ∃ account, Holds w'.db account ∧ KeyOf svc w.now account item

variable {presents : String → String → Prop}

theorem Lesser.confers (h : Lesser amb w w') : Confers svc amb presents w w' where
  now := h.now
  opens k ses d hk := (h.opens k ses d hk).imp id Or.inl
  keys _ _ hitem := Or.inl (h.keys ▸ hitem)

/-- A key that is verified is cached for its account. -/
theorem refill_confers (svc : Service) (amb : Ambient) (w : World) (keyId secret : String) :
    Confers svc amb presents w (ApiKey.cached.refill svc w keyId secret).1 ∧
      ∀ item, (ApiKey.cached.refill svc w keyId secret).2 = some item →
        (ApiKey.cached.refill svc w keyId secret).1.apikeys keyId = some item ∧ w.now ≤ item.expires := by
  unfold ApiKey.cached.refill
  split
  · exact ⟨(Lesser.withDb ..).confers, fun _ h => by cases h⟩
  · rename_i db record _
    simp only
    split
    · split
      · exact ⟨(Lesser.withDb ..).confers, fun _ h => by cases h⟩
      · rename_i account haccount
        refine ⟨⟨rfl, fun _ _ _ hk => Or.inl hk, fun keyId' item hitem => ?_⟩, ?_⟩
        · by_cases heq : keyId' = keyId
          · subst heq
            simp only [Function.update_self] at hitem
            cases hitem
            exact Or.inr ⟨account, Holds.of_mem (mem_of_lookup haccount).1, rfl, rfl, rfl⟩
          · simp only [Function.update_of_ne heq] at hitem
            exact Or.inl hitem
        · rintro item hitem
          cases hitem
          exact ⟨Function.update_self .., Nat.le_add_right _ _⟩
    · exact ⟨(Lesser.withDb ..).confers, fun _ h => by cases h⟩

theorem cached_confers (svc : Service) (amb : Ambient) (w : World) (keyId secret : String) :
    Confers svc amb presents w (ApiKey.cached svc w keyId secret).1 ∧
      ∀ item, (ApiKey.cached svc w keyId secret).2 = some item →
        (ApiKey.cached svc w keyId secret).1.apikeys keyId = some item ∧ w.now ≤ item.expires := by
  rcases ApiKey.cached_cases svc w keyId secret with ⟨item, hitem, hfresh, hcached⟩ | ⟨-, hcached⟩
  · rw [hcached]
    refine ⟨(Lesser.refl w).confers, fun item' h => ?_⟩
    cases h
    exact ⟨hitem, hfresh⟩
  · rw [hcached]
    exact refill_confers svc amb w keyId secret

/-- A session for a cached key, unless its slot is taken. -/
theorem openSession_confers {w₁ : World} {keyId secret : String} {item : CachedKey}
    (h : Confers svc amb presents w w₁) (hpresents : presents keyId secret)
    (hitem : w₁.apikeys keyId = some item) (hfresh : w.now ≤ item.expires) :
    Confers svc amb presents w (ApiKey.openSession svc w₁ keyId secret item).1 := by
  unfold ApiKey.openSession
  simp only
  split
  · exact h
  · refine ⟨h.now, fun k ses d hk => ?_, h.keys⟩
    unfold World.createSession at hk
    simp only at hk
    rcases SessionManager.create_cases svc.conf w₁.redis w₁.now (some item.uid.text) item.roles (some keyId)
      (ApiKey.sessionToken svc secret)
      (if "admin" ∈ item.roles then svc.conf.loginAdminLimit else svc.conf.loginSessionLimit)
      [("acc", item.accountId), ("identity", item.identity)] with ⟨hcreate, -⟩ | ⟨hcreate, -⟩
    · rw [hcreate] at hk
      rcases Expiring.set_cases hk with ⟨-, rfl, rfl⟩ | hold
      · refine Or.inr (Or.inr (Or.inr ⟨keyId, secret, item, hpresents, hitem, ?_, ?_, ?_, hfresh, ?_⟩))
        · simp [content]
        · exact content_jti (by simp)
        · exact content_roles (by simp)
        · rw [h.now]
      · exact h.opens k ses d hold
    · rw [hcreate] at hk
      exact h.opens k ses d hk

theorem access_confers (svc : Service) (amb : Ambient) (w : World) (h : Headers) (endpoint apikey : String) :
    Confers svc amb (fun keyId secret => Text.split apikey '.' = [keyId, secret]) w
      (ApiKey.access svc w h endpoint apikey).1 := by
  unfold ApiKey.access
  split
  · rename_i keyId secret hpresents
    obtain ⟨hcached, hitem⟩ := @cached_confers (fun keyId secret => Text.split apikey '.' = [keyId, secret])
      svc amb w keyId secret
    split
    · rename_i hr
      rw [hr] at hcached
      exact hcached
    · rename_i w₁ item hr
      rw [hr] at hcached hitem
      obtain ⟨hheld, hfresh⟩ := hitem item rfl
      split
      · exact hcached
      · split
        · exact hcached
        · exact openSession_confers hcached hpresents hheld hfresh
  · exact (Lesser.refl w).confers

theorem auth_confers (svc : Service) (amb : Ambient) (w : World) (h : Headers) (endpoint apikey : String)
    (required : List String) :
    Confers svc amb (fun keyId secret => Text.split apikey '.' = [keyId, secret]) w
      (ApiKey.auth svc w h endpoint apikey required).1 := by
  have haccess := access_confers svc amb w h endpoint apikey
  unfold ApiKey.auth
  split
  · exact (Lesser.refl w).confers
  · split
    all_goals
      rename_i hr
      rw [hr] at haccess
      exact haccess

/-! ### Every call -/

theorem accepted_confers {account : Row} {m : Val} (hlesser : Lesser req.amb w w')
    (hholds : Holds w'.db account) :
    Confers svc req.amb presents w (SessionAuth.loginAccepted svc w' req account m).1 := by
  rw [SessionAuth.loginAccepted_fst]
  obtain ⟨hnow, hkeys, hrow, hopens⟩ := @openLogin_ranked svc w' req account m hholds
  refine ⟨hnow.trans hlesser.now, fun k ses d hk => ?_, fun keyId item hitem => Or.inl ?_⟩
  · rcases hopens k ses d hk with hold | hses | hranked
    · exact (hlesser.opens k ses d hold).imp id Or.inl
    · exact Or.inr (Or.inl hses)
    · rw [hlesser.now] at hranked
      exact Or.inr (Or.inr (Or.inl ⟨account, hrow, hranked⟩))
  · rw [hkeys, hlesser.keys] at hitem
    exact hitem

/-- The call presents the API key. -/
def Call.Presents (call : Call) (keyId secret : String) : Prop :=
  ∃ endpoint apikey required, call = .authApikey endpoint apikey required ∧
    Text.split apikey '.' = [keyId, secret]

theorem handle_confers (svc : Service) (w : World) (req : Request) (call : Call) :
    Confers svc req.amb call.Presents w (handle svc w req call).1 := by
  by_cases hkey : ∃ endpoint apikey required, call = .authApikey endpoint apikey required
  · obtain ⟨endpoint, apikey, required, rfl⟩ := hkey
    have hauth := auth_confers svc req.amb w req.headers endpoint apikey required
    have hpresents : (fun keyId secret => Text.split apikey '.' = [keyId, secret]) =
        (Call.authApikey endpoint apikey required).Presents := by
      funext keyId secret
      refine propext ⟨fun h => ⟨endpoint, apikey, required, rfl, h⟩, ?_⟩
      rintro ⟨_, _, _, hcall, h⟩
      cases hcall
      exact h
    rw [hpresents] at hauth
    simp only [handle]
    rcases hr : ApiKey.auth svc w req.headers endpoint apikey required with ⟨w₁, uid | answer⟩
    all_goals
      rw [hr] at hauth
      exact hauth
  · have hcall : ∀ endpoint apikey required, call ≠ .authApikey endpoint apikey required :=
      fun endpoint apikey required h => hkey ⟨endpoint, apikey, required, h⟩
    rcases haccepted : acceptedBy svc w req call with _ | ⟨w', account, m⟩
    · exact (handle_lesser haccepted hcall).confers
    · cases call with
      | login username password method otp =>
          obtain ⟨hlesser, hholds⟩ := loginArgs_spec haccepted
          rw [handle, accountLogin_of_args haccepted]
          exact accepted_confers hlesser hholds
      | callback method =>
          obtain ⟨hlesser, hholds⟩ := callbackArgs_spec haccepted
          rw [handle, callback_of_args haccepted]
          exact accepted_confers hlesser hholds
      | _ => cases haccepted

end Apicrud
