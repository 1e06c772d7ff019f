import Apicrud.Accepted
import Apicrud.Commits

/-! # The sessions a request opens

All sessions live in one store.  `Opening` lists every kind of session that serving a call can
put there, with what was checked before it; `handle_serves` says that after a call every entry of
the store was there before or is an `Opening`, and every cached API key was cached before or was
verified by the call.  Invariants of the session store are then proved by cases on `Opening`. -/

namespace Apicrud

open Relational

/-! ### The requests for confirmations -/

/-- The contact that `register` asks to confirm, and the database at that time. -/
def registration (svc : Service) (db : Database) (amb : Ambient)
    (identity username name picture : Val) : Option (Database × String) :=
  match SessionAuth.registrant svc db amb identity username name with
  | .ok (db, uid, cid) => some (SessionAuth.addProfiles db amb uid picture, cid)
  | .error _ => none

/-- The contact that `forgot_password` asks to confirm. -/
def recovery (svc : Service) (db : Database) (identity username : Val) : Option String :=
  match one (LocalUser.forgotten db (svc.lib.identityNormalize identity) username) with
  | .ok account =>
      match SessionAuth.primaryContact db account with
      | .ok contact => some (contact "id").text
      | .error _ => none
  | .error _ => none

/-- The call of `Confirmation.request` that serving a call makes, if it makes one: the database it
finds and the id of the contact. -/
def requested (svc : Service) (w : World) (req : Request) : Call → Option (Database × String)
  | .confirmationGet id => some (w.db, id)
  | .put .contact id body =>
      match BasicCrud.updateContact svc w.db (req.access svc w) w.now id body with
      | .ok db => some (db, id)
      | .error _ => none
  | .post .contact body =>
      let (db, answer) := Controllers.created svc w req .contact body
      if answer.status = 201 then
        some (db, req.amb.genIdWith (Controllers.idPrefix .contact) .record)
      else none
  | .post .account body =>
      if (body.get "forgot_password").truthy then
        (recovery svc w.db (body.get "identity") (body.get "username")).map fun id => (w.db, id)
      else
        registration svc w.db req.amb (body.get "identity") (body.get "username")
          (body.get "name") .none
  | .callback _ =>
      match req.amb.userInfo with
      | some user =>
          let identity := svc.lib.identityNormalize user.email
          if identity.truthy ∧ Text.Contains identity.text "@" ∧
              svc.conf.loginExternalPolicy = "open" then
            match lookup w.db .contact [("info", identity)] with
            | .error .noResultFound =>
                registration svc w.db req.amb identity
                  (.str (String.ofList (((Text.split identity.text '@').headD "").toList.take 15) ++
                    "-" ++ req.amb.genId .username)) user.name user.picture
            | _ => none
          else none
      | none => none
  | _ => none

/-- The token that serving a call issues, if it issues one. -/
def issuedBy (svc : Service) (w : World) (req : Request) (call : Call) :
    Option Confirmation.Issue :=
  (requested svc w req call).bind fun r => Confirmation.issue svc r.1 w.now req.amb r.2

/-- The account whose one-time password or backup code the call verifies, if it does. -/
def otpAccount (svc : Service) (w : World) (req : Request) : Call → Option Row
  | .login username _ _ otp =>
      let acc := req.access svc w
      if req.amb.lockedOut = false ∧
          (acc.HasRole "pendingtotp" ∨ (otp.truthy ∧ acc.apikeyId.isSome)) ∧ otp.truthy then
        match TotpFunc.login svc w req username otp.text with
        | (_, .ok account) => some account
        | (_, .error _) => none
      else none
  | _ => none

/-! ### Openings -/

open SessionManager (key content)

/-- A session that serving a call may open: its key in the store, its content and the instant
from which it is gone. -/
inductive Opening (svc : Service) (w : World) (req : Request) (call : Call) :
    String → Session → ℕ → Prop
  | confirmation {db : Database} {id : String} {i : Confirmation.Issue}
      (hrequested : requested svc w req call = some (db, id))
      (hissue : Confirmation.issue svc db w.now req.amb id = some i) :
      Opening svc w req call (key i.owner i.nonce none)
        (content svc.conf i.owner [] i.nonce (w.now + svc.conf.tokenTimeout)
          [("param", .str i.token)])
        (w.now + svc.conf.tokenTimeout)
  | confirmed {token id info nonce : String} {contact : Row} (clear : Bool) (name : Val)
      (hcheck : Confirmation.check svc w token = .ok (id, info, nonce, contact))
      (hconfirmed : confirmedBy svc w req call =
        some ((contact "uid").text, req.amb.genId .session)) :
      Opening svc w req call (key (some (contact "uid").text) (req.amb.genId .session) none)
        (content svc.conf (some (contact "uid").text) [if clear then "pending" else "person"]
          (req.amb.genId .session) (w.now + svc.conf.redisTtl)
          [("info", .str info), ("type", contact "type"), ("contact_id", .str id), ("name", name)])
        (w.now + svc.conf.redisTtl)
  | login (a : SessionAuth.Accepted) (account : Row) (method : Val) (db : Database)
      (hlogged : loggedIn svc w req call =
        some ((account "uid").text, req.amb.genId .session)) :
      Opening svc w req call (key (some (account "uid").text) (req.amb.genId .session) none)
        (content svc.conf (some (account "uid").text) (a.roles account) (req.amb.genId .session)
          (w.now + a.duration svc account) (SessionAuth.loginKwargs db account method))
        (w.now + a.duration svc account)
  | bypass {account : Row} (identity : Val) (haccount : otpAccount svc w req call = some account) :
      Opening svc w req call (key (req.access svc w).uid (req.amb.genId .bypass) none)
        (content svc.conf (req.access svc w).uid [] (req.amb.genId .bypass)
          (w.now + svc.conf.loginMfaCookieLimit) [("acc", account "id"), ("identity", identity)])
        (w.now + svc.conf.loginMfaCookieLimit)
  | enrolment :
      Opening svc w req call (key (req.access svc w).uid (req.amb.genId .enrolment) none)
        (content svc.conf (req.access svc w).uid ["pendingtotp"] (req.amb.genId .enrolment)
          (w.now + 120) [("totp", .str req.amb.totpSecret)])
        (w.now + 120)
  | apikey {keyId secret : String} {item : CachedKey} (ttl : ℕ)
      (hitem : (ApiKey.cached svc w keyId secret).2 = some item) :
      Opening svc w req call
        (key (some item.uid.text) (ApiKey.sessionToken svc secret) (some keyId))
        (content svc.conf (some item.uid.text) item.roles (ApiKey.sessionToken svc secret)
          (w.now + ttl) [("acc", item.accountId), ("identity", item.identity)])
        (w.now + ttl)

/-- A cache entry that verifying a key leaves at an instant. -/
def Verified (svc : Service) (now : ℕ) (item : CachedKey) : Prop :=
  ∃ db record account, item = ApiKey.cacheEntry svc db now record account

/-- A world that is reached from `w` while a call is served. -/
structure Serves (svc : Service) (w : World) (req : Request) (call : Call) (w' : World) : Prop where
  now : w'.now = w.now
  opens : ∀ k ses d, w'.redis k = some (ses, d) →
    w.redis k = some (ses, d) ∨ Opening svc w req call k ses d
  keys : ∀ keyId item, w'.apikeys keyId = some item →
    w.apikeys keyId = some item ∨ Verified svc w.now item

variable {svc : Service} {w : World} {req : Request} {call : Call}

namespace Serves

theorem refl (w : World) : Serves svc w req call w :=
  ⟨rfl, fun _ _ _ h => Or.inl h, fun _ _ h => Or.inl h⟩

/-- Commits do not touch the sessions. -/
theorem withDb {w' : World} (h : Serves svc w req call w') (db : Database) :
    Serves svc w req call { w' with db := db } := ⟨h.now, h.opens, h.keys⟩

theorem withOtps {w' : World} (h : Serves svc w req call w')
    (otps : Expiring (String × String) Unit) :
    Serves svc w req call { w' with otps := otps } := ⟨h.now, h.opens, h.keys⟩

theorem delete {w' : World} (h : Serves svc w req call w') (uid : Option String) (token : String) :
    Serves svc w req call { w' with redis := SessionManager.delete w'.redis uid token none } :=
  ⟨h.now, fun k ses d hk => h.opens k ses d (Expiring.del_some hk), h.keys⟩

/-- A session is opened, unless its slot is taken. -/
theorem create {w' : World} (h : Serves svc w req call w') {uid : Option String}
    {roles : List String} {keyId : Option String} {token : String} {ttl : ℕ}
    {kwargs : List (String × Val)}
    (hopening : (w'.createSession svc uid roles keyId token ttl kwargs).2.isSome →
      Opening svc w req call (key uid token keyId)
        (content svc.conf uid roles token (w.now + ttl) kwargs) (w.now + ttl)) :
    Serves svc w req call (w'.createSession svc uid roles keyId token ttl kwargs).1 := by
  refine ⟨h.now, fun k ses d hk => ?_, h.keys⟩
  unfold World.createSession at hk hopening
  simp only at hk hopening
  rw [h.now] at hk hopening
  rcases SessionManager.create_cases svc.conf w'.redis w.now uid roles keyId token ttl kwargs with
    ⟨hcreate, _⟩ | ⟨hcreate, _⟩
  · rw [hcreate] at hk hopening
    rcases Expiring.set_cases hk with ⟨rfl, rfl, rfl⟩ | hold
    · exact Or.inr (hopening rfl)
    · exact h.opens k ses d hold
  · rw [hcreate] at hk
    exact h.opens k ses d hk

end Serves

/-! ### Confirmations -/

theorem request_serves {w' : World} (h : Serves svc w req call w') {id : String}
    (hrequested : requested svc w req call = some (w'.db, id)) :
    Serves svc w req call (Confirmation.request svc w' req.amb id).1 := by
  unfold Confirmation.request
  rw [h.now]
  cases hissue : Confirmation.issue svc w'.db w.now req.amb id with
  | none => exact h
  | some i => exact h.create fun _ => .confirmation hrequested hissue

theorem confirm_serves {token : String} {clear : Bool}
    (hcall : confirmCall w call = some (token, clear)) :
    Serves svc w req call (Confirmation.confirm svc w req.amb token clear).1 := by
  have hconfirmed : ∀ {id info nonce contact},
      Confirmation.check svc w token = .ok (id, info, nonce, contact) →
      (Confirmation.confirm svc w req.amb token clear).2.status = 200 →
      confirmedBy svc w req call = some ((contact "uid").text, req.amb.genId .session) := by
    intro id info nonce contact hcheck hok
    rw [confirmedBy, hcall]
    simp only [hcheck]
    rw [if_pos hok]
  revert hconfirmed
  unfold Confirmation.confirm
  cases hcheck : Confirmation.check svc w token with
  | error answer => exact fun _ => Serves.refl w
  | ok parts =>
      obtain ⟨id, info, nonce, contact⟩ := parts
      simp only
      cases hstore : schema.store (Confirmation.activate w.db id (contact "uid")) with
      | error e => exact fun _ => Serves.refl w
      | ok db =>
          simp only
          have hcleared : Serves svc w req call { w with
              db := db
              redis := if clear then SessionManager.delete w.redis (some id) nonce none else w.redis } := by
            cases clear with
            | true => exact ((Serves.refl w).withDb db).delete (some id) nonce
            | false => exact (Serves.refl w).withDb db
          -- when the slot of the new session is taken, nothing is stored
          split
          · intro hconfirmed
            exact hcleared.create fun _ => .confirmed clear _ hcheck (hconfirmed rfl rfl)
          · rename_i hnone
            intro _
            exact hcleared.create fun hsome => by simp [hnone] at hsome

/-! ### Logins -/

theorem stampLogin_serves {w' : World} (h : Serves svc w req call w') (a : SessionAuth.Accepted)
    (account : Row) : Serves svc w req call (SessionAuth.stampLogin w' a account) := by
  unfold SessionAuth.stampLogin
  split
  · split
    · exact h.withDb _
    · exact h
  · exact h

theorem loginAccepted_serves {w' : World} (h : Serves svc w req call w') {account : Row}
    {method : Val} (haccepted : acceptedBy svc w req call = some (w', account, method)) :
    Serves svc w req call (SessionAuth.loginAccepted svc w' req account method).1 := by
  have hlogged : (SessionAuth.openLogin svc w' req account method).2.isSome →
      loggedIn svc w req call = some ((account "uid").text, req.amb.genId .session) := by
    intro hsome
    obtain ⟨ses, hses⟩ := Option.isSome_iff_exists.mp hsome
    rw [loggedIn, haccepted]
    simp only [hses, Option.map_some]
  rw [SessionAuth.loginAccepted_fst]
  revert hlogged
  unfold SessionAuth.openLogin
  simp only
  split
  · exact fun _ => h
  · intro hlogged
    have hstamp := stampLogin_serves h (SessionAuth.acceptedAs svc w' req account method) account
    exact hstamp.create fun hsome => .login _ account method _ (hlogged hsome)

theorem totpLogin_serves {username : String} {password method otp : Val}
    (hcall : call = .login username password method otp) (hopen : req.amb.lockedOut = false)
    (hstep : (req.access svc w).HasRole "pendingtotp" ∨
      (otp.truthy ∧ (req.access svc w).apikeyId.isSome)) (hotp : otp.truthy) :
    Serves svc w req call (TotpFunc.login svc w req username otp.text).1 := by
  have haccount : ∀ {w' account}, TotpFunc.login svc w req username otp.text = (w', .ok account) →
      otpAccount svc w req call = some account := by
    intro w' account hlogin
    subst hcall
    simp only [otpAccount]
    rw [if_pos ⟨hopen, hstep, hotp⟩, hlogin]
  revert haccount
  unfold TotpFunc.login
  simp only
  split
  · exact fun _ => Serves.refl w
  · exact fun _ => Serves.refl w
  · rename_i account _
    split
    · exact fun _ => Serves.refl w
    · rename_i db _
      split
      · exact fun _ => (Serves.refl w).withDb db
      · rename_i otps _
        have hmarked : Serves svc w req call { w with db := db, otps := otps } :=
          ((Serves.refl w).withDb db).withOtps otps
        split
        · exact fun _ => hmarked
        · -- when the slot of the bypass session is taken, nothing is stored
          split
          · intro haccount
            exact hmarked.create fun _ => .bypass _ (haccount rfl)
          · rename_i hnone
            intro _
            exact hmarked.create fun hsome => by simp [hnone] at hsome

/-! ### Registration -/

theorem register_serves {w' : World} (h : Serves svc w req call w') {identity username name picture : Val}
    {template : Bool} (hrequested : template = true →
      requested svc w req call = registration svc w'.db req.amb identity username name picture) :
    Serves svc w req call
      (SessionAuth.register svc w' req.amb identity username name template picture).1 := by
  unfold SessionAuth.register
  unfold registration at hrequested
  split
  · exact h
  · rename_i db uid cid hreg
    rw [hreg] at hrequested
    have hdb := h.withDb (SessionAuth.addProfiles db req.amb uid picture)
    cases template with
    | true =>
        have hrequest := request_serves hdb (hrequested rfl)
        simp only [if_true]
        split
        · rename_i hr
          rw [hr] at hrequest
          exact hrequest
        · rename_i hr
          rw [hr] at hrequest
          exact hrequest
    | false =>
        simp only [Bool.false_eq_true, if_false]
        split
        · exact hdb.withDb _
        · exact hdb

theorem accountAdd_serves {w' : World} (h : Serves svc w req call w') (username uid : Val) :
    Serves svc w req call (SessionAuth.accountAdd w' req.amb username uid).1 := by
  unfold SessionAuth.accountAdd
  split
  · exact h
  · simp only
    split
    · exact h.withDb _
    · exact h

theorem registerExternal_serves {w' : World} (h : Serves svc w req call w')
    (identity username name picture : Val) :
    Serves svc w req call
      (SessionAuth.registerExternal svc w' req.amb identity username name picture).1 := by
  have hreg : Serves svc w req call
      (SessionAuth.register svc w' req.amb identity username name false picture).1 :=
    register_serves h nofun
  unfold SessionAuth.registerExternal
  revert hreg
  rcases SessionAuth.register svc w' req.amb identity username name false picture with ⟨w₁, answer⟩
  intro hreg
  simp only at hreg ⊢
  split
  · exact hreg
  · have hadd := accountAdd_serves hreg username (answer.body.get "uid")
    revert hadd
    rcases SessionAuth.accountAdd w₁ req.amb username (answer.body.get "uid") with ⟨w₂, answer₂⟩
    intro hadd
    simp only at hadd ⊢
    split
    · exact hadd
    · split <;> exact hadd

theorem ldapLogin_serves {w' : World} (h : Serves svc w req call w') :
    Serves svc w req call (LdapFunc.login svc w' req.amb).1 := by
  unfold LdapFunc.login
  split
  · exact h
  · simp only
    split
    · split
      · exact h
      · exact h
      · exact registerExternal_serves h ..
    · exact h

theorem tryMethods_serves {username : String} {password : Val} (items : List String) {w' : World}
    (h : Serves svc w req call w') (answer : Response) :
    Serves svc w req call
      (SessionAuth.tryMethods svc req.amb username password w' answer items).1 := by
  induction items generalizing w' answer with
  | nil => exact h
  | cons item items ih =>
      rw [SessionAuth.tryMethods]
      split
      · split
        · exact h
        · exact ih h _
      · split
        · have hldap := ldapLogin_serves h
          split
          · rename_i hr
            rw [hr] at hldap
            exact hldap
          · rename_i hr
            rw [hr] at hldap
            exact ih hldap _
        · exact ih h _

theorem accountLogin_serves {username : String} {password method otp : Val}
    (hcall : call = .login username password method otp) :
    Serves svc w req call
      (SessionAuth.accountLogin svc w req username password method otp).1 := by
  unfold SessionAuth.accountLogin
  simp only
  split
  · exact Serves.refl w
  · rename_i hopen
    split
    · rename_i hstep
      split
      · rename_i hotp
        have hlogin := totpLogin_serves hcall (Bool.not_eq_true _ ▸ hopen) hstep hotp
        split
        · rename_i hr
          rw [hr] at hlogin
          refine loginAccepted_serves hlogin ?_
          simp only [hcall, acceptedBy, loginArgs]
          rw [if_neg hopen, if_pos hstep, if_pos hotp, hr]
        · rename_i hr
          rw [hr] at hlogin
          exact hlogin
      · exact Serves.refl w
    · rename_i hstep
      split
      · exact Serves.refl w
      · rename_i hmethod
        split
        · rename_i hitems
          have htry : Serves svc w req call (SessionAuth.tryMethods svc req.amb username password
              w (.message "access denied" 403) (SessionAuth.methodItems svc method)).1 :=
            tryMethods_serves _ (Serves.refl w) _
          split
          · rename_i hr
            rw [hr] at htry
            refine loginAccepted_serves htry ?_
            simp only [hcall, acceptedBy, loginArgs]
            rw [if_neg hopen, if_neg hstep, if_neg hmethod, if_pos hitems, hr]
          · rename_i hr
            rw [hr] at htry
            exact htry
        · exact Serves.refl w

theorem handleUnknownUser_serves {method : String} {user : UserInfo}
    (hcall : call = .callback method) (huser : req.amb.userInfo = some user)
    (hidentity : (svc.lib.identityNormalize user.email).truthy ∧
      Text.Contains (svc.lib.identityNormalize user.email).text "@")
    (hunknown : lookup w.db .contact [("info", svc.lib.identityNormalize user.email)] =
      .error .noResultFound) :
    Serves svc w req call (OAuth2.handleUnknownUser svc w req method user).1 := by
  unfold OAuth2.handleUnknownUser
  extract_lets identity username
  split
  · exact Serves.refl w
  · split
    · rename_i hpolicy
      have hreg : Serves svc w req call (SessionAuth.registerExternal svc w req.amb identity username
          user.name user.picture).1 := registerExternal_serves (Serves.refl w) ..
      split
      · rename_i hr
        rw [hr] at hreg
        refine loginAccepted_serves hreg ?_
        simp only [hcall, acceptedBy, OAuth2.callbackArgs, huser]
        rw [if_pos hidentity, hunknown]
        simp only [OAuth2.unknownArgs]
        rw [if_pos hpolicy, hr]
      · rename_i hr
        rw [hr] at hreg
        exact hreg
    · split
      · rename_i hpolicy
        have hrequested : requested svc w req call =
            registration svc w.db req.amb identity username user.name user.picture := by
          simp only [hcall, requested, huser]
          rw [if_pos ⟨hidentity.1, hidentity.2, hpolicy⟩, hunknown]
        have hreg : Serves svc w req call (SessionAuth.register svc w req.amb identity username
            user.name true user.picture).1 := register_serves (Serves.refl w) fun _ => hrequested
        revert hreg
        rcases SessionAuth.register svc w req.amb identity username user.name true user.picture
          with ⟨w₁, answer⟩
        intro hreg
        simp only at hreg ⊢
        split
        · exact hreg
        · exact accountAdd_serves hreg ..
      · exact Serves.refl w

theorem callback_serves {method : String} (hcall : call = .callback method) :
    Serves svc w req call (OAuth2.callback svc w req method).1 := by
  unfold OAuth2.callback
  split
  · exact Serves.refl w
  · rename_i user huser
    simp only
    split
    · rename_i hidentity
      split
      · rename_i hunknown
        exact handleUnknownUser_serves hcall huser hidentity hunknown
      · exact Serves.refl w
      · rename_i hcontact
        split
        · exact Serves.refl w
        · rename_i haccount
          split
          · exact Serves.refl w
          · rename_i howner
            split
            · exact Serves.refl w
            · rename_i hdisabled
              refine loginAccepted_serves (Serves.refl w) ?_
              simp only [hcall, acceptedBy, OAuth2.callbackArgs, huser]
              rw [if_pos hidentity, hcontact]
              simp only [haccount, howner, if_neg hdisabled]
    · exact Serves.refl w

theorem totpGenerate_serves : Serves svc w req call (AuthTotp.generate svc w req).1 := by
  unfold AuthTotp.generate
  simp only
  split
  · exact Serves.refl w
  · split
    · exact Serves.refl w
    · split
      all_goals exact (Serves.refl w).create fun _ => .enrolment

theorem totpRegister_serves {body : Dict} :
    Serves svc w req call (AuthTotp.register svc w req body).1 := by
  unfold AuthTotp.register
  simp only
  split
  · split
    · exact Serves.refl w
    · split
      · exact Serves.refl w
      · split
        · exact Serves.refl w
        · split
          · exact Serves.refl w
          · split
            · exact (Serves.refl w).withDb _
            · exact Serves.refl w
  · exact Serves.refl w

theorem storePassword_serves {w' : World} (h : Serves svc w req call w') (uid : String)
    (account : Row) (new : Val) :
    Serves svc w req call (LocalUser.storePassword svc w' req.amb uid account new).1 := by
  unfold LocalUser.storePassword
  split
  · exact h.withDb _
  · exact h

theorem changePassword_serves {uid : String} {body : Dict} (hcall : call = .changePassword uid body) :
    Serves svc w req call (LocalUser.changePassword svc w req.amb uid (body.get "new_password")
      (body.get "reset_token") (body.get "old_password") (body.get "verify_password")).1 := by
  unfold LocalUser.changePassword
  split
  · exact Serves.refl w
  · rename_i hnew
    split
    · split
      · exact Serves.refl w
      · split
        · exact storePassword_serves (Serves.refl w) ..
        · exact Serves.refl w
    · rename_i hold
      split
      · rename_i token htoken
        have hconfirm : Serves svc w req call
            (Confirmation.confirm svc w req.amb token true).1 := by
          refine confirm_serves ?_
          simp only [hcall, confirmCall, hnew]
          rw [if_neg hold, htoken]
        simp only
        split
        · exact storePassword_serves hconfirm ..
        · split <;> exact hconfirm
      · exact Serves.refl w

theorem forgotPassword_serves {identity username : Val}
    (hrequested : requested svc w req call =
      (recovery svc w.db identity username).map fun id => (w.db, id)) :
    Serves svc w req call (LocalUser.forgotPassword svc w req.amb identity username).1 := by
  unfold LocalUser.forgotPassword
  unfold recovery at hrequested
  simp only
  split
  · exact Serves.refl w
  · exact Serves.refl w
  · rename_i hfound
    rw [hfound] at hrequested
    simp only at hrequested
    split
    · exact Serves.refl w
    · exact Serves.refl w
    · rename_i hcontact
      rw [hcontact] at hrequested
      have hrequest := request_serves (Serves.refl w) hrequested
      split
      · rename_i hr
        rw [hr] at hrequest
        exact hrequest
      · rename_i hr
        rw [hr] at hrequest
        exact hrequest

/-! ### Controllers -/

theorem confirmed_serves {w' : World} (h : Serves svc w req call w') {id : String}
    (hrequested : requested svc w req call = some (w'.db, id)) (answer : Response) :
    Serves svc w req call (Controllers.confirmed svc w' req.amb id answer).1 := by
  have hrequest := request_serves h hrequested
  unfold Controllers.confirmed
  split
  · rename_i hr
    rw [hr] at hrequest
    exact hrequest
  · rename_i hr
    rw [hr] at hrequest
    exact hrequest

theorem register_post_serves {body : Dict} (hcall : call = .post .account body) :
    Serves svc w req call (Controllers.register svc w req body).1 := by
  unfold Controllers.register
  split
  · rename_i hforgot
    refine forgotPassword_serves ?_
    simp only [hcall, requested]
    rw [if_pos hforgot]
  · rename_i hforgot
    have hreg : Serves svc w req call (SessionAuth.register svc w req.amb (body.get "identity")
        (body.get "username") (body.get "name") true .none).1 := by
      refine register_serves (Serves.refl w) fun _ => ?_
      simp only [hcall, requested]
      rw [if_neg hforgot]
    revert hreg
    rcases SessionAuth.register svc w req.amb (body.get "identity") (body.get "username")
      (body.get "name") true .none with ⟨w₁, answer⟩
    intro hreg
    simp only at hreg ⊢
    split
    · exact hreg
    · exact accountAdd_serves hreg ..

theorem post_serves {m : Model} {body : Dict} (hcall : call = .post m body) :
    Serves svc w req call (Controllers.post svc w req m body).1 := by
  unfold Controllers.post
  split
  · rename_i hm
    exact register_post_serves (hm ▸ hcall)
  · split
    · exact Serves.refl w
    · split
      · exact Serves.refl w
      · have hdb : Serves svc w req call { w with db := (Controllers.created svc w req m body).1 } :=
          (Serves.refl w).withDb _
        simp only
        split
        · rename_i hcreated
          unfold Controllers.afterCreate
          simp only
          split
          · refine confirmed_serves hdb ?_ _
            simp only [hcall, requested]
            rw [if_pos hcreated]
          · split
            · split
              · exact hdb.withDb _
              · exact hdb
            · exact hdb
          · split
            · exact hdb.withDb _
            · exact hdb
          · exact hdb
        · exact hdb

theorem put_serves {m : Model} {id : String} {body : Dict} (hcall : call = .put m id body) :
    Serves svc w req call (Controllers.put svc w req m id body).1 := by
  unfold Controllers.put
  simp only
  split
  · exact Serves.refl w
  · split
    · rename_i hm
      subst hm
      split
      · rename_i db hok
        refine confirmed_serves ((Serves.refl w).withDb db) ?_ _
        simp only [hcall, requested]
        rw [hok]
      · exact Serves.refl w
    · split
      · exact (Serves.refl w).withDb _
      · exact (Serves.refl w).withDb _

/-! ### API keys -/

theorem cached_serves {keyId secret : String} :
    Serves svc w req call (ApiKey.cached svc w keyId secret).1 := by
  rcases ApiKey.cached_cases svc w keyId secret with ⟨item, _, _, hcached⟩ | ⟨_, hcached⟩
  · rw [hcached]
    exact Serves.refl w
  · rw [hcached]
    obtain ⟨db, hrefill | ⟨record, account, _, hrefill⟩⟩ := ApiKey.refill_cases svc w keyId secret
    · rw [hrefill]
      exact (Serves.refl w).withDb db
    · rw [hrefill]
      refine ⟨rfl, fun _ _ _ h => Or.inl h, fun keyId' item hitem => ?_⟩
      by_cases heq : keyId' = keyId
      · subst heq
        simp only [Function.update_self] at hitem
        cases hitem
        exact Or.inr ⟨db, record, account, rfl⟩
      · simp only [Function.update_of_ne heq] at hitem
        exact Or.inl hitem

theorem access_serves {h : Headers} {endpoint apikey : String} :
    Serves svc w req call (ApiKey.access svc w h endpoint apikey).1 := by
  unfold ApiKey.access
  split
  · rename_i keyId secret _
    have hcached : Serves svc w req call (ApiKey.cached svc w keyId secret).1 := cached_serves
    split
    · rename_i hr
      rw [hr] at hcached
      exact hcached
    · rename_i w₁ item hr
      rw [hr] at hcached
      split
      · exact hcached
      · split
        · exact hcached
        · have hitem : (ApiKey.cached svc w keyId secret).2 = some item := by rw [hr]
          simp only [ApiKey.openSession]
          split
          · exact hcached
          · exact hcached.create fun _ => .apikey _ hitem
  · exact Serves.refl w

theorem auth_serves {h : Headers} {endpoint apikey : String} {required : List String} :
    Serves svc w req call (ApiKey.auth svc w h endpoint apikey required).1 := by
  have haccess : Serves svc w req call (ApiKey.access svc w h endpoint apikey).1 := access_serves
  unfold ApiKey.auth
  split
  · exact Serves.refl w
  · split
    all_goals
      rename_i hr
      rw [hr] at haccess
      exact haccess

/-! ### The service -/

/-- Serving a call opens only the sessions listed, and caches only keys it verified. -/
theorem handle_serves (svc : Service) (w : World) (req : Request) (call : Call) :
    Serves svc w req call (handle svc w req call).1 := by
  cases call with
  | authBasic username password =>
      simp only [handle, basic]
      split
      · exact Serves.refl w
      · split
        · exact Serves.refl w
        · exact (Serves.refl w).delete _ _
  | authApikey endpoint apikey required =>
      have hauth : Serves svc w req (.authApikey endpoint apikey required)
          (ApiKey.auth svc w req.headers endpoint apikey required).1 := auth_serves
      simp only [handle]
      rcases hr : ApiKey.auth svc w req.headers endpoint apikey required with ⟨w₁, uid | answer⟩
      all_goals
        rw [hr] at hauth
        exact hauth
  | login username password method otp => exact accountLogin_serves rfl
  | logout =>
      simp only [handle]
      rcases req.headers.authorization with _ | ⟨username, password⟩
      · exact Serves.refl w
      · exact (Serves.refl w).delete _ _
  | callback method => exact callback_serves rfl
  | totpGenerate => exact totpGenerate_serves
  | totpRegister body => exact totpRegister_serves
  | changePassword uid body => exact changePassword_serves rfl
  | post m body => exact post_serves rfl
  | put m id body => exact put_serves rfl
  | delete m ids force =>
      simp only [handle, Controllers.delete]
      by_cases hm : m ∉ Controllers.routed
      · rw [if_pos hm]
        exact Serves.refl w
      · rw [if_neg hm]
        exact (Serves.refl w).withDb _
  | trashUpdate id body => exact (Serves.refl w).withDb _
  | trashDelete ids => exact (Serves.refl w).withDb _
  | confirmationGet id =>
      have hrequest : Serves svc w req (.confirmationGet id)
          (Confirmation.request svc w req.amb id).1 := request_serves (Serves.refl w) rfl
      simp only [handle]
      rcases hr : Confirmation.request svc w req.amb id with ⟨w₁, _ | answer⟩
      all_goals
        rw [hr] at hrequest
        exact hrequest
  | confirm token => exact confirm_serves rfl

end Apicrud
