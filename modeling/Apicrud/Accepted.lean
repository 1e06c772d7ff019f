import Apicrud.Controllers

/-! # Who reaches `login_accepted`

Four login paths end in `login_accepted`: the password step of `local_func` or `ldap_func`, the
one-time password step, and the callback of a provider.  `acceptedBy` is what they pass on, with the
state at that moment; `loggedIn` and `confirmedBy` are the owner and the token of the session that a
login or a confirmation then opens. -/

namespace Apicrud

open Relational

variable (svc : Service)

/-! ### Arguments of `login_accepted` -/

/-- What `account_login` passes on to `login_accepted`, when it gets there. -/
def loginArgs (w : World) (req : Request) (username : String) (password method otp : Val) :
    Option (World × Row × Val) :=
  let acc := req.access svc w
  if req.amb.lockedOut then none
  else if acc.HasRole "pendingtotp" ∨ (otp.truthy ∧ acc.apikeyId.isSome) then
    if otp.truthy then
      match TotpFunc.login svc w req username otp.text with
      | (w, .ok account) => some (w, account, acc.authMethod)
      | (_, .error _) => none
    else none
  else if method ∈ svc.conf.authParams.map .str then none
  else if ¬ method.truthy ∨ method ∈ svc.conf.authMethods.map .str then
    match SessionAuth.tryMethods svc req.amb username password w (.message "access denied" 403)
        (SessionAuth.methodItems svc method) with
    | (w, .ok (item, account)) => some (w, account, .str item)
    | (_, .error _) => none
  else none

namespace OAuth2

/-- What an unknown user of a provider passes on, after registering. -/
def unknownArgs (w : World) (req : Request) (method : String) (user : UserInfo) :
    Option (World × Row × Val) :=
  let identity := svc.lib.identityNormalize user.email
  let username := .str (String.ofList (((Text.split identity.text '@').headD "").toList.take 15) ++
    "-" ++ req.amb.genId .username)
  if svc.conf.loginExternalPolicy = "auto" then
    match SessionAuth.registerExternal svc w req.amb identity username user.name user.picture with
    | (w, .ok account) => some (w, account, .str method)
    | (_, .error _) => none
  else none

/-- What `callback` passes on. -/
def callbackArgs (w : World) (req : Request) (method : String) : Option (World × Row × Val) :=
  match req.amb.userInfo with
  | none => none
  | some user =>
      let identity := svc.lib.identityNormalize user.email
      if identity.truthy ∧ Text.Contains identity.text "@" then
        match lookup w.db .contact [("info", identity)] with
        | .error .noResultFound => unknownArgs svc w req method user
        | .error .multipleResultsFound => none
        | .ok contact =>
            match accountFor w.db identity with
            | .error _ => none
            | .ok account =>
                match ownerOf w.db account with
                | none => none
                | some owner =>
                    if owner "status" ≠ .str "active" ∨ contact "status" = .str "disabled" then none
                    else some (w, account, .str method)
      else none

end OAuth2

/-- What serving a call passes on to `login_accepted`, when it gets there. -/
def acceptedBy (w : World) (req : Request) : Call → Option (World × Row × Val)
  | .login username password method otp => loginArgs svc w req username password method otp
  | .callback method => OAuth2.callbackArgs svc w req method
  | _ => none

variable {svc} {w w' : World} {req : Request} {account : Row} {m : Val}

/-- `account_login` ends in `login_accepted` with these arguments. -/
theorem accountLogin_of_args {username : String} {password method otp : Val}
    (h : loginArgs svc w req username password method otp = some (w', account, m)) :
    SessionAuth.accountLogin svc w req username password method otp =
      ((SessionAuth.loginAccepted svc w' req account m).1,
        SessionAuth.unpacked (SessionAuth.loginAccepted svc w' req account m).2) := by
  unfold loginArgs at h
  unfold SessionAuth.accountLogin
  simp only at h ⊢
  split at h
  · cases h
  · rename_i hopen
    rw [if_neg hopen]
    split at h
    · rename_i hstep
      rw [if_pos hstep]
      split at h
      · rename_i hotp
        rw [if_pos hotp]
        rcases hlogin : TotpFunc.login svc w req username otp.text with ⟨w₁, answer | found⟩
        · rw [hlogin] at h
          cases h
        · rw [hlogin] at h
          cases h
          rfl
      · cases h
    · rename_i hstep
      rw [if_neg hstep]
      split at h
      · cases h
      · rename_i hmethod
        rw [if_neg hmethod]
        split at h
        · rename_i hitems
          rw [if_pos hitems]
          rcases hr : SessionAuth.tryMethods svc req.amb username password w
              (.message "access denied" 403) (SessionAuth.methodItems svc method) with
            ⟨w₁, answer | ⟨item, found⟩⟩
          · rw [hr] at h
            cases h
          · rw [hr] at h
            cases h
            rfl
        · cases h

/-- An unknown user of a provider ends there too. -/
theorem unknown_of_args {method : String} {user : UserInfo}
    (h : OAuth2.unknownArgs svc w req method user = some (w', account, m)) :
    OAuth2.handleUnknownUser svc w req method user = SessionAuth.loginAccepted svc w' req account m := by
  unfold OAuth2.unknownArgs at h
  unfold OAuth2.handleUnknownUser
  simp only at h ⊢
  split_ifs at h with hpolicy
  rw [if_neg (by rw [hpolicy]; decide), if_pos hpolicy]
  rcases hr : SessionAuth.registerExternal svc w req.amb (svc.lib.identityNormalize user.email)
      (.str (String.ofList (((Text.split (svc.lib.identityNormalize user.email).text
        '@').headD "").toList.take 15) ++ "-" ++ req.amb.genId .username)) user.name user.picture with
    ⟨w₁, answer | found⟩
  · rw [hr] at h
    cases h
  · rw [hr] at h
    cases h
    rfl

/-- `callback` ends in `login_accepted` with these arguments. -/
theorem callback_of_args {method : String}
    (h : OAuth2.callbackArgs svc w req method = some (w', account, m)) :
    OAuth2.callback svc w req method = SessionAuth.loginAccepted svc w' req account m := by
  unfold OAuth2.callbackArgs at h
  unfold OAuth2.callback
  cases huser : req.amb.userInfo with
  | none =>
      rw [huser] at h
      cases h
  | some user =>
      rw [huser] at h
      simp only at h ⊢
      split at h
      · rename_i hidentity
        rw [if_pos hidentity]
        cases hcontact : lookup w.db .contact [("info", svc.lib.identityNormalize user.email)] with
        | error e =>
            rw [hcontact] at h
            cases e with
            | multipleResultsFound => cases h
            | noResultFound => exact unknown_of_args h
        | ok contact =>
            rw [hcontact] at h
            simp only at h ⊢
            cases haccount : OAuth2.accountFor w.db (svc.lib.identityNormalize user.email) with
            | error answer =>
                rw [haccount] at h
                cases h
            | ok found =>
                rw [haccount] at h
                simp only at h ⊢
                cases howner : ownerOf w.db found with
                | none =>
                    rw [howner] at h
                    cases h
                | some owner =>
                    rw [howner] at h
                    simp only at h ⊢
                    split_ifs at h with hdisabled
                    cases h
                    rw [if_neg hdisabled]
      · cases h

/-! ### The sessions of logins and confirmations -/

variable (svc)

namespace SessionAuth

/-- The session that `login_accepted` opens, if its slot is free. -/
def openLogin (w : World) (req : Request) (account : Row) (method : Val) : World × Option Session :=
  let a := acceptedAs svc w req account method
  if a = .raises then (w, none)
  else
    (stampLogin w a account).createSession svc (some (account "uid").text) (a.roles account) none
      (req.amb.genId .session) (a.duration svc account)
      (loginKwargs (stampLogin w a account).db account method)

theorem loginAccepted_fst (w : World) (req : Request) (account : Row) (method : Val) :
    (loginAccepted svc w req account method).1 = (openLogin svc w req account method).1 := by
  unfold loginAccepted openLogin
  simp only
  split
  · rfl
  · split <;> rfl

end SessionAuth

/-- The owner and the token of the session that a login opens. -/
def loggedIn (w : World) (req : Request) (call : Call) : Option (String × String) :=
  match acceptedBy svc w req call with
  | some (w', account, method) =>
      (SessionAuth.openLogin svc w' req account method).2.map fun _ =>
        ((account "uid").text, req.amb.genId .session)
  | none => none

/-- The call of `Confirmation.confirm` that serving a call makes: the token, and whether its session
is removed. -/
def confirmCall (w : World) : Call → Option (String × Bool)
  | .confirm token => some (token, false)
  | .changePassword uid body =>
      match LocalUser.checkNew w.db uid (body.get "new_password") (body.get "verify_password") with
      | .error _ => none
      | .ok _ =>
          if (body.get "old_password").truthy then none
          else
            match body.get "reset_token" with
            | .str token => some (token, true)
            | _ => none
  | _ => none

/-- The owner and the token of the session that a confirmation opens. -/
def confirmedBy (w : World) (req : Request) (call : Call) : Option (String × String) :=
  match confirmCall w call with
  | some (token, clear) =>
      match Confirmation.check svc w token with
      | .ok (_, _, _, contact) =>
          if (Confirmation.confirm svc w req.amb token clear).2.status = 200 then
            some ((contact "uid").text, req.amb.genId .session)
          else none
      | .error _ => none
  | none => none

end Apicrud
