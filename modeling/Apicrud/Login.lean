import Apicrud.SessionAuth

/-! # Logging in

The password step of `local_func`, the directory step of `ldap_func`, the one-time password step
of `totp_func`, the callback of an external provider, and `account_login`, which picks one of them;
then the enrolment of a TOTP secret in `AuthTOTP`. -/

namespace Apicrud

open Relational

/-! ### Passwords and directories -/

/-- `Account` joined with its person. -/
def accountsOf (db : Database) (p : Row → Row → Bool) : List Row :=
  (db.rows .account).filter fun account =>
    match ownerOf db account with
    | some owner => p account owner
    | none => false

namespace LocalFunc

/-- The account of a login name, by identity when it holds an at sign. -/
def find (db : Database) (username : String) : Except QueryError Row :=
  if Text.Contains username "@" then
    one (accountsOf db fun account owner =>
      decide (owner "identity" = .str username ∧ account "status" = .str "active"))
  else lookup db .account [("name", .str username), ("status", .str "active")]

/-- `local_func.login` -/
def login (svc : Service) (db : Database) (username : String) (password : Val) :
    Except Response Row :=
  match find db username with
  | .error .noResultFound => .error (.message "not valid" 403)
  | .error .multipleResultsFound => .error .raised
  | .ok account =>
      if account "password" = .str "" then .error (.message "no password" 403)
      else if password.truthy ∧ svc.lib.cryptVerify password.text (account "password").text = true
      then .ok account
      else .error (.message "not valid" 403)

end LocalFunc

namespace LdapFunc

/-- The identity of a directory entry. -/
def identityOf (svc : Service) (user : UserInfo) : Val :=
  if svc.conf.ldapAttrIdentity then svc.lib.identityNormalize user.email
  else .str (user.accountName.text ++ "@" ++ svc.conf.ldapEmailDomain)

/-- `ldap_func.login`: an unknown user is registered. -/
def login (svc : Service) (w : World) (amb : Ambient) : World × Except Response Row :=
  match amb.userInfo with
  | none => (w, .error (.message "access denied" 403))
  | some user =>
      let identity := identityOf svc user
      if identity.truthy ∧ Text.Contains identity.text "@" then
        match one (accountsOf w.db fun account owner =>
            decide (owner "identity" = identity ∧ account "name" = user.accountName ∧
              account "status" = .str "active")) with
        | .ok account => (w, .ok account)
        | .error .multipleResultsFound => (w, .error dbAbort)
        | .error .noResultFound =>
            SessionAuth.registerExternal svc w amb identity user.accountName user.name .none
      else (w, .error (.message "access denied" 403))

end LdapFunc

/-! ### One-time passwords -/

namespace TotpFunc

variable (svc : Service)

/-- Backup codes are looked up in steps of one digest; the matching one is cut out. -/
def cutCode (digest : List Char) : ℕ → List Char → Option (List Char)
  | 0, _ => none
  | n + 1, codes =>
      if codes = [] then none
      else if codes.take 16 = digest then some (codes.drop 16)
      else (cutCode digest n (codes.drop 16)).map (codes.take 16 ++ ·)

/-- The account of the one-time password step. -/
def account (w : World) (acc : Access) (username : String) : Except QueryError Row :=
  if acc.apikeyId.isSome then lookup w.db .account [("name", .str username)]
  else lookup w.db .account [("id", acc.accountId)]

/-- The one-time password or backup code of an account; a backup code is used up. -/
def verify (w : World) (account : Row) (otp : String) : Except Response Database :=
  if otp.toList.length = 8 then
    match account "backup_codes" with
    | .str stored =>
        match svc.lib.decryptBin stored with
        | some codes =>
            match cutCode (svc.lib.md5 otp).toList (codes.toList.length + 1) codes.toList with
            | some rest =>
                Checks.orElse (schema.store (w.db.1.modify .account
                  (fun row => decide (row "id" = account "id"))
                  fun row => Function.update row "backup_codes" (.str (String.ofList rest))))
                  fun _ => .raised
            | none => .error (.message "access denied" 403)
        | none => .error .raised
    | _ => .error .raised
  else if ¬ hasTotp account then .error (.message "access denied" 403)
  else if svc.lib.totpVerify (account "totp_secret").text otp w.now = true then .ok w.db
  else .error (.message "access denied" 403)

/-- `totp_func.login`: the used password is marked, and a bypass session made. -/
def login (w : World) (req : Request) (username : String) (otp : String) :
    World × Except Response Row :=
  let acc := req.access svc w
  match account w acc username with
  | .error .noResultFound => (w, .error (.message "access denied" 403))
  | .error .multipleResultsFound => (w, .error .raised)
  | .ok account =>
      match verify svc w account otp with
      | .error answer => (w, .error answer)
      | .ok db =>
          let w := { w with db := db }
          match w.otps.setNX w.now (acc.accountId.text, otp) () 60 with
          | none => (w, .error (.message "access denied" 403))
          | some otps =>
              let w := { w with otps := otps }
              if svc.conf.loginMfaCookieLimit = 0 then (w, .ok account)
              else
                let identity := match ownerOf w.db account with
                  | some owner => owner "identity"
                  | none => .none
                let (w, ses) := w.createSession svc acc.uid [] none (req.amb.genId .bypass)
                  svc.conf.loginMfaCookieLimit [("acc", account "id"), ("identity", identity)]
                match ses with
                | some _ => (w, .ok account)
                | none => (w, .error .raised)

end TotpFunc

/-! ### The login endpoint -/

namespace SessionAuth

variable (svc : Service)

/-- The methods tried in turn, up to the first that accepts: its name and the account. -/
def tryMethods (amb : Ambient) (username : String) (password : Val) :
    World → Response → List String → World × Except Response (String × Row)
  | w, answer, [] => (w, .error answer)
  | w, answer, item :: items =>
      if item = "local" then
        match LocalFunc.login svc w.db username password with
        | .ok account => (w, .ok (item, account))
        | .error answer => tryMethods amb username password w answer items
      else if item = "ldap" then
        match LdapFunc.login svc w amb with
        | (w, .ok account) => (w, .ok (item, account))
        | (w, .error answer) => tryMethods amb username password w answer items
      else tryMethods amb username password w answer items

/-- The methods a login goes through: those configured, or the letters of the one asked for. -/
def methodItems (method : Val) : List String :=
  if method.truthy then method.items.getD [] else svc.conf.authMethods

/-- `oauth2_func.login`: the provider is asked by a redirect. -/
def oauth2Login (amb : Ambient) : Response :=
  match amb.authorize with
  | .missing => .message "login client missing" 500
  | .refused => .message "openid client failure" 405
  | .redirect location => ⟨Dict.ofList [("location", .str location)], 200⟩

/-- `content, status, headers = ..`: a redirect or an error of the database has no three parts. -/
def unpacked (answer : Response) : Response := if answer.status = 201 then answer else .raised

/-- `dict(username=username, message=msg), 403` -/
def lockedOut (username : String) : Response :=
  ⟨Dict.ofList [("username", .str username), ("message", .str "locked out")], 403⟩

/-- `account_login` -/
def accountLogin (w : World) (req : Request) (username : String) (password method otp : Val) :
    World × Response :=
  let acc := req.access svc w
  if req.amb.lockedOut then (w, lockedOut username)
  else if acc.HasRole "pendingtotp" ∨ (otp.truthy ∧ acc.apikeyId.isSome) then
    if otp.truthy then
      match TotpFunc.login svc w req username otp.text with
      | (w, .ok account) =>
          let (w, answer) := loginAccepted svc w req account acc.authMethod
          (w, unpacked answer)
      | (w, .error answer) => (w, answer)
    else (w, .message "access denied" 403)
  else if method ∈ svc.conf.authParams.map .str then (w, oauth2Login req.amb)
  else if ¬ method.truthy ∨ method ∈ svc.conf.authMethods.map .str then
    match tryMethods svc req.amb username password w (.message "access denied" 403)
        (methodItems svc method) with
    | (w, .ok (item, account)) =>
        let (w, answer) := loginAccepted svc w req account (.str item)
        (w, unpacked answer)
    | (w, .error answer) => (w, answer)
  else (w, .message "unsupported login method" 500)

end SessionAuth

/-! ### External providers -/

namespace OAuth2

variable (svc : Service)

/-- The account that a provider's identity belongs to. -/
def accountFor (db : Database) (identity : Val) : Except Response Row :=
  match one (accountsOf db fun account owner =>
      decide (owner "identity" = identity ∧ account "status" = .str "active")) with
  | .ok account => .ok account
  | .error .multipleResultsFound => .error dbAbort
  | .error .noResultFound =>
      match one (accountsOf db fun _ owner => (db.rows .contact).any fun contact =>
          decide (contact "uid" = owner "id" ∧ contact "info" = identity ∧
            contact "type" = .str "email")) with
      | .ok account => .ok account
      | .error .noResultFound => .error (.message "access denied" 403)
      | .error .multipleResultsFound => .error dbAbort

/-- `_handle_unknown_user` -/
def handleUnknownUser (w : World) (req : Request) (method : String) (user : UserInfo) :
    World × Response :=
  let identity := svc.lib.identityNormalize user.email
  let username := .str (String.ofList (((Text.split identity.text '@').headD "").toList.take 15) ++
    "-" ++ req.amb.genId .username)
  if svc.conf.loginExternalPolicy = "closed" then (w, .message "not valid" 403)
  else if svc.conf.loginExternalPolicy = "auto" then
    match SessionAuth.registerExternal svc w req.amb identity username user.name user.picture with
    | (w, .ok account) => SessionAuth.loginAccepted svc w req account (.str method)
    | (w, .error answer) => (w, answer)
  else if svc.conf.loginExternalPolicy = "open" then
    let (w, answer) :=
      SessionAuth.register svc w req.amb identity username user.name true user.picture
    if answer.status ≠ 200 then (w, answer)
    -- the comparison of the answer with a number never holds: the first answer is given back
    else ((SessionAuth.accountAdd w req.amb username (answer.body.get "uid")).1, answer)
  else (w, .message "unimplemented" 403)

/-- `callback` -/
def callback (w : World) (req : Request) (method : String) : World × Response :=
  match req.amb.userInfo with
  | none => (w, .message "openid client failure" 500)
  | some user =>
      let identity := svc.lib.identityNormalize user.email
      if identity.truthy ∧ Text.Contains identity.text "@" then
        match lookup w.db .contact [("info", identity)] with
        | .error .noResultFound => handleUnknownUser svc w req method user
        | .error .multipleResultsFound => (w, dbAbort)
        | .ok contact =>
            match accountFor w.db identity with
            | .error answer => (w, answer)
            | .ok account =>
                match ownerOf w.db account with
                | none => (w, .raised)
                | some owner =>
                    if owner "status" ≠ .str "active" ∨ contact "status" = .str "disabled" then
                      (w, .message "access denied" 403)
                    else SessionAuth.loginAccepted svc w req account (.str method)
      else (w, .message "access denied" 403)

end OAuth2

/-! ### Enrolment -/

namespace AuthTotp

variable (svc : Service)

/-- The active account of the session. -/
def account (w : World) (acc : Access) : Except QueryError Row :=
  lookup w.db .account [("id", acc.accountId), ("status", .str "active")]

/-- `generate`: a secret is offered in a session of its own. -/
def generate (w : World) (req : Request) : World × Response :=
  let acc := req.access svc w
  match account w acc with
  -- the call of the handler builds a malformed dictionary
  | .error _ => (w, .raised)
  | .ok account =>
      if hasTotp account then (w, .message "access denied" 403)
      else
        let (w, ses) := w.createSession svc acc.uid ["pendingtotp"] none (req.amb.genId .enrolment)
          120 [("totp", .str req.amb.totpSecret)]
        match ses with
        | some ses => (w, ⟨ses, 200⟩)
        | none => (w, .raised)

/-- `register`: the first password of the offered secret is checked, and the secret stored. -/
def register (w : World) (req : Request) (body : Dict) : World × Response :=
  let acc := req.access svc w
  match body.get "nonce" with
  | .str nonce =>
      let secret := SessionManager.get w.redis w.now acc.uid nonce "totp"
      if ¬ secret.truthy then (w, .message "access denied" 403)
      else
        match account w acc with
        | .error _ => (w, .raised)
        | .ok account =>
            if hasTotp account then (w, .message "access denied" 403)
            else if body.get "otp_first" ≠ .str (svc.lib.totpNow secret.text w.now) then
              (w, .message "access denied" 403)
            else
              let codes := svc.lib.encryptBin req.amb.salt
                (String.join (req.amb.backupCodes.map svc.lib.md5))
              match schema.store (w.db.1.modify .account
                  (fun row => decide (row "id" = account "id"))
                  fun row => Row.write row
                    (Dict.ofList [("totp_secret", secret), ("backup_codes", .str codes)])) with
              | .ok db =>
                  ({ w with db := db }, ⟨Dict.ofList [("message", .str "registered"),
                    ("backup_codes", .list req.amb.backupCodes)], 200⟩)
              | .error _ => (w, dbAbort)
  | _ => (w, .raised)

end AuthTotp

end Apicrud
