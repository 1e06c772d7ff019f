import Apicrud.Confirmation

/-! # Registration and accepted logins

`register` and `account_add` create the records of a new user; `login_accepted` decides which
roles an authenticated account gets, and opens its session. -/

namespace Apicrud

open Relational

/-- `filter_by(..).one()` -/
def lookup (db : Database) (m : Model) (conds : List (String × Val)) : Except QueryError Row :=
  one (filterBy conds (db.rows m))

/-- A new record, with the server's defaults. -/
def record (m : Model) (cells : List (String × Val)) : Row := BasicCrud.newRow m (Dict.ofList cells)

namespace SessionAuth

variable (svc : Service)

/-! ### Registration -/

/-- The new person and the primary contact of `register`. -/
def addPerson (db : Database) (uid cid : String) (identity name : Val) : Db Model :=
  (db.1.insert .person (record .person [("id", .str uid), ("name", name), ("identity", identity),
      ("status", .str "active")])).insert .contact
    (record .contact [("id", .str cid), ("uid", .str uid), ("type", .str "email"),
      ("info", identity)])

/-- The user that `register` works for: a known person without an account, or a new one.
Gives the database with the user, the uid and the id of the primary contact. -/
def registrant (db : Database) (amb : Ambient) (identity username name : Val) :
    Except Response (Database × Val × String) := do
  Checks.ensure (username.truthy ∧ identity.truthy ∧ name.truthy)
    (.message "all fields required" 400)
  let identity := svc.lib.identityNormalize identity
  match lookup db .account [("name", username)] with
  | .ok _ => .error (.message "that username is already registered" 405)
  | .error .multipleResultsFound => .error .raised
  | .error .noResultFound =>
      match lookup db .person [("identity", identity)] with
      | .error .multipleResultsFound => .error .raised
      | .ok existing =>
          match lookup db .account [("uid", existing "id")] with
          | .ok _ =>
              .error (.message "that email is already registered, use forgot-password" 405)
          | .error .multipleResultsFound => .error .raised
          | .error .noResultFound =>
              match lookup db .contact [("info", identity), ("type", .str "email")] with
              | .ok contact => .ok (db, existing "id", (contact "id").text)
              | .error _ => .error dbAbort
      | .error .noResultFound =>
          let uid := amb.genIdWith "u-" .person
          let cid := amb.genIdWith "x-" .contact
          match schema.store (addPerson db uid cid identity name) with
          | .ok db => .ok (db, .str uid, cid)
          | .error _ => .error dbAbort

/-- A profile item of a new user; one that exists already is left as it is. -/
def addProfile (db : Database) (id : String) (uid : Val) (item : String) (value : Val) : Database :=
  match schema.store (db.1.insert .profile (record .profile [("id", .str id), ("uid", uid),
      ("item", .str item), ("value", value), ("status", .str "active")])) with
  | .ok db => db
  | .error _ => db

/-- The language of the settings named `global`. -/
def defaultLang (db : Database) : Val :=
  match lookup db .settings [("name", .str "global")] with
  | .ok settings => settings "lang"
  | .error _ => .str "en"

/-- The profile items of `register`. -/
def addProfiles (db : Database) (amb : Ambient) (uid picture : Val) : Database :=
  let db :=
    match amb.lang with
    | some lang =>
        if lang ≠ "" ∧ Val.str lang ≠ defaultLang db then
          addProfile db (amb.genIdWith "x-" .lang) uid "lang" (.str lang)
        else db
    | none => db
  if picture.truthy then addProfile db (amb.genIdWith "x-" .picture) uid "picture" picture else db

/-- `register`: with a template the address is to be confirmed, without one it becomes active. -/
def register (w : World) (amb : Ambient) (identity username name : Val) (template : Bool)
    (picture : Val) : World × Response :=
  match registrant svc w.db amb identity username name with
  | .error answer => (w, answer)
  | .ok (db, uid, cid) =>
      let w := { w with db := addProfiles db amb uid picture }
      if template then
        match Confirmation.request svc w amb cid with
        | (w, some answer) => (w, answer)
        | (w, none) => (w, .raised)
      else
        match BasicCrud.setStatus w.db .contact cid (.str "active") with
        | .ok db =>
            ({ w with db := db },
              ⟨Dict.ofList [("uid", uid), ("message", .str "registered")], 200⟩)
        | .error _ => (w, dbAbort)

/-- `account_add` -/
def accountAdd (w : World) (amb : Ambient) (username uid : Val) : World × Response :=
  match lookup w.db .settings [("name", .str "global")] with
  -- the call of the handler passes `message` twice
  | .error _ => (w, .raised)
  | .ok settings =>
      let id := amb.genIdWith "x-" .account
      match schema.store (w.db.1.insert .account (record .account [("id", .str id), ("uid", uid),
          ("name", username), ("password_must_change", .bool true), ("password", .str ""),
          ("settings_id", settings "id"), ("status", .str "active")])) with
      | .ok db =>
          ({ w with db := db },
            ⟨Dict.ofList [("id", .str id), ("uid", uid), ("username", username)], 201⟩)
      | .error _ => (w, dbAbort)

/-- An externally authenticated user without an account: registered, with an active address. -/
def registerExternal (w : World) (amb : Ambient) (identity username name picture : Val) :
    World × Except Response Row :=
  let (w, answer) := register svc w amb identity username name false picture
  if answer.status ≠ 200 then (w, .error answer)
  else
    let (w, answer) := accountAdd w amb username (answer.body.get "uid")
    if answer.status ≠ 201 then (w, .error answer)
    else
      match one (byId w.db .account (answer.body.get "id").text) with
      | .ok account => (w, .ok account)
      | .error _ => (w, .error .raised)

/-! ### Accepted logins -/

/-- `totp_bypass` -/
def totpBypass (w : World) (h : Headers) (uid : String) : Bool :=
  match h.cookie with
  | some cookie => (SessionManager.find w.redis w.now (some uid) cookie none).isSome
  | none => false

/-- The method is one of the two that the second factor always guards. -/
def Internal (method : Val) : Prop := method = .str "local" ∨ method = .str "ldap"

instance (method : Val) : Decidable (Internal method) := inferInstanceAs (Decidable (_ ∨ _))

/-- The contact that an account's login looks at. -/
def primaryContact (db : Database) (account : Row) : Except QueryError Row :=
  match ownerOf db account with
  | some owner => lookup db .contact [("info", owner "identity"), ("type", .str "email")]
  | none => .error .noResultFound

/-- How `login_accepted` goes on. -/
inductive Accepted where
  | pwchange
  | mfarequired
  | pendingtotp
  | full
  | nothing
  | raises
deriving DecidableEq

/-- The choice of roles of `login_accepted`. -/
def acceptedAs (w : World) (req : Request) (account : Row) (method : Val) : Accepted :=
  if (account "password_must_change").truthy ∧ method = .str "local" then .pwchange
  else if ¬ hasTotp account ∧ svc.conf.loginMfaRequired = true ∧
      (Internal method ∨ svc.conf.loginMfaExternal = true) then .mfarequired
  else if totpBypass w req.headers (account "uid").text = false ∧ hasTotp account ∧
      (Internal method ∨ svc.conf.loginMfaExternal = true) ∧
      ¬ (req.access svc w).HasRole "pendingtotp" then .pendingtotp
  else
    match primaryContact w.db account with
    | .ok contact =>
        if contact "status" = .str "active" ∨ contact "status" = .str "unconfirmed" then .full
        else .nothing
    | .error _ => .raises

/-- The roles of a new login session. -/
def Accepted.roles (a : Accepted) (account : Row) : List String :=
  match a with
  | .pwchange => ["person", "pwchange"]
  | .mfarequired => ["mfarequired"]
  | .pendingtotp => ["pendingtotp"]
  | .full => if (account "is_admin").truthy then ["admin", "user"] else ["user"]
  | .nothing | .raises => []

/-- The lifetime of a new login session. -/
def Accepted.duration (a : Accepted) (account : Row) : ℕ :=
  match a with
  | .pwchange | .mfarequired => 300
  | .pendingtotp => 120
  | .full | .nothing | .raises =>
      if (account "is_admin").truthy then svc.conf.loginAdminLimit else svc.conf.loginSessionLimit

/-- `account.last_login = utcnow()`, for a full login; a failure is only logged. -/
def stampLogin (w : World) (a : Accepted) (account : Row) : World :=
  if a = .full then
    match schema.store (w.db.1.modify .account (fun row => decide (row "id" = account "id"))
        fun row => Function.update row "last_login" (.time w.now)) with
    | .ok db => { w with db := db }
    | .error _ => w
  else w

/-- What a login session holds besides the claims. -/
def loginKwargs (db : Database) (account : Row) (method : Val) : List (String × Val) :=
  [("acc", account "id"),
    ("identity", match ownerOf db account with
      | some owner => owner "identity"
      | none => .none),
    ("method", method)]

/-- `login_accepted` -/
def loginAccepted (w : World) (req : Request) (account : Row) (method : Val) : World × Response :=
  let a := acceptedAs svc w req account method
  if a = .raises then (w, .raised)
  else
    let w := stampLogin w a account
    let (w, ses) := w.createSession svc (some (account "uid").text) (a.roles account) none
      (req.amb.genId .session) (a.duration svc account) (loginKwargs w.db account method)
    match ses with
    | some ses =>
        (w, ⟨Dict.ofList [("jwt_token", .str (svc.lib.jwtEncode ses)),
          ("settings_id", account "settings_id"), ("username", account "name")],
          if Internal method then 201 else 302⟩)
    | none => (w, dbAbort)

end SessionAuth

end Apicrud
