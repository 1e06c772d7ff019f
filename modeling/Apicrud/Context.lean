import Apicrud.Checks
import Apicrud.Regex
import Apicrud.Models

/-! # Configuration, libraries and what a request brings along

`Config` holds the settings of `service_config.yaml` that the modelled code reads, with their
defaults.  `Lib` holds the functions of third-party packages and of the parts of the standard
library that work on Unicode, calendars and digests: they are parameters, and what a result needs of them
is a hypothesis of that result.  `Ambient` is what one request takes from outside the model:
random draws, and the answers of the caches and services that no modelled function writes. -/

namespace Apicrud

open Relational

/-- The settings read by the modelled code. -/
structure Config where
  authMethods : List String := ["local"]
  /-- The names of the external login providers. -/
  authParams : List String := []
  /-- The names under which a default quota is configured. -/
  defaultGrants : List String := ["albums", "album_size", "apikeys", "contacts",
    "email_daily_total", "email_monthly_total", "lists", "list_size", "media_size_max",
    "message_daily_total", "photo_res_max", "photo_daily_total", "ratelimit", "sms_daily_total",
    "sms_monthly_total", "video_duration_max", "video_daily_total"]
  jwtIssuer : String := "dev.example.com"
  ldapAttrIdentity : Bool := true
  ldapEmailDomain : String := "None"
  loginAdminLimit : ℕ := 900
  loginAttemptsMax : ℕ := 5
  loginExternalPolicy : String := "auto"
  loginLockoutInterval : ℕ := 600
  loginMfaApikey : Bool := false
  loginMfaCookieLimit : ℕ := 43200
  loginMfaExternal : Bool := false
  loginMfaRequired : Bool := false
  loginSessionLimit : ℕ := 7200
  ratelimitInterval : ℕ := 300
  redisTtl : ℕ := 1200
  scopesMax : ℕ := 32
  tokenTimeout : ℕ := 43200

/-- Functions that are not part of the repository. -/
structure Lib where
  /-- `str.lower` -/
  lower : String → String
  /-- how `re.I` compares characters -/
  fold : Char → Char
  /-- `datetime.strptime(text, format)` -/
  strptime : String → String → Option ℕ
  /-- `b64encode(hashlib.sha1(text).digest())` -/
  sha1 : String → String
  /-- `b64encode(hashlib.sha256(text).digest())` -/
  sha256 : String → String
  /-- `hashlib.md5(text).digest()` -/
  md5 : String → String
  /-- `sha256_crypt.hash`, the salt first -/
  cryptHash : String → String → String
  /-- `sha256_crypt.verify(password, hash)` -/
  cryptVerify : String → String → Bool
  /-- `pyotp.TOTP(secret).verify(otp, valid_window=1)` at an instant -/
  totpVerify : String → String → ℕ → Bool
  /-- `pyotp.TOTP(secret).now()` at an instant -/
  totpNow : String → ℕ → String
  /-- `AESEncryptBin.encrypt`, the initialization vector first -/
  encryptBin : String → String → String
  /-- `AESEncryptBin.decrypt`; `none` where it raises -/
  decryptBin : String → Option String
  /-- `jwt.encode` of a session -/
  jwtEncode : Dict → String
  /-- `URLSafeTimedSerializer.dumps` at an instant -/
  dumps : String → ℕ → String
  /-- `URLSafeTimedSerializer.loads(token, max_age)` at an instant; `none` where it raises -/
  loads : String → ℕ → ℕ → Option String
  /-- `coordinate / 1.0e7`, rounded to four places or not, as text -/
  degrees : Val → Bool → String

/-- What the calls of `gen_id` of one request are for. -/
inductive Draw where
  | record
  | keySecret
  | keyId
  | contact
  | person
  | lang
  | picture
  | account
  | username
  | session
  | bypass
  | enrolment
deriving DecidableEq

/-- What an identity provider or a directory says of a user. -/
structure UserInfo where
  /-- the account name in the directory -/
  accountName : Val
  email : Val
  name : Val
  picture : Val

/-- What the client of a login provider does. -/
inductive Authorize where
  | missing
  | refused
  | redirect (location : String)

/-- What a request takes from outside the model. -/
structure Ambient where
  /-- the random part of `gen_id` -/
  genId : Draw → String
  /-- eight random letters, for a confirmation -/
  nonce : String
  /-- the salt of a password hash, or the vector of an encryption -/
  salt : String
  /-- `pyotp.random_base32()` -/
  totpSecret : String
  /-- the backup codes drawn at an enrolment -/
  backupCodes : List String
  /-- `Grants().get(name)`: an integer, another text, or nothing -/
  grants : String → Val
  /-- `AccountSettings(account_id).get.category_id`; `none` where it raises -/
  categoryId : Option String
  /-- `geocode.lookup` -/
  geocode : Val × Val × Val
  /-- `Metrics().store('message_daily_total')` -/
  withinDailyTotal : Bool
  /-- `request.accept_languages.best_match(LANGUAGES)` -/
  lang : Option String
  /-- `RateLimit().call` of a login attempt -/
  lockedOut : Bool
  /-- what the directory finds for the credentials of a login, or the provider for a callback -/
  userInfo : Option UserInfo
  /-- `client.authorize_redirect` -/
  authorize : Authorize

/-- The headers the modelled code reads. -/
structure Headers where
  /-- the `X-Api-Key` header -/
  apikey : Option String := none
  /-- the name and password of basic authentication -/
  authorization : Option (String × String) := none
  /-- the cookie `LOGIN_MFA_COOKIE_NAME` -/
  cookie : Option String := none

/-- The exceptions that some handler of the code tells apart. -/
inductive Exc where
  | noResultFound
  | integrityError
  | other
deriving DecidableEq, Repr

/-- A count compared with a granted limit; `none` where the limit is no number. -/
def exceeds (n : ℕ) : Val → Option Bool
  | .int limit => some (decide (limit < n))
  | _ => none

/-- What a controller answers: the body and the HTTP status. -/
structure Response where
  body : Dict
  status : ℕ
deriving DecidableEq

namespace Response

/-- `dict(message=_(text)), status` -/
def message (text : String) (status : ℕ) : Response :=
  ⟨Dict.ofList [("message", .str text)], status⟩

/-- `dict(message=_(text), id=id), status` -/
def messageId (text id : String) (status : ℕ) : Response :=
  ⟨Dict.ofList [("message", .str text), ("id", .str id)], status⟩

/-- What the server answers where the controller raises. -/
def raised : Response := message "Internal Server Error" 500

@[simp] theorem message_status (text : String) (status : ℕ) :
    (message text status).status = status := rfl

@[simp] theorem messageId_status (text id : String) (status : ℕ) :
    (messageId text id status).status = status := rfl

@[simp] theorem raised_status : raised.status = 500 := rfl

end Response

/-- `db_abort` -/
def dbAbort : Response := .message "DB operational error" 500

@[simp] theorem dbAbort_status : dbAbort.status = 500 := rfl

/-- `gen_id(prefix=prefix)` -/
def Ambient.genIdWith (amb : Ambient) (pre : String) (draw : Draw) : String :=
  pre ++ amb.genId draw

namespace Lib

variable (lib : Lib)

/-- `apikey_hash` -/
def apikeyHash (secret : String) : String := lib.sha256 secret

/-- `identity_normalize`; `none` stands for the null it gives for nothing. -/
def identityNormalize (identity : Val) : Val :=
  if identity.truthy then
    let identity := identity.text
    let identity :=
      if Regex.isMatch lib.fold ".*@gmail.com$" identity = some true then
        Text.replace ((Text.split identity '@').headD "") '.' "" ++ "@gmail.com"
      else identity
    match Text.split identity '@' with
    | [user, domain] => .str (lib.lower ((Text.split user '+').headD "" ++ "@" ++ domain))
    | _ => .str (lib.lower identity)
  else .none

/-- `BasicCRUD._fromdate`; `none` where it raises. -/
def fromdate (date : String) : Option ℕ :=
  match Regex.isMatch id "^2[0-9]{3}-((0[1-9])|(1[0-2]))-([0-2][1-9]|3[0-1])$" date with
  | none => none
  | some short =>
      let exp := if short then date ++ "T23:59:59Z" else date
      match lib.strptime exp "%Y-%m-%dT%H:%M:%S.%fZ" with
      | some t => some t
      | none => lib.strptime exp "%Y-%m-%dT%H:%M:%SZ"

end Lib

end Apicrud
