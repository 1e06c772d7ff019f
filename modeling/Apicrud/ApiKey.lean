import Apicrud.LocalUser

/-! # API keys

`access` takes `<prefix>.<secret>`: the prefix is looked up in a process-wide cache, and only when
it is not there (or no longer fresh) the secret is verified against the database.  Then a session
is looked for, or made, under the prefix and the first characters of the hash of the secret. -/

namespace Apicrud

open Relational

namespace ApiKey

variable (svc : Service)

/-- The row that `apikey_verify` looks for. -/
def find (db : Database) (keyId secret : String) : Except QueryError Row :=
  lookup db .apikey [("prefix", .str keyId), ("hashvalue", .str (svc.lib.apikeyHash secret)),
    ("status", .str "active")]

/-- `record.expires and record.expires < utcnow()` -/
def Expired (record : Row) (now : ℕ) : Prop :=
  match record "expires" with
  | .time t => t < now
  | v => v.truthy = true

instance (record : Row) (now : ℕ) : Decidable (Expired record now) := by
  unfold Expired
  cases record "expires" <;> infer_instance

/-- Whether `last_used` is due for an update. -/
def Due (record : Row) (now : ℕ) : Prop :=
  match record "last_used" with
  | .time t => t + 21600 < now ∧ (¬ (record "expires").truthy ∨ Expired record now)
  | v => ¬ v.truthy

instance (record : Row) (now : ℕ) : Decidable (Due record now) := by
  unfold Due
  cases record "last_used" <;> infer_instance

/-- `last_used` is stored. -/
def stampKey (db : Database) (now : ℕ) (record : Row) : Except StoreError Database :=
  if Due record now then
    schema.store (db.1.modify .apikey (fun row => decide (row "id" = record "id"))
      fun row => Function.update row "last_used" (.time now))
  else .ok db

/-- `apikey_verify`: the database after it, and the record of a valid key. -/
def verify (db : Database) (now : ℕ) (keyId secret : String) : Database × Option Row :=
  match find svc db keyId secret with
  | .error _ => (db, none)
  | .ok record =>
      match stampKey db now record with
      | .error _ => (db, none)
      | .ok db => (db, if Expired record now then none else some record)

/-- The names of the scopes of a key. -/
def scopeNames (db : Database) (record : Row) : List Val :=
  ((db.rows .scope).filter fun scope => (db.rows .apikeyScope).any fun link =>
    decide (link "apikey_id" = record "id" ∧ link "scope_id" = scope "id")).map fun scope =>
      scope "name"

/-- The entry that a verified key leaves in the cache. -/
def cacheEntry (db : Database) (now : ℕ) (record account : Row) : CachedKey where
  accountId := account "id"
  expires := now + svc.conf.redisTtl
  identity := match ownerOf db account with
    | some owner => owner "identity"
    | none => .none
  roles := if (account "is_admin").truthy then ["admin", "user"] else ["user"]
  scopes := scopeNames db record
  totp := hasTotp account
  uid := record "uid"

/-- The first part of `access`: the entry of the prefix, verified when it is not cached. -/
def cached (w : World) (keyId secret : String) : World × Option CachedKey :=
  match w.apikeys keyId with
  | some item => if w.now ≤ item.expires then (w, some item) else refill
  | none => refill
where
  refill : World × Option CachedKey :=
    match verify svc w.db w.now keyId secret with
    | (db, none) => ({ w with db := db }, none)
    | (db, some record) =>
        let w := { w with db := db }
        if (record "uid").truthy then
          match lookup db .account [("uid", record "uid"), ("status", .str "active")] with
          | .error _ => (w, none)
          | .ok account =>
              let item := cacheEntry svc db w.now record account
              ({ w with apikeys := Function.update w.apikeys keyId (some item) }, some item)
        else (w, none)

/-- The token of the session of an API key. -/
def sessionToken (secret : String) : String := Text.firstEight (svc.lib.apikeyHash secret)

/-- The second part of `access`: the session of the key, found or made. -/
def openSession (w : World) (keyId secret : String) (item : CachedKey) : World × Bool :=
  let token := sessionToken svc secret
  let uid := some item.uid.text
  match SessionManager.find w.redis w.now uid token (some keyId) with
  | some _ => (w, true)
  | none =>
      let (w, ses) := w.createSession svc uid item.roles (some keyId) token
        (if "admin" ∈ item.roles then svc.conf.loginAdminLimit else svc.conf.loginSessionLimit)
        [("acc", item.accountId), ("identity", item.identity)]
      (w, ses.isSome)

/-- `access`: the uid and scopes, nothing, or an answer that ends the request. -/
def access (w : World) (h : Headers) (endpoint : String) (apikey : String) :
    World × Except Response (Option (Val × List Val)) :=
  match Text.split apikey '.' with
  | [keyId, secret] =>
      match cached svc w keyId secret with
      | (w, none) => (w, .ok none)
      | (w, some item) =>
          if svc.conf.loginMfaApikey = true ∧ svc.conf.loginMfaRequired = true ∧
              item.totp = false then
            (w, .error (.message "please configure MFA" 403))
          else if svc.conf.loginMfaApikey = true ∧ item.totp = true ∧
              SessionAuth.totpBypass w h item.uid.text = false ∧ endpoint ≠ "auth" then
            (w, .error (.message "no valid TOTP cookie, please re-auth" 401))
          else
            let (w, ok) := openSession svc w keyId secret item
            (w, .ok (if ok then some (item.uid, item.scopes) else none))
  | _ => (w, .error .raised)

/-- `auth`: the security scheme of the API keys. -/
def auth (w : World) (h : Headers) (endpoint : String) (apikey : String) (required : List String) :
    World × Except Response (Option Val) :=
  if 96 < apikey.toList.length ∨ ¬ Text.Contains apikey "." then (w, .ok none)
  else
    match access svc w h endpoint apikey with
    | (w, .error answer) => (w, .error answer)
    | (w, .ok none) => (w, .ok none)
    | (w, .ok (some (uid, scopes))) =>
        (w, .ok (if ∀ scope ∈ required, Val.str scope ∈ scopes then some uid else none))

/-! ### The two ways through the cache -/

/-- The prefix is in the cache, and fresh. -/
def Fresh (w : World) (keyId : String) : Prop :=
  ∃ item, w.apikeys keyId = some item ∧ w.now ≤ item.expires

instance (w : World) (keyId : String) : Decidable (Fresh w keyId) :=
  match h : w.apikeys keyId with
  | some item => decidable_of_iff (w.now ≤ item.expires)
      ⟨fun hle => ⟨item, h, hle⟩, fun ⟨_, hitem, hle⟩ => by
        rw [h] at hitem
        cases hitem
        exact hle⟩
  | none => isFalse fun ⟨_, hitem, _⟩ => nomatch h.symm.trans hitem

theorem refill_cases (w : World) (keyId secret : String) : ∃ db,
    cached.refill svc w keyId secret = ({ w with db := db }, none) ∨
    ∃ record account, verify svc w.db w.now keyId secret = (db, some record) ∧
      let item := cacheEntry svc db w.now record account
      cached.refill svc w keyId secret =
        ({ w with db := db, apikeys := Function.update w.apikeys keyId (some item) },
          some item) := by
  unfold cached.refill
  split
  · exact ⟨_, Or.inl rfl⟩
  · rename_i db record hverify
    refine ⟨db, ?_⟩
    simp only
    split
    · split
      · exact Or.inl rfl
      · exact Or.inr ⟨record, _, hverify, rfl⟩
    · exact Or.inl rfl

/-- A fresh entry is taken as it is; otherwise the secret is verified. -/
theorem cached_cases (w : World) (keyId secret : String) :
    (∃ item, w.apikeys keyId = some item ∧ w.now ≤ item.expires ∧
      cached svc w keyId secret = (w, some item)) ∨
    (¬ Fresh w keyId ∧ cached svc w keyId secret = cached.refill svc w keyId secret) := by
  unfold cached
  cases hitem : w.apikeys keyId with
  | none => exact Or.inr ⟨fun ⟨_, h, _⟩ => (nomatch hitem.symm.trans h), rfl⟩
  | some item =>
      by_cases hle : w.now ≤ item.expires
      · exact Or.inl ⟨item, rfl, hle, if_pos hle⟩
      · refine Or.inr ⟨fun ⟨item', h, hle'⟩ => hle ?_, if_neg hle⟩
        rw [hitem] at h
        cases h
        exact hle'

end ApiKey

/-- `basic`: the security scheme of the login sessions; an invalid session is dropped. -/
def basic (w : World) (username password : String) : World × Option String :=
  match SessionManager.find w.redis w.now (some username) password none with
  | none => (w, none)
  | some ses =>
      if ses.get "sub" = .str username ∧
          ("exp" ∈ ses → toString w.now ≤ (ses.get "exp").text) then (w, some username)
      else ({ w with redis := SessionManager.delete w.redis (some username) password none }, none)

end Apicrud
