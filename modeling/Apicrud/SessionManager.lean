import Apicrud.Context
import Apicrud.Expiring

/-! # The session manager

Every session is one entry of the redis store, under a key made of its owner and the last three
characters of its token.  Entries are encrypted there; the model keeps them decrypted, which is
what `decrypt` after `encrypt` gives back.  Logins, confirmations, enrolments, bypass cookies and
API keys all write to this one namespace: what tells their entries apart is their content. -/

namespace Apicrud

open Relational

/-- The content of a session. -/
abbrev Session := Dict

/-- The redis store. -/
abbrev Redis := Expiring String Session

/-- `session['auth'].split(':')` -/
def Session.roles (ses : Session) : List String := Text.split (ses.get "auth").text ':'

namespace SessionManager

/-- `key_id or uid`, as text. -/
def owner (uid keyId : Option String) : String :=
  match keyId with
  | some k => if k = "" then uid.getD "None" else k
  | none => uid.getD "None"

/-- `'ses:%s:%s' % (key_id or uid, token[-3:])` -/
def key (uid : Option String) (token : String) (keyId : Option String) : String :=
  "ses:" ++ owner uid keyId ++ ":" ++ Text.lastThree token

/-- The content `create` stores: the claim names, and what the caller passes. -/
def content (conf : Config) (uid : Option String) (roles : List String) (token : String)
    (expires : ℕ) (kwargs : List (String × Val)) : Session :=
  Dict.ofList (kwargs ++ [("auth", .str (Text.join roles ':')), ("exp", .str (toString expires)),
    ("iss", .str conf.jwtIssuer), ("jti", .str token), ("sub", Val.ofOption uid)])

/-- `SessionManager.create`: nothing is stored when the slot is taken. -/
def create (conf : Config) (redis : Redis) (now : ℕ) (uid : Option String) (roles : List String)
    (keyId : Option String) (token : String) (ttl : ℕ) (kwargs : List (String × Val)) :
    Redis × Option Session :=
  let data := content conf uid roles token (now + ttl) kwargs
  match redis.setNX now (key uid token keyId) data ttl with
  | some redis' => (redis', some data)
  | none => (redis, none)

/-- `SessionManager.get` of the whole session. -/
def find (redis : Redis) (now : ℕ) (uid : Option String) (token : String)
    (keyId : Option String) : Option Session :=
  match redis.get now (key uid token keyId) with
  | some data => if data.get "jti" = .str token then some data else none
  | none => none

/-- `SessionManager.get` of one value. -/
def get (redis : Redis) (now : ℕ) (uid : Option String) (token : String) (arg : String) : Val :=
  match find redis now uid token none with
  | some data => data.get arg
  | none => .none

/-- `SessionManager.update`: the session is looked for without the `key_id` and stored with it;
`none` where there is no session, which raises. -/
def update (conf : Config) (redis : Redis) (now : ℕ) (uid : Option String) (token arg : String)
    (value : Val) (keyId : Option String) : Option Redis :=
  (find redis now uid token none).map fun data =>
    redis.set (key uid token keyId) (data.set arg value) (now + conf.redisTtl)

/-- `SessionManager.delete`: whatever is in the slot goes. -/
def delete (redis : Redis) (uid : Option String) (token : String) (keyId : Option String) : Redis :=
  redis.del (key uid token keyId)

/-- With the same token, the key tells the owners apart. -/
theorem owner_eq_of_key {uid uid' keyId keyId' : Option String} {token : String}
    (h : key uid token keyId = key uid' token keyId') : owner uid keyId = owner uid' keyId' := by
  have h' := congrArg String.toList h
  simp only [key, String.toList_append] at h'
  have h'' := List.append_cancel_left (List.append_cancel_right (List.append_cancel_right
    (by simpa only [List.append_assoc] using h')))
  exact String.toList_injective h''

theorem find_eq_some {redis : Redis} {now : ℕ} {uid : Option String} {token : String}
    {keyId : Option String} {ses : Session} :
    find redis now uid token keyId = some ses ↔
      (∃ d, redis (key uid token keyId) = some (ses, d) ∧ now < d) ∧
        ses.get "jti" = .str token := by
  unfold find
  cases hget : redis.get now (key uid token keyId) with
  | none =>
      simp only [reduceCtorEq, false_iff, not_and]
      intro h
      rw [Expiring.get_eq_some.mpr h] at hget
      cases hget
  | some data =>
      have hdata := Expiring.get_eq_some.mp hget
      simp only [Option.ite_none_right_eq_some, Option.some.injEq]
      constructor
      · rintro ⟨hjti, rfl⟩
        exact ⟨hdata, hjti⟩
      · rintro ⟨hses, hjti⟩
        have := (Expiring.get_eq_some.mpr hses).symm.trans hget
        simp only [Option.some.injEq] at this
        exact this ▸ ⟨hjti, rfl⟩

/-- What `create` does to the store: a write to the free slot of the new session, or nothing. -/
theorem create_cases (conf : Config) (redis : Redis) (now : ℕ) (uid : Option String)
    (roles : List String) (keyId : Option String) (token : String) (ttl : ℕ)
    (kwargs : List (String × Val)) :
    (create conf redis now uid roles keyId token ttl kwargs =
        (redis.set (key uid token keyId)
            (content conf uid roles token (now + ttl) kwargs) (now + ttl),
          some (content conf uid roles token (now + ttl) kwargs)) ∧
      redis.get now (key uid token keyId) = none) ∨
    (create conf redis now uid roles keyId token ttl kwargs = (redis, none) ∧
      (redis.get now (key uid token keyId)).isSome) := by
  unfold create
  cases h : redis.setNX now (key uid token keyId)
      (content conf uid roles token (now + ttl) kwargs) ttl with
  | some redis' =>
      obtain ⟨hfree, rfl⟩ := Expiring.setNX_eq_some.mp h
      exact Or.inl ⟨by simp only [h], hfree⟩
  | none =>
      refine Or.inr ⟨by simp only [h], ?_⟩
      unfold Expiring.setNX at h
      split_ifs at h with htaken
      exact htaken

end SessionManager

end Apicrud
