import Apicrud.KeyAccess
import Apicrud.RateLimit

/-! # The readers of an API key's session

`access` stores the session of a key under its prefix, with the first characters of the secret's SHA-256
as the token.  `AccessControl` finds it there, but then asks for the account and the identity under the
user's own id with the secret itself as the token; `_get_request_uid` looks under the prefix with the first
characters of the SHA-1.  `readers_iff` says when they agree with what was stored. -/

namespace Apicrud

open Relational

namespace SessionManager

variable {conf : Config} {redis : Redis} {now now' ttl : ℕ} {uid uid' keyId keyId' : Option String}
  {token token' : String} {roles : List String} {kwargs : List (String × Val)}

/-- What is looked for at another address than that of a new session is found as it was before. -/
theorem find_create_other (hjti : (content conf uid roles token (now + ttl) kwargs).get "jti" = .str token)
    (h : token' = token → key uid' token' keyId' ≠ key uid token keyId) (hle : now ≤ now') :
    find (create conf redis now uid roles keyId token ttl kwargs).1 now' uid' token' keyId' =
      find redis now' uid' token' keyId' := by
  rcases create_cases conf redis now uid roles keyId token ttl kwargs with ⟨hcreate, hfree⟩ | ⟨hcreate, -⟩
  · rw [hcreate]
    by_cases hkey : key uid' token' keyId' = key uid token keyId
    · -- the slot was free, and what it holds now has another token
      have hbefore : redis.get now' (key uid token keyId) = none := by
        cases hget : redis.get now' (key uid token keyId) with
        | none => rfl
        | some ses =>
            rw [Expiring.get_of_le hget hle] at hfree
            cases hfree
      have hafter : ∀ ses, find (redis.set (key uid token keyId)
          (content conf uid roles token (now + ttl) kwargs) (now + ttl)) now' uid' token' keyId' ≠
            some ses := by
        intro ses hfind
        obtain ⟨⟨d, hslot, -⟩, hses⟩ := find_eq_some.mp hfind
        rw [hkey, Expiring.set_apply, if_pos rfl] at hslot
        obtain ⟨rfl, -⟩ := Prod.mk.inj (Option.some.inj hslot)
        exact h (Val.str.inj (hses.symm.trans hjti)) hkey
      rw [Option.eq_none_iff_forall_ne_some.mpr hafter]
      unfold find
      rw [hkey, hbefore]
    · have hslot : redis.set (key uid token keyId) (content conf uid roles token (now + ttl) kwargs)
          (now + ttl) (key uid' token' keyId') = redis (key uid' token' keyId') := by
        rw [Expiring.set_apply, if_neg hkey]
      unfold find
      rw [Expiring.get_congr hslot]
  · rw [hcreate]

/-- A new session is found. -/
theorem find_create_self (hjti : (content conf uid roles token (now + ttl) kwargs).get "jti" = .str token)
    (hkey : key uid' token keyId' = key uid token keyId) (hlive : 0 < ttl)
    (hcreated : (create conf redis now uid roles keyId token ttl kwargs).2.isSome) :
    find (create conf redis now uid roles keyId token ttl kwargs).1 now uid' token keyId' =
      some (content conf uid roles token (now + ttl) kwargs) := by
  rcases create_cases conf redis now uid roles keyId token ttl kwargs with ⟨hcreate, -⟩ | ⟨hcreate, -⟩
  · rw [hcreate, find_eq_some, hkey]
    exact ⟨⟨now + ttl, Function.update_self _ _ _, by omega⟩, hjti⟩
  · rw [hcreate] at hcreated
    cases hcreated

end SessionManager

namespace ApiKey

variable {svc : Service} {w w' : World} {h h' : Headers} {endpoint apikey pre secret : String}
  {ses : Session} {now : ℕ}

/-! ### What an access leaves -/

theorem cached_redis (svc : Service) (w : World) (keyId secret : String) :
    (cached svc w keyId secret).1.redis = w.redis ∧ (cached svc w keyId secret).1.now = w.now := by
  rcases cached_cases svc w keyId secret with ⟨item, -, -, hcached⟩ | ⟨-, hcached⟩
  · rw [hcached]
    exact ⟨rfl, rfl⟩
  · rw [hcached]
    obtain ⟨db, hrefill | ⟨record, account, -, hrefill⟩⟩ := refill_cases svc w keyId secret
    all_goals
      rw [hrefill]
      exact ⟨rfl, rfl⟩

/-- An access that succeeds has found a session or made one. -/
theorem access_opens {answer : Val × List Val} (hsplit : Text.split apikey '.' = [pre, secret])
    (haccess : access svc w h endpoint apikey = (w', .ok (some answer))) :
    ∃ w₁ item, w₁.redis = w.redis ∧ w₁.now = w.now ∧ openSession svc w₁ pre secret item = (w', true) := by
  obtain ⟨hredis, hnow⟩ := cached_redis svc w pre secret
  unfold access at haccess
  rw [hsplit] at haccess
  simp only at haccess
  revert haccess hredis hnow
  rcases cached svc w pre secret with ⟨w₁, _ | item⟩
  · intro hredis hnow haccess
    cases haccess
  · intro hredis hnow haccess
    refine ⟨w₁, item, hredis, hnow, ?_⟩
    simp only at haccess
    split at haccess
    · cases haccess
    · split at haccess
      · cases haccess
      · obtain ⟨hw', hok⟩ := Prod.mk.inj haccess
        refine Prod.ext hw' ?_
        by_contra hopen
        rw [Bool.not_eq_true] at hopen
        simp [hopen] at hok

/-- What is at any other address than that of the key's session is found as it was before. -/
theorem access_find_other {uid keyId : Option String} {token : String} {answer : Val × List Val}
    (hsplit : Text.split apikey '.' = [pre, secret]) (hpre : pre ≠ "")
    (haccess : access svc w h endpoint apikey = (w', .ok (some answer)))
    (hother : token = sessionToken svc secret → SessionManager.owner uid keyId ≠ pre) (hle : w.now ≤ now) :
    SessionManager.find w'.redis now uid token keyId = SessionManager.find w.redis now uid token keyId := by
  obtain ⟨w₁, item, hredis, hnow, hopen⟩ := access_opens hsplit haccess
  have hw' : w' = (openSession svc w₁ pre secret item).1 := (congrArg Prod.fst hopen).symm
  rw [hw', ← hredis]
  unfold openSession
  simp only
  split
  · rfl
  · refine SessionManager.find_create_other (by simp [SessionManager.content]) (fun htoken hkey => ?_)
      (hnow ▸ hle)
    subst htoken
    refine hother rfl ((SessionManager.owner_eq_of_key hkey).trans ?_)
    rw [SessionManager.owner, if_neg hpre]

/-- An access that succeeds leaves its session, unless the time limits are zero. -/
theorem session_of_access {answer : Val × List Val} (hsplit : Text.split apikey '.' = [pre, secret])
    (hpre : pre ≠ "") (haccess : access svc w h endpoint apikey = (w', .ok (some answer)))
    (hadmin : 0 < svc.conf.loginAdminLimit) (hlimit : 0 < svc.conf.loginSessionLimit) :
    ∃ ses, SessionManager.find w'.redis w.now none (sessionToken svc secret) (some pre) = some ses := by
  obtain ⟨w₁, item, -, hnow, hopen⟩ := access_opens hsplit haccess
  have howner : ∀ uid, SessionManager.key uid (sessionToken svc secret) (some pre) =
      SessionManager.key none (sessionToken svc secret) (some pre) := fun uid => by
    simp [SessionManager.key, SessionManager.owner, hpre]
  rw [← hnow]
  unfold openSession at hopen
  simp only at hopen
  split at hopen
  · rename_i ses hfind
    obtain ⟨rfl, -⟩ := Prod.mk.inj hopen
    refine ⟨ses, ?_⟩
    rw [SessionManager.find_eq_some] at hfind ⊢
    rwa [howner] at hfind
  · obtain ⟨rfl, hcreated⟩ := Prod.mk.inj hopen
    refine ⟨_, SessionManager.find_create_self (by simp [SessionManager.content]) (howner _).symm ?_ hcreated⟩
    split_ifs
    · exact hadmin
    · exact hlimit

/-! ### Agreement -/

/-- All that is read for a request with the key is what the session of the key holds. -/
structure ReadersAgree (lib : Lib) (redis : Redis) (now : ℕ) (h : Headers) (ses : Session) : Prop where
  uid : (accessControl lib redis now h).uid = ses.sub
  accountId : (accessControl lib redis now h).accountId = ses.get "acc"
  identity : (accessControl lib redis now h).identity = ses.get "identity"
  request : RateLimit.requestUid lib redis now h = ses.sub

/-- Before the access, the sessions that the readers look for were there: under the prefix with the SHA-1,
one of the same user, unless this is the token itself; under the user's id with the secret, one of the same
account and identity, unless that is the session itself. -/
structure Mirrored (lib : Lib) (redis : Redis) (now : ℕ) (pre secret : String) (ses : Session) : Prop where
  digest : Text.firstEight (lib.sha1 secret) = Text.firstEight (lib.sha256 secret) ∨
    (SessionManager.find redis now none (Text.firstEight (lib.sha1 secret)) (some pre)).bind
      Session.sub = ses.sub
  secret : (secret = Text.firstEight (lib.sha256 secret) ∧ ses.sub.getD "None" = pre) ∨
    (SessionManager.get redis now ses.sub secret "acc" = ses.get "acc" ∧
      SessionManager.get redis now ses.sub secret "identity" = ses.get "identity")

theorem accessControl_key (hsplit : Text.split apikey '.' = [pre, secret]) (hheader : h.apikey = some apikey)
    {redis : Redis} (hses : SessionManager.find redis now none (sessionToken svc secret) (some pre) = some ses) :
    accessControl svc.lib redis now h = .ofSession redis now ses.roles ses.sub secret (some pre) := by
  unfold accessControl
  unfold sessionToken at hses
  simp only [hheader, hsplit, hses]

/-- All readers agree with what the access stored just when both other addresses hold the same. -/
theorem readers_iff (svc : Service) (w w' : World) (h h' : Headers) (endpoint apikey pre secret : String)
    (hsplit : Text.split apikey '.' = [pre, secret]) (hpre : pre ≠ "") (answer : Val × List Val)
    (haccess : access svc w h endpoint apikey = (w', .ok (some answer))) (now : ℕ) (hle : w.now ≤ now)
    (ses : Session)
    (hses : SessionManager.find w'.redis now none (sessionToken svc secret) (some pre) = some ses)
    (hheader : h'.apikey = some apikey) :
    ReadersAgree svc.lib w'.redis now h' ses ↔ Mirrored svc.lib w.redis now pre secret ses := by
  have hacc := accessControl_key hsplit hheader hses
  have hrequest : RateLimit.requestUid svc.lib w'.redis now h' =
      (SessionManager.find w'.redis now none (Text.firstEight (svc.lib.sha1 secret)) (some pre)).bind
        Session.sub := by
    unfold RateLimit.requestUid
    simp only [hheader, hsplit]
  -- the address of `_get_request_uid`
  have hdigest : RateLimit.requestUid svc.lib w'.redis now h' = ses.sub ↔
      Text.firstEight (svc.lib.sha1 secret) = Text.firstEight (svc.lib.sha256 secret) ∨
      (SessionManager.find w.redis now none (Text.firstEight (svc.lib.sha1 secret)) (some pre)).bind
        Session.sub = ses.sub := by
    rw [hrequest]
    by_cases hsame : Text.firstEight (svc.lib.sha1 secret) = sessionToken svc secret
    · rw [hsame, hses]
      exact iff_of_true rfl (Or.inl rfl)
    · rw [access_find_other hsplit hpre haccess (fun htoken => absurd htoken hsame) hle]
      exact (or_iff_right hsame).symm
  -- the address of the account and the identity
  have hsecret : (SessionManager.get w'.redis now ses.sub secret "acc" = ses.get "acc" ∧
      SessionManager.get w'.redis now ses.sub secret "identity" = ses.get "identity") ↔
      (secret = Text.firstEight (svc.lib.sha256 secret) ∧ ses.sub.getD "None" = pre) ∨
      (SessionManager.get w.redis now ses.sub secret "acc" = ses.get "acc" ∧
        SessionManager.get w.redis now ses.sub secret "identity" = ses.get "identity") := by
    unfold SessionManager.get
    by_cases hself : secret = sessionToken svc secret ∧ ses.sub.getD "None" = pre
    · have hkey : SessionManager.key ses.sub secret none =
          SessionManager.key none (sessionToken svc secret) (some pre) := by
        rw [← hself.1]
        simp [SessionManager.key, SessionManager.owner, hself.2, hpre]
      have hfound : SessionManager.find w'.redis now ses.sub secret none = some ses := by
        rw [SessionManager.find_eq_some] at hses ⊢
        rw [hkey]
        exact ⟨hses.1, hself.1 ▸ hses.2⟩
      rw [hfound]
      exact iff_of_true ⟨rfl, rfl⟩ (Or.inl hself)
    · have hkept : SessionManager.find w'.redis now ses.sub secret none =
          SessionManager.find w.redis now ses.sub secret none :=
        access_find_other hsplit hpre haccess (fun htoken howner => hself ⟨htoken, howner⟩) hle
      rw [hkept]
      exact (or_iff_right hself).symm
  constructor
  · rintro ⟨-, haccount, hidentity, hagree⟩
    rw [hacc] at haccount hidentity
    exact ⟨hdigest.mp hagree, hsecret.mp ⟨haccount, hidentity⟩⟩
  · rintro ⟨hsame, hmirror⟩
    obtain ⟨haccount, hidentity⟩ := hsecret.mpr hmirror
    exact ⟨by rw [hacc]; rfl, by rw [hacc]; exact haccount, by rw [hacc]; exact hidentity,
      hdigest.mpr hsame⟩

/-- A key in the header. -/
def keyHeader (apikey : String) : Headers := { apikey := some apikey }

/-- The key's session holds the account of the administrator; for the request there is none. -/
theorem accountId_missing :
    Function.Injective Seed.service.lib.sha1 ∧ Function.Injective Seed.service.lib.sha256 ∧
    ∃ w' answer ses, access Seed.service (Seed.world keyDatabase) (keyHeader "aaaaaaaa.right") "account"
        "aaaaaaaa.right" = (w', .ok (some answer)) ∧
      SessionManager.find w'.redis 100 none (sessionToken Seed.service "right") (some "aaaaaaaa") =
        some ses ∧
      ¬ ReadersAgree Seed.service.lib w'.redis 100 (keyHeader "aaaaaaaa.right") ses := by
  refine ⟨fun _ _ h => ?_, fun _ _ h => h, ?_⟩
  · have hchars := congrArg String.toList h
    exact String.toList_injective (by simpa [Seed.service, Service.example, Seed.lib] using hchars)
  · have hok : (access Seed.service (Seed.world keyDatabase) (keyHeader "aaaaaaaa.right") "account"
        "aaaaaaaa.right").2.toOption.join.map Prod.fst = some (.str "x-23450001") := by decide +kernel
    have hacc : (SessionManager.find (access Seed.service (Seed.world keyDatabase)
        (keyHeader "aaaaaaaa.right") "account" "aaaaaaaa.right").1.redis 100 none
        (sessionToken Seed.service "right") (some "aaaaaaaa")).map (fun ses => ses.get "acc") =
          some (.str "x-54320001") := by decide +kernel
    have hread : (accessControl Seed.service.lib (access Seed.service (Seed.world keyDatabase)
        (keyHeader "aaaaaaaa.right") "account" "aaaaaaaa.right").1.redis 100
        (keyHeader "aaaaaaaa.right")).accountId = .none := by decide +kernel
    revert hok hacc hread
    rcases access Seed.service (Seed.world keyDatabase) (keyHeader "aaaaaaaa.right") "account"
      "aaaaaaaa.right" with ⟨w', _ | _ | answer⟩
    · intro hok
      cases hok
    · intro hok
      cases hok
    · intro _ hacc hread
      obtain ⟨ses, hses, hacc⟩ := Option.map_eq_some_iff.mp hacc
      refine ⟨w', answer, ses, rfl, hses, fun hagree => ?_⟩
      rw [← hagree.accountId, hread] at hacc
      cases hacc

/-- A session of the administrator. -/
def adminSession (token : String) : Session :=
  SessionManager.content Seed.service.conf (some "x-23450001") ["admin", "user"] token 1000
    [("acc", .str "x-54320001"), ("identity", .str "user@example.com")]

/-- The key with a long secret, and sessions of the administrator where the readers look. -/
def mirroredWorld : World where
  db := ⟨Seed.tables (Seed.records ++ [(.apikey, Seed.row .apikey [("id", .str "x-k0001"),
    ("name", .str "key"), ("uid", .str "x-23450001"), ("prefix", .str "aaaaaaaa"),
    ("hashvalue", .str "12345678")])]), by decide +kernel⟩
  redis := (Expiring.empty.set (SessionManager.key none "11234567" (some "aaaaaaaa"))
    (adminSession "11234567") 1000).set (SessionManager.key (some "x-23450001") "12345678" none)
      (adminSession "12345678") 1000
  otps := Expiring.empty
  apikeys _ := none
  now := 100

/-- All readers agree with the access. -/
theorem mirrored_readers : ∃ w' answer ses,
    access Seed.service mirroredWorld (keyHeader "aaaaaaaa.12345678") "account" "aaaaaaaa.12345678" =
      (w', .ok (some answer)) ∧
    ReadersAgree Seed.service.lib w'.redis 100 (keyHeader "aaaaaaaa.12345678") ses := by
  have hok : (access Seed.service mirroredWorld (keyHeader "aaaaaaaa.12345678") "account"
      "aaaaaaaa.12345678").2.toOption.join.map Prod.fst = some (.str "x-23450001") := by decide +kernel
  have hread : (SessionManager.find (access Seed.service mirroredWorld (keyHeader "aaaaaaaa.12345678")
      "account" "aaaaaaaa.12345678").1.redis 100 none (sessionToken Seed.service "12345678")
      (some "aaaaaaaa")).map (fun ses => (ses.sub, ses.get "acc", ses.get "identity")) =
        some (some "x-23450001", .str "x-54320001", .str "user@example.com") := by decide +kernel
  revert hok hread
  cases haccess : access Seed.service mirroredWorld (keyHeader "aaaaaaaa.12345678") "account"
    "aaaaaaaa.12345678" with
  | mk w' r =>
    rcases r with _ | _ | answer
    · intro hok
      cases hok
    · intro hok
      cases hok
    · intro _ hread
      obtain ⟨ses, hses, hvalues⟩ := Option.map_eq_some_iff.mp hread
      obtain ⟨hsub, hvalues⟩ := Prod.mk.inj hvalues
      obtain ⟨hacc, hidentity⟩ := Prod.mk.inj hvalues
      refine ⟨w', answer, ses, rfl, (readers_iff Seed.service mirroredWorld w' _ _ "account"
        "aaaaaaaa.12345678" "aaaaaaaa" "12345678" (by decide +kernel) (by decide) answer haccess 100 le_rfl
        ses hses rfl).mpr ⟨Or.inr ?_, Or.inr ⟨?_, ?_⟩⟩⟩
      · rw [hsub]
        decide +kernel
      · rw [hsub, hacc]
        decide +kernel
      · rw [hsub, hidentity]
        decide +kernel

end ApiKey

end Apicrud
