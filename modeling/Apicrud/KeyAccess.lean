import Apicrud.Seed

/-! # What an accepted API key rests on

`access` verifies a secret only when the prefix is not in the process-wide cache.  The runs here
are those of `access` calls by any clients, between which the rows of the keys and the sessions
change in any way.  An accepted key rests on a row that was verified at most `REDIS_TTL` earlier,
as long as the secret presented is the one that filled the cache (`access_along_rests`); the cache is
keyed by the public prefix alone, and a wrong secret behind a cached prefix is accepted
(`wrongSecret_accepted`). -/

namespace Apicrud

open Relational

namespace ApiKey

/-- What happens to the stores of the API keys: a key is presented, or the rows and the sessions
change elsewhere. -/
inductive KeyAction where
  | access (h : Headers) (endpoint apikey : String)
  | elsewhere (db : Database) (redis : Redis)

/-- An action with the time that passed before it. -/
structure KeyEvent where
  elapsed : ℕ
  action : KeyAction

/-- The state at the time of an event. -/
def KeyEvent.at (e : KeyEvent) (w : World) : World := { w with now := w.now + e.elapsed }

/-- The stores of the API keys as a machine; only a presented key has an outcome. -/
def keyMachine (svc : Service) : Machine World KeyEvent (Except Response (Option (Val × List Val))) where
  step w e :=
    match e.action with
    | .access h endpoint apikey => access svc (e.at w) h endpoint apikey
    | .elsewhere db redis => ({ e.at w with db := db, redis := redis }, .ok none)

/-- What the run is watched for: the databases that earlier events found, with their instants, and
for each prefix the hash of the secret that last went to the database. -/
structure KeyHistory where
  past : List (ℕ × Database)
  filled : String → String

variable (svc : Service)

/-- The hashes that last went to the database, after an action. -/
def filledBy (w : World) (action : KeyAction) (filled : String → String) : String → String :=
  match action with
  | .access _ _ apikey =>
      match Text.split apikey '.' with
      | [keyId, secret] =>
          if Fresh w keyId then filled
          else Function.update filled keyId (svc.lib.apikeyHash secret)
      | _ => filled
  | .elsewhere .. => filled

/-- The history after an event. -/
def recordKey (k : KeyHistory) (w : World) (e : KeyEvent) : KeyHistory :=
  ⟨((e.at w).now, (e.at w).db) :: k.past, filledBy svc (e.at w) e.action k.filled⟩

/-- The watched machine. -/
def watchedKeys : Machine (World × KeyHistory) KeyEvent (Except Response (Option (Val × List Val))) :=
  (keyMachine svc).withHistory (recordKey svc)

/-- The database holds an active key with this prefix and hash that has not expired. -/
def Held (now : ℕ) (db : Database) (keyId hash : String) : Prop :=
  ∃ row ∈ db.rows .apikey, row "prefix" = .str keyId ∧ row "hashvalue" = .str hash ∧
    row "status" = .str "active" ∧ ¬ Expired row now

instance (now : ℕ) (db : Database) (keyId hash : String) : Decidable (Held now db keyId hash) :=
  inferInstanceAs (Decidable (∃ row ∈ db.rows .apikey, _))

/-- Now, or at most `REDIS_TTL` earlier, the database held such a key. -/
def Rests (now : ℕ) (past : List (ℕ × Database)) (keyId hash : String) : Prop :=
  ∃ s ∈ past, s.1 ≤ now ∧ now ≤ s.1 + svc.conf.redisTtl ∧ Held s.1 s.2 keyId hash

instance (now : ℕ) (past : List (ℕ × Database)) (keyId hash : String) :
    Decidable (Rests svc now past keyId hash) :=
  inferInstanceAs (Decidable (∃ s ∈ past, _))

/-- Whenever the event presents a key and gets a uid back, the answer rests on the database. -/
def AccessRests (p : World × KeyHistory) (e : KeyEvent) : Prop :=
  ∀ h endpoint apikey keyId secret answer, e.action = .access h endpoint apikey →
    Text.split apikey '.' = [keyId, secret] → (watchedKeys svc).out p e = .ok (some answer) →
    Rests svc (e.at p.1).now (((e.at p.1).now, p.1.db) :: p.2.past) keyId (svc.lib.apikeyHash secret)

/-- A session of other origin holds the slot of the secret. -/
def SlotTaken (w : World) (keyId secret : String) : Prop :=
  ∃ item, w.apikeys keyId = some item ∧ ∃ ses,
    w.redis.get w.now (SessionManager.key (some item.uid.text) (sessionToken svc secret)
      (some keyId)) = some ses ∧ ses.get "jti" ≠ .str (sessionToken svc secret)

/-- The condition on the state that a presented key finds: a fresh entry of its prefix was filled by
the same secret, or the session slot of the secret is taken. -/
def SameSecret (p : World × KeyHistory) (e : KeyEvent) : Prop :=
  ∀ h endpoint apikey keyId secret, e.action = .access h endpoint apikey →
    Text.split apikey '.' = [keyId, secret] → Fresh (e.at p.1) keyId →
    p.2.filled keyId = svc.lib.apikeyHash secret ∨ SlotTaken svc (e.at p.1) keyId secret

/-! ### One access -/

variable {svc} in
theorem held_of_verify {db db' : Database} {now : ℕ} {keyId secret : String} {record : Row}
    (h : verify svc db now keyId secret = (db', some record)) :
    Held now db keyId (svc.lib.apikeyHash secret) := by
  unfold verify at h
  split at h
  · cases h
  · rename_i row hfind
    split at h
    · cases h
    · obtain ⟨-, h⟩ := Prod.mk.inj h
      split_ifs at h with hexpired
      obtain ⟨hmem, hconds⟩ := of_one_filterBy hfind
      exact ⟨row, hmem, hconds ("prefix", _) (by simp), hconds ("hashvalue", _) (by simp),
        hconds ("status", _) (by simp), hexpired⟩

theorem openSession_apikeys (w : World) (keyId secret : String) (item : CachedKey) :
    (openSession svc w keyId secret item).1.apikeys = w.apikeys ∧
      (openSession svc w keyId secret item).1.now = w.now := by
  unfold openSession
  simp only
  split
  · exact ⟨rfl, rfl⟩
  · exact ⟨rfl, rfl⟩

variable {svc} in
/-- No session is opened in a slot that a session of other origin holds. -/
theorem openSession_free {w : World} {keyId secret : String} {item : CachedKey} {ses : Session}
    (hopen : (openSession svc w keyId secret item).2 = true)
    (hget : w.redis.get w.now (SessionManager.key (some item.uid.text) (sessionToken svc secret)
      (some keyId)) = some ses) : ses.get "jti" = .str (sessionToken svc secret) := by
  unfold openSession at hopen
  simp only at hopen
  split at hopen
  · rename_i found hfind
    unfold SessionManager.find at hfind
    rw [hget] at hfind
    simp only at hfind
    split_ifs at hfind with hjti
    exact hjti
  · -- a new session needs a free slot
    exfalso
    unfold World.createSession at hopen
    simp only at hopen
    rcases SessionManager.create_cases svc.conf w.redis w.now (some item.uid.text) item.roles
      (some keyId) (sessionToken svc secret)
      (if "admin" ∈ item.roles then svc.conf.loginAdminLimit else svc.conf.loginSessionLimit)
      [("acc", item.accountId), ("identity", item.identity)] with ⟨_, hfree⟩ | ⟨hcreate, _⟩
    · rw [hfree] at hget
      cases hget
    · rw [hcreate] at hopen
      cases hopen

/-- In any other slot a session is found or made. -/
theorem openSession_of_free {w : World} {keyId secret : String} {item : CachedKey}
    (hfree : ∀ ses, w.redis.get w.now (SessionManager.key (some item.uid.text)
      (sessionToken svc secret) (some keyId)) = some ses →
        ses.get "jti" = .str (sessionToken svc secret)) :
    (openSession svc w keyId secret item).2 = true := by
  unfold openSession
  simp only
  split
  · rfl
  · rename_i hfind
    unfold World.createSession
    simp only
    rcases SessionManager.create_cases svc.conf w.redis w.now (some item.uid.text) item.roles
      (some keyId) (sessionToken svc secret)
      (if "admin" ∈ item.roles then svc.conf.loginAdminLimit else svc.conf.loginSessionLimit)
      [("acc", item.accountId), ("identity", item.identity)] with ⟨hcreate, _⟩ | ⟨_, htaken⟩
    · rw [hcreate]
      rfl
    · obtain ⟨ses, hget⟩ := Option.isSome_iff_exists.mp htaken
      unfold SessionManager.find at hfind
      rw [hget] at hfind
      simp only [hfree ses hget, if_true] at hfind
      cases hfind

variable {svc} in
/-- An access leaves the cache as its first part does. -/
theorem access_apikeys {w : World} {keyId secret apikey : String} (h : Headers) (endpoint : String)
    (hsplit : Text.split apikey '.' = [keyId, secret]) :
    (access svc w h endpoint apikey).1.apikeys = (cached svc w keyId secret).1.apikeys ∧
      (access svc w h endpoint apikey).1.now = (cached svc w keyId secret).1.now := by
  unfold access
  rw [hsplit]
  simp only
  rcases cached svc w keyId secret with ⟨w₁, _ | item⟩
  · exact ⟨rfl, rfl⟩
  · simp only
    split
    · exact ⟨rfl, rfl⟩
    · split
      · exact ⟨rfl, rfl⟩
      · exact openSession_apikeys svc w₁ keyId secret item

variable {svc} in
/-- An accepted key has an entry, and a session. -/
theorem access_ok {w : World} {keyId secret apikey endpoint : String} {h : Headers}
    {answer : Val × List Val} (hsplit : Text.split apikey '.' = [keyId, secret])
    (hok : (access svc w h endpoint apikey).2 = .ok (some answer)) :
    ∃ item, (cached svc w keyId secret).2 = some item ∧
      (openSession svc (cached svc w keyId secret).1 keyId secret item).2 = true := by
  unfold access at hok
  rw [hsplit] at hok
  simp only at hok
  revert hok
  rcases cached svc w keyId secret with ⟨w₁, _ | item⟩
  · intro hok
    cases hok
  · intro hok
    refine ⟨item, rfl, ?_⟩
    simp only at hok ⊢
    split at hok
    · cases hok
    · split at hok
      · cases hok
      · by_contra hopen
        rw [Bool.not_eq_true] at hopen
        simp only [hopen] at hok
        cases hok

/-- Time stands still during an access, and every entry it leaves in the cache was there before, or
has just been filled. -/
theorem access_entries (w : World) (h : Headers) (endpoint apikey : String)
    (filled : String → String) :
    (access svc w h endpoint apikey).1.now = w.now ∧
    ∀ keyId item, (access svc w h endpoint apikey).1.apikeys keyId = some item →
      let filled' := filledBy svc w (.access h endpoint apikey) filled
      (w.apikeys keyId = some item ∧ (w.now ≤ item.expires → filled' keyId = filled keyId)) ∨
      (item.expires = w.now + svc.conf.redisTtl ∧ Held w.now w.db keyId (filled' keyId)) := by
  by_cases hsplit : ∃ keyId secret, Text.split apikey '.' = [keyId, secret]
  · obtain ⟨keyId, secret, hsplit⟩ := hsplit
    obtain ⟨hapikeys, hnow⟩ := access_apikeys h endpoint hsplit
    rw [hapikeys, hnow]
    simp only [filledBy, hsplit]
    rcases cached_cases svc w keyId secret with ⟨item₀, hitem₀, hle, hcached⟩ | ⟨hstale, hcached⟩
    · rw [hcached, if_pos ⟨item₀, hitem₀, hle⟩]
      exact ⟨rfl, fun keyId' item hitem => Or.inl ⟨hitem, fun _ => rfl⟩⟩
    · rw [hcached, if_neg hstale]
      -- a stale entry of the prefix stays stale
      have hkept : ∀ keyId' item, w.apikeys keyId' = some item → w.now ≤ item.expires →
          Function.update filled keyId (svc.lib.apikeyHash secret) keyId' = filled keyId' := by
        intro keyId' item hitem hle
        refine Function.update_of_ne (fun heq => hstale ⟨item, ?_, hle⟩) _ _
        rw [← heq]
        exact hitem
      obtain ⟨db, hrefill | ⟨record, account, hverify, hrefill⟩⟩ := refill_cases svc w keyId secret
      · rw [hrefill]
        exact ⟨rfl, fun keyId' item hitem => Or.inl ⟨hitem, hkept keyId' item hitem⟩⟩
      · rw [hrefill]
        refine ⟨rfl, fun keyId' item hitem => ?_⟩
        by_cases heq : keyId' = keyId
        · subst heq
          simp only [Function.update_self] at hitem ⊢
          cases hitem
          exact Or.inr ⟨rfl, held_of_verify hverify⟩
        · simp only [Function.update_of_ne heq] at hitem
          exact Or.inl ⟨hitem, hkept keyId' item hitem⟩
  · have hraise : access svc w h endpoint apikey = (w, .error .raised) := by
      unfold access
      split
      · rename_i keyId secret heq
        exact absurd ⟨keyId, secret, heq⟩ hsplit
      · rfl
    have hfilled : filledBy svc w (.access h endpoint apikey) filled = filled := by
      simp only [filledBy]
      split
      · rename_i keyId secret heq
        exact absurd ⟨keyId, secret, heq⟩ hsplit
      · rfl
    rw [hraise, hfilled]
    exact ⟨rfl, fun keyId item hitem => Or.inl ⟨hitem, fun _ => rfl⟩⟩

variable {svc} in
/-- Behind a fresh entry any secret is accepted, unless its session slot is taken. -/
theorem access_of_fresh {w : World} {keyId secret apikey : String} {item : CachedKey}
    (hsplit : Text.split apikey '.' = [keyId, secret]) (hitem : w.apikeys keyId = some item)
    (hle : w.now ≤ item.expires) (hmfa : svc.conf.loginMfaApikey = false)
    (hfree : ¬ SlotTaken svc w keyId secret) (h : Headers) (endpoint : String) :
    (access svc w h endpoint apikey).2 = .ok (some (item.uid, item.scopes)) := by
  have hcached : cached svc w keyId secret = (w, some item) := by
    rcases cached_cases svc w keyId secret with ⟨item', hitem', -, h'⟩ | ⟨hstale, -⟩
    · cases hitem.symm.trans hitem'
      exact h'
    · exact absurd ⟨item, hitem, hle⟩ hstale
  have hopen : (openSession svc w keyId secret item).2 = true := by
    refine openSession_of_free svc fun ses hget => ?_
    by_contra hjti
    exact hfree ⟨item, hitem, ses, hget, hjti⟩
  unfold access
  rw [hsplit]
  simp [hcached, hmfa, hopen]

/-! ### Runs of accesses -/

/-- Every fresh entry of the cache was filled by a verification, `REDIS_TTL` before it goes stale. -/
def Filled (p : World × KeyHistory) : Prop :=
  ∀ keyId item, p.1.apikeys keyId = some item → p.1.now ≤ item.expires →
    ∃ s ∈ p.2.past, s.1 ≤ p.1.now ∧ item.expires = s.1 + svc.conf.redisTtl ∧
      Held s.1 s.2 keyId (p.2.filled keyId)

variable {svc}

theorem filled_next (p : World × KeyHistory) (e : KeyEvent) (h : Filled svc p) :
    Filled svc ((watchedKeys svc).next p e) := by
  obtain ⟨w, k⟩ := p
  obtain ⟨elapsed, action⟩ := e
  intro keyId item hitem hlive
  cases action with
  | elsewhere db redis =>
      have hlive : w.now + elapsed ≤ item.expires := hlive
      obtain ⟨s, hs, hle, hexpires, hheld⟩ := h keyId item hitem (by simp only; omega)
      exact ⟨s, List.mem_cons_of_mem _ hs, Nat.le_add_right_of_le hle, hexpires, hheld⟩
  | access hd endpoint apikey =>
      obtain ⟨hnow, hentries⟩ :=
        access_entries svc { w with now := w.now + elapsed } hd endpoint apikey k.filled
      have hlive : w.now + elapsed ≤ item.expires := hnow.symm.le.trans hlive
      rcases hentries keyId item hitem with ⟨hbefore, hkept⟩ | ⟨hexpires, hheld⟩
      · obtain ⟨s, hs, hle, hexpires, hheld⟩ := h keyId item hbefore (by simp only; omega)
        refine ⟨s, List.mem_cons_of_mem _ hs, ?_, hexpires, ?_⟩
        · exact (Nat.le_add_right_of_le hle).trans hnow.ge
        · change Held s.1 s.2 keyId (filledBy svc { w with now := w.now + elapsed }
            (.access hd endpoint apikey) k.filled keyId)
          rw [hkept hlive]
          exact hheld
      · exact ⟨(w.now + elapsed, w.db), List.mem_cons_self, hnow.ge, hexpires, hheld⟩

theorem accessRests_of_filled (p : World × KeyHistory) (e : KeyEvent) (h : Filled svc p)
    (hsame : SameSecret svc p e) : AccessRests svc p e := by
  obtain ⟨w, k⟩ := p
  obtain ⟨elapsed, action⟩ := e
  rintro hd endpoint apikey keyId secret answer rfl hsplit hok
  obtain ⟨item, hitem, hopen⟩ := access_ok hsplit hok
  rcases cached_cases svc { w with now := w.now + elapsed } keyId secret with
    ⟨item', hitem', hle, hcached⟩ | ⟨hstale, hcached⟩
  · -- the entry was in the cache
    have hcached' : cached svc (KeyEvent.at ⟨elapsed, .access hd endpoint apikey⟩ w) keyId secret =
        ({ w with now := w.now + elapsed }, some item') := hcached
    rw [hcached'] at hitem hopen
    cases hitem
    rcases hsame hd endpoint apikey keyId secret rfl hsplit ⟨item, hitem', hle⟩ with
      hfilled | ⟨item'', hitem'', ses, hget, hjti⟩
    · have hle : w.now + elapsed ≤ item.expires := hle
      obtain ⟨s, hs, hpast, hexpires, hheld⟩ := h keyId item hitem' (by simp only; omega)
      have hpast : s.1 ≤ w.now := hpast
      refine ⟨s, List.mem_cons_of_mem _ hs, ?_, ?_, hfilled ▸ hheld⟩
      · simp only [KeyEvent.at]; omega
      · simp only [KeyEvent.at]; omega
    · have hsame : some item'' = some item := hitem''.symm.trans hitem'
      cases hsame
      exact absurd (openSession_free hopen hget) hjti
  · -- the secret was verified
    have hcached' : cached svc (KeyEvent.at ⟨elapsed, .access hd endpoint apikey⟩ w) keyId secret =
        cached.refill svc { w with now := w.now + elapsed } keyId secret := hcached
    rw [hcached'] at hitem
    obtain ⟨db, hrefill | ⟨record, account, hverify, hrefill⟩⟩ :=
      refill_cases svc { w with now := w.now + elapsed } keyId secret
    · rw [hrefill] at hitem
      cases hitem
    · exact ⟨(w.now + elapsed, w.db), List.mem_cons_self, le_rfl, Nat.le_add_right _ _,
        held_of_verify hverify⟩

/-- From a fresh process on: as long as cached prefixes are presented with the secret that filled
their entry, every accepted key was in the database, active, not expired and with the hash of the
secret, at most `REDIS_TTL` ago. -/
theorem access_along_rests {w : World} {es : List KeyEvent} (hfresh : w.apikeys = fun _ => none)
    (h : (watchedKeys svc).Along (SameSecret svc) (w, ⟨[], fun _ => ""⟩) es) :
    (watchedKeys svc).Along (AccessRests svc) (w, ⟨[], fun _ => ""⟩) es := by
  refine h.of_invariant (fun p e hfilled _ => filled_next p e hfilled)
    (fun p e => accessRests_of_filled p e) ?_
  intro keyId item hitem
  simp only [hfresh] at hitem
  cases hitem

/-! ### A wrong secret behind a cached prefix -/

/-- An API key of the seeded administrator. -/
def keyRow : Row :=
  Seed.row .apikey [("id", .str "x-k0001"), ("name", .str "key"), ("uid", .str "x-23450001"),
    ("prefix", .str "aaaaaaaa"), ("hashvalue", .str "right")]

/-- The seeded database with the key. -/
def keyDatabase : Database := ⟨Seed.tables (Seed.records ++ [(.apikey, keyRow)]), by decide +kernel⟩

/-- The key is presented, and then its prefix with a secret. -/
def keyRun (secret : String) : List KeyEvent :=
  [⟨0, .access {} "account" "aaaaaaaa.right"⟩, ⟨1, .access {} "account" ("aaaaaaaa." ++ secret)⟩]

theorem rightSecret_rests : (watchedKeys Seed.service).Along (AccessRests Seed.service)
    (Seed.world keyDatabase, ⟨[], fun _ => ""⟩) (keyRun "right") := by
  refine access_along_rests rfl ⟨?_, ?_, trivial⟩
  · intro h endpoint apikey keyId secret he hsplit hfresh
    cases he
    have hparts : Text.split "aaaaaaaa.right" '.' = ["aaaaaaaa", "right"] := by decide +kernel
    cases hparts.symm.trans hsplit
    exact absurd hfresh (by decide +kernel)
  · intro h endpoint apikey keyId secret he hsplit hfresh
    cases he
    have hparts : Text.split ("aaaaaaaa." ++ "right") '.' = ["aaaaaaaa", "right"] := by
      decide +kernel
    cases hparts.symm.trans hsplit
    exact Or.inl (by decide +kernel)

/-- The other secret is accepted, although no row has ever held its hash. -/
theorem wrongSecret_accepted : Function.Injective Seed.service.lib.sha256 ∧
    Seed.service.conf.loginMfaApikey = false ∧
    ¬ (watchedKeys Seed.service).Along (AccessRests Seed.service)
        (Seed.world keyDatabase, ⟨[], fun _ => ""⟩) (keyRun "wrong") := by
  refine ⟨fun _ _ h => h, rfl, fun h => ?_⟩
  have hrests := h.2.1 {} "account" "aaaaaaaa.wrong" "aaaaaaaa" "wrong"
    (.str "x-23450001", []) rfl (by decide +kernel) (by decide +kernel)
  revert hrests
  decide +kernel

end ApiKey

end Apicrud
