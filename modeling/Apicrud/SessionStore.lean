import Apicrud.SessionManager
import Apicrud.Machine

/-! # Sessions next to each other

The calls of `SessionManager` as a machine of their own, with any owners and tokens.  Only the last
three characters of a token are part of the key of its session, so different tokens of one owner share a slot.
`created` is the session manager as one would want it, with a session of its own for every owner and
token; `independent_along` says under which conditions the store agrees with it. -/

namespace Apicrud

open Relational

namespace SessionManager

/-- A call of the session manager. -/
inductive Call where
  | create (uid : Option String) (roles : List String) (keyId : Option String) (token : String)
      (ttl : ℕ) (kwargs : List (String × Val))
  | get (uid : Option String) (token : String) (keyId : Option String)
  | update (uid : Option String) (token arg : String) (value : Val) (keyId : Option String)
  | delete (uid : Option String) (token : String) (keyId : Option String)

/-- The owner and the token that a call is for. -/
def Call.address : Call → String × String
  | .create uid _ keyId token _ _ => (owner uid keyId, token)
  | .get uid token keyId => (owner uid keyId, token)
  | .update uid token _ _ keyId => (owner uid keyId, token)
  | .delete uid token keyId => (owner uid keyId, token)

variable (conf : Config)

/-- One call at an instant; what `create` and `get` return. -/
def serve (redis : Redis) (now : ℕ) : Call → Redis × Option Session
  | .create uid roles keyId token ttl kwargs =>
      create conf redis now uid roles keyId token ttl kwargs
  | .get uid token keyId => (redis, find redis now uid token keyId)
  | .update uid token arg value keyId =>
      ((update conf redis now uid token arg value keyId).getD redis, none)
  | .delete uid token keyId => (delete redis uid token keyId, none)

/-- The store and the time. -/
structure Clocked where
  redis : Redis
  now : ℕ

/-- The session manager as a machine: an event is a call with the time that passed before it. -/
def machine : Machine Clocked (ℕ × Call) (Option Session) where
  step s e :=
    let (redis, out) := serve conf s.redis (s.now + e.1) e.2
    (⟨redis, s.now + e.1⟩, out)

/-! ### A session for every owner and token -/

/-- The sessions by owner and token. -/
abbrev Created := String × String → Option Session

/-- What a call does to the sessions of its own owner and token. -/
def record (h : Created) (s : Clocked) (e : ℕ × Call) : Created :=
  match e.2 with
  | .create .. =>
      match ((machine conf).out s e) with
      | some data => Function.update h e.2.address (some data)
      | none => h
  | .update uid token arg value _ =>
      if (find s.redis (s.now + e.1) uid token none).isSome then
        Function.update h e.2.address ((h e.2.address).map fun data => data.set arg value)
      else h
  | .get .. | .delete .. => h

/-- The machine that watches what was created. -/
def watched : Machine (Clocked × Created) (ℕ × Call) (Option Session) :=
  (machine conf).withHistory (record conf)

/-- Every session found is the one created for just this owner and token, with the updates made for them,
and a call changes what is found for its own owner and token only. -/
structure Independent (p : Clocked × Created) (e : ℕ × Call) : Prop where
  own : ∀ uid token keyId data, find p.1.redis (p.1.now + e.1) uid token keyId = some data →
    p.2 (owner uid keyId, token) = some data
  frame : ∀ uid token keyId, (owner uid keyId, token) ≠ e.2.address →
    find ((watched conf).next p e).1.redis (p.1.now + e.1) uid token keyId =
      find p.1.redis (p.1.now + e.1) uid token keyId

/-- The condition on a call: the values given to `create` name no other token; an update keeps the token
and stays with the owner of the session; and a delete finds its own session in the slot, or nothing. -/
def Fits (p : Clocked × Created) (e : ℕ × Call) : Prop :=
  match e.2 with
  | .create uid roles _ token ttl kwargs =>
      (content conf uid roles token (p.1.now + e.1 + ttl) kwargs).get "jti" = .str token
  | .get .. => True
  | .update uid token arg value keyId =>
      find p.1.redis (p.1.now + e.1) uid token none = none ∨
        ((arg = "jti" → value = .str token) ∧ owner uid keyId = owner uid none)
  | .delete uid token keyId =>
      ∀ data, p.1.redis.get (p.1.now + e.1) (key uid token keyId) = some data →
        data.get "jti" = .str token

/-- Every entry of the store is the session of its owner and token. -/
def Agrees (p : Clocked × Created) : Prop :=
  ∀ uid token keyId data d, p.1.redis (key uid token keyId) = some (data, d) →
    data.get "jti" = .str token → p.2 (owner uid keyId, token) = some data

/-! ### Slots -/

section slots

variable {redis redis' : Redis} {now : ℕ} {uid uid' : Option String} {token token' : String}
  {keyId keyId' : Option String} {data : Session}

theorem key_eq_of_owner (h : owner uid keyId = owner uid' keyId') :
    key uid token keyId = key uid' token keyId' := by
  unfold key
  rw [h]

/-- What is found depends on the slot alone. -/
theorem find_congr (h : redis' (key uid token keyId) = redis (key uid token keyId)) :
    find redis' now uid token keyId = find redis now uid token keyId := by
  unfold find Expiring.get
  rw [h]

/-- A slot with the session of one owner and token holds that of no other. -/
theorem find_other (hdata : ∀ ses, redis.get now (key uid token keyId) = some ses →
    ses.get "jti" = .str token) (hkey : key uid' token' keyId' = key uid token keyId)
    (hne : (owner uid' keyId', token') ≠ (owner uid keyId, token)) :
    find redis now uid' token' keyId' = none := by
  unfold find
  rw [hkey]
  cases hget : redis.get now (key uid token keyId) with
  | none => rfl
  | some ses =>
      have hjti := hdata ses hget
      have htoken : ses.get "jti" ≠ .str token' := by
        intro heq
        have htoken : token = token' := Val.str.inj (hjti.symm.trans heq)
        subst htoken
        exact hne (by rw [owner_eq_of_key hkey])
      simp only [if_neg htoken]

/-- Writing or removing the session of one owner and token hides and shows no other one. -/
theorem find_frame (hsame : ∀ k ≠ key uid token keyId, redis' k = redis k)
    (hbefore : ∀ ses, redis.get now (key uid token keyId) = some ses → ses.get "jti" = .str token)
    (hafter : ∀ ses, redis'.get now (key uid token keyId) = some ses → ses.get "jti" = .str token)
    (hne : (owner uid' keyId', token') ≠ (owner uid keyId, token)) :
    find redis' now uid' token' keyId' = find redis now uid' token' keyId' := by
  by_cases hkey : key uid' token' keyId' = key uid token keyId
  · rw [find_other hbefore hkey hne, find_other hafter hkey hne]
  · exact find_congr (hsame _ hkey)

theorem get_set_self (k : String) (d : ℕ) (ses : Session)
    (h : (redis.set k data d).get now k = some ses) : ses = data := by
  obtain ⟨d', hk, -⟩ := Expiring.get_eq_some.mp h
  rw [Expiring.set_apply, if_pos rfl] at hk
  exact (Prod.mk.inj (Option.some.inj hk)).1.symm

theorem set_of_ne (k : String) (d : ℕ) : ∀ k' ≠ k, redis.set k data d k' = redis k' := by
  intro k' hk
  rw [Expiring.set_apply, if_neg hk]

/-- The session that is found is in its slot. -/
theorem get_of_find (h : find redis now uid token keyId = some data) :
    redis.get now (key uid token keyId) = some data ∧ data.get "jti" = .str token := by
  obtain ⟨hk, hjti⟩ := find_eq_some.mp h
  exact ⟨Expiring.get_eq_some.mpr hk, hjti⟩

end slots

/-! ### What one call does -/

variable {conf} {p : Clocked × Created} {e : ℕ × Call}

/-- A call that meets the condition shows and hides no session of another owner or token. -/
theorem serve_frame (hfits : Fits conf p e) (uid' : Option String) (token' : String)
    (keyId' : Option String) (hne : (owner uid' keyId', token') ≠ e.2.address) :
    find ((watched conf).next p e).1.redis (p.1.now + e.1) uid' token' keyId' =
      find p.1.redis (p.1.now + e.1) uid' token' keyId' := by
  obtain ⟨elapsed, call⟩ := e
  cases call with
  | get => rfl
  | create uid roles keyId token ttl kwargs =>
      change find (create conf p.1.redis (p.1.now + elapsed) uid roles keyId token ttl kwargs).1 _ _ _ _
        = _
      rcases create_cases conf p.1.redis (p.1.now + elapsed) uid roles keyId token ttl kwargs with
        ⟨hcreate, hfree⟩ | ⟨hcreate, -⟩
      · rw [hcreate]
        refine find_frame (set_of_ne _ _) ?_ ?_ hne
        · intro ses hses
          rw [hfree] at hses
          cases hses
        · intro ses hses
          rw [get_set_self _ _ _ hses]
          exact hfits
      · rw [hcreate]
  | update uid token arg value keyId =>
      change find ((update conf p.1.redis (p.1.now + elapsed) uid token arg value keyId).getD
        p.1.redis) _ _ _ _ = _
      cases hfind : find p.1.redis (p.1.now + elapsed) uid token none with
      | none =>
          rw [update, hfind]
          rfl
      | some data =>
          obtain ⟨hslot, hjti⟩ := get_of_find hfind
          obtain ⟨hvalue, howner⟩ := hfits.resolve_left (by rw [hfind]; simp)
          rw [update, hfind]
          refine find_frame (set_of_ne _ _) ?_ ?_ hne
          · intro ses hses
            rw [key_eq_of_owner howner, hslot] at hses
            cases hses
            exact hjti
          · intro ses hses
            rw [get_set_self _ _ _ hses, Dict.get_set]
            split_ifs with harg
            · exact hvalue harg.symm
            · exact hjti
  | delete uid token keyId =>
      change find (delete p.1.redis uid token keyId) _ _ _ _ = _
      refine find_frame ?_ hfits ?_ hne
      · intro k hk
        rw [delete, Expiring.del_apply, if_neg hk]
      · intro ses hses
        obtain ⟨d, hk, -⟩ := Expiring.get_eq_some.mp hses
        rw [delete, Expiring.del_apply, if_pos rfl] at hk
        cases hk

/-- A write to the slot of one owner and token keeps the agreement when the session written is the one
that is to be there. -/
theorem Agrees.set {redis : Redis} {now : ℕ} {h : Created} {uid : Option String} {token : String}
    {keyId : Option String} (hagrees : Agrees (⟨redis, now⟩, h)) (data : Session) (now' d : ℕ)
    (hjti : data.get "jti" = .str token) :
    Agrees (⟨redis.set (key uid token keyId) data d, now'⟩,
      Function.update h (owner uid keyId, token) (some data)) := by
  intro uid' token' keyId' data' d' hk hjti'
  rcases Expiring.set_cases hk with ⟨hkey, rfl, -⟩ | hold
  · have htoken : token = token' := Val.str.inj (hjti.symm.trans hjti')
    subst htoken
    rw [owner_eq_of_key hkey]
    simp
  · by_cases hsame : (owner uid' keyId', token') = (owner uid keyId, token)
    · obtain ⟨howner, rfl⟩ := Prod.mk.inj hsame
      simp only at hk
      rw [key_eq_of_owner howner, Expiring.set_apply, if_pos rfl] at hk
      simp only [hsame, Function.update_self]
      exact congrArg some (Prod.mk.inj (Option.some.inj hk)).1
    · simp only [Function.update_of_ne hsame]
      exact hagrees uid' token' keyId' data' d' hold hjti'

theorem agrees_next (hagrees : Agrees p) (hfits : Fits conf p e) :
    Agrees ((watched conf).next p e) := by
  obtain ⟨⟨redis, now⟩, h⟩ := p
  obtain ⟨elapsed, call⟩ := e
  cases call with
  | get => exact hagrees
  | create uid roles keyId token ttl kwargs =>
      have hnext : (watched conf).next (⟨redis, now⟩, h)
            (elapsed, .create uid roles keyId token ttl kwargs) =
          (⟨(create conf redis (now + elapsed) uid roles keyId token ttl kwargs).1, now + elapsed⟩,
            match (create conf redis (now + elapsed) uid roles keyId token ttl kwargs).2 with
            | some data => Function.update h (owner uid keyId, token) (some data)
            | none => h) := rfl
      rw [hnext]
      rcases create_cases conf redis (now + elapsed) uid roles keyId token ttl kwargs with
        ⟨hcreate, -⟩ | ⟨hcreate, -⟩
      · rw [hcreate]
        exact hagrees.set _ _ _ hfits
      · rw [hcreate]
        exact hagrees
  | update uid token arg value keyId =>
      have hnext : (watched conf).next (⟨redis, now⟩, h) (elapsed, .update uid token arg value keyId) =
          (⟨(update conf redis (now + elapsed) uid token arg value keyId).getD redis,
              now + elapsed⟩,
            if (find redis (now + elapsed) uid token none).isSome then
              Function.update h (owner uid keyId, token)
                ((h (owner uid keyId, token)).map fun data => data.set arg value)
            else h) := rfl
      rw [hnext]
      cases hfind : find redis (now + elapsed) uid token none with
      | none =>
          rw [update, hfind]
          exact hagrees
      | some data =>
          obtain ⟨⟨d, hk, -⟩, hjti⟩ := find_eq_some.mp hfind
          obtain ⟨hvalue, howner⟩ := hfits.resolve_left (by rw [hfind]; simp)
          have hcreated : h (owner uid keyId, token) = some data := by
            rw [howner]
            exact hagrees uid token none data d hk hjti
          rw [update, hfind, hcreated]
          refine hagrees.set _ _ _ ?_
          rw [Dict.get_set]
          split_ifs with harg
          · exact hvalue harg.symm
          · exact hjti
  | delete uid token keyId =>
      intro uid' token' keyId' data d hk
      exact hagrees uid' token' keyId' data d (Expiring.del_some hk)

/-- From an empty store on: as long as the calls meet the condition, sessions are independent. -/
theorem independent_along {s : Clocked} {es : List (ℕ × Call)} (hempty : s.redis = Expiring.empty)
    (h : (watched conf).Along (Fits conf) (s, fun _ => none) es) :
    (watched conf).Along (Independent conf) (s, fun _ => none) es := by
  refine h.of_invariant (fun p e hagrees hfits => agrees_next hagrees hfits) ?_ ?_
  · intro p e hagrees hfits
    refine ⟨?_, serve_frame hfits⟩
    intro uid token keyId data hfind
    obtain ⟨⟨d, hk, -⟩, hjti⟩ := find_eq_some.mp hfind
    exact hagrees uid token keyId data d hk hjti
  · intro uid token keyId data d hk
    rw [hempty] at hk
    cases hk

/-- A fresh store, with nothing created. -/
def fresh : Clocked × Created := (⟨Expiring.empty, 0⟩, fun _ => none)

/-- Two sessions of one user with tokens that end differently, one of them read, changed and removed. -/
def separateRun : List (ℕ × Call) :=
  [(0, .create (some "u-0002") ["user"] none "tokenAAA" 100 []),
    (1, .create (some "u-0002") ["user"] none "tokenBBB" 100 []),
    (1, .update (some "u-0002") "tokenAAA" "lang" (.str "en") none),
    (1, .get (some "u-0002") "tokenBBB" none),
    (1, .delete (some "u-0002") "tokenAAA" none)]

theorem separateRun_independent :
    (watched {}).Along (Independent {}) fresh separateRun := by
  refine independent_along rfl ⟨rfl, rfl, Or.inr ⟨?_, rfl⟩, trivial, ?_, trivial⟩
  · intro harg
    exact absurd harg (by decide)
  · intro data hdata
    have hjti : (((watched {}).run fresh (separateRun.take 4)).1.redis.get 4
        (key (some "u-0002") "tokenAAA" none)).map (fun ses => ses.get "jti") =
        some (.str "tokenAAA") := by decide +kernel
    have hdata : ((watched {}).run fresh (separateRun.take 4)).1.redis.get 4
        (key (some "u-0002") "tokenAAA" none) = some data := hdata
    rw [hdata] at hjti
    exact Option.some.inj hjti

/-- A session is removed under a token that ends like its own. -/
def sharedSlotRun : List (ℕ × Call) :=
  [(0, .create (some "u-0002") ["user"] none "tokenAAA" 100 []),
    (1, .delete (some "u-0002") "otherAAA" none)]

theorem sharedSlot_removed : ¬ (watched {}).Along (Independent {}) fresh sharedSlotRun := by
  intro h
  have hframe := h.2.1.frame (some "u-0002") "tokenAAA" none (by decide)
  have hbefore : (find ((watched {}).run fresh (sharedSlotRun.take 1)).1.redis 1
      (some "u-0002") "tokenAAA" none).isSome := by decide +kernel
  have hafter : (find ((watched {}).run fresh sharedSlotRun).1.redis 1
      (some "u-0002") "tokenAAA" none).isSome = false := by decide +kernel
  have hsame : find ((watched {}).run fresh sharedSlotRun).1.redis 1
        (some "u-0002") "tokenAAA" none =
      find ((watched {}).run fresh (sharedSlotRun.take 1)).1.redis 1
        (some "u-0002") "tokenAAA" none := hframe
  rw [hsame, hbefore] at hafter
  cases hafter

end SessionManager

end Apicrud
