import Apicrud.Alternating
import Apicrud.Lockout

/-! # Rate limits over a window

`RateLimit.call` at any times, for any services and names.  How many calls of one aligned interval are
let through depends on when they come (`allowed_eq`): the limit is exceeded exactly when the counter of
the first second is gone in the last one and the two seconds together ask for more (`allowed_le_iff`). -/

namespace Apicrud

open Relational

/-- A `RateLimit` object. -/
structure Limiter where
  enable : Bool
  interval : ℕ

namespace RateLimit

/-! ### Calls for any service -/

/-- The rest of `call` when the limit and the name of the counters are known. -/
def limited {κ : Type} [DecidableEq κ] (interval : ℕ) (limit : Val) (counters : Alternating κ)
    (now : ℕ) (name : κ) : Option (Alternating κ × Bool) :=
  -- the remainder modulo zero
  if interval = 0 then none
  else
    match counters.get now (name, Alternating.curr interval now) with
    | none =>
        if limit.truthy then some (Alternating.count interval counters now name 0, false) else none
    | some calls =>
        match limit with
        | .int limit =>
            if (calls : ℤ) < limit then
              some (Alternating.count interval counters now name calls, false)
            else some (counters, true)
        | _ => none

/-- The call of a login attempt is one of them. -/
theorem call_eq_limited (svc : Service) (counters : Counters) (w : World) (req : Request)
    (username : String) : call svc counters w req username =
      (uidOf svc w req username).elim (some (counters, false)) fun uid =>
        limited (interval svc.conf) (limit svc.conf req.amb) counters w.now uid := by
  unfold call
  cases uidOf svc w req username with
  | none => rfl
  | some uid => rfl

/-- A call leaves the counters alone or counts itself. -/
theorem limited_cases {κ : Type} [DecidableEq κ] {I now : ℕ} {limit : Val}
    {counters : Alternating κ} {name : κ} {r : Alternating κ × Bool}
    (h : limited I limit counters now name = some r) :
    r.1 = counters ∨ ∃ calls, r.1 = Alternating.count I counters now name calls := by
  unfold limited at h
  split_ifs at h
  · split at h
    · cases h
      exact Or.inr ⟨_, rfl⟩
    · split at h
      · split_ifs at h
        · cases h
          exact Or.inr ⟨_, rfl⟩
        · cases h
          exact Or.inl rfl
      · cases h
  · split at h
    · cases h
    · split at h
      · split_ifs at h
        · cases h
          exact Or.inr ⟨_, rfl⟩
        · cases h
          exact Or.inl rfl
      · cases h

/-- Under a positive limit, a call is a demand. -/
theorem limited_eq_demand {κ : Type} [DecidableEq κ] {I L : ℕ} (hI : I ≠ 0) (hL : L ≠ 0)
    (counters : Alternating κ) (now : ℕ) (name : κ) :
    limited I (.int L) counters now name = some ((Alternating.demand I L counters now name).1,
      !(Alternating.demand I L counters now name).2) := by
  have htruthy : (Val.int L).truthy := by simpa [Val.truthy] using hL
  unfold limited Alternating.demand Alternating.shown
  rw [if_neg hI]
  cases hget : counters.get now (name, Alternating.curr I now) with
  | none => simp [htruthy, Nat.pos_of_ne_zero hL]
  | some calls =>
      by_cases hbelow : calls < L
      · simp [hbelow]
      · simp [hbelow]

/-- A login attempt under a name is a demand. -/
theorem call_eq_demand {svc : Service} {counters : Counters} {w : World} {req : Request}
    {username uid : String} (hmax : svc.conf.loginAttemptsMax ≠ 0) (hinterval : interval svc.conf ≠ 0)
    (huid : uidOf svc w req username = some uid) : call svc counters w req username =
      some ((Alternating.demand (interval svc.conf) svc.conf.loginAttemptsMax counters w.now uid).1,
        !(Alternating.demand (interval svc.conf) svc.conf.loginAttemptsMax counters w.now uid).2) := by
  have hlimit : limit svc.conf req.amb = .int svc.conf.loginAttemptsMax := if_neg hmax
  rw [call_eq_limited, huid, Option.elim_some, hlimit]
  exact limited_eq_demand hinterval hmax ..

end RateLimit

/-- `RateLimit.call` with the limit, and the `uid` of the call or else of the request, where one is
known: the counters it leaves, and whether the limit is exceeded; `none` where it raises. -/
def Limiter.call (self : Limiter) (counters : Alternating (String × String)) (now : ℕ)
    (limit : Val) (service : String) (uid : Option String) :
    Option (Alternating (String × String) × Bool) :=
  if self.enable then
    uid.elim (some (counters, false)) fun uid =>
      RateLimit.limited self.interval limit counters now (service, uid)
  else some (counters, false)

/-! ### Sequences of calls -/

/-- The counters of redis, and the time. -/
structure Rates where
  counters : Alternating (String × String)
  now : ℕ

/-- A call of `RateLimit.call`, so many seconds after the one before. -/
structure Invocation where
  elapsed : ℕ
  limit : Val
  service : String
  uid : Option String

/-- The call is for the service and the user. -/
def Invocation.For (e : Invocation) (service uid : String) : Prop :=
  e.service = service ∧ e.uid = some uid

instance (e : Invocation) (service uid : String) : Decidable (e.For service uid) :=
  inferInstanceAs (Decidable (_ ∧ _))

namespace Limiter

/-- The calls as a machine; it puts out the answer, `none` where the call raises. -/
def machine (self : Limiter) : Machine Rates Invocation (Option Bool) where
  step s e :=
    let now := s.now + e.elapsed
    let answer := self.call s.counters now e.limit e.service e.uid
    (⟨(answer.map Prod.fst).getD s.counters, now⟩, answer.map Prod.snd)

/-- One for a call for the service and the user, in the interval `n`, that returns `False`. -/
def allowed (self : Limiter) (service uid : String) (n : ℕ) (s : Rates) (e : Invocation) : ℕ :=
  if e.For service uid ∧ (s.now + e.elapsed) / self.interval = n ∧
      self.machine.out s e = some false then 1
  else 0

/-- When the calls for the service and the user come in the interval `n`. -/
def tally (I : ℕ) (service uid : String) (n : ℕ) (t : Tally) (now : ℕ) : List Invocation → Tally
  | [] => t
  | e :: es => tally I service uid n (if e.For service uid then t.add I n (now + e.elapsed) else t)
      (now + e.elapsed) es

variable {I L n : ℕ} {service uid : String} {s : Rates} {t : Tally}

/-- A call for the service and the user. -/
theorem standing_for (hI : 2 ≤ I) (hL : 1 ≤ L) {e : Invocation} (hfor : e.For service uid)
    (hlimit : e.limit = .int L)
    (h : Standing I L n s.now (s.counters ((service, uid), n % 2)) t) :
    Standing I L n (s.now + e.elapsed)
        (((machine ⟨true, I⟩).next s e).counters ((service, uid), n % 2))
        (t.add I n (s.now + e.elapsed)) ∧
      (t.add I n (s.now + e.elapsed)).admitted L =
        t.admitted L + allowed ⟨true, I⟩ service uid n s e := by
  have hcall : call ⟨true, I⟩ s.counters (s.now + e.elapsed) e.limit e.service e.uid =
      some ((Alternating.demand I L s.counters (s.now + e.elapsed) (service, uid)).1,
        !(Alternating.demand I L s.counters (s.now + e.elapsed) (service, uid)).2) := by
    rw [hlimit, hfor.1, hfor.2]
    exact RateLimit.limited_eq_demand (by omega : I ≠ 0) (by omega : L ≠ 0) ..
  have hnext : ((machine ⟨true, I⟩).next s e).counters =
      (Alternating.demand I L s.counters (s.now + e.elapsed) (service, uid)).1 := by
    change (Option.map Prod.fst _).getD _ = _
    rw [hcall]
    rfl
  have hout : (machine ⟨true, I⟩).out s e =
      some !(Alternating.demand I L s.counters (s.now + e.elapsed) (service, uid)).2 := by
    change Option.map Prod.snd _ = _
    rw [hcall]
    rfl
  rw [hnext, allowed, hout]
  simp only [hfor, true_and, Option.some.injEq, Bool.not_eq_false']
  exact (h.later (Nat.le_add_right ..)).demand hI hL

/-- Other calls leave the counters of a name alone. -/
theorem counters_other {e : Invocation} (hfor : ¬ e.For service uid) (i : ℕ) :
    ((machine ⟨true, I⟩).next s e).counters ((service, uid), i) = s.counters ((service, uid), i) := by
  change ((Option.map Prod.fst (call ⟨true, I⟩ s.counters (s.now + e.elapsed) e.limit e.service
    e.uid)).getD s.counters) _ = _
  rw [call, if_pos rfl]
  cases huid : e.uid with
  | none => rfl
  | some uid' =>
      have hname : (service, uid) ≠ (e.service, uid') := by
        intro heq
        rw [Prod.mk.injEq] at heq
        exact hfor ⟨heq.1.symm, huid.trans (congrArg some heq.2.symm)⟩
      rw [Option.elim_some]
      cases hlimited : RateLimit.limited I e.limit s.counters (s.now + e.elapsed) (e.service, uid') with
      | none => rfl
      | some r =>
          rcases RateLimit.limited_cases hlimited with heq | ⟨calls, heq⟩
          · exact congrFun heq _
          · exact (congrFun heq _).trans (Alternating.count_ne _ _ _ _ _ hname)

/-- What is let through of the calls of an interval is what their tally says. -/
theorem standing_run (hI : 2 ≤ I) (hL : 1 ≤ L) {es : List Invocation}
    (hlimit : ∀ e ∈ es, e.For service uid → e.limit = .int L)
    (h : Standing I L n s.now (s.counters ((service, uid), n % 2)) t) :
    t.admitted L + (machine ⟨true, I⟩).total (allowed ⟨true, I⟩ service uid n) s es =
      (tally I service uid n t s.now es).admitted L := by
  induction es generalizing s t with
  | nil => rfl
  | cons e es ih =>
      have hrest := fun e' he' => hlimit e' (List.mem_cons_of_mem e he')
      rw [Machine.total_cons, tally]
      by_cases hfor : e.For service uid
      · obtain ⟨hnext, hadmitted⟩ := standing_for hI hL hfor (hlimit e List.mem_cons_self hfor) h
        rw [if_pos hfor, ← Nat.add_assoc, ← hadmitted]
        exact ih hrest hnext
      · have hnone : allowed ⟨true, I⟩ service uid n s e = 0 := if_neg fun hcon => hfor hcon.1
        rw [if_neg hfor, hnone, Nat.zero_add]
        refine ih hrest ?_
        rw [counters_other hfor]
        exact h.later (Nat.le_add_right s.now e.elapsed)

/-- How many calls of an interval are let through. -/
theorem allowed_eq (hI : 2 ≤ I) (hL : 1 ≤ L) (service uid : String) (now n : ℕ)
    {es : List Invocation} (hlimit : ∀ e ∈ es, e.For service uid → e.limit = .int L) :
    (machine ⟨true, I⟩).total (allowed ⟨true, I⟩ service uid n) ⟨Expiring.empty, now⟩ es =
      (tally I service uid n {} now es).admitted L := by
  have hstands : Standing I L n now (Expiring.empty ((service, uid), n % 2)) {} :=
    .untouched (fun _ _ hnone => absurd hnone (by simp [Expiring.empty])) rfl
  have hrun := standing_run (s := ⟨Expiring.empty, now⟩) hI hL hlimit hstands
  rwa [Tally.admitted_nil, Nat.zero_add] at hrun

/-- At most the limit is let through in an interval, if and only if it does not ask for more in its first
and last seconds while the counter of the first is gone in the last. -/
theorem allowed_le_iff (hI : 2 ≤ I) (hL : 1 ≤ L) (service uid : String) (now n : ℕ)
    {es : List Invocation} (hlimit : ∀ e ∈ es, e.For service uid → e.limit = .int L) :
    (machine ⟨true, I⟩).total (allowed ⟨true, I⟩ service uid n) ⟨Expiring.empty, now⟩ es ≤ L ↔
      ¬ (tally I service uid n {} now es).Exceeds L := by
  rw [allowed_eq hI hL service uid now n hlimit]
  exact Tally.admitted_le_iff _ hL

/-- A call for the other user, after so many seconds. -/
def after (elapsed : ℕ) : Invocation := ⟨elapsed, .int 2, "login.attempt", some "x-U00002"⟩

/-- A call in the first second, one between and one in the last: the counter is there all the time. -/
theorem oneMinute_within :
    (machine ⟨true, 60⟩).total (allowed ⟨true, 60⟩ "login.attempt" "x-U00002" 1)
      ⟨Expiring.empty, 60⟩ [after 0, after 30, after 29] ≤ 2 := by
  refine (@allowed_le_iff 60 2 (by decide) (by decide) "login.attempt" "x-U00002" 60 1 _ ?_).mpr
    (by decide)
  intro e he _
  simp only [List.mem_cons, List.not_mem_nil, or_false] at he
  rcases he with rfl | rfl | rfl <;> rfl

/-- Two calls in the first second and one in the last: the counter of the first is gone. -/
theorem oneMinute_exceeds :
    ¬ (machine ⟨true, 60⟩).total (allowed ⟨true, 60⟩ "login.attempt" "x-U00002" 1)
      ⟨Expiring.empty, 60⟩ [after 0, after 0, after 59] ≤ 2 := by
  decide +kernel

end Limiter

end Apicrud
