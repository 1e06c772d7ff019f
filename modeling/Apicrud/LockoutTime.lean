import Apicrud.Guesses
import Apicrud.RateWindows

/-! # How long a name stays locked out

`login_lockout_interval` says how long an account is locked after unsuccessful attempts; the limit counts
in windows of the clock.  In a run of failing logins, a name that is locked out has failed as often as the
limit says in one window, the last time at an instant `T`.  It stays locked for the time that is
configured, counted from `T`, if and only if no request for it comes in the next window or in the last
second (`Limited.stays_along_iff`). -/

namespace Apicrud

open Relational

variable {svc : Service} {w : World} {req : Request} {username : String} {password method otp : Val}

/-! ### The answer of the limit -/

theorem not_isLockedOut_unpacked (answer : Response) :
    ¬ (SessionAuth.unpacked answer).IsLockedOut := by
  unfold SessionAuth.unpacked
  split_ifs with hstatus
  · intro h
    rw [h.1] at hstatus
    exact absurd hstatus (by decide)
  · decide

/-- A request that the limit lets through is not answered as one that it keeps away. -/
theorem not_isLockedOut (hopen : req.amb.lockedOut = false) :
    ¬ (SessionAuth.accountLogin svc w req username password method otp).2.IsLockedOut := by
  unfold SessionAuth.accountLogin
  simp only [hopen, Bool.false_eq_true, if_false]
  split_ifs with hstep hotp hprovider hmethod
  · split
    · exact not_isLockedOut_unpacked _
    · rename_i hlogin
      exact (totpLogin_error hlogin).2
  · exact (by decide : ¬ (Response.message "access denied" 403).IsLockedOut)
  · change ¬ (SessionAuth.oauth2Login req.amb).IsLockedOut
    unfold SessionAuth.oauth2Login
    split
    · decide
    · decide
    · exact fun h => absurd h.1 (by decide : (200 : ℕ) ≠ 403)
  · split
    · exact not_isLockedOut_unpacked _
    · rename_i hr
      exact (tryMethods_error hr (by decide)).2
  · exact (by decide : ¬ (Response.message "unsupported login method" 500).IsLockedOut)

namespace Limited

/-! ### One attempt -/

variable (svc)

/-- The name that a login attempt is counted under. -/
def nameOf (s : Limited) (e : Event) : Option String :=
  match e.call with
  | .login username _ _ _ => RateLimit.uidOf svc (s.at e).world e.req username
  | _ => none

/-- The instant of an event. -/
def timeOf (s : Limited) (e : Event) : ℕ := s.world.now + e.elapsed

/-- No login succeeds. -/
def Failing (s : Limited) (e : Event) : Prop :=
  ∀ username password method otp, e.call = .login username password method otp →
    ¬ ((machine svc).out s e).Accepts

/-- A request for the name is answered `locked out`. -/
def LockedOut (uid : String) (s : Limited) (e : Event) : Prop :=
  nameOf svc s e = some uid ∧ ((machine svc).out s e).IsLockedOut

/-- An attempt under the name, as a demand on its counters. -/
def attempt (uid : String) (s : Limited) (e : Event) : Counters × Bool :=
  Alternating.demand (RateLimit.interval svc.conf) svc.conf.loginAttemptsMax s.attempts (timeOf s e)
    uid

variable {svc} {s : Limited} {e : Event} {uid : String}

/-- The limit keeps away the requests that it refuses. -/
theorem accountLogin_isLockedOut {s : Limited} {attempts : Counters} {locked : Bool}
    (hcall : RateLimit.call svc s.attempts s.world req username = some (attempts, locked)) :
    (accountLogin svc s req username password method otp).2.IsLockedOut ↔ locked = true := by
  unfold accountLogin
  rw [hcall]
  cases locked with
  | true =>
      simp only [iff_true]
      rw [@accountLogin_locked svc s.world (req.limited true) rfl]
      exact isLockedOut_lockedOut username
  | false =>
      simp only [Bool.false_eq_true, iff_false]
      exact not_isLockedOut rfl

/-- A failing login leaves the counters as the limit left them. -/
theorem accountLogin_attempts {s : Limited} {attempts : Counters} {locked : Bool}
    (hcall : RateLimit.call svc s.attempts s.world req username = some (attempts, locked))
    (hfails : ¬ (accountLogin svc s req username password method otp).2.Accepts) :
    (accountLogin svc s req username password method otp).1.attempts = attempts := by
  unfold accountLogin at hfails ⊢
  rw [hcall] at hfails ⊢
  exact if_neg hfails

theorem isLockedOut_iff (hmax : svc.conf.loginAttemptsMax ≠ 0)
    (hinterval : RateLimit.interval svc.conf ≠ 0) (hname : nameOf svc s e = some uid) :
    ((machine svc).out s e).IsLockedOut ↔ (attempt svc uid s e).2 = false := by
  obtain ⟨elapsed, req, call⟩ := e
  cases call with
  | login username password method otp =>
      have hcall := @RateLimit.call_eq_demand svc s.attempts _ _ _ _ hmax hinterval hname
      exact (accountLogin_isLockedOut hcall).trans (by rw [Bool.not_eq_true']; rfl)
  | _ => cases hname

/-- A failing attempt under the name. -/
theorem next_attempts (hmax : svc.conf.loginAttemptsMax ≠ 0)
    (hinterval : RateLimit.interval svc.conf ≠ 0) (hfails : Failing svc s e)
    (hname : nameOf svc s e = some uid) :
    ((machine svc).next s e).attempts = (attempt svc uid s e).1 := by
  obtain ⟨elapsed, req, call⟩ := e
  cases call with
  | login username password method otp =>
      have hcall := @RateLimit.call_eq_demand svc s.attempts _ _ _ _ hmax hinterval hname
      exact accountLogin_attempts hcall (hfails username password method otp rfl)
  | _ => cases hname

/-- Failing requests under other names. -/
theorem next_attempts_other (hmax : svc.conf.loginAttemptsMax ≠ 0)
    (hinterval : RateLimit.interval svc.conf ≠ 0) (hfails : Failing svc s e)
    (hname : nameOf svc s e ≠ some uid) (i : ℕ) :
    ((machine svc).next s e).attempts (uid, i) = s.attempts (uid, i) := by
  cases hother : nameOf svc s e with
  | some uid' =>
      have hne : uid ≠ uid' := fun heq => hname (hother.trans (congrArg some heq.symm))
      rw [next_attempts hmax hinterval hfails hother, attempt, Alternating.demand]
      split_ifs
      · exact Alternating.count_ne _ _ _ _ _ hne
      · rfl
  | none =>
      obtain ⟨elapsed, req, call⟩ := e
      cases call with
      | login username password method otp =>
          have hcall : RateLimit.call svc (s.at ⟨elapsed, req, .login username password method otp⟩).attempts
              (s.at ⟨elapsed, req, .login username password method otp⟩).world req username =
                some (s.attempts, false) := by
            rw [RateLimit.call_eq_limited]
            exact congrArg (fun o => Option.elim o _ _) hother
          exact congrFun (accountLogin_attempts hcall (hfails username password method otp rfl)) _
      | _ => rfl

/-- A name is locked out in an interval of some length only. -/
theorem LockedOut.interval_ne_zero (hlocked : LockedOut svc uid s e) :
    RateLimit.interval svc.conf ≠ 0 := by
  obtain ⟨hname, hanswer⟩ := hlocked
  intro hzero
  obtain ⟨elapsed, req, call⟩ := e
  cases call with
  | login username password method otp =>
      have hcall : RateLimit.call svc (s.at ⟨elapsed, req, .login username password method otp⟩).attempts
          (s.at ⟨elapsed, req, .login username password method otp⟩).world req username = none := by
        have hname : RateLimit.uidOf svc _ req username = some uid := hname
        rw [RateLimit.call_eq_limited, hname, Option.elim_some, RateLimit.limited, if_pos hzero]
      change (accountLogin svc _ req username password method otp).2.IsLockedOut at hanswer
      unfold accountLogin at hanswer
      rw [hcall] at hanswer
      exact absurd hanswer (by decide : ¬ Response.raised.IsLockedOut)
  | _ => cases hname

/-! ### Failures -/

variable (svc)

/-- The instant of a failure under the name is put before the others. -/
def recordFailure (uid : String) (h : List ℕ) (s : Limited) (e : Event) : List ℕ :=
  if nameOf svc s e = some uid ∧ ¬ ((machine svc).out s e).IsLockedOut then timeOf s e :: h else h

/-- The instants of the failures under the name in a run, the last one first. -/
def failures (uid : String) (s : Limited) (es : List Event) : List ℕ :=
  (((machine svc).withHistory (recordFailure svc uid)).run (s, []) es).2

variable {svc} {es : List Event}

/-- In a run of failing logins, the counters of a name show its last failures. -/
theorem recent_run (hmax : svc.conf.loginAttemptsMax ≠ 0)
    (hinterval : RateLimit.interval svc.conf ≠ 0) (hnone : ∀ i, s.attempts (uid, i) = none)
    (hfails : (machine svc).Along (Failing svc) s es) :
    Alternating.Recent (RateLimit.interval svc.conf) svc.conf.loginAttemptsMax
      ((machine svc).run s es).attempts uid ((machine svc).run s es).world.now
      (failures svc uid s es) := by
  have hwatched := (Machine.along_withHistory (machine svc) (recordFailure svc uid) (Failing svc)
    (s, []) es).mpr hfails
  have hrun := Machine.run_withHistory (machine svc) (recordFailure svc uid) (s, []) es
  rw [← show _ = (machine svc).run s es from hrun]
  refine Machine.invariant (I := fun p => Alternating.Recent (RateLimit.interval svc.conf)
    svc.conf.loginAttemptsMax p.1.attempts uid p.1.world.now p.2) ?_ hwatched ?_
  · rintro ⟨s, h⟩ e hrecent hfailing
    rw [Machine.withHistory_next]
    simp only [next_now]
    have hle : s.world.now ≤ timeOf s e := Nat.le_add_right ..
    by_cases hname : nameOf svc s e = some uid
    · have hrecord : recordFailure svc uid h s e =
          if (attempt svc uid s e).2 = true then timeOf s e :: h else h := by
        refine if_congr ?_ rfl rfl
        rw [isLockedOut_iff hmax hinterval hname, Bool.not_eq_false]
        exact and_iff_right hname
      rw [next_attempts hmax hinterval hfailing hname, hrecord]
      exact hrecent.demand hle
    · rw [recordFailure, if_neg fun hcon => hname hcon.1]
      exact hrecent.later (next_attempts_other hmax hinterval hfailing hname) hle
  · intro i v d hentry
    exact absurd ((hnone i).symm.trans hentry) (by simp)

/-! ### The time of the lock -/

variable (svc)

/-- A request for the name within the configured time of the failure is answered `locked out`. -/
def Stays (uid : String) (T : ℕ) (s : Limited) (e : Event) : Prop :=
  nameOf svc s e = some uid → timeOf s e < T + svc.conf.loginLockoutInterval →
    ((machine svc).out s e).IsLockedOut

/-- A request for the name within the configured time of the failure comes in the window of the failure,
and not in the last second of that time. -/
def Covered (uid : String) (T : ℕ) (s : Limited) (e : Event) : Prop :=
  nameOf svc s e = some uid → timeOf s e < T + svc.conf.loginLockoutInterval →
    window svc (timeOf s e) = window svc T ∧ timeOf s e + 1 < T + svc.conf.loginLockoutInterval

/-- The name has reached the limit at the instant, unless the configured time is over. -/
def Held (uid : String) (T : ℕ) (s : Limited) : Prop :=
  T ≤ s.world.now ∧ (T + svc.conf.loginLockoutInterval ≤ s.world.now ∨
    Alternating.Full (RateLimit.interval svc.conf) svc.conf.loginAttemptsMax s.attempts uid T)

variable {svc} {T : ℕ}

theorem stays_iff (hmax : svc.conf.loginAttemptsMax ≠ 0)
    (hinterval : RateLimit.interval svc.conf ≠ 0) (hheld : Held svc uid T s) :
    Stays svc uid T s e ↔ Covered svc uid T s e := by
  refine forall_congr' fun hname => forall_congr' fun htime => ?_
  have hnow : s.world.now ≤ timeOf s e := Nat.le_add_right ..
  obtain ⟨hT, hover | hfull⟩ := hheld
  · omega
  · have hspan : RateLimit.interval svc.conf = svc.conf.loginLockoutInterval := if_neg (by omega)
    rw [isLockedOut_iff hmax hinterval hname, attempt, ← hspan]
    exact hfull.refused_iff (Nat.pos_of_ne_zero hinterval) (Nat.pos_of_ne_zero hmax)
      (hT.trans hnow) (hspan ▸ htime)

/-- The name stays locked as long as its requests are refused. -/
theorem Held.next (hmax : svc.conf.loginAttemptsMax ≠ 0)
    (hinterval : RateLimit.interval svc.conf ≠ 0) (hheld : Held svc uid T s)
    (hfails : Failing svc s e) (hstays : Stays svc uid T s e) :
    Held svc uid T ((machine svc).next s e) := by
  obtain ⟨hT, hheld⟩ := hheld
  rw [Held, next_now]
  refine ⟨hT.trans (Nat.le_add_right ..), ?_⟩
  by_cases hover : T + svc.conf.loginLockoutInterval ≤ s.world.now + e.elapsed
  · exact Or.inl hover
  · have hfull := hheld.resolve_left (by omega)
    have hsame : ∀ i, ((machine svc).next s e).attempts (uid, i) = s.attempts (uid, i) := by
      by_cases hname : nameOf svc s e = some uid
      · have hrefused := (isLockedOut_iff hmax hinterval hname).mp
          (hstays hname (Nat.lt_of_not_le hover))
        intro i
        rw [next_attempts hmax hinterval hfails hname]
        exact congrFun (Alternating.demand_refused hrefused) _
      · exact next_attempts_other hmax hinterval hfails hname
    exact Or.inr ⟨(hsame _).trans hfull.1, fun i hi => (hsame i).trans (hfull.2 i hi)⟩

/-- A request is answered `locked out` in a state whose counters show the last failures. -/
theorem locked_span (hmax : svc.conf.loginAttemptsMax ≠ 0) {h : List ℕ}
    (hrecent : Alternating.Recent (RateLimit.interval svc.conf) svc.conf.loginAttemptsMax s.attempts
      uid s.world.now h)
    (hlocked : LockedOut svc uid s e) (hfailing : Failing svc s e)
    (hafter : (machine svc).Along (Failing svc) ((machine svc).next s e) es) :
    ∃ T, h.head? = some T ∧ svc.conf.loginAttemptsMax ≤ h.length ∧
      (∀ t ∈ h.take svc.conf.loginAttemptsMax, window svc t = window svc T) ∧
      ((machine svc).Along (Stays svc uid T) ((machine svc).next s e) es ↔
        (machine svc).Along (Covered svc uid T) ((machine svc).next s e) es) := by
  have hinterval := hlocked.interval_ne_zero
  have hrefused : (attempt svc uid s e).2 = false :=
    (isLockedOut_iff hmax hinterval hlocked.1).mp hlocked.2
  have hlater := hrecent.later (fun _ => rfl) (Nat.le_add_right s.world.now e.elapsed)
  obtain ⟨T, hhead, hT, hfull, hlength, hwindow⟩ := hlater.full (Nat.pos_of_ne_zero hmax) hrefused
  have hheld : Held svc uid T ((machine svc).next s e) := by
    rw [Held, next_now, next_attempts hmax hinterval hfailing hlocked.1]
    refine ⟨hT, Or.inr ?_⟩
    rwa [attempt, Alternating.demand_refused hrefused]
  refine ⟨T, hhead, hlength, hwindow, ?_⟩
  exact Machine.Along.iff_of_invariant (I := Held svc uid T)
    (fun s e hheld _ => stays_iff hmax hinterval hheld)
    (fun s e hheld hfails hstays => hheld.next hmax hinterval hfails hstays) hafter hheld

/-- In a run of failing logins, a name that is locked out has failed as often as the limit says in one
window, the last time at `T`; it stays locked for the configured time if and only if its requests of that
time come in the window of `T`, and not in the last second. -/
theorem stays_along_iff (hmax : svc.conf.loginAttemptsMax ≠ 0) (uid : String)
    (hnone : ∀ i, s.attempts (uid, i) = none) {es₁ es₂ : List Event} {e : Event}
    (hfails : (machine svc).Along (Failing svc) s (es₁ ++ e :: es₂))
    (hlocked : LockedOut svc uid ((machine svc).run s es₁) e) :
    ∃ T, (failures svc uid s es₁).head? = some T ∧
      svc.conf.loginAttemptsMax ≤ (failures svc uid s es₁).length ∧
      (∀ t ∈ (failures svc uid s es₁).take svc.conf.loginAttemptsMax,
        window svc t = window svc T) ∧
      ((machine svc).Along (Stays svc uid T) ((machine svc).run s (es₁ ++ [e])) es₂ ↔
        (machine svc).Along (Covered svc uid T) ((machine svc).run s (es₁ ++ [e])) es₂) := by
  obtain ⟨hbefore, hfailing, hafter⟩ := (Machine.along_append ..).mp hfails
  have hrecent := recent_run hmax hlocked.interval_ne_zero hnone hbefore
  have hrun : (machine svc).run s (es₁ ++ [e]) = (machine svc).next ((machine svc).run s es₁) e :=
    Machine.run_append ..
  rw [hrun]
  exact locked_span hmax hrecent hlocked hfailing hafter

/-- A wrong password for the other user, after so many seconds. -/
def wrong (elapsed : ℕ) : Event :=
  ⟨elapsed, Seed.request {} "t1", .login "second" (.str "guess") .none .none⟩

theorem failing_wrong {elapsed : ℕ} (h : ¬ ((machine svc).out s (wrong elapsed)).Accepts) :
    Failing svc s (wrong elapsed) := fun _ _ _ _ _ => h

/-- Five failures, so many seconds after the start and one second apart. -/
def fiveWrong (elapsed : ℕ) : List Event := [wrong elapsed, wrong 1, wrong 1, wrong 1, wrong 1]

/-- The failures come at the beginning of a window: nine minutes later the name is still locked. -/
theorem nineMinutes_stays : (machine Seed.service).Along (Stays Seed.service "second" 604)
    ((machine Seed.service).run fresh (fiveWrong 500 ++ [wrong 1])) [wrong 1, wrong 540] := by
  obtain ⟨T, hhead, -, -, hspan⟩ := @stays_along_iff Seed.service fresh (by decide) "second"
    (fun _ => rfl) (fiveWrong 500) [wrong 1, wrong 540] (wrong 1)
    ⟨failing_wrong (by decide +kernel), failing_wrong (by decide +kernel),
      failing_wrong (by decide +kernel), failing_wrong (by decide +kernel),
      failing_wrong (by decide +kernel), failing_wrong (by decide +kernel),
      failing_wrong (by decide +kernel), failing_wrong (by decide +kernel), trivial⟩
    ⟨by decide +kernel, by decide +kernel⟩
  have hT : (failures Seed.service "second" fresh (fiveWrong 500)).head? = some 604 := by
    decide +kernel
  rw [hT, Option.some.injEq] at hhead
  subst hhead
  exact hspan.mpr ⟨fun _ _ => by decide +kernel, fun _ _ => by decide +kernel, trivial⟩

/-- The failures come at the end of a window: the name is locked for one second. -/
theorem windowEnds_unlocks :
    (machine Seed.service).Along (Failing Seed.service) fresh
        (fiveWrong 1094 ++ wrong 1 :: [wrong 1]) ∧
      LockedOut Seed.service "second" ((machine Seed.service).run fresh (fiveWrong 1094)) (wrong 1) ∧
      (failures Seed.service "second" fresh (fiveWrong 1094)).head? = some 1198 ∧
      ¬ (machine Seed.service).Along (Stays Seed.service "second" 1198)
        ((machine Seed.service).run fresh (fiveWrong 1094 ++ [wrong 1])) [wrong 1] := by
  refine ⟨⟨failing_wrong (by decide +kernel), failing_wrong (by decide +kernel),
      failing_wrong (by decide +kernel), failing_wrong (by decide +kernel),
      failing_wrong (by decide +kernel), failing_wrong (by decide +kernel),
      failing_wrong (by decide +kernel), trivial⟩,
    ⟨by decide +kernel, by decide +kernel⟩, by decide +kernel, fun hstays => ?_⟩
  have hlocked := hstays.1 (by decide +kernel) (by decide +kernel)
  exact absurd hlocked (by decide +kernel)

end Limited

end Apicrud
