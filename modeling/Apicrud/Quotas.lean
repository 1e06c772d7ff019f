import Apicrud.Metrics

/-! # The credit of one user

Calls of `store` and `check` of one user on one grant, one after the other.  While the key lives, it
holds what is left: a call is admitted as long as that is positive (`admissions_of_entry`).  So a
period admits as many calls as the limit says, and `check` tells how many are left at any time
(`quota_exact`). -/

namespace Apicrud

namespace Metrics

/-! ### Calls in a row -/

/-- The keys, and the time. -/
structure Metered where
  meters : Meters
  now : ℕ

/-- The two methods of `Metrics`. -/
inductive QuotaCall where
  | store
  | check
deriving DecidableEq

/-- A call with the time that passed before it. -/
structure QuotaEvent where
  elapsed : ℕ
  call : QuotaCall
deriving DecidableEq

/-- What a call returns. -/
inductive QuotaAnswer where
  | stored (admits : Option Bool)
  | remaining (credit : Option (Option ℤ))

/-- What a call of `store` returns. -/
def QuotaAnswer.admits : QuotaAnswer → Option (Option Bool)
  | stored admits => some admits
  | remaining _ => none

variable (conf : MetricConf) (limit : ℤ) (uid : Option String) (name : String)

/-- The calls of one user on one metric as a machine. -/
def quota : Machine Metered QuotaEvent QuotaAnswer where
  step s e :=
    let now := s.now + e.elapsed
    match e.call with
    | .store =>
        let (meters, admits) := store conf s.meters now limit uid name [] none
        (⟨meters, now⟩, .stored admits)
    | .check => (⟨s.meters, now⟩, .remaining (check conf s.meters now limit uid name))

/-- What the calls of `store` of a run return, in turn. -/
def admissions (s : Metered) (es : List QuotaEvent) : List (Option Bool) :=
  ((quota conf limit uid name).outputs s es).filterMap QuotaAnswer.admits

/-- The first calls are admitted, as many as there is credit, and the others are not. -/
def admitted (n : ℕ) (credit : ℤ) : List (Option Bool) :=
  (List.range n).map fun i : ℕ => some (decide ((i : ℤ) < credit))

/-- The number of calls of `store`. -/
def storeCount (es : List QuotaEvent) : ℕ := es.countP fun e => e.call = .store

/-- The time that passes over the calls. -/
def duration (es : List QuotaEvent) : ℕ := (es.map QuotaEvent.elapsed).sum

theorem admitted_succ (n : ℕ) (credit : ℤ) :
    admitted (n + 1) credit = some (decide (0 < credit)) :: admitted n (credit - 1) := by
  rw [admitted, List.range_succ_eq_map, List.map_cons, List.map_map, admitted]
  refine congrArg₂ List.cons (by simp) (List.map_congr_left fun i _ => ?_)
  have hiff : ((i + 1 : ℕ) : ℤ) < credit ↔ (i : ℤ) < credit - 1 := by
    push_cast
    omega
  simp only [Function.comp_apply, Nat.succ_eq_add_one, hiff]

theorem admitted_of_nonpos {credit : ℤ} (h : credit ≤ 0) (n : ℕ) :
    admitted n credit = List.replicate n (some false) := by
  rw [admitted, List.eq_replicate_iff]
  refine ⟨by simp, fun b hb => ?_⟩
  obtain ⟨i, -, rfl⟩ := List.mem_map.mp hb
  have hnot : ¬ (i : ℤ) < credit := by omega
  simp [hnot]

/-- The list tells the credit, when it is long enough. -/
theorem credit_of_admitted {a b : ℤ} (ha : 0 < a) (h : ∀ n, admitted n a = admitted n b) : a = b := by
  have hiff : ∀ i : ℕ, (i : ℤ) < a ↔ (i : ℤ) < b := by
    intro i
    have hnth := congrArg (fun l => l[i]?) (h (i + 1))
    simpa [admitted] using hnth
  have hlast := hiff (a - 1).toNat
  have hnext := hiff a.toNat
  omega

/-! ### One call -/

section grant

variable {conf limit uid name} {metric : Metric} {s : Metered}

/-- The key of the user. -/
def userKey (uid : Option String) (name : String) : String := key name (userLabels uid)

theorem store_eq (hmetric : conf.metrics name = some metric) (hstyle : metric.style = .grant)
    (hscope : metric.scope = .user) (meters : Meters) (now : ℕ) :
    store conf meters now limit uid name [] none =
      (((credit limit (meters.get now (userKey uid name))).apply meters now (userKey uid name) limit
          metric.period).1,
        some ((credit limit (meters.get now (userKey uid name))).apply meters now (userKey uid name)
          limit metric.period).2) := by
  have hkey : storeKey conf metric uid name [] = userKey uid name :=
    storeKey_user (by rw [hscope]; decide) uid name
  unfold store
  rw [hmetric]
  simp only [hstyle, hkey]

theorem check_eq (hmetric : conf.metrics name = some metric) (hstyle : metric.style = .grant)
    (meters : Meters) (now : ℕ) :
    check conf meters now limit uid name =
      some (if limit ≤ (meters.get now (userKey uid name)).getD limit then some limit
        else if 0 < (meters.get now (userKey uid name)).getD limit then
          some ((meters.get now (userKey uid name)).getD limit)
        else none) := by
  unfold check
  rw [hmetric]
  simp only [hstyle, ne_eq, not_true_eq_false, if_false, userKey]
  rcases Option.eq_none_or_eq_some (meters.get now (key name (userLabels uid))) with
    hget | ⟨current, hget⟩
  · simp [hget]
  · simp only [hget, Option.getD_some]
    split_ifs <;> rfl

theorem admissions_check (elapsed : ℕ) (es : List QuotaEvent) :
    admissions conf limit uid name s (⟨elapsed, .check⟩ :: es) =
      admissions conf limit uid name ⟨s.meters, s.now + elapsed⟩ es := rfl

theorem admissions_store (hmetric : conf.metrics name = some metric)
    (hstyle : metric.style = .grant) (hscope : metric.scope = .user) {c : Credit} (elapsed : ℕ)
    (es : List QuotaEvent)
    (hc : credit limit (s.meters.get (s.now + elapsed) (userKey uid name)) = c) :
    admissions conf limit uid name s (⟨elapsed, .store⟩ :: es) =
      some (c.apply s.meters (s.now + elapsed) (userKey uid name) limit metric.period).2 ::
        admissions conf limit uid name
          ⟨(c.apply s.meters (s.now + elapsed) (userKey uid name) limit metric.period).1,
            s.now + elapsed⟩ es := by
  have hstore : store conf s.meters (s.now + elapsed) limit uid name [] none = _ :=
    store_eq hmetric hstyle hscope s.meters (s.now + elapsed)
  rw [hc] at hstore
  have hstep : (quota conf limit uid name).step s ⟨elapsed, .store⟩ =
      (⟨(c.apply s.meters (s.now + elapsed) (userKey uid name) limit metric.period).1,
          s.now + elapsed⟩,
        .stored (some
          (c.apply s.meters (s.now + elapsed) (userKey uid name) limit metric.period).2)) := by
    simp only [quota, hstore]
  rw [admissions, Machine.outputs_cons, Machine.out, Machine.next, hstep]
  rfl

/-! ### One period -/

theorem admissions_cons (hmetric : conf.metrics name = some metric)
    (hstyle : metric.style = .grant) (hscope : metric.scope = .user) (elapsed : ℕ)
    (es : List QuotaEvent) {current : ℤ}
    (hget : s.meters.get (s.now + elapsed) (userKey uid name) = some current)
    (hbelow : current < limit) (hpos : 0 < current) : ∃ expires,
      s.meters (userKey uid name) = some ⟨current, expires⟩ ∧
        admissions conf limit uid name s (⟨elapsed, .store⟩ :: es) = some true ::
          admissions conf limit uid name
            ⟨s.meters.set (userKey uid name) (current - 1) expires, s.now + elapsed⟩ es := by
  obtain ⟨expires, hentry, hset⟩ := Keyspace.incrBy_some hget (-1)
  have hc : credit limit (s.meters.get (s.now + elapsed) (userKey uid name)) = .spend := by
    rw [hget]
    simp only [credit]
    rw [if_neg (by omega), if_neg (by omega)]
  refine ⟨expires, hentry, ?_⟩
  rw [admissions_store hmetric hstyle hscope elapsed es hc]
  simp only [Credit.apply, hset]
  rfl

/-- While the key lives, calls are admitted as long as there is credit on it. -/
theorem admissions_of_entry (hmetric : conf.metrics name = some metric)
    (hstyle : metric.style = .grant) (hscope : metric.scope = .user) {es : List QuotaEvent}
    {current : ℤ} {expires : Option ℕ}
    (hentry : s.meters (userKey uid name) = some ⟨current, expires⟩) (hbelow : current < limit)
    (hlive : ∀ d ∈ expires, s.now + duration es < d) :
    admissions conf limit uid name s es = admitted (storeCount es) current := by
  induction es generalizing s current with
  | nil => rfl
  | cons e es ih =>
      obtain ⟨elapsed, call⟩ := e
      have hduration : duration (⟨elapsed, call⟩ :: es) = elapsed + duration es := rfl
      have hrest : ∀ d ∈ expires, s.now + elapsed + duration es < d := by
        intro d hd
        have := hlive d hd
        omega
      cases call with
      | check =>
          rw [admissions_check]
          exact ih hentry hbelow hrest
      | store =>
          have hget : s.meters.get (s.now + elapsed) (userKey uid name) = some current := by
            apply Keyspace.get_eq_some.mpr ⟨expires, hentry, ?_⟩
            intro d hd
            have := hrest d hd
            omega
          have hcount : storeCount (⟨elapsed, .store⟩ :: es) = storeCount es + 1 :=
            List.countP_cons_of_pos rfl
          rw [hcount, admitted_succ]
          rcases Int.lt_or_le 0 current with hpos | hnone
          · obtain ⟨expires', hentry', hstep⟩ :=
              admissions_cons hmetric hstyle hscope elapsed es hget hbelow hpos
            cases hentry.symm.trans hentry'
            rw [hstep, decide_eq_true hpos]
            congr 1
            exact ih (Keyspace.set_self ..) (by omega) hrest
          · have hc : credit limit (s.meters.get (s.now + elapsed) (userKey uid name)) = .refuse := by
              rw [hget]
              simp only [credit]
              rw [if_neg (by omega), if_pos hnone]
            rw [admissions_store hmetric hstyle hscope elapsed es hc, decide_eq_false (by omega)]
            congr 1
            rw [admitted_of_nonpos (by omega), ← admitted_of_nonpos hnone]
            exact ih hentry hbelow hrest

/-- The first call of a period makes the key, and the period admits as many calls as the limit says. -/
theorem admissions_of_none (hmetric : conf.metrics name = some metric)
    (hstyle : metric.style = .grant) (hscope : metric.scope = .user) (hlimit : 1 ≤ limit)
    {elapsed : ℕ} {es : List QuotaEvent}
    (hget : s.meters.get (s.now + elapsed) (userKey uid name) = none)
    (hperiod : ∀ seconds ∈ metric.period.seconds, duration es < seconds) :
    admissions conf limit uid name s (⟨elapsed, .store⟩ :: es) =
      admitted (storeCount es + 1) limit := by
  have hc : credit limit (s.meters.get (s.now + elapsed) (userKey uid name)) = .renew := by
    rw [hget]
    rfl
  rw [admissions_store hmetric hstyle hscope elapsed es hc, admitted_succ, decide_eq_true (by omega)]
  congr 1
  apply admissions_of_entry hmetric hstyle hscope (Keyspace.set_self ..) (by omega)
  intro d hd
  obtain ⟨seconds, hseconds, rfl⟩ := Option.map_eq_some_iff.mp hd
  have := hperiod seconds hseconds
  show s.now + elapsed + duration es < s.now + elapsed + seconds
  omega

/-! ### What is left -/

/-- The key never holds the whole limit. -/
def Below (limit : ℤ) (uid : Option String) (name : String) (s : Metered) : Prop :=
  ∀ h, s.meters (userKey uid name) = some h → h.value < limit

theorem below_next (hmetric : conf.metrics name = some metric) (hstyle : metric.style = .grant)
    (hscope : metric.scope = .user) (e : QuotaEvent) (h : Below limit uid name s) :
    Below limit uid name ((quota conf limit uid name).next s e) := by
  obtain ⟨elapsed, call⟩ := e
  cases call with
  | check => exact h
  | store =>
      intro held hheld
      have hstore : store conf s.meters (s.now + elapsed) limit uid name [] none = _ :=
        store_eq hmetric hstyle hscope s.meters (s.now + elapsed)
      have hmeters : ((quota conf limit uid name).next s ⟨elapsed, .store⟩).meters = _ :=
        congrArg Prod.fst hstore
      rw [hmeters] at hheld
      rcases Option.eq_none_or_eq_some (s.meters.get (s.now + elapsed) (userKey uid name)) with
        hget | ⟨current, hget⟩
      · rw [hget] at hheld
        simp only [credit, Credit.apply, Keyspace.set_self] at hheld
        cases hheld
        show limit - 1 < limit
        omega
      · obtain ⟨expires, hentry, hset⟩ := Keyspace.incrBy_some hget (-1)
        have hbelow : current < limit := h _ hentry
        rw [hget] at hheld
        simp only [credit] at hheld
        rw [if_neg (by omega)] at hheld
        split_ifs at hheld
        · exact h held hheld
        · simp only [Credit.apply, hset, Keyspace.set_self] at hheld
          cases hheld
          show current + -1 < limit
          omega

/-- Calls at one instant are admitted as long as there is credit. -/
theorem admissions_replicate (hmetric : conf.metrics name = some metric)
    (hstyle : metric.style = .grant) (hscope : metric.scope = .user) (hlimit : 1 ≤ limit)
    (h : Below limit uid name s) (n : ℕ) :
    admissions conf limit uid name s (List.replicate n ⟨0, .store⟩) =
      admitted n ((s.meters.get s.now (userKey uid name)).getD limit) := by
  have hcount : ∀ n, storeCount (List.replicate n ⟨0, .store⟩) = n := by
    intro n
    simp [storeCount, List.countP_replicate]
  have hduration : ∀ n, duration (List.replicate n ⟨0, .store⟩) = 0 := by
    intro n
    simp [duration]
  rcases Option.eq_none_or_eq_some (s.meters.get s.now (userKey uid name)) with hget | ⟨current, hget⟩
  · cases n with
    | zero => rfl
    | succ n =>
        rw [List.replicate_succ, admissions_of_none hmetric hstyle hscope hlimit hget, hcount, hget]
        · rfl
        · intro seconds hseconds
          rw [hduration]
          exact Period.seconds_pos hseconds
  · obtain ⟨expires, hentry, hlive⟩ := Keyspace.get_eq_some.mp hget
    rw [hget, Option.getD_some, admissions_of_entry hmetric hstyle hscope hentry (h _ hentry), hcount]
    intro d hd
    rw [hduration]
    exact hlive d hd

/-- From an empty store on: a period admits as many calls as the limit says, from its first one on; and
at any time `check` tells how many are left. -/
theorem quota_exact (hmetric : conf.metrics name = some metric) (hstyle : metric.style = .grant)
    (hscope : metric.scope = .user) (hlimit : 1 ≤ limit) {now : ℕ} {es : List QuotaEvent}
    (hs : s = (quota conf limit uid name).run ⟨Keyspace.empty, now⟩ es) :
    (∀ elapsed rest, s.meters.get (s.now + elapsed) (userKey uid name) = none →
      (∀ seconds ∈ metric.period.seconds, duration rest < seconds) →
      admissions conf limit uid name s (⟨elapsed, .store⟩ :: rest) =
        admitted (storeCount rest + 1) limit) ∧
    (∀ k, 0 < k → (check conf s.meters s.now limit uid name = some (some k) ↔
      ∀ n, admissions conf limit uid name s (List.replicate n ⟨0, .store⟩) = admitted n k)) ∧
    (check conf s.meters s.now limit uid name = some none ↔
      admissions conf limit uid name s [⟨0, .store⟩] = [some false]) := by
  have hbelow : Below limit uid name s := by
    rw [hs]
    refine Machine.invariant_run (fun s e h => below_next hmetric hstyle hscope e h) ?_ es
    intro h hh
    cases hh
  have hnext := admissions_replicate hmetric hstyle hscope hlimit hbelow
  have hone : admissions conf limit uid name s [⟨0, .store⟩] = _ := hnext 1
  have hcheck : check conf s.meters s.now limit uid name = _ :=
    check_eq hmetric hstyle s.meters s.now
  have hle : (s.meters.get s.now (userKey uid name)).getD limit ≤ limit := by
    rcases Option.eq_none_or_eq_some (s.meters.get s.now (userKey uid name)) with
      hget | ⟨current, hget⟩
    · rw [hget]
      exact le_refl limit
    · obtain ⟨expires, hentry, -⟩ := Keyspace.get_eq_some.mp hget
      rw [hget]
      exact (hbelow _ hentry).le
  generalize (s.meters.get s.now (userKey uid name)).getD limit = left at hnext hone hcheck hle
  have hleft : check conf s.meters s.now limit uid name =
      some (if 0 < left then some left else none) := by
    rw [hcheck]
    by_cases hfull : limit ≤ left
    · have heq : left = limit := by omega
      rw [if_pos hfull, heq, if_pos (by omega)]
    · rw [if_neg hfull]
  rw [hleft]
  refine ⟨fun elapsed rest => admissions_of_none hmetric hstyle hscope hlimit, fun k hk => ?_, ?_⟩
  · constructor
    · intro h n
      split_ifs at h
      · cases h
        exact hnext n
      · cases h
    · intro h
      have heq : k = left := credit_of_admitted hk fun n => (h n).symm.trans (hnext n)
      rw [← heq, if_pos hk]
  · rw [hone, admitted_succ]
    by_cases hpos : 0 < left
    · simp [hpos]
    · rw [if_neg hpos, decide_eq_false hpos]
      exact ⟨fun _ => rfl, fun _ => rfl⟩

end grant

/-- A service with one metric. -/
def exampleConf : MetricConf := ⟨fun _ => some {}, "i-0001"⟩

/-- Three calls of a day are admitted, and the fourth is not. -/
theorem quota_three : admissions exampleConf 3 (some "u-0002") "sms_daily_total" ⟨Keyspace.empty, 100⟩
    [⟨0, .store⟩, ⟨60, .store⟩, ⟨60, .check⟩, ⟨60, .store⟩, ⟨60, .store⟩] =
      [some true, some true, some true, some false] :=
  (@quota_exact exampleConf 3 (some "u-0002") "sms_daily_total" {} ⟨Keyspace.empty, 100⟩ rfl rfl rfl
    (by decide) 100 [] rfl).1 0 [⟨60, .store⟩, ⟨60, .check⟩, ⟨60, .store⟩, ⟨60, .store⟩] rfl
    (by decide)

end Metrics

end Apicrud
