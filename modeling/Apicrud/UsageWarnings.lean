import Apicrud.Quotas

/-! # The warning that a limit is near

`Metrics.store` compares the share of a grant that is left before a call and after it with the percentage
`notify` of the metric, and hands a message to `func_send` when the call crosses it.  The shares are taken
in `ℚ`.  `storeSends` is `store` with that message (`storeSends_fst`).

The first call of a period makes the key and compares nothing.  So of the calls that use up a limit, one
sends the message, and it is the first one that goes over the percentage, just when the first call of all
does not: `warned_once_iff`. -/

namespace Apicrud

namespace Metrics

/-- The message of `func_send`, for the template `usage_notify`. -/
structure UsageNotify where
  toUid : Option String
  percent : ℤ
  period : Period
  resource : String
deriving DecidableEq

/-- The percentage of the limit that is left with a credit. -/
def shareLeft (limit : ℤ) (current : ℚ) : ℚ := current / limit * 100

/-- The test before the key is counted down: the share that is left falls below what is left to warn at. -/
def Crosses (limit percent current : ℤ) : Prop :=
  (100 - percent : ℚ) ≤ shareLeft limit current ∧ shareLeft limit (current - 1) < 100 - percent

instance (limit percent current : ℤ) : Decidable (Crosses limit percent current) :=
  inferInstanceAs (Decidable (_ ∧ _))

/-- `store` with the message it sends; `notify` is that of the metrics and `sends` that there is a
`func_send`. -/
def storeSends (conf : MetricConf) (notify : String → ℤ) (sends : Bool) (meters : Meters) (now : ℕ)
    (limit : ℤ) (uid : Option String) (name : String) (labels : List String) (value : Option ℤ) :
    (Meters × Option Bool) × Option UsageNotify :=
  match conf.metrics name with
  | none => ((meters, none), none)
  | some metric =>
      let k := storeKey conf metric uid name labels
      match metric.style with
      | .grant =>
          match meters.get now k with
          | none => ((meters.set k (limit - 1) (metric.period.seconds.map (now + ·)), some true), none)
          | some current =>
              if limit ≤ current then
                ((meters.set k (limit - 1) (metric.period.seconds.map (now + ·)), some true), none)
              else if current ≤ 0 then ((meters, some false), none)
              else
                ((meters.incrBy now k (-1), some true),
                  if notify name ≠ 0 ∧ sends = true ∧ Crosses limit (notify name) current then
                    some ⟨uid, notify name, metric.period, name⟩
                  else none)
      | .counter => ((meters.incrBy now k (value.getD 1), some true), none)
      | .gauge =>
          match value with
          | some value => ((meters.set k value none, some true), none)
          | none => ((meters, none), none)

/-- Without the message it is `store`. -/
theorem storeSends_fst (conf : MetricConf) (notify : String → ℤ) (sends : Bool) (meters : Meters)
    (now : ℕ) (limit : ℤ) (uid : Option String) (name : String) (labels : List String)
    (value : Option ℤ) : (storeSends conf notify sends meters now limit uid name labels value).1 =
      store conf meters now limit uid name labels value := by
  unfold storeSends store
  cases conf.metrics name with
  | none => rfl
  | some metric =>
      cases hstyle : metric.style with
      | counter => simp only [hstyle]
      | gauge =>
          simp only [hstyle]
          cases value <;> rfl
      | grant =>
          simp only [hstyle]
          cases meters.get now (storeKey conf metric uid name labels) with
          | none => rfl
          | some current =>
              simp only [credit]
              split_ifs <;> rfl

/-! ### Shares -/

section Shares

variable {limit percent : ℤ} (hlimit : 1 ≤ limit)
include hlimit

theorem le_shareLeft_iff (current : ℤ) :
    (100 - percent : ℚ) ≤ shareLeft limit current ↔ 100 * (limit - current) ≤ percent * limit := by
  have hpos : (0 : ℚ) < limit := by exact_mod_cast hlimit
  rw [shareLeft, div_mul_eq_mul_div, le_div_iff₀ hpos]
  constructor
  · intro h
    have hint : (100 - percent) * limit ≤ current * 100 := by exact_mod_cast h
    linarith
  · intro h
    have hint : (100 - percent) * limit ≤ current * 100 := by linarith
    exact_mod_cast hint

/-- A call crosses the percentage when it is not exceeded before the call, and is after it. -/
theorem crosses_iff (current : ℤ) : Crosses limit percent current ↔
    100 * (limit - current) ≤ percent * limit ∧ percent * limit < 100 * (limit - current + 1) := by
  have hnext := @le_shareLeft_iff limit percent hlimit (current - 1)
  push_cast at hnext
  rw [Crosses, le_shareLeft_iff hlimit, ← not_le, hnext, not_le]
  exact and_congr_right fun _ => by ring_nf

end Shares

/-! ### Calls in a row -/

variable (conf : MetricConf) (notify : String → ℤ) (limit : ℤ) (uid : Option String) (name : String)
  (labels : List String)

/-- The calls on one key as a machine; an event is the time that passes before the call. -/
def notifying : Machine Metered ℕ (Option UsageNotify) where
  step s elapsed :=
    let now := s.now + elapsed
    let r := storeSends conf notify true s.meters now limit uid name labels none
    (⟨r.1.1, now⟩, r.2)

/-- What the calls send, in turn. -/
def sent (s : Metered) (es : List ℕ) : List (Option UsageNotify) :=
  (notifying conf notify limit uid name labels).outputs s es

/-- The used share of the limit exceeds the percentage: the key holds what is left. -/
def Exceeds (k : String) (s : Metered) : Prop :=
  ∃ left, s.meters.get s.now k = some left ∧
    (notify name : ℚ) < (limit - left : ℚ) / limit * 100

/-- The message is sent by one call of a run, which is the first after which the used share exceeds the
percentage. -/
def WarnedOnce (metric : Metric) (s : Metered) (es : List ℕ) : Prop :=
  let k := storeKey conf metric uid name labels
  let after := fun i => (notifying conf notify limit uid name labels).run s (es.take i)
  ∃ i < es.length, Exceeds notify limit name k (after (i + 1)) ∧
    (∀ j < i, ¬ Exceeds notify limit name k (after (j + 1))) ∧
    sent conf notify limit uid name labels s es = (List.range es.length).map fun j =>
      if j = i then some ⟨uid, notify name, metric.period, name⟩ else none

section grant

variable {conf notify limit uid name labels} {metric : Metric} {s : Metered}

/-- What a call sends that finds a credit. -/
def sentAt (notify : String → ℤ) (limit : ℤ) (uid : Option String) (name : String) (metric : Metric)
    (current : ℤ) : Option UsageNotify :=
  if 0 < current ∧ Crosses limit (notify name) current then
    some ⟨uid, notify name, metric.period, name⟩
  else none

/-- A call without a key makes one, and sends nothing. -/
theorem step_none (hmetric : conf.metrics name = some metric) (hstyle : metric.style = .grant)
    {elapsed : ℕ} (hget : s.meters.get (s.now + elapsed) (storeKey conf metric uid name labels) = none) :
    ∃ meters, (notifying conf notify limit uid name labels).step s elapsed =
        (⟨meters, s.now + elapsed⟩, none) ∧
      meters (storeKey conf metric uid name labels) =
        some ⟨limit - 1, metric.period.seconds.map (s.now + elapsed + ·)⟩ := by
  refine ⟨s.meters.set (storeKey conf metric uid name labels) (limit - 1)
    (metric.period.seconds.map (s.now + elapsed + ·)), ?_, Keyspace.set_self ..⟩
  show (Metered.mk (storeSends ..).1.1 _, (storeSends ..).2) = _
  unfold storeSends
  rw [hmetric]
  simp only [hstyle, hget]

/-- A call on a live key counts it down to zero, and sends the message when it crosses the percentage. -/
theorem step_some (hmetric : conf.metrics name = some metric) (hstyle : metric.style = .grant)
    (hnotify : notify name ≠ 0) {elapsed : ℕ} {current : ℤ} {expires : Option ℕ}
    (hentry : s.meters (storeKey conf metric uid name labels) = some ⟨current, expires⟩)
    (hlive : ∀ d ∈ expires, s.now + elapsed < d) (hbelow : current < limit) (hnonneg : 0 ≤ current) :
    ∃ meters, (notifying conf notify limit uid name labels).step s elapsed =
        (⟨meters, s.now + elapsed⟩, sentAt notify limit uid name metric current) ∧
      meters (storeKey conf metric uid name labels) = some ⟨max (current - 1) 0, expires⟩ := by
  have hget : s.meters.get (s.now + elapsed) (storeKey conf metric uid name labels) = some current :=
    Keyspace.get_eq_some.mpr ⟨expires, hentry, hlive⟩
  refine ⟨_, Prod.ext rfl ?_, ?_⟩
  · show (storeSends ..).2 = _
    unfold storeSends sentAt
    rw [hmetric]
    simp only [hstyle, hget]
    rw [if_neg (by omega : ¬ limit ≤ current)]
    by_cases hpos : 0 < current
    · rw [if_neg (by omega)]
      simp only [hnotify, hpos, ne_eq, not_false_eq_true, true_and]
    · rw [if_pos (by omega), if_neg fun h => hpos h.1]
  · show (storeSends ..).1.1 _ = _
    unfold storeSends
    rw [hmetric]
    simp only [hstyle, hget]
    rw [if_neg (by omega : ¬ limit ≤ current)]
    by_cases hpos : 0 < current
    · obtain ⟨expires', hentry', hset⟩ := Keyspace.incrBy_some hget (-1)
      cases hentry.symm.trans hentry'
      rw [if_neg (by omega), hset, max_eq_left (by omega)]
      exact Keyspace.set_self ..
    · have hzero : max (current - 1) 0 = current := by omega
      rw [if_pos (by omega), hzero]
      exact hentry

/-- While the key lives: what is left after so many calls, and what they sent.  The induction is on the
calls. -/
theorem run_of_entry (hmetric : conf.metrics name = some metric) (hstyle : metric.style = .grant)
    (hnotify : notify name ≠ 0) {es : List ℕ} {current : ℤ} {expires : Option ℕ}
    (hentry : s.meters (storeKey conf metric uid name labels) = some ⟨current, expires⟩)
    (hlive : ∀ d ∈ expires, s.now + es.sum < d) (hbelow : current < limit) (hnonneg : 0 ≤ current) :
    (∃ meters, (notifying conf notify limit uid name labels).run s es = ⟨meters, s.now + es.sum⟩ ∧
      meters (storeKey conf metric uid name labels) =
        some ⟨max (current - es.length) 0, expires⟩) ∧
    sent conf notify limit uid name labels s es =
      (List.range es.length).map fun i : ℕ =>
        sentAt notify limit uid name metric (max (current - i) 0) := by
  induction es generalizing s current with
  | nil =>
      refine ⟨⟨s.meters, rfl, ?_⟩, rfl⟩
      rw [hentry, List.length_nil, Nat.cast_zero, sub_zero, max_eq_left hnonneg]
  | cons elapsed es ih =>
      have hsum : (elapsed :: es).sum = elapsed + es.sum := List.sum_cons
      have hfirst : ∀ d ∈ expires, s.now + elapsed < d := by
        intro d hd
        have := hlive d hd
        omega
      obtain ⟨meters, hstep, hmeters⟩ := step_some hmetric hstyle hnotify hentry hfirst hbelow hnonneg
      have hrest : ∀ d ∈ expires, s.now + elapsed + es.sum < d := by
        intro d hd
        have := hlive d hd
        omega
      have hnext : (notifying conf notify limit uid name labels).next s elapsed =
          ⟨meters, s.now + elapsed⟩ := congrArg Prod.fst hstep
      have hout : (notifying conf notify limit uid name labels).out s elapsed =
          sentAt notify limit uid name metric current := congrArg Prod.snd hstep
      obtain ⟨⟨meters', hrun, hmeters'⟩, hsent⟩ := @ih ⟨meters, s.now + elapsed⟩ _ hmeters hrest
        (by omega) (le_max_right _ _)
      have hshift : ∀ i : ℕ, max (max (current - 1) 0 - i) 0 = max (current - (i + 1 : ℕ)) 0 := by
        intro i
        push_cast
        omega
      refine ⟨⟨meters', ?_, ?_⟩, ?_⟩
      · rw [Machine.run_cons, hnext, hrun, hsum, Nat.add_assoc]
      · rw [hmeters', hshift, List.length_cons]
      · rw [sent, Machine.outputs_cons, hnext, hout, List.length_cons, List.range_succ_eq_map,
          List.map_cons, List.map_map, ← sent, hsent, Nat.cast_zero, sub_zero, max_eq_left hnonneg]
        refine congrArg (_ :: ·) (List.map_congr_left fun i _ => ?_)
        rw [hshift]
        rfl

/-! ### A whole period -/

theorem exceeds_iff (hlimit : 1 ≤ limit) {k : String} {left : ℤ}
    (hget : s.meters.get s.now k = some left) :
    Exceeds notify limit name k s ↔ notify name * limit < 100 * (limit - left) := by
  have hpos : (0 : ℚ) < limit := by exact_mod_cast hlimit
  have hshare : (notify name : ℚ) < (limit - left : ℚ) / limit * 100 ↔
      notify name * limit < 100 * (limit - left) := by
    rw [div_mul_eq_mul_div, lt_div_iff₀ hpos, mul_comm (limit - left : ℚ)]
    exact_mod_cast Iff.rfl
  rw [← hshare]
  constructor
  · rintro ⟨left', hleft, h⟩
    cases hget.symm.trans hleft
    exact h
  · exact fun h => ⟨left, hget, h⟩

/-- The calls of a period, from the one that makes the key on: what is left after each of them, and what
they sent. -/
theorem run_of_none (hmetric : conf.metrics name = some metric) (hstyle : metric.style = .grant)
    (hlimit : 1 ≤ limit) (hnotify : notify name ≠ 0) {elapsed : ℕ} {es : List ℕ}
    (hget : s.meters.get (s.now + elapsed) (storeKey conf metric uid name labels) = none)
    (hperiod : ∀ seconds ∈ metric.period.seconds, es.sum < seconds) :
    (∀ i ≤ es.length, Exceeds notify limit name (storeKey conf metric uid name labels)
        ((notifying conf notify limit uid name labels).run s ((elapsed :: es).take (i + 1))) ↔
      notify name * limit < 100 * (limit - max (limit - 1 - i) 0)) ∧
    sent conf notify limit uid name labels s (elapsed :: es) =
      none :: (List.range es.length).map fun i : ℕ =>
        sentAt notify limit uid name metric (max (limit - 1 - i) 0) := by
  obtain ⟨meters, hstep, hentry⟩ :=
    @step_none conf notify limit uid name labels metric s hmetric hstyle elapsed hget
  have hlive : ∀ d ∈ metric.period.seconds.map (s.now + elapsed + ·), s.now + elapsed + es.sum < d := by
    intro d hd
    obtain ⟨seconds, hseconds, rfl⟩ := Option.map_eq_some_iff.mp hd
    exact Nat.add_lt_add_left (hperiod seconds hseconds) _
  constructor
  · intro i hi
    have hsum : (es.take i).sum ≤ es.sum := by
      conv_rhs => rw [← List.take_append_drop i es, List.sum_append]
      exact Nat.le_add_right _ _
    have hlive' : ∀ d ∈ metric.period.seconds.map (s.now + elapsed + ·),
        s.now + elapsed + (es.take i).sum < d :=
      fun d hd => (Nat.add_le_add_left hsum _).trans_lt (hlive d hd)
    obtain ⟨⟨meters', hrun, hmeters⟩, -⟩ := @run_of_entry conf notify limit uid name labels metric
      ⟨meters, s.now + elapsed⟩ hmetric hstyle hnotify (es.take i) (limit - 1) _ hentry hlive'
      (by omega) (by omega)
    rw [List.length_take, min_eq_left hi] at hmeters
    rw [List.take_succ_cons, Machine.run_cons, Machine.next, hstep, hrun]
    exact exceeds_iff hlimit (Keyspace.get_eq_some.mpr ⟨_, hmeters, hlive'⟩)
  · obtain ⟨-, hsent⟩ := @run_of_entry conf notify limit uid name labels metric
      ⟨meters, s.now + elapsed⟩ hmetric hstyle hnotify es (limit - 1) _ hentry hlive (by omega)
      (by omega)
    rw [sent, Machine.outputs_cons, Machine.out, Machine.next, hstep, ← sent, hsent]

/-- Of the calls that use up a limit within one period, one sends the message, which is the first after
which the used share exceeds the percentage, just when the very first call does not exceed it. -/
theorem warned_once_iff (hmetric : conf.metrics name = some metric) (hstyle : metric.style = .grant)
    (hlimit : 1 ≤ limit) (hpos : 0 < notify name) (hlt : notify name < 100) {elapsed : ℕ} {es : List ℕ}
    (hget : s.meters.get (s.now + elapsed) (storeKey conf metric uid name labels) = none)
    (hperiod : ∀ seconds ∈ metric.period.seconds, es.sum < seconds) (hdone : limit ≤ es.length + 1) :
    WarnedOnce conf notify limit uid name labels metric s (elapsed :: es) ↔
      100 ≤ notify name * limit := by
  obtain ⟨hexceeds, hsent⟩ := run_of_none hmetric hstyle hlimit hpos.ne' hget hperiod
  have hshare : notify name * limit < 100 * limit := by
    exact mul_lt_mul_of_pos_right hlt (by omega)
  simp only [WarnedOnce, hsent, List.length_cons, List.range_succ_eq_map, List.map_cons]
  constructor
  · rintro ⟨i, -, -, hbefore, hmessages⟩
    -- the first call sends nothing, so it is not the one that sends
    have hne : i ≠ 0 := by
      rintro rfl
      cases (List.cons.inj hmessages).1
    have hfirst := mt (hexceeds 0 (Nat.zero_le _)).mpr (hbefore 0 (Nat.pos_of_ne_zero hne))
    push_cast at hfirst
    omega
  · intro hle
    have hdiv := Int.mul_ediv_add_emod (notify name * limit) 100
    have hmod := Int.emod_nonneg (notify name * limit) (by omega : (100 : ℤ) ≠ 0)
    have hmod' := Int.emod_lt_of_pos (notify name * limit) (by omega : (0 : ℤ) < 100)
    obtain ⟨i, hi⟩ : ∃ i : ℕ, (i : ℤ) = notify name * limit / 100 - 1 :=
      ⟨(notify name * limit / 100 - 1).toNat, by omega⟩
    refine ⟨i + 1, by omega, (hexceeds (i + 1) (by omega)).mpr (by push_cast; omega), ?_, ?_⟩
    · intro j hj
      rw [hexceeds j (by omega)]
      omega
    · rw [List.map_map]
      refine congrArg₂ List.cons (by simp) (List.map_congr_left fun j _ => ?_)
      have hcross : (0 < max (limit - 1 - (j : ℤ)) 0 ∧
          Crosses limit (notify name) (max (limit - 1 - (j : ℤ)) 0)) ↔ j + 1 = i + 1 := by
        rw [crosses_iff hlimit]
        omega
      rw [sentAt, Function.comp_apply, Nat.succ_eq_add_one]
      exact if_congr hcross rfl rfl

/-- Half of four photos a day, announced at the third. -/
theorem third_of_four_warned :
    WarnedOnce exampleConf (fun _ => 50) 4 (some "u-0002") "photo_daily_total" [] {}
      ⟨Keyspace.empty, 100⟩ [0, 60, 60, 60] :=
  (@warned_once_iff exampleConf (fun _ => 50) 4 (some "u-0002") "photo_daily_total" [] {}
    ⟨Keyspace.empty, 100⟩ rfl rfl (by decide) (by decide) (by decide) 0 [60, 60, 60] rfl (by decide)
    (by decide)).mpr (by decide)

/-- A single photo a day: the first call uses up all of it, and nothing is sent. -/
theorem only_call_not_warned :
    ¬ WarnedOnce exampleConf (fun _ => 50) 1 (some "u-0002") "photo_daily_total" [] {}
      ⟨Keyspace.empty, 100⟩ [0] := by
  rintro ⟨i, hi, -, -, hmessages⟩
  rw [Nat.lt_one_iff.mp hi] at hmessages
  have hsent : sent exampleConf (fun _ => 50) 1 (some "u-0002") "photo_daily_total" []
      ⟨Keyspace.empty, 100⟩ [0] = [none] := rfl
  rw [hsent] at hmessages
  cases hmessages

end grant

end Metrics

end Apicrud
