import Apicrud.Clients
import Apicrud.Quotas

/-! # Concurrent calls on a grant

Any number of clients call `Metrics.store`.  Each call reads its key in one turn and writes in another,
and other clients may have written, or the key may have expired, in between.

As long as every write finds the credit that its call has read, no more calls are admitted than the limit
says (`admitted_along`); two calls that both find no key are both admitted (`bothRenew`).  And every key
has an expiry time exactly as long as no decrement finds its key gone (`ends_along_iff`): such a
decrement makes a key that stays (`keyStays`). -/

namespace Apicrud

namespace Metrics

/-! ### Two turns for a call -/

/-- A call of `store`, with the time that passed before the turn. -/
structure GrantCall where
  elapsed : ℕ
  uid : Option String
  name : String
  labels : List String
  limit : ℤ

/-- A call that has read its key and is about to write. -/
structure Pending where
  key : String
  limit : ℤ
  period : Period
  credit : Credit

/-- The key of a call and the period of its metric, when that is a grant. -/
def grantOf (conf : MetricConf) (call : GrantCall) : Option (String × Period) :=
  match conf.metrics call.name with
  | some metric =>
      if metric.style = .grant then
        some (storeKey conf metric call.uid call.name call.labels, metric.period)
      else none
  | none => none

/-- A turn of a call on a grant: it reads, or writes what it has decided on; `some` with what it returns
when it is done. -/
def turn (conf : MetricConf) (s : Metered) (call : GrantCall) (pending : Option Pending) :
    Metered × Option Pending × Option Bool :=
  let now := s.now + call.elapsed
  match pending with
  | some p =>
      let (meters, stored) := p.credit.apply s.meters now p.key p.limit p.period
      (⟨meters, now⟩, none, some stored)
  | none =>
      match grantOf conf call with
      | some (k, period) =>
          let c := credit call.limit (s.meters.get now k)
          if c = .refuse then (⟨s.meters, now⟩, none, some false)
          else (⟨s.meters, now⟩, some ⟨k, call.limit, period, c⟩, none)
      | none => (⟨s.meters, now⟩, none, none)

/-- Both turns of a call, with no other in between. -/
def wholeCall (conf : MetricConf) (s : Metered) (call : GrantCall) : Meters × Option Bool :=
  let (s', pending, stored) := turn conf s call none
  if pending.isSome then
    let (s'', _, stored) := turn conf s' { call with elapsed := 0 } pending
    (s''.meters, stored)
  else (s'.meters, stored)

/-- Then they are `store`. -/
theorem wholeCall_eq {conf : MetricConf} {call : GrantCall} {k : String} {period : Period}
    (h : grantOf conf call = some (k, period)) (s : Metered) :
    wholeCall conf s call =
      store conf s.meters (s.now + call.elapsed) call.limit call.uid call.name call.labels none := by
  have hgrant : ∃ metric, conf.metrics call.name = some metric ∧ metric.style = .grant ∧
      storeKey conf metric call.uid call.name call.labels = k ∧ metric.period = period := by
    unfold grantOf at h
    cases hmetric : conf.metrics call.name with
    | none =>
        rw [hmetric] at h
        cases h
    | some metric =>
        rw [hmetric] at h
        simp only at h
        split_ifs at h with hstyle
        cases h
        exact ⟨metric, rfl, hstyle, rfl, rfl⟩
  obtain ⟨metric, hmetric, hstyle, hkey, hperiod⟩ := hgrant
  have hstore : store conf s.meters (s.now + call.elapsed) call.limit call.uid call.name call.labels
      none = (((credit call.limit (s.meters.get (s.now + call.elapsed) k)).apply s.meters
          (s.now + call.elapsed) k call.limit period).1,
        some ((credit call.limit (s.meters.get (s.now + call.elapsed) k)).apply s.meters
          (s.now + call.elapsed) k call.limit period).2) := by
    unfold store
    rw [hmetric]
    simp only [hstyle, hkey, hperiod]
  rw [hstore]
  unfold wholeCall turn
  simp only [h]
  by_cases hrefuse : credit call.limit (s.meters.get (s.now + call.elapsed) k) = .refuse
  · simp only [hrefuse, if_true]
    rfl
  · simp only [hrefuse, if_false]
    rfl

variable {ι : Type} [DecidableEq ι] (conf : MetricConf)

/-- The clients. -/
def clients : Program ι Metered (Option Pending) GrantCall (Option Bool) where
  turn _ := turn conf

/-- Clients with their keys. -/
abbrev Clients (ι : Type) := Pool ι Metered (Option Pending)

/-- No client is in the middle of a call. -/
def Clients.Idle (p : Clients ι) : Prop := ∀ i, p.locals i = none

/-- The time of a turn. -/
def Clients.time (p : Clients ι) (t : Turn ι GrantCall) : ℕ := p.shared.now + t.event.elapsed

variable {conf} {p : Clients ι} {t : Turn ι GrantCall} {k : String}

theorem next_write {q : Pending} (h : p.locals t.client = some q) :
    ((clients conf).machine.next p t).shared.meters =
        (q.credit.apply p.shared.meters (p.time t) q.key q.limit q.period).1 ∧
      ((clients conf).machine.next p t).locals t.client = none ∧
      (clients conf).machine.out p t =
        some (q.credit.apply p.shared.meters (p.time t) q.key q.limit q.period).2 := by
  rw [Program.next_shared, Program.next_self, Program.out_eq, h]
  exact ⟨rfl, rfl, rfl⟩

/-- A turn that reads writes nothing, and admits nothing. -/
theorem next_read (h : p.locals t.client = none) :
    ((clients conf).machine.next p t).shared.meters = p.shared.meters ∧
      (clients conf).machine.out p t ≠ some true ∧
      ∀ q, ((clients conf).machine.next p t).locals t.client = some q →
        grantOf conf t.event = some (q.key, q.period) ∧ q.limit = t.event.limit ∧
          q.credit = credit q.limit (p.shared.meters.get (p.time t) q.key) ∧ q.credit ≠ .refuse := by
  rw [Program.next_shared, Program.next_self, Program.out_eq, h]
  simp only [clients, turn]
  cases hgrant : grantOf conf t.event with
  | none =>
      refine ⟨rfl, nofun, ?_⟩
      intro q hq
      cases hq
  | some found =>
      obtain ⟨key, period⟩ := found
      simp only
      split_ifs with hrefuse
      · refine ⟨rfl, by simp, ?_⟩
        intro q hq
        cases hq
      · refine ⟨rfl, nofun, ?_⟩
        intro q hq
        cases hq
        exact ⟨rfl, rfl, rfl, hrefuse⟩

theorem next_now : ((clients conf).machine.next p t).shared.now = p.time t := by
  rw [Program.next_shared]
  cases hlocal : p.locals t.client with
  | some q => rfl
  | none =>
      simp only [clients, turn]
      cases grantOf conf t.event with
      | none => rfl
      | some found =>
          simp only
          split_ifs <;> rfl

/-- A call leaves the other keys as they are. -/
theorem apply_of_ne (c : Credit) (meters : Meters) (now : ℕ) {k k' : String} (h : k' ≠ k) (limit : ℤ)
    (period : Period) : (c.apply meters now k limit period).1 k' = meters k' := by
  cases c with
  | renew => exact (Keyspace.set_apply ..).trans (if_neg h)
  | refuse => rfl
  | spend => exact Keyspace.incrBy_of_ne meters now h _

/-! ### No more than the limit -/

/-- The key does not expire before the turn. -/
def WithinPeriod (k : String) (p : Clients ι) (t : Turn ι GrantCall) : Prop :=
  ∀ v, p.shared.meters.get p.shared.now k = some v → p.shared.meters.get (p.time t) k = some v

/-- A write finds what its call has read: no key, or credit that is left. -/
def AsRead (k : String) (p : Clients ι) (t : Turn ι GrantCall) : Prop :=
  ∀ q ∈ p.locals t.client, q.key = k →
    (q.credit = .renew → p.shared.meters.get (p.time t) k = none) ∧
    (q.credit = .spend → ∃ v ∈ p.shared.meters.get (p.time t) k, 0 < v)

instance (k : String) (p : Clients ι) (t : Turn ι GrantCall) : Decidable (AsRead k p t) :=
  inferInstanceAs (Decidable (∀ q ∈ p.locals t.client, _))

/-- When the call is on the key, its limit is the given one. -/
def HasLimit (conf : MetricConf) (k : String) (limit : ℤ) (call : GrantCall) : Prop :=
  ∀ period, grantOf conf call = some (k, period) → call.limit = limit

/-- One for a turn that admits a call on the key. -/
def admits (conf : MetricConf) (k : String) (p : Clients ι) (t : Turn ι GrantCall) : ℕ :=
  if (p.locals t.client).map Pending.key = some k ∧ (clients conf).machine.out p t = some true then 1
  else 0

/-- So many calls on the key have been admitted, and the key holds what is left. -/
structure Counts (k : String) (limit : ℤ) (p : Clients ι) (n : ℕ) : Prop where
  pending : ∀ i q, p.locals i = some q → q.key = k → q.limit = limit
  left : (p.shared.meters.get p.shared.now k = none ∧ n = 0) ∨
    ∃ v, p.shared.meters.get p.shared.now k = some v ∧ v + n = limit ∧ 0 ≤ v

variable {limit : ℤ} {n : ℕ} {es : List (Turn ι GrantCall)}

/-- Within a period, a turn that does not write on the key leaves the count as it is. -/
theorem Counts.left_same (h : Counts k limit p n) (hperiod : WithinPeriod k p t)
    (hsame : ((clients conf).machine.next p t).shared.meters k = p.shared.meters k) :
    (((clients conf).machine.next p t).shared.meters.get
        ((clients conf).machine.next p t).shared.now k = none ∧ n = 0) ∨
      ∃ v, ((clients conf).machine.next p t).shared.meters.get
        ((clients conf).machine.next p t).shared.now k = some v ∧ v + n = limit ∧ 0 ≤ v := by
  rw [next_now, Keyspace.get_congr hsame]
  rcases h.left with ⟨hnone, hzero⟩ | ⟨v, hv, hrest⟩
  · refine Or.inl ⟨?_, hzero⟩
    by_contra hsome
    obtain ⟨v, hv⟩ := Option.ne_none_iff_exists'.mp hsome
    rw [Keyspace.get_of_le hv (Nat.le_add_right _ _)] at hnone
    cases hnone
  · exact Or.inr ⟨v, hperiod v hv, hrest⟩

/-- A write that finds what was read counts itself. -/
theorem Counts.left_write (h : Counts k limit p n) (hlimit : 1 ≤ limit)
    (hperiod : WithinPeriod k p t) (hread : AsRead k p t) {q : Pending}
    (hlocal : p.locals t.client = some q) (hkey : q.key = k) (hwrites : q.credit ≠ .refuse) :
    ∃ v, ((clients conf).machine.next p t).shared.meters.get
        ((clients conf).machine.next p t).shared.now k = some v ∧
      v + (n + admits conf k p t : ℕ) = limit ∧ 0 ≤ v := by
  obtain ⟨hmeters, -, hout⟩ := @next_write ι _ conf p t q hlocal
  obtain ⟨hrenew, hspend⟩ := hread q hlocal hkey
  have hq : q.limit = limit := h.pending t.client q hlocal hkey
  have hadmits : ∀ stored, (clients conf).machine.out p t = some stored →
      admits conf k p t = if stored = true then 1 else 0 := by
    intro stored hstored
    unfold admits
    rw [hlocal, hstored]
    simp [hkey]
  rw [next_now, hmeters, hkey, hq]
  rw [hkey, hq] at hout
  cases hcredit : q.credit with
  | refuse => exact absurd hcredit hwrites
  | renew =>
      have hnone := hrenew hcredit
      have hzero : n = 0 := by
        rcases h.left with ⟨-, hzero⟩ | ⟨v, hv, -⟩
        · exact hzero
        · rw [hperiod v hv] at hnone
          cases hnone
      rw [hcredit] at hout
      refine ⟨limit - 1, ?_, ?_, by omega⟩
      · apply Keyspace.get_eq_some.mpr ⟨_, Keyspace.set_self .., ?_⟩
        intro d hd
        obtain ⟨seconds, hseconds, rfl⟩ := Option.map_eq_some_iff.mp hd
        exact Nat.lt_add_of_pos_right (Period.seconds_pos hseconds)
      · rw [hadmits true hout, hzero]
        simp
  | spend =>
      obtain ⟨v, hv, hpos⟩ := hspend hcredit
      have hcount : v + n = limit := by
        have hnow := Keyspace.get_of_le hv (Nat.le_add_right p.shared.now t.event.elapsed)
        rcases h.left with ⟨hnone, -⟩ | ⟨v', hv', hcount, -⟩
        · rw [hnow] at hnone
          cases hnone
        · cases hnow.symm.trans hv'
          exact hcount
      obtain ⟨expires, hentry, hset⟩ := Keyspace.incrBy_some hv (-1)
      rw [hcredit] at hout
      refine ⟨v - 1, ?_, ?_, by omega⟩
      · simp only [Credit.apply]
        rw [hset]
        obtain ⟨expires', hentry', hlive⟩ := Keyspace.get_eq_some.mp hv
        cases hentry.symm.trans hentry'
        exact Keyspace.get_eq_some.mpr ⟨expires, Keyspace.set_self .., hlive⟩
      · rw [hadmits true hout]
        push_cast
        simp only [if_true]
        omega

/-- The count goes on when the writes find what was read. -/
theorem Counts.next (h : Counts k limit p n) (hlimit : 1 ≤ limit) (hcall : HasLimit conf k limit t.event)
    (hperiod : WithinPeriod k p t) (hread : AsRead k p t) :
    Counts k limit ((clients conf).machine.next p t) (n + admits conf k p t) := by
  have hpending : ∀ i q, ((clients conf).machine.next p t).locals i = some q → q.key = k →
      q.limit = limit := by
    intro i q hq hkey
    by_cases hi : i = t.client
    · subst hi
      cases hlocal : p.locals t.client with
      | some q' =>
          rw [(next_write hlocal).2.1] at hq
          cases hq
      | none =>
          obtain ⟨hgrant, hq', -⟩ := (next_read hlocal).2.2 q hq
          rw [hq']
          exact hcall q.period (hkey ▸ hgrant)
    · rw [Program.next_other _ p t hi] at hq
      exact h.pending i q hq hkey
  refine ⟨hpending, ?_⟩
  cases hlocal : p.locals t.client with
  | none =>
      obtain ⟨hmeters, hout, -⟩ := @next_read ι _ conf p t hlocal
      have hzero : admits conf k p t = 0 := if_neg fun hadmits => hout hadmits.2
      rw [hzero]
      exact h.left_same hperiod (congrFun hmeters k)
  | some q =>
      obtain ⟨hmeters, -, hout⟩ := @next_write ι _ conf p t q hlocal
      by_cases hkey : q.key = k
      · by_cases hrefuse : q.credit = .refuse
        · have hzero : admits conf k p t = 0 := by
            refine if_neg fun hadmits => ?_
            rw [hout, hrefuse] at hadmits
            exact absurd hadmits.2 (by simp [Credit.apply])
          rw [hzero]
          apply h.left_same hperiod
          rw [hmeters, hrefuse]
          rfl
        · exact Or.inr (h.left_write hlimit hperiod hread hlocal hkey hrefuse)
      · have hzero : admits conf k p t = 0 := by
          refine if_neg fun hadmits => hkey ?_
          rw [hlocal] at hadmits
          exact Option.some.inj hadmits.1
        rw [hzero]
        apply h.left_same hperiod
        rw [hmeters]
        exact apply_of_ne _ _ _ (Ne.symm hkey) _ _

/-- The admitted calls are never more than the limit. -/
theorem Counts.total_le (h : Counts k limit p n) (hlimit : 1 ≤ limit)
    (hcalls : ∀ t ∈ es, HasLimit conf k limit t.event)
    (hperiod : (clients conf).machine.Along (WithinPeriod k) p es)
    (hread : (clients conf).machine.Along (AsRead k) p es) :
    (n + (clients conf).machine.total (admits conf k) p es : ℤ) ≤ limit := by
  induction es generalizing p n with
  | nil =>
      rw [Machine.total_nil]
      rcases h.left with ⟨-, rfl⟩ | ⟨v, -, hcount, hpos⟩
      · simp only [Nat.cast_zero]
        omega
      · simp only [Nat.cast_zero]
        omega
  | cons t es ih =>
      have hnext := h.next hlimit (hcalls t List.mem_cons_self) hperiod.1 hread.1
      have hrest := ih hnext (fun t' ht' => hcalls t' (List.mem_cons_of_mem t ht')) hperiod.2 hread.2
      rw [Machine.total_cons]
      push_cast at hrest ⊢
      omega

/-- Within a period that starts without a key, no more calls on the key are admitted than the limit says,
as long as every write finds what its call has read. -/
theorem admitted_along (hlimit : 1 ≤ limit) (hidle : p.Idle)
    (hfirst : p.shared.meters.get p.shared.now k = none)
    (hcalls : ∀ t ∈ es, HasLimit conf k limit t.event)
    (hperiod : (clients conf).machine.Along (WithinPeriod k) p es)
    (hread : (clients conf).machine.Along (AsRead k) p es) :
    ((clients conf).machine.total (admits conf k) p es : ℤ) ≤ limit := by
  have hcounts : Counts k limit p 0 := by
    refine ⟨fun i q hq => ?_, Or.inl ⟨hfirst, rfl⟩⟩
    rw [hidle i] at hq
    cases hq
  have htotal := hcounts.total_le hlimit hcalls hperiod hread
  simpa using htotal

/-- A call of the user on the one metric, at once. -/
def sameCall (limit : ℤ) : GrantCall := ⟨0, some "u-0002", "sms_daily_total", [], limit⟩

/-- Two clients, and no key yet. -/
def twoClients : Clients Bool := ⟨⟨Keyspace.empty, 100⟩, fun _ => none⟩

/-- The key of the calls. -/
def sameKey : String := "mtr:sms_daily_total:uid=u-0002"

/-- One call after the other is within the limit of two. -/
theorem oneByOne_within : ((clients exampleConf).machine.total (admits exampleConf sameKey) twoClients
    [⟨true, sameCall 2⟩, ⟨true, sameCall 2⟩, ⟨false, sameCall 2⟩, ⟨false, sameCall 2⟩] : ℤ) ≤ 2 := by
  refine admitted_along (by decide) (fun _ => rfl) rfl ?_ ?_ ?_
  · intro t ht period _
    fin_cases ht <;> rfl
  · exact ⟨fun _ h => h, fun _ h => h, fun _ h => h, fun _ h => h, trivial⟩
  · exact ⟨by decide +kernel, by decide +kernel, by decide +kernel, by decide +kernel, trivial⟩

/-- Two calls that both find no key are both admitted, where the limit is one. -/
theorem bothRenew : HasLimit exampleConf sameKey 1 (sameCall 1) ∧
    (clients exampleConf).machine.Along (WithinPeriod sameKey) twoClients
      [⟨true, sameCall 1⟩, ⟨false, sameCall 1⟩, ⟨true, sameCall 1⟩, ⟨false, sameCall 1⟩] ∧
    (clients exampleConf).machine.total (admits exampleConf sameKey) twoClients
      [⟨true, sameCall 1⟩, ⟨false, sameCall 1⟩, ⟨true, sameCall 1⟩, ⟨false, sameCall 1⟩] = 2 :=
  ⟨fun _ _ => rfl, ⟨fun _ h => h, fun _ h => h, fun _ h => h, fun _ h => h, trivial⟩,
    by decide +kernel⟩

/-! ### Keys that expire -/

/-- Every key has an expiry time, one period away at most. -/
def Ends (longest : String → ℕ) (s : Metered) : Prop :=
  ∀ k h, s.meters k = some h → ∃ d, h.expires = some d ∧ d ≤ s.now + longest k

/-- So one period later a call is admitted. -/
theorem Ends.renews {longest : String → ℕ} {s : Metered} (h : Ends longest s) (k : String)
    (limit : ℤ) : credit limit (s.meters.get (s.now + longest k) k) = .renew := by
  have hgone : s.meters.get (s.now + longest k) k = none := by
    by_contra hsome
    obtain ⟨v, hv⟩ := Option.ne_none_iff_exists'.mp hsome
    obtain ⟨expires, hentry, hlive⟩ := Keyspace.get_eq_some.mp hv
    obtain ⟨d, hd, hle⟩ := h k _ hentry
    have hlater := hlive d hd
    omega
  rw [hgone]
  rfl

/-- The period of the grant that the call is on is finite. -/
def FinitePeriod (conf : MetricConf) (longest : String → ℕ) (call : GrantCall) : Prop :=
  ∀ k period, grantOf conf call = some (k, period) →
    ∃ seconds ≤ longest k, period.seconds = some seconds

/-- A decrement finds its key. -/
def FindsKey (p : Clients ι) (t : Turn ι GrantCall) : Prop :=
  ∀ q ∈ p.locals t.client, q.credit = .spend → (p.shared.meters.get (p.time t) q.key).isSome

instance (p : Clients ι) (t : Turn ι GrantCall) : Decidable (FindsKey p t) :=
  inferInstanceAs (Decidable (∀ q ∈ p.locals t.client, _))

/-- The clients in the middle of a call will write with a finite period. -/
def Bounded (longest : String → ℕ) (p : Clients ι) : Prop :=
  ∀ i q, p.locals i = some q → ∃ seconds ≤ longest q.key, q.period.seconds = some seconds

variable {longest : String → ℕ}

theorem Bounded.next (h : Bounded longest p) (hcall : FinitePeriod conf longest t.event) :
    Bounded longest ((clients conf).machine.next p t) := by
  intro i q hq
  by_cases hi : i = t.client
  · subst hi
    cases hlocal : p.locals t.client with
    | some q' =>
        rw [(@next_write ι _ conf p t q' hlocal).2.1] at hq
        cases hq
    | none => exact hcall q.key q.period ((@next_read ι _ conf p t hlocal).2.2 q hq).1
  · rw [Program.next_other _ p t hi] at hq
    exact h i q hq

/-- A set of a key with a period keeps the expiry times. -/
theorem Ends.set {s : Metered} (h : Ends longest s) {now : ℕ} (hnow : s.now ≤ now) {k : String}
    {expires : Option ℕ} {d : ℕ} (hexpires : expires = some d) (hle : d ≤ now + longest k) (v : ℤ) :
    Ends longest ⟨s.meters.set k v expires, now⟩ := by
  intro k' held hheld
  rcases Keyspace.set_cases hheld with ⟨rfl, rfl⟩ | hold
  · exact ⟨d, hexpires, hle⟩
  · obtain ⟨d', hd', hle'⟩ := h k' held hold
    refine ⟨d', hd', ?_⟩
    show d' ≤ now + longest k'
    omega

/-- A turn keeps the expiry times exactly when its decrement, if it makes one, finds the key. -/
theorem ends_next_iff (hends : Ends longest p.shared) (hbounded : Bounded longest p) :
    Ends longest ((clients conf).machine.next p t).shared ↔ FindsKey p t := by
  have hlater : p.shared.now ≤ p.time t := Nat.le_add_right _ _
  have hkept : Ends longest ⟨p.shared.meters, p.time t⟩ := by
    intro k held hheld
    obtain ⟨d, hd, hle⟩ := hends k held hheld
    refine ⟨d, hd, ?_⟩
    show d ≤ p.time t + longest k
    omega
  cases hlocal : p.locals t.client with
  | none =>
      obtain ⟨hmeters, -, -⟩ := @next_read ι _ conf p t hlocal
      have hnext : ((clients conf).machine.next p t).shared = ⟨p.shared.meters, p.time t⟩ := by
        rw [← hmeters, ← @next_now ι _ conf p t]
      rw [hnext]
      refine ⟨fun _ q hq => ?_, fun _ => hkept⟩
      rw [hlocal] at hq
      cases hq
  | some q =>
      obtain ⟨hmeters, -, -⟩ := @next_write ι _ conf p t q hlocal
      have hnext : ((clients conf).machine.next p t).shared =
          ⟨(q.credit.apply p.shared.meters (p.time t) q.key q.limit q.period).1, p.time t⟩ := by
        rw [← hmeters, ← @next_now ι _ conf p t]
      have hfinds : FindsKey p t ↔
          (q.credit = .spend → (p.shared.meters.get (p.time t) q.key).isSome) := by
        simp [FindsKey, hlocal]
      rw [hnext, hfinds]
      cases hcredit : q.credit with
      | refuse => exact ⟨nofun, fun _ => hkept⟩
      | renew =>
          obtain ⟨seconds, hle, hseconds⟩ := hbounded t.client q hlocal
          refine ⟨nofun, fun _ => ?_⟩
          simp only [Credit.apply]
          refine hends.set hlater (d := p.time t + seconds) ?_ (by omega) _
          rw [hseconds]
          rfl
      | spend =>
          simp only [Credit.apply, true_implies]
          rcases Option.eq_none_or_eq_some (p.shared.meters.get (p.time t) q.key) with
            hgone | ⟨v, hv⟩
          · rw [hgone, Keyspace.incrBy_none hgone]
            constructor
            · intro h
              obtain ⟨d, hd, -⟩ := h q.key _ (Keyspace.set_self ..)
              cases hd
            · intro h
              cases h
          · obtain ⟨expires, hentry, hset⟩ := Keyspace.incrBy_some hv (-1)
            obtain ⟨d, hd, hle⟩ := hends q.key _ hentry
            rw [hv, hset]
            exact ⟨fun _ => rfl, fun _ => hends.set hlater hd (by omega) _⟩

/-- In any run of calls on grants with finite periods, every key has an expiry time after every turn
exactly when no decrement finds its key gone. -/
theorem ends_along_iff (hends : Ends longest p.shared) (hidle : p.Idle)
    (hcalls : ∀ t ∈ es, FinitePeriod conf longest t.event) :
    (clients conf).machine.Along
        (fun p t => Ends longest ((clients conf).machine.next p t).shared) p es ↔
      (clients conf).machine.Along FindsKey p es := by
  have hbounded : Bounded longest p := by
    intro i q hq
    rw [hidle i] at hq
    cases hq
  clear hidle
  induction es generalizing p with
  | nil => exact Iff.rfl
  | cons t es ih =>
      have hstep := @ends_next_iff ι _ conf p t longest hends hbounded
      have hnext := hbounded.next (hcalls t List.mem_cons_self)
      constructor
      · rintro ⟨hfirst, hrest⟩
        exact ⟨hstep.mp hfirst,
          (ih hfirst (fun t' ht' => hcalls t' (List.mem_cons_of_mem t ht')) hnext).mp hrest⟩
      · rintro ⟨hfirst, hrest⟩
        have hends' := hstep.mpr hfirst
        exact ⟨hends',
          (ih hends' (fun t' ht' => hcalls t' (List.mem_cons_of_mem t ht')) hnext).mpr hrest⟩

theorem finite_example (call : GrantCall) : FinitePeriod exampleConf (fun _ => 86400) call := by
  intro k period h
  cases h
  exact ⟨86400, Nat.le_refl _, rfl⟩

/-- A call and another one a day later. -/
theorem nextDay_ends : (clients exampleConf).machine.Along
    (fun p t => Ends (fun _ => 86400) ((clients exampleConf).machine.next p t).shared) twoClients
    [⟨true, sameCall 3⟩, ⟨true, sameCall 3⟩, ⟨true, { sameCall 3 with elapsed := 86400 }⟩,
      ⟨true, sameCall 3⟩] := by
  refine (ends_along_iff ?_ (fun _ => rfl) fun t _ => finite_example t.event).mpr ?_
  · intro k held hheld
    cases hheld
  · exact ⟨by decide +kernel, by decide +kernel, by decide +kernel, by decide +kernel, trivial⟩

/-- The key expires between the read and the decrement of a call: then it stays, and a year later calls
are refused. -/
theorem keyStays : FinitePeriod exampleConf (fun _ => 86400) (sameCall 3) ∧
    (((clients exampleConf).machine.run twoClients [⟨true, sameCall 3⟩, ⟨true, sameCall 3⟩,
        ⟨true, sameCall 3⟩, ⟨true, { sameCall 3 with elapsed := 86400 }⟩]).shared.meters
      sameKey).map Held.expires = some none ∧
    (clients exampleConf).machine.out
      ((clients exampleConf).machine.run twoClients [⟨true, sameCall 3⟩, ⟨true, sameCall 3⟩,
        ⟨true, sameCall 3⟩, ⟨true, { sameCall 3 with elapsed := 86400 }⟩])
      ⟨false, { sameCall 3 with elapsed := 31536000 }⟩ = some false :=
  ⟨finite_example _, by decide +kernel, by decide +kernel⟩

end Metrics

end Apicrud
