import Apicrud.Keyspace
import Apicrud.Machine
import Apicrud.Text

/-! # Metrics and the credit of a grant

`Metrics.store` counts on redis keys `mtr:<name>:<labels>`.  For a grant the key holds what is left of
the limit in the running period: it is made by the first call with one period to live, every further
call takes one off, and at zero a call is refused until the key has expired.  `Metrics.check` reads
what is left.

A call on a grant is two commands: it reads the key, and then writes what `credit` says.  The message
that tells a user that the limit is near, and the counters of fractions of seconds, are left out. -/

namespace Apicrud

/-- The names of `INTERVALS`. -/
inductive Period where
  | hour
  | day
  | week
  | month
  | indefinite
deriving DecidableEq

/-- `INTERVALS` -/
def Period.seconds : Period → Option ℕ
  | hour => some 3600
  | day => some (3600 * 24)
  | week => some (3600 * 24 * 7)
  | month => some (3600 * 24 * 31)
  | indefinite => none

theorem Period.seconds_pos {period : Period} {seconds : ℕ} (h : period.seconds = some seconds) :
    0 < seconds := by
  cases period with
  | indefinite => cases h
  | hour | day | week | month =>
      cases h
      omega

/-- `metric['scope']` -/
inductive MetricScope where
  | user
  | perInstance
  | sitewide
deriving DecidableEq

/-- `metric['style']` -/
inductive MetricStyle where
  | grant
  | counter
  | gauge
deriving DecidableEq

/-- An entry of `METRICS`, with the defaults of `_compose_metrics`. -/
structure Metric where
  scope : MetricScope := .user
  style : MetricStyle := .grant
  period : Period := .day

/-- What `Metrics` reads besides redis. -/
structure MetricConf where
  /-- `METRICS` -/
  metrics : String → Option Metric
  /-- `ServiceRegistry().get()['id']` -/
  instanceId : String

/-- The keys `mtr:<name>:<labels>` of redis. -/
abbrev Meters := Keyspace String ℤ

namespace Metrics

/-! ### Keys -/

/-- `['uid=%s' % self.uid] if self.uid else []` -/
def userLabels (uid : Option String) : List String :=
  match uid with
  | some uid => if uid ≠ "" then ["uid=" ++ uid] else []
  | none => []

/-- The labels of a call of `store`. -/
def labelsOf (conf : MetricConf) (metric : Metric) (uid : Option String) (labels : List String) :
    List String :=
  if labels = [] then
    if metric.scope = .perInstance then ["instance=" ++ conf.instanceId] else userLabels uid
  else labels

/-- `'mtr:%s:%s' % (name, ",".join(labels))` -/
def key (name : String) (labels : List String) : String := "mtr:" ++ name ++ ":" ++ Text.join labels ','

/-- The key of a call of `store`, its labels sorted. -/
def storeKey (conf : MetricConf) (metric : Metric) (uid : Option String) (name : String)
    (labels : List String) : String :=
  key name ((labelsOf conf metric uid labels).insertionSort fun a b => a.toList ≤ b.toList)

/-! ### Grants -/

/-- What a call on a grant goes on with when it has read the key. -/
inductive Credit where
  | renew
  | refuse
  | spend
deriving DecidableEq

/-- The comparisons of `store` with the limit. -/
def credit (limit : ℤ) (current : Option ℤ) : Credit :=
  match current with
  | none => .renew
  | some current =>
      if limit ≤ current then .renew
      else if current ≤ 0 then .refuse
      else .spend

/-- The command that follows, and what the call returns. -/
def Credit.apply (c : Credit) (meters : Meters) (now : ℕ) (k : String) (limit : ℤ) (period : Period) :
    Meters × Bool :=
  match c with
  | renew => (meters.set k (limit - 1) (period.seconds.map (now + ·)), true)
  | refuse => (meters, false)
  | spend => (meters.incrBy now k (-1), true)

/-- `store`, with the limit that `Grants().get` gives; `none` where it raises. -/
def store (conf : MetricConf) (meters : Meters) (now : ℕ) (limit : ℤ) (uid : Option String)
    (name : String) (labels : List String) (value : Option ℤ) : Meters × Option Bool :=
  match conf.metrics name with
  | none => (meters, none)
  | some metric =>
      let k := storeKey conf metric uid name labels
      match metric.style with
      | .grant =>
          let (meters, stored) := (credit limit (meters.get now k)).apply meters now k limit metric.period
          (meters, some stored)
      | .counter => (meters.incrBy now k (value.getD 1), some true)
      | .gauge =>
          match value with
          | some value => (meters.set k value none, some true)
          | none => (meters, none)

/-- `check`: what is left, if anything; `none` where it raises. -/
def check (conf : MetricConf) (meters : Meters) (now : ℕ) (limit : ℤ) (uid : Option String)
    (name : String) : Option (Option ℤ) :=
  match conf.metrics name with
  | none => none
  | some metric =>
      if metric.style ≠ .grant then none
      else
        match meters.get now (key name (userLabels uid)) with
        | none => some (some limit)
        | some current =>
            if limit ≤ current then some (some limit)
            else if 0 < current then some (some current)
            else some none

/-- Without labels, the key of a metric that is not kept by instance is the one that `check` reads. -/
theorem storeKey_user {conf : MetricConf} {metric : Metric} (h : metric.scope ≠ .perInstance)
    (uid : Option String) (name : String) :
    storeKey conf metric uid name [] = key name (userLabels uid) := by
  have hlabels : labelsOf conf metric uid [] = userLabels uid := by
    rw [labelsOf, if_pos rfl, if_neg h]
  have hsorted : (userLabels uid).insertionSort (fun a b => a.toList ≤ b.toList) = userLabels uid := by
    unfold userLabels
    split
    · split_ifs <;> rfl
    · rfl
  rw [storeKey, hlabels, hsorted]

end Metrics

end Apicrud
