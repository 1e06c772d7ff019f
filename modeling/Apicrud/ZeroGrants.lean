import Apicrud.Creates
import Apicrud.Grants
import Apicrud.Quotas
import Apicrud.RateWindows
import Apicrud.Updates

/-! # Grants of zero

The four places that hold a user to a limit, where the limit is zero.  Each of them tells "nothing left"
from "not used yet" in its own way: `store` by the value of a key, `call` by a counter that is there,
`update` by a limit that is true, and `create` by the number of records.  Only `create` refuses whatever
it finds (`zeroGrant_denies_iff`). -/

namespace Apicrud

open Relational

/-! ### Metrics -/

namespace Metrics

variable {conf : MetricConf} {metric : Metric} {uid : Option String} {name : String}

/-- The key of the metric holds less than nothing. -/
def Overdrawn (meters : Meters) (now : ℕ) (k : String) : Prop :=
  ∃ current < 0, meters.get now k = some current

theorem credit_zero {current : Option ℤ} : credit 0 current = .refuse ↔ ∃ c < 0, current = some c := by
  unfold credit
  cases current with
  | none => simp
  | some c =>
      by_cases hc : 0 ≤ c
      · simp [hc]
      · have hneg : c < 0 := by omega
        simp [hc, hneg, hneg.le]

/-- `store` refuses a grant of zero just when the key is overdrawn. -/
theorem store_zero (hmetric : conf.metrics name = some metric) (hgrant : metric.style = .grant)
    (meters : Meters) (now : ℕ) (labels : List String) (value : Option ℤ) :
    (store conf meters now 0 uid name labels value).2 = some false ↔
      Overdrawn meters now (storeKey conf metric uid name labels) := by
  unfold store Overdrawn
  simp only [hmetric, hgrant, ← credit_zero, Option.some.injEq]
  cases credit 0 (meters.get now (storeKey conf metric uid name labels)) with
  | renew => simp [Credit.apply]
  | refuse => simp [Credit.apply]
  | spend => simp [Credit.apply]

end Metrics

/-! ### Rate limits -/

namespace Limiter

/-- The limiter is on, and the current counter of the user is there. -/
def Counted (self : Limiter) (counters : Alternating (String × String)) (now : ℕ)
    (service uid : String) : Prop :=
  self.enable = true ∧ self.interval ≠ 0 ∧
    (counters.get now ((service, uid), Alternating.curr self.interval now)).isSome

/-- `call` finds a limit of zero exceeded just when there is a counter. -/
theorem call_zero (self : Limiter) (counters : Alternating (String × String)) (now : ℕ)
    (service uid : String) :
    (self.call counters now (.int 0) service (some uid)).map Prod.snd = some true ↔
      self.Counted counters now service uid := by
  unfold call Counted RateLimit.limited
  cases self.enable with
  | false => simp
  | true =>
      simp only [if_true, Option.elim_some, true_and]
      by_cases hinterval : self.interval = 0
      · simp [hinterval]
      · simp only [hinterval, if_false, ne_eq, not_false_eq_true, true_and]
        cases counters.get now ((service, uid), Alternating.curr self.interval now) with
        | none => simp [Val.truthy]
        | some calls =>
            have hcalls : ¬ (calls : ℤ) < 0 := by omega
            simp [hcalls]

end Limiter

/-! ### Related records -/

namespace BasicCrud

variable {svc : Service} {db db' : Database} {acc : Access} {now : ℕ} {m : Model} {id : String}
  {body : Dict} {access : Char} {limits : List (String × Val)} {answer : Response}

/-- A request is refused with 405, and nothing has changed. -/
def Refused (db : Database) (r : Database × Response) : Prop := r.2.status = 405 ∧ r.1 = db

/-- The row that the session may write clashes with another one. -/
structure RowConflicts (svc : Service) (db : Database) (acc : Access) (m : Model) (id : String)
    (body : Dict) (access : Char) : Prop where
  allowed : AccessControl.withPermission svc.policies db acc m access
    { query := some (byId db m id) } = .ok true
  found : byId db m id ≠ []
  columns : ∀ k ∈ body.keys, m.Has k
  clash : schema.store (db.1.modify m (hasId id) (·.write body)) = .error .integrity

theorem updateBody_status (h : updateBody svc now id body = .error answer) : answer.status = 405 := by
  rcases Checks.bind_eq_error.mp h with h | ⟨_, -, h⟩
  · obtain ⟨-, rfl⟩ := Checks.ensure_eq_error.mp h
    rfl
  rcases Checks.bind_eq_error.mp h with h | ⟨_, -, h⟩
  · exact convertExpires_status h
  · cases h

theorem writeRow_405 : (∃ answer, writeRow svc db acc m id body access = .error answer ∧
    answer.status = 405) ↔ RowConflicts svc db acc m id body access := by
  constructor
  · rintro ⟨answer, h, hstatus⟩
    rcases Checks.bind_eq_error.mp h with h | ⟨allowed, hallowed, h⟩
    · cases hrbac : AccessControl.withPermission svc.policies db acc m access
          { query := some (byId db m id) } with
      | ok allowed =>
          rw [hrbac] at h
          cases h
      | error e =>
          rw [hrbac] at h
          cases h
          cases hstatus
    rcases Checks.bind_eq_error.mp h with h | ⟨_, hens, h⟩
    · obtain ⟨-, rfl⟩ := Checks.ensure_eq_error.mp h
      cases hstatus
    rcases Checks.bind_eq_error.mp h with h | ⟨_, hfound, h⟩
    · obtain ⟨-, rfl⟩ := Checks.ensure_eq_error.mp h
      cases hstatus
    rcases Checks.bind_eq_error.mp h with h | ⟨_, hcolumns, h⟩
    · obtain ⟨-, rfl⟩ := Checks.ensure_eq_error.mp h
      cases hstatus
    rw [Checks.ensure_eq_ok] at hens hfound hcolumns
    rw [Checks.orElse_eq_ok, hens] at hallowed
    refine ⟨hallowed, hfound, hcolumns, ?_⟩
    cases hstore : schema.store (db.1.modify m (hasId id) (·.write body)) with
    | ok db' =>
        rw [hstore] at h
        cases h
    | error e =>
        rw [hstore] at h
        cases e with
        | integrity => rfl
        | statement =>
            cases h
            cases hstatus
  · intro h
    refine ⟨conflict .integrity, ?_, rfl⟩
    refine Checks.bind_eq_error.mpr (Or.inr ⟨true, Checks.orElse_eq_ok.mpr h.allowed, ?_⟩)
    refine Checks.bind_eq_error.mpr (Or.inr ⟨(), Checks.ensure_eq_ok.mpr rfl, ?_⟩)
    refine Checks.bind_eq_error.mpr (Or.inr ⟨(), Checks.ensure_eq_ok.mpr h.found, ?_⟩)
    refine Checks.bind_eq_error.mpr (Or.inr ⟨(), Checks.ensure_eq_ok.mpr h.columns, ?_⟩)
    rw [h.clash]
    rfl

/-- A limit that counts as none is never exceeded. -/
theorem updateRelateds_zero {rels : List Related}
    (hzero : ∀ rel ∈ rels, limits.lookup rel.attr = some (.int 0))
    (h : updateRelateds m id limits db rels body = (db', .error answer)) : answer.status = 500 := by
  induction rels generalizing db body with
  | nil => cases h
  | cons rel rels ih =>
      have hrest := fun r hr => hzero r (List.mem_cons_of_mem rel hr)
      have hfalsy : ((limits.lookup rel.attr).getD .none).truthy = false := by
        rw [hzero rel List.mem_cons_self]
        rfl
      rw [updateRelateds] at h
      simp only [hfalsy, Bool.false_eq_true, false_and, if_false] at h
      split_ifs at h
      · cases hup : updateRelated db m id rel (body.get rel.attr) with
        | ok db₁ =>
            rw [hup] at h
            exact ih hrest h
        | error e =>
            rw [hup] at h
            cases h
            rfl
      · exact ih hrest h

/-- `update` refuses a body under limits of zero just when it does so for another reason: the body names
another id or no date, or its related records are already those of the record and the row clashes. -/
theorem update_zero (hzero : ∀ rel ∈ m.restRelated, limits.lookup rel.attr = some (.int 0)) :
    Refused db (update svc db acc now m id body access limits) ↔
      (∃ answer, updateBody svc now id body = .error answer) ∨
      ∃ body₁, Rewritten svc db now m id body limits db body₁ ∧
        RowConflicts svc db acc m id body₁ access := by
  unfold Refused update Rewritten
  cases hbody : updateBody svc now id body with
  | error answer =>
      have hstatus := updateBody_status hbody
      simp [hstatus]
  | ok checked =>
      rcases hrelated : updateRelateds m id limits db m.restRelated checked with ⟨db₁, answer | body₁⟩
      · have hstatus := updateRelateds_zero hzero hrelated
        simp [hrelated, hstatus]
      · simp only [hrelated, reduceCtorEq, exists_false, false_or, Except.ok.injEq, Prod.mk.injEq,
          exists_eq_left']
        cases hrow : writeRow svc db₁ acc m id body₁ access with
        | ok db₂ =>
            constructor
            · rintro ⟨hstatus, -⟩
              cases hstatus
            · rintro ⟨_, ⟨rfl, rfl⟩, hconflict⟩
              obtain ⟨answer, herror, -⟩ := writeRow_405.mpr hconflict
              rw [hrow] at herror
              cases herror
        | error answer =>
            constructor
            · rintro ⟨hstatus, rfl⟩
              exact ⟨body₁, ⟨rfl, rfl⟩, writeRow_405.mp ⟨answer, hrow, hstatus⟩⟩
            · rintro ⟨_, ⟨rfl, rfl⟩, hconflict⟩
              obtain ⟨answer', herror, hstatus⟩ := writeRow_405.mpr hconflict
              rw [hrow] at herror
              cases herror
              exact ⟨hstatus, rfl⟩

/-! ### New records -/

variable {amb : Ambient} {pre : String}

theorem checkQuota_zero (huid : m.Has "uid") (hquota : grantName m.resource ∈ svc.conf.defaultGrants)
    (hzero : amb.grants (grantName m.resource) = .int 0) (uid : Val) :
    checkQuota svc db amb m uid = .error ⟨Dict.ofList [("message", .str "user limit exceeded"),
      ("allowed", .int 0)], 405⟩ := by
  have hover : ∀ n : ℕ, exceeds (n + 1) (.int 0) = some true := by
    intro n
    have hpos : (0 : ℤ) < (n + 1 : ℕ) := by
      push_cast
      omega
    exact congrArg some (decide_eq_true hpos)
  unfold checkQuota
  rw [if_pos hquota]
  simp only
  rw [if_neg (not_not_intro huid), hzero, hover]

/-- `create` refuses under a grant of zero, and a request that gets as far as the quota with 405. -/
theorem create_zero (huid : m.Has "uid") (hquota : grantName m.resource ∈ svc.conf.defaultGrants)
    (hzero : amb.grants (grantName m.resource) = .int 0) :
    (create svc db acc amb now m body pre limits).1 = db ∧
      (create svc db acc amb now m body pre limits).2.Refuses ∧
      ∀ r, beforeQuota svc db acc amb now m body pre = .ok r →
        (create svc db acc amb now m body pre limits).2.status = 405 := by
  have hprepare := prepare_eq svc db acc amb now m body pre limits
  unfold create
  cases hbefore : beforeQuota svc db acc amb now m body pre with
  | error answer =>
      rw [hbefore] at hprepare
      have hrefused : prepare svc db acc amb now m body pre limits = .error answer := hprepare
      rw [hrefused]
      exact ⟨rfl, prepare_refuses hrefused, fun r hr => nomatch hr⟩
  | ok r =>
      obtain ⟨uid, owned⟩ := r
      rw [hbefore] at hprepare
      have hrefused : prepare svc db acc amb now m body pre limits =
          .error ⟨Dict.ofList [("message", .str "user limit exceeded"), ("allowed", .int 0)], 405⟩ := by
        rw [hprepare]
        change (checkQuota svc db amb m uid >>= fun _ => afterQuota svc amb m owned limits) = _
        rw [checkQuota_zero huid hquota hzero]
        rfl
      rw [hrefused]
      exact ⟨rfl, Or.inr (Or.inl rfl), fun _ _ => rfl⟩

end BasicCrud

/-! ### All four -/

/-- Under a grant of zero: `store` refuses exactly where the key is overdrawn, in any state of redis and so
at every call of a run; `call` exactly where a counter is there; `update` exactly where it refuses the body
for another reason; and `create` always. -/
theorem zeroGrant_denies_iff (svc : Service) (conf : MetricConf) (self : Limiter) :
    (∀ metric uid name, conf.metrics name = some metric → metric.style = .grant →
      (∀ meters now labels value,
        (Metrics.store conf meters now 0 uid name labels value).2 = some false ↔
          Metrics.Overdrawn meters now (Metrics.storeKey conf metric uid name labels)) ∧
      ∀ s es, (Metrics.quota conf 0 uid name).Along (fun s e => e.call = .store →
          ((Metrics.quota conf 0 uid name).out s e).admits = some (some false)) s es ↔
        (Metrics.quota conf 0 uid name).Along (fun s e => e.call = .store →
          Metrics.Overdrawn s.meters (s.now + e.elapsed) (Metrics.storeKey conf metric uid name [])) s es) ∧
    (∀ s es, self.machine.Along (fun s e => e.limit = .int 0 → e.uid.isSome →
          self.machine.out s e = some true) s es ↔
        self.machine.Along (fun s e => e.limit = .int 0 → ∀ uid, e.uid = some uid →
          self.Counted s.counters (s.now + e.elapsed) e.service uid) s es) ∧
    (∀ db acc now m id body access limits,
      (∀ rel ∈ m.restRelated, limits.lookup rel.attr = some (.int 0)) →
      (BasicCrud.Refused db (BasicCrud.update svc db acc now m id body access limits) ↔
        (∃ answer, BasicCrud.updateBody svc now id body = .error answer) ∨
        ∃ body₁, BasicCrud.Rewritten svc db now m id body limits db body₁ ∧
          BasicCrud.RowConflicts svc db acc m id body₁ access)) ∧
    ∀ db acc amb now m body pre limits, m.Has "uid" →
      BasicCrud.grantName m.resource ∈ svc.conf.defaultGrants →
      amb.grants (BasicCrud.grantName m.resource) = .int 0 →
      (BasicCrud.create svc db acc amb now m body pre limits).1 = db ∧
        (BasicCrud.create svc db acc amb now m body pre limits).2.Refuses ∧
        ∀ r, BasicCrud.beforeQuota svc db acc amb now m body pre = .ok r →
          (BasicCrud.create svc db acc amb now m body pre limits).2.status = 405 := by
  refine ⟨fun metric uid name hmetric hgrant => ⟨Metrics.store_zero hmetric hgrant, fun s es => ?_⟩,
    fun s es => ?_, fun _ _ _ _ _ _ _ _ => BasicCrud.update_zero,
    fun _ _ _ _ _ _ _ _ => BasicCrud.create_zero⟩
  · have hout : ∀ (s : Metrics.Metered) (e : Metrics.QuotaEvent), e.call = .store →
        (((Metrics.quota conf 0 uid name).out s e).admits = some (some false) ↔
          Metrics.Overdrawn s.meters (s.now + e.elapsed) (Metrics.storeKey conf metric uid name [])) := by
      rintro s ⟨elapsed, call⟩ rfl
      rw [← Metrics.store_zero hmetric hgrant s.meters (s.now + elapsed) [] none]
      have hanswer : ((Metrics.quota conf 0 uid name).out s ⟨elapsed, .store⟩).admits =
          some (Metrics.store conf s.meters (s.now + elapsed) 0 uid name [] none).2 := rfl
      rw [hanswer, Option.some.injEq]
    constructor
    · exact Machine.Along.imp fun s e h hstore => (hout s e hstore).mp (h hstore)
    · exact Machine.Along.imp fun s e h hstore => (hout s e hstore).mpr (h hstore)
  · have hout : ∀ (s : Rates) (e : Invocation) (uid : String), e.limit = .int 0 → e.uid = some uid →
        (self.machine.out s e = some true ↔
          self.Counted s.counters (s.now + e.elapsed) e.service uid) := by
      intro s e uid hlimit huid
      rw [← Limiter.call_zero, ← hlimit, ← huid]
      rfl
    constructor
    · refine Machine.Along.imp fun s e h hlimit uid huid => ?_
      exact (hout s e uid hlimit huid).mp (h hlimit (by rw [huid]; rfl))
    · refine Machine.Along.imp fun s e h hlimit huid => ?_
      obtain ⟨uid, huid⟩ := Option.isSome_iff_exists.mp huid
      exact (hout s e uid hlimit huid).mpr (h hlimit uid huid)

/-- One grant, of a day. -/
def dailyGrant : MetricConf := ⟨fun _ => some {}, "instance"⟩

/-- A session of the first user, who owns the lists. -/
def listOwner : Access := { auth := some ["user"], uid := some "x-23450001" }

/-- A list gets a member. -/
def oneMember : Dict := Dict.ofList [("members", .list ["u-0002"])]

/-- On first use, `store` admits the call, `call` raises, and `update` takes the member. -/
theorem firstUse_admitted :
    (Metrics.store dailyGrant Keyspace.empty 0 0 (some "u-0002") "photo_daily_total" [] none).2 =
      some true ∧
    Limiter.call ⟨true, 60⟩ Expiring.empty 60 (.int 0) "*" (some "u-0002") = none ∧
    (BasicCrud.update Seed.service listed listOwner 100 .list "x-list1" oneMember 'u'
      [("members", .int 0)]).2.status = 200 ∧
    ((BasicCrud.update Seed.service listed listOwner 100 .list "x-list1" oneMember 'u'
      [("members", .int 0)]).1.rows .listMember).length = 1 := by
  refine ⟨by decide +kernel, rfl, by decide +kernel, by decide +kernel⟩

/-- The keys after the first use. -/
def afterFirst : Meters :=
  (Metrics.store dailyGrant Keyspace.empty 0 0 (some "u-0002") "photo_daily_total" [] none).1

/-- The second use is refused, and so is another id in the body. -/
theorem secondUse_denied :
    (Metrics.store dailyGrant afterFirst 1 0 (some "u-0002") "photo_daily_total" [] none).2 =
      some false ∧
    BasicCrud.Refused listed (BasicCrud.update Seed.service listed listOwner 100 .list "x-list1"
      (Dict.ofList [("id", .str "x-list2")]) 'u' [("members", .int 0)]) := by
  obtain ⟨hstore, -, hupdate, -⟩ := zeroGrant_denies_iff Seed.service dailyGrant ⟨true, 60⟩
  refine ⟨?_, ?_⟩
  · refine ((hstore {} (some "u-0002") "photo_daily_total" rfl rfl).1 afterFirst 1 [] none).mpr
      ⟨-1, by decide, by decide +kernel⟩
  · refine (hupdate listed listOwner 100 .list "x-list1" _ 'u' [("members", .int 0)] ?_).mpr
      (Or.inl ⟨BasicCrud.readOnlyId, ?_⟩)
    · intro rel hrel
      rw [List.mem_singleton.mp hrel]
      rfl
    · simp [BasicCrud.updateBody, Checks.ensure, Dict.ofList, bind, Except.bind]

end Apicrud
