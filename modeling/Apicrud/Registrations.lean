import Apicrud.Expiring
import Apicrud.Machine
import Apicrud.ServiceRegistry

/-! # Registrations over time

`register` saves the registration of the process for `REGISTRY_TTL` seconds and starts a timer, whose `update`
saves it once more and starts the next timer.  Nothing removes a registration: that of a process that stops is
gone when it expires.

`registrations_found_iff` says what `find` returns after any run of any number of processes: the registrations
whose last save is less than the time to live ago.  When the timers are on time, these are those of all running
processes (`running_found`). -/

namespace Apicrud

/-- What names an instance: the service and the id. -/
structure Instance where
  name : String
  id : String
  name_plain : ':' ∉ name.toList
  id_plain : ':' ∉ id.toList
deriving DecidableEq

namespace ServiceRegistry

/-- `service_data`: the name and the id, and the info. -/
structure ServiceData where
  inst : Instance
  info : Registration

/-- A process of a service. -/
structure Member where
  /-- empty before the first `register` -/
  service_data : Option ServiceData := none
  /-- when the timers that are started are due -/
  timers : List ℕ := []
  running : Bool := true

/-- The processes, and the registrations in redis. -/
structure Cluster where
  redis : Expiring Instance (List Char) := Expiring.empty
  members : ℕ → Member := fun _ => {}

/-- What can happen. -/
inductive Action where
  /-- a process registers, or registers anew -/
  | register (p : ℕ) (data : ServiceData)
  /-- a timer of the process calls `update` -/
  | update (p due : ℕ)
  | stop (p : ℕ)
  /-- another cluster writes to the same redis -/
  | foreign (inst : Instance) (value : List Char) (ttl : ℕ)

structure Event where
  now : ℕ
  action : Action
  /-- the initialization vector that is drawn -/
  iv : InitVector
  /-- redis takes the write -/
  up : Bool := true

/-- The configuration: `REGISTRY_INTERVAL` and `REGISTRY_TTL`. -/
structure Params where
  interval : ℕ
  ttl : ℕ

variable (R : ServiceRegistry) (params : Params)

/-- `_save_entry`, where an exception is only logged. -/
def saveEntry (redis : Expiring Instance (List Char)) (e : Event) (data : ServiceData) :
    Expiring Instance (List Char) :=
  match R.saved e.iv data.info with
  | some value => if e.up then redis.set data.inst value (e.now + params.ttl) else redis
  | none => redis

/-- A timer of the process is due. -/
def Member.Fires (member : Member) (due now : ℕ) : Prop :=
  member.running = true ∧ due ∈ member.timers ∧ due ≤ now

instance (member : Member) (due now : ℕ) : Decidable (member.Fires due now) :=
  inferInstanceAs (Decidable (_ ∧ _))

/-- What an event does. -/
def perform (c : Cluster) (e : Event) : Cluster :=
  match e.action with
  | .register p data =>
      if (c.members p).running then { c with
        redis := R.saveEntry params c.redis e data
        members := Function.update c.members p { c.members p with
          service_data := some data
          timers := (e.now + 1) :: (c.members p).timers } }
      else c
  | .update p due =>
      if (c.members p).Fires due e.now then
        match (c.members p).service_data with
        | some data => { c with
            redis := R.saveEntry params c.redis e data
            members := Function.update c.members p { c.members p with
              timers := (e.now + params.interval) :: (c.members p).timers.erase due } }
        -- without a name there is no key, and the thread ends
        | none => { c with
            members := Function.update c.members p { c.members p with
              timers := (c.members p).timers.erase due } }
      else c
  | .stop p => { c with
      members := Function.update c.members p { c.members p with timers := [], running := false } }
  | .foreign inst value ttl => { c with redis := c.redis.set inst value (e.now + ttl) }

/-- The processes and redis, event by event. -/
def cluster : Machine Cluster Event Unit where
  step c e := (R.perform params c e, ())

/-- The entry of an instance in redis. -/
def Cluster.entry (c : Cluster) (now : ℕ) (inst : Instance) : RegistryEntry where
  name := inst.name
  id := inst.id
  name_plain := inst.name_plain
  id_plain := inst.id_plain
  value := c.redis.get now inst

/-- A scan gives every key that is there, in some order; it may give a key twice, or one that is gone. -/
def Cluster.Scans (c : Cluster) (now : ℕ) (scan : RegistryScan) : Prop :=
  ∃ order : List Instance, scan.entries = order.map (c.entry now) ∧
    ∀ inst, (c.redis.get now inst).isSome = true → inst ∈ order

/-- A registration as it is found. -/
def ServiceData.found (data : ServiceData) : Json.Fields :=
  Assoc.set (Assoc.set data.info.info "name" (.str data.inst.name)) "id" (.str data.inst.id)

/-- `json` reads what it writes, and writes ASCII. -/
structure ReadsBack (R : ServiceRegistry) (r : Registration) : Prop where
  ascii : ∀ c ∈ (R.dumps (.obj r.info)).toList, c.toNat < 128
  loads : R.loads (Base64.utf8 (R.dumps (.obj r.info))) = some (.obj r.info)

/-! ### What is written -/

/-- The event saves the registration. -/
def Saves (c : Cluster) (e : Event) (data : ServiceData) : Prop :=
  e.up = true ∧ ((∃ p, e.action = .register p data ∧ (c.members p).running = true) ∨
    ∃ p due, e.action = .update p due ∧ (c.members p).Fires due e.now ∧
      (c.members p).service_data = some data)

/-- The event writes the key of the instance. -/
def Writes (c : Cluster) (e : Event) (inst : Instance) : Prop :=
  (∃ data, Saves c e data ∧ data.inst = inst) ∨ ∃ value ttl, e.action = .foreign inst value ttl

/-- What is registered is read back, and what another cluster writes does not decrypt to an object. -/
structure Ordinary (R : ServiceRegistry) (e : Event) : Prop where
  json : ∀ p data, e.action = .register p data → R.ReadsBack data.info
  foreign : ∀ inst value ttl, e.action = .foreign inst value ttl →
    ∀ info, (R.aes.decrypt R.crypt value).bind R.loads ≠ some (.obj info)

/-- What the processes registered last has a property. -/
def Cluster.Have (c : Cluster) (Q : ServiceData → Prop) : Prop :=
  ∀ p data, (c.members p).service_data = some data → Q data

/-- What the processes registered is read back. -/
def Readable (R : ServiceRegistry) (c : Cluster) : Prop := c.Have fun data => R.ReadsBack data.info

/-- In the run, the registration was saved for the last time at an instant, and its key not written since. -/
def LastSaved (es : List Event) (data : ServiceData) (since : ℕ) : Prop :=
  ∃ before e after, es = before ++ e :: after ∧ e.now = since ∧
    Saves ((R.cluster params).run {} before) e data ∧
    (R.cluster params).Along (fun c e => ¬ Writes c e data.inst)
      ((R.cluster params).run {} (before ++ [e])) after

variable {R} {params} {c : Cluster} {e : Event} {data : ServiceData} {inst : Instance} {es : List Event}

theorem saved_some {r : Registration} (hjson : R.ReadsBack r) (iv : InitVector) :
    ∃ value, R.saved iv r = some value := by
  obtain ⟨value, hvalue, -⟩ := AESEncrypt.roundTrips_of_ascii R.crypt R.aes iv hjson.ascii
  exact ⟨value, hvalue⟩

/-- The data of a process is what it registered last. -/
theorem have_next {Q : ServiceData → Prop} (h : c.Have Q)
    (he : ∀ p data, e.action = .register p data → Q data) : ((R.cluster params).next c e).Have Q := by
  have hupdate : ∀ p member, (∀ data, member.service_data = some data → Q data) →
      ∀ q data, (Function.update c.members p member q).service_data = some data → Q data := by
    intro p member hmember q data hdata
    by_cases hq : q = p
    · subst hq
      rw [Function.update_self] at hdata
      exact hmember data hdata
    · rw [Function.update_of_ne hq] at hdata
      exact h q data hdata
  change (R.perform params c e).Have Q
  rw [perform]
  cases haction : e.action with
  | register p data =>
      simp only
      by_cases hrunning : (c.members p).running = true
      · rw [if_pos hrunning]
        refine hupdate p _ fun data' hdata' => ?_
        cases hdata'
        exact he p data haction
      · rw [if_neg hrunning]
        exact h
  | update p due =>
      simp only
      by_cases hfires : (c.members p).Fires due e.now
      · rw [if_pos hfires]
        cases hdata : (c.members p).service_data with
        | some data => exact hupdate p _ fun data' hdata' => h p data' (hdata.trans hdata')
        | none => exact hupdate p _ fun data' hdata' => h p data' (hdata.trans hdata')
      · rw [if_neg hfires]
        exact h
  | stop p => exact hupdate p _ fun data' hdata' => h p data' hdata'
  | foreign inst value ttl => exact h

theorem have_start (Q : ServiceData → Prop) : Cluster.Have {} Q := by
  intro p data hdata
  cases hdata

theorem readable_next (h : R.Readable c) (he : R.Ordinary e) : R.Readable ((R.cluster params).next c e) :=
  have_next h he.json

theorem readable_run (h : (R.cluster params).Along (fun _ e => R.Ordinary e) {} es) :
    R.Readable ((R.cluster params).run {} es) :=
  Machine.invariant (fun _ _ hc he => readable_next hc he) h (have_start _)

theorem Saves.has {Q : ServiceData → Prop} (h : Saves c e data) (hc : c.Have Q)
    (he : ∀ p data, e.action = .register p data → Q data) : Q data := by
  obtain ⟨-, ⟨p, haction, -⟩ | ⟨p, -, -, -, hdata⟩⟩ := h
  · exact he p data haction
  · exact hc p data hdata

theorem next_redis (c : Cluster) (e : Event) :
    ((R.cluster params).next c e).redis = (R.perform params c e).redis := rfl

/-- A save. -/
theorem redis_of_saves (h : Saves c e data) :
    ((R.cluster params).next c e).redis = R.saveEntry params c.redis e data := by
  rw [next_redis, perform]
  obtain ⟨-, ⟨p, haction, hrunning⟩ | ⟨p, due, haction, hfires, hdata⟩⟩ := h
  · rw [haction]
    simp only [hrunning, if_true]
  · rw [haction]
    simp only [if_pos hfires, hdata]

theorem redis_of_foreign {value : List Char} {ttl : ℕ} (h : e.action = .foreign inst value ttl) :
    ((R.cluster params).next c e).redis = c.redis.set inst value (e.now + ttl) := by
  rw [next_redis, perform, h]

/-- What is not written stays. -/
theorem redis_of_not_writes (h : ¬ Writes c e inst) :
    ((R.cluster params).next c e).redis inst = c.redis inst := by
  have hkept : ∀ data, (e.up = true → data.inst ≠ inst) →
      R.saveEntry params c.redis e data inst = c.redis inst := by
    intro data hother
    unfold saveEntry
    cases R.saved e.iv data.info with
    | none => rfl
    | some value =>
        by_cases hup : e.up = true
        · simp only [hup, if_true]
          rw [Expiring.set_apply, if_neg (Ne.symm (hother hup))]
        · simp only [hup]
          rfl
  rw [next_redis, perform]
  cases haction : e.action with
  | register p data =>
      simp only
      by_cases hrunning : (c.members p).running = true
      · rw [if_pos hrunning]
        exact hkept data fun hup heq => h (Or.inl ⟨data, ⟨hup, Or.inl ⟨p, haction, hrunning⟩⟩, heq⟩)
      · rw [if_neg hrunning]
  | update p due =>
      simp only
      by_cases hfires : (c.members p).Fires due e.now
      · rw [if_pos hfires]
        cases hdata : (c.members p).service_data with
        | none => rfl
        | some data =>
            exact hkept data fun hup heq =>
              h (Or.inl ⟨data, ⟨hup, Or.inr ⟨p, due, haction, hfires, hdata⟩⟩, heq⟩)
      · rw [if_neg hfires]
  | stop p => rfl
  | foreign other value ttl =>
      simp only
      rw [Expiring.set_apply, if_neg]
      rintro rfl
      exact h (Or.inr ⟨value, ttl, haction⟩)

/-! ### What is in redis -/

/-- The registration that was saved last is in redis, until it expires. -/
theorem LastSaved.redis (h : (R.cluster params).Along (fun _ e => R.Ordinary e) {} es) {since : ℕ}
    (hlast : R.LastSaved params es data since) : R.ReadsBack data.info ∧
      ∃ iv value, R.saved iv data.info = some value ∧
        ((R.cluster params).run {} es).redis data.inst = some (value, since + params.ttl) := by
  obtain ⟨before, e, after, rfl, rfl, hsaves, hafter⟩ := hlast
  obtain ⟨hbefore, he, -⟩ := (Machine.along_append _ _ _ before (e :: after)).mp h
  have hjson := hsaves.has (readable_run hbefore) he.json
  obtain ⟨value, hvalue⟩ := saved_some hjson e.iv
  have hsaved : ((R.cluster params).run {} (before ++ [e])).redis data.inst =
      some (value, e.now + params.ttl) := by
    rw [Machine.run_append, Machine.run_cons, Machine.run_nil, redis_of_saves hsaves, saveEntry, hvalue]
    simp only [hsaves.1, if_true]
    rw [Expiring.set_apply, if_pos rfl]
  refine ⟨hjson, e.iv, value, hvalue, ?_⟩
  have hsplit : before ++ e :: after = (before ++ [e]) ++ after := by simp
  rw [hsplit, Machine.run_append]
  exact Machine.invariant
    (I := fun c : Cluster => c.redis data.inst = some (value, e.now + params.ttl))
    (fun c e' hc hnot => (redis_of_not_writes hnot).trans hc) hafter hsaved

/-- What is in redis was saved last, or is of another cluster; the induction is on the run, from its end. -/
theorem redis_lastSaved (hordinary : (R.cluster params).Along (fun _ e => R.Ordinary e) {} es)
    {value : List Char} {expiry : ℕ} (h : ((R.cluster params).run {} es).redis inst = some (value, expiry)) :
    (∃ data iv since, data.inst = inst ∧ R.saved iv data.info = some value ∧ expiry = since + params.ttl ∧
        R.LastSaved params es data since) ∨
      ∀ info, (R.aes.decrypt R.crypt value).bind R.loads ≠ some (.obj info) := by
  induction es using List.reverseRecOn with
  | nil => cases h
  | append_singleton es e ih =>
      obtain ⟨hbefore, hlast⟩ := (Machine.along_append _ _ _ es [e]).mp hordinary
      rw [Machine.run_append, Machine.run_cons, Machine.run_nil] at h
      by_cases hwrites : Writes ((R.cluster params).run {} es) e inst
      · obtain ⟨data, hsaves, rfl⟩ | ⟨written, ttl, haction⟩ := hwrites
        · rw [redis_of_saves hsaves, saveEntry] at h
          obtain ⟨saved, hsaved⟩ := saved_some (hsaves.has (readable_run hbefore) hlast.1.json) e.iv
          rw [hsaved] at h
          simp only [hsaves.1, if_true] at h
          rw [Expiring.set_apply, if_pos rfl, Option.some.injEq, Prod.mk.injEq] at h
          exact Or.inl ⟨data, e.iv, e.now, rfl, by rw [hsaved, h.1], h.2.symm, es, e, [], rfl, rfl, hsaves,
            trivial⟩
        · rw [redis_of_foreign haction, Expiring.set_apply, if_pos rfl, Option.some.injEq,
            Prod.mk.injEq] at h
          obtain ⟨rfl, -⟩ := h
          exact Or.inr (hlast.1.foreign inst _ ttl haction)
      · rw [redis_of_not_writes hwrites] at h
        obtain ⟨data, iv, since, hinst, hsaved, hexpiry, before, e', after, rfl, hnow, hsaves, hafter⟩ | hnot :=
          ih hbefore h
        · refine Or.inl ⟨data, iv, since, hinst, hsaved, hexpiry, before, e', after ++ [e], by simp, hnow, hsaves,
            ?_⟩
          rw [Machine.along_append, ← Machine.run_append]
          refine ⟨hafter, ?_, trivial⟩
          rw [hinst]
          simpa using hwrites
        · exact Or.inr hnot

/-! ### What is found -/

/-- The service is asked for, if one is. -/
def ServiceData.Selected (data : ServiceData) (service_name : Option String) : Prop :=
  service_name.getD "" = "" ∨ data.inst.name = service_name.getD ""

theorem opened_entry (c : Cluster) (now : ℕ) (inst : Instance) : R.opened (c.entry now inst) =
    (c.redis.get now inst).bind fun value => (R.aes.decrypt R.crypt value).bind R.loads := rfl

/-- A registration that is saved is read back. -/
theorem opened_saved (hjson : R.ReadsBack data.info) {iv : InitVector} {value : List Char}
    (h : R.saved iv data.info = some value) {e : RegistryEntry} (hvalue : e.value = some value) :
    R.opened e = some (.obj data.info.info) :=
  (saved_registers hjson.ascii hjson.loads (hvalue.trans h.symm)).1

theorem endpoints_found (data : ServiceData) : endpoints data.found = data.info.endpoints := by
  refine endpoints_of ?_
  rw [ServiceData.found, Assoc.get_set_ne (by decide), Assoc.get_set_ne (by decide)]
  rfl

section found

variable (hordinary : (R.cluster params).Along (fun _ e => R.Ordinary e) {} es)

include hordinary

/-- What an entry registers is the registration that was saved last, while it has not expired. -/
theorem registered_iff {now : ℕ} {info : Json.Fields} :
    R.registered (((R.cluster params).run {} es).entry now inst) = some info ↔
      ∃ data since, data.inst = inst ∧ R.LastSaved params es data since ∧ now < since + params.ttl ∧
        info = data.found := by
  constructor
  · intro h
    cases hvalue : ((R.cluster params).run {} es).redis.get now inst with
    | none =>
        rw [registered, opened_entry, hvalue] at h
        cases h
    | some value =>
        obtain ⟨expiry, hstored, hlive⟩ := Expiring.get_eq_some.mp hvalue
        obtain ⟨data, iv, since, rfl, hsaved, rfl, hlast⟩ | hnot := redis_lastSaved hordinary hstored
        · refine ⟨data, since, rfl, hlast, hlive, ?_⟩
          rw [registered_of (opened_saved (hlast.redis hordinary).1 hsaved hvalue), Option.some.injEq] at h
          exact h.symm
        · have hunreadable : R.Unreadable (((R.cluster params).run {} es).entry now inst) := by
            intro info
            rw [opened_entry, hvalue]
            exact hnot info
          rw [registered_of_unreadable hunreadable] at h
          cases h
  · rintro ⟨data, since, rfl, hlast, hlive, rfl⟩
    obtain ⟨hjson, iv, value, hsaved, hstored⟩ := hlast.redis hordinary
    have hvalue : ((R.cluster params).run {} es).redis.get now data.inst = some value :=
      Expiring.get_eq_some.mpr ⟨_, hstored, hlive⟩
    exact registered_of (opened_saved hjson hsaved hvalue)

theorem entry_orderly (now : ℕ) (inst : Instance) :
    R.Orderly (((R.cluster params).run {} es).entry now inst) := by
  cases hregistered : R.registered (((R.cluster params).run {} es).entry now inst) with
  | some info =>
      obtain ⟨data, since, rfl, hlast, hlive, -⟩ := (registered_iff hordinary).mp hregistered
      obtain ⟨hjson, iv, value, hsaved, hstored⟩ := hlast.redis hordinary
      have hvalue : ((R.cluster params).run {} es).redis.get now data.inst = some value :=
        Expiring.get_eq_some.mpr ⟨_, hstored, hlive⟩
      exact (saved_registers hjson.ascii hjson.loads (hvalue.trans hsaved.symm)).2
  | none =>
      refine Or.inr fun info hopened => ?_
      rw [registered_of hopened] at hregistered
      cases hregistered

/-- What `find` returns after any run: the registrations whose last save has not expired, and the resources of
these. -/
theorem registrations_found_iff {now : ℕ} {scan : RegistryScan} {service_name : Option String}
    (hname : Literal (service_name.getD "")) (hscan : ((R.cluster params).run {} es).Scans now scan) :
    ∃ found, R.find scan service_name = some found ∧
      (∀ info, info ∈ found.instances ↔ ∃ data since, data.Selected service_name ∧
        R.LastSaved params es data since ∧ now < since + params.ttl ∧ info = data.found) ∧
      ∀ resource, (found.urlMap (.str resource)).isSome = true ↔ ∃ data since,
        data.Selected service_name ∧ R.LastSaved params es data since ∧ now < since + params.ttl ∧
          resource ∈ data.info.endpoints := by
  obtain ⟨order, hentries, hall⟩ := hscan
  have horderly : ∀ e ∈ scan.entries, R.Orderly e := by
    intro e he
    rw [hentries] at he
    obtain ⟨inst, -, rfl⟩ := List.mem_map.mp he
    exact entry_orderly hordinary now inst
  have hmem : ∀ info, info ∈ (selected scan.entries service_name).filterMap R.registered ↔
      ∃ data since, data.Selected service_name ∧ R.LastSaved params es data since ∧
        now < since + params.ttl ∧ info = data.found := by
    intro info
    rw [List.mem_filterMap]
    constructor
    · rintro ⟨e, he, hregistered⟩
      obtain ⟨he, hselected⟩ := List.mem_filter.mp he
      rw [hentries] at he
      obtain ⟨inst, -, rfl⟩ := List.mem_map.mp he
      obtain ⟨data, since, rfl, hlast, hlive, rfl⟩ := (registered_iff hordinary).mp hregistered
      have hdata : Selected service_name (((R.cluster params).run {} es).entry now data.inst) :=
        of_decide_eq_true hselected
      exact ⟨data, since, hdata, hlast, hlive, rfl⟩
    · rintro ⟨data, since, hselected, hlast, hlive, rfl⟩
      obtain ⟨-, iv, value, -, hstored⟩ := hlast.redis hordinary
      have hthere : (((R.cluster params).run {} es).redis.get now data.inst).isSome = true := by
        rw [Expiring.get_eq_some.mpr ⟨_, hstored, hlive⟩]
        rfl
      have hentry : Selected service_name (((R.cluster params).run {} es).entry now data.inst) := hselected
      refine ⟨_, List.mem_filter.mpr ⟨?_, decide_eq_true hentry⟩,
        (registered_iff hordinary).mpr ⟨data, since, rfl, hlast, hlive, rfl⟩⟩
      rw [hentries]
      exact List.mem_map_of_mem (hall _ hthere)
  refine ⟨_, find_eq hname horderly, hmem, fun resource => ?_⟩
  have hselected : ∀ e ∈ selected scan.entries service_name, R.Orderly e :=
    fun e he => horderly e (List.mem_of_mem_filter he)
  rw [(finds_of_perm hselected (List.Perm.refl _)).resources]
  constructor
  · rintro ⟨info, hinfo, served, hserved, heq⟩
    cases heq
    obtain ⟨data, since, hdata, hlast, hlive, rfl⟩ := (hmem info).mp hinfo
    rw [endpoints_found] at hserved
    exact ⟨data, since, hdata, hlast, hlive, hserved⟩
  · rintro ⟨data, since, hdata, hlast, hlive, hresource⟩
    refine ⟨_, (hmem _).mpr ⟨data, since, hdata, hlast, hlive, rfl⟩, resource, ?_, rfl⟩
    rw [endpoints_found]
    exact hresource

end found

/-! ### A process that stops -/

/-- The data of the instance of the sample. -/
def accountsData : ServiceData where
  inst := ⟨ownEntry.name, ownEntry.id, ownEntry.name_plain, ownEntry.id_plain⟩
  info := accounts

/-- The configuration as shipped. -/
def shippedParams : Params := ⟨30, 60⟩

theorem length_zeros : (List.replicate 16 (0 : UInt8)).length = 16 := List.length_replicate

/-- An event at an instant. -/
def eventAt (now : ℕ) (action : Action) : Event where
  now := now
  action := action
  iv := ⟨List.replicate 16 0, length_zeros⟩

/-- A scan that gives the instance of the sample alone. -/
def scanAt (es : List Event) (now : ℕ) : RegistryScan :=
  bothEntries.withEntries [((sample.cluster shippedParams).run {} es).entry now accountsData.inst]

theorem sample_readsBack : sample.ReadsBack accounts where
  ascii := by simp [sample]
  loads := by simp [sample]

/-- An event of the process of the sample. -/
def OfSample (e : Event) : Prop :=
  e.action = .register 0 accountsData ∨ e.action = .stop 0 ∨ e.action = .update 0 1

theorem OfSample.register (h : OfSample e) : ∀ p data, e.action = .register p data → data = accountsData := by
  intro p data haction
  rcases h with h | h | h
  · rw [haction] at h
    cases h
    rfl
  · rw [haction] at h
    cases h
  · rw [haction] at h
    cases h

theorem OfSample.not_foreign (h : OfSample e) {value : List Char} {ttl : ℕ} :
    e.action ≠ .foreign inst value ttl := by
  rcases h with h | h | h <;> rw [h] <;> simp

theorem OfSample.ordinary (h : OfSample e) : sample.Ordinary e where
  json p data haction := by
    rw [h.register p data haction]
    exact sample_readsBack
  foreign _ _ _ haction := absurd haction h.not_foreign

/-- Only the key of the sample is written. -/
theorem sample_scans (h : (sample.cluster shippedParams).Along (fun _ e => OfSample e) {} es) (now : ℕ) :
    ((sample.cluster shippedParams).run {} es).Scans now (scanAt es now) := by
  refine ⟨[accountsData.inst], rfl, fun inst hinst => List.mem_singleton.mpr ?_⟩
  by_contra hne
  have hkept : ((sample.cluster shippedParams).run {} es).Have (· = accountsData) ∧
      ((sample.cluster shippedParams).run {} es).redis inst = none := by
    refine Machine.invariant (I := fun c : Cluster => c.Have (· = accountsData) ∧ c.redis inst = none)
      (fun c e hc he => ⟨have_next hc.1 he.register, ?_⟩) h ⟨have_start _, rfl⟩
    rw [redis_of_not_writes, hc.2]
    rintro (⟨data, hsaves, rfl⟩ | ⟨value, ttl, haction⟩)
    · rw [hsaves.has hc.1 he.register] at hne
      exact hne rfl
    · exact he.not_foreign haction
  rw [Expiring.get, hkept.2] at hinst
  cases hinst

/-- A process registers, and stops at once. -/
def stopped : List Event := [eventAt 0 (.register 0 accountsData), eventAt 0 (.stop 0)]

/-- It is found for a minute. -/
theorem stopped_found : ∃ found later, sample.find (scanAt stopped 59) (some "main") = some found ∧
    accountsData.found ∈ found.instances ∧ sample.find (scanAt stopped 60) (some "main") = some later ∧
      later.instances = [] := by
  have hsample : (sample.cluster shippedParams).Along (fun _ e => OfSample e) {} stopped :=
    ⟨Or.inl rfl, Or.inr (Or.inl rfl), trivial⟩
  have hordinary := hsample.imp fun _ _ => OfSample.ordinary
  obtain ⟨found, hfound, hinstances, -⟩ := registrations_found_iff hordinary
    (by simp [Literal] : Literal ((some "main").getD "")) (sample_scans hsample 59)
  obtain ⟨later, hlater, hnone, -⟩ := registrations_found_iff hordinary
    (by simp [Literal] : Literal ((some "main").getD "")) (sample_scans hsample 60)
  refine ⟨found, later, hfound, (hinstances _).mpr ⟨accountsData, 0, Or.inr rfl, ?_, by decide, rfl⟩,
    hlater, ?_⟩
  · refine ⟨[], _, [eventAt 0 (.stop 0)], rfl, rfl, ⟨rfl, Or.inl ⟨0, rfl, rfl⟩⟩, ?_, trivial⟩
    rintro (⟨data, ⟨-, ⟨p, haction, -⟩ | ⟨p, due, haction, -⟩⟩, -⟩ | ⟨value, ttl, haction⟩) <;> cases haction
  · refine List.eq_nil_iff_forall_not_mem.mpr fun info hinfo => ?_
    obtain ⟨data, since, -, ⟨before, e, after, hsplit, rfl, -⟩, hlive, -⟩ := (hnone info).mp hinfo
    have he : e ∈ stopped := by rw [hsplit]; simp
    have hzero : e.now = 0 := by
      rcases List.mem_cons.mp he with rfl | he
      · rfl
      · rw [List.mem_singleton.mp he]
        rfl
    rw [hzero] at hlive
    exact absurd hlive (by decide)

/-! ### Timers on time -/

/-- The process is running, and registered. -/
def Cluster.Serving (c : Cluster) (p : ℕ) (data : ServiceData) : Prop :=
  (c.members p).running = true ∧ (c.members p).service_data = some data

/-- Redis takes the write, no two running processes have one name and id, and no other cluster writes their
keys. -/
structure Undisturbed (c : Cluster) (e : Event) : Prop where
  up : e.up = true
  unique : ∀ p data q other, e.action = .register p data → q ≠ p → c.Serving q other → other.inst ≠ data.inst
  foreign : ∀ inst value ttl p data, e.action = .foreign inst value ttl → c.Serving p data → data.inst ≠ inst

/-- The registration of the process is in redis, and a timer will save it before it expires, as long as it is
on time. -/
def Renewed (R : ServiceRegistry) (params : Params) (c : Cluster) (p : ℕ) (data : ServiceData) : Prop :=
  ∃ due ∈ (c.members p).timers, ∃ iv value expiry, R.saved iv data.info = some value ∧
    c.redis data.inst = some (value, expiry) ∧ due + params.ttl ≤ expiry + max 1 params.interval

/-- What every undisturbed event keeps. -/
structure Alive (R : ServiceRegistry) (params : Params) (c : Cluster) : Prop where
  unique : ∀ p q data other, p ≠ q → c.Serving p data → c.Serving q other → other.inst ≠ data.inst
  renewed : ∀ p data, c.Serving p data → R.Renewed params c p data

/-- A process saves its registration and starts a timer, beside the others. -/
theorem Alive.save {c c' : Cluster} {p : ℕ} {data : ServiceData} {due : ℕ} {e : Event} (h : R.Alive params c)
    (hjson : R.ReadsBack data.info) (hup : e.up = true) (hredis : c'.redis = R.saveEntry params c.redis e data)
    (hothers : ∀ q, q ≠ p → c'.members q = c.members q)
    (hself : (c'.members p).service_data = some data ∧ due ∈ (c'.members p).timers)
    (hdue : due ≤ e.now + max 1 params.interval)
    (hunique : ∀ q other, q ≠ p → c.Serving q other → other.inst ≠ data.inst) : R.Alive params c' := by
  obtain ⟨value, hvalue⟩ := saved_some hjson e.iv
  have hset : c'.redis = c.redis.set data.inst value (e.now + params.ttl) := by
    rw [hredis, saveEntry, hvalue]
    simp only [hup, if_true]
  have hserving : ∀ q other, q ≠ p → (c'.Serving q other ↔ c.Serving q other) := by
    intro q other hq
    rw [Cluster.Serving, hothers q hq]
    rfl
  have hmine : ∀ other, c'.Serving p other → other = data := fun other hother =>
    Option.some.inj (hother.2.symm.trans hself.1)
  constructor
  · intro q q' first second hne hfirst hsecond
    by_cases hq : q = p
    · subst hq
      rw [hmine first hfirst]
      exact hunique q' second (Ne.symm hne) ((hserving q' second (Ne.symm hne)).mp hsecond)
    · by_cases hq' : q' = p
      · subst hq'
        rw [hmine second hsecond]
        exact (hunique q first hq ((hserving q first hq).mp hfirst)).symm
      · exact h.unique q q' first second hne ((hserving q first hq).mp hfirst)
          ((hserving q' second hq').mp hsecond)
  · intro q other hother
    by_cases hq : q = p
    · subst hq
      rw [hmine other hother]
      refine ⟨due, hself.2, e.iv, value, e.now + params.ttl, hvalue, ?_, by omega⟩
      rw [hset, Expiring.set_apply, if_pos rfl]
    · have hbefore := (hserving q other hq).mp hother
      obtain ⟨due', hdue', iv, value', expiry, hsaved, hstored, hle⟩ := h.renewed q other hbefore
      refine ⟨due', by rwa [hothers q hq], iv, value', expiry, hsaved, ?_, hle⟩
      rw [hset, Expiring.set_apply, if_neg (hunique q other hq hbefore), hstored]

/-- Nothing changes for the processes that go on. -/
theorem Alive.frame {c c' : Cluster} (h : R.Alive params c) (hserving : ∀ p data, c'.Serving p data →
      c.Serving p data ∧ (c'.members p).timers = (c.members p).timers ∧
        c'.redis data.inst = c.redis data.inst) : R.Alive params c' := by
  constructor
  · intro p q data other hne hdata hother
    exact h.unique p q data other hne (hserving p data hdata).1 (hserving q other hother).1
  · intro p data hdata
    obtain ⟨hbefore, htimers, hredis⟩ := hserving p data hdata
    obtain ⟨due, hdue, iv, value, expiry, hsaved, hstored, hle⟩ := h.renewed p data hbefore
    exact ⟨due, by rwa [htimers], iv, value, expiry, hsaved, hredis.trans hstored, hle⟩

/-- One case for each kind of event. -/
theorem Alive.step (h : R.Alive params c) (hc : R.Readable c) (he : R.Ordinary e) (hcalm : Undisturbed c e) :
    R.Alive params ((R.cluster params).next c e) := by
  change R.Alive params (R.perform params c e)
  rw [perform]
  cases haction : e.action with
  | register p data =>
      simp only
      by_cases hrunning : (c.members p).running = true
      · rw [if_pos hrunning]
        refine @Alive.save R params c _ p data (e.now + 1) e h (he.json p data haction) hcalm.up rfl ?_ ?_
          (by omega) ?_
        · exact fun q hq => Function.update_of_ne hq _ _
        · simp
        · exact fun q other hq => hcalm.unique p data q other haction hq
      · rw [if_neg hrunning]
        exact h
  | update p due =>
      simp only
      by_cases hfires : (c.members p).Fires due e.now
      · rw [if_pos hfires]
        cases hdata : (c.members p).service_data with
        | some data =>
            refine @Alive.save R params c _ p data (e.now + params.interval) e h (hc p data hdata) hcalm.up rfl
              ?_ ?_ (by omega) ?_
            · exact fun q hq => Function.update_of_ne hq _ _
            · simp
            · exact fun q other hq hother => h.unique p q data other (Ne.symm hq) ⟨hfires.1, hdata⟩ hother
        | none =>
            refine h.frame fun q data hq => ?_
            have hne : q ≠ p := by
              rintro rfl
              have hnone := hq.2
              simp only [Function.update_self] at hnone
              cases hnone
            simp only [Cluster.Serving, Function.update_of_ne hne] at hq
            exact ⟨hq, congrArg Member.timers (Function.update_of_ne hne _ _), rfl⟩
      · rw [if_neg hfires]
        exact h
  | stop p =>
      refine h.frame fun q data hq => ?_
      have hne : q ≠ p := by
        rintro rfl
        have hstopped := hq.1
        simp only [Function.update_self] at hstopped
        cases hstopped
      simp only [Cluster.Serving, Function.update_of_ne hne] at hq
      exact ⟨hq, congrArg Member.timers (Function.update_of_ne hne _ _), rfl⟩
  | foreign inst value ttl =>
      refine h.frame fun q data hq => ⟨hq, rfl, ?_⟩
      exact (Expiring.set_apply ..).trans (if_neg (hcalm.foreign inst value ttl q data haction hq))

theorem alive_start : R.Alive params {} where
  unique _ _ data _ _ hdata := by cases hdata.2
  renewed _ data hdata := by cases hdata.2

/-- While redis takes all writes and no timer is late by more than what is left of the time to live, every
running process that registered is found. -/
theorem running_found (hordinary : (R.cluster params).Along (fun _ e => R.Ordinary e) {} es)
    (hcalm : (R.cluster params).Along Undisturbed {} es) {now late : ℕ}
    (hlate : ∀ p, ∀ due ∈ (((R.cluster params).run {} es).members p).timers, now ≤ due + late)
    (hless : max 1 params.interval + late < params.ttl) {scan : RegistryScan} {service_name : Option String}
    (hname : Literal (service_name.getD "")) (hscan : ((R.cluster params).run {} es).Scans now scan) :
    ∃ found, R.find scan service_name = some found ∧
      ∀ p data, ((R.cluster params).run {} es).Serving p data → data.Selected service_name →
        data.found ∈ found.instances ∧
          ∀ resource ∈ data.info.endpoints, (found.urlMap (.str resource)).isSome = true := by
  have halive : R.Alive params ((R.cluster params).run {} es) ∧ R.Readable ((R.cluster params).run {} es) :=
    Machine.invariant (I := fun c => R.Alive params c ∧ R.Readable c)
      (fun c e h hP => ⟨h.1.step h.2 hP.1 hP.2, readable_next h.2 hP.1⟩) (hordinary.and hcalm)
      ⟨alive_start, have_start _⟩
  obtain ⟨found, hfound, hinstances, hresources⟩ := registrations_found_iff hordinary hname hscan
  refine ⟨found, hfound, fun p data hserving hselected => ?_⟩
  obtain ⟨due, hdue, iv, value, expiry, hsaved, hstored, hle⟩ := halive.1.renewed p data hserving
  have hlive : now < expiry := by
    have := hlate p due hdue
    omega
  have hregistered : R.registered (((R.cluster params).run {} es).entry now data.inst) = some data.found :=
    registered_of (opened_saved (halive.2 p data hserving.2) hsaved
      (Expiring.get_eq_some.mpr ⟨_, hstored, hlive⟩))
  obtain ⟨last, since, hinst, hlast, hfresh, heq⟩ := (registered_iff hordinary).mp hregistered
  have hlastSelected : last.Selected service_name := by rwa [ServiceData.Selected, hinst]
  refine ⟨(hinstances _).mpr ⟨last, since, hlastSelected, hlast, hfresh, heq⟩, fun resource hresource => ?_⟩
  refine (hresources resource).mpr ⟨last, since, hlastSelected, hlast, hfresh, ?_⟩
  rw [← endpoints_found, ← heq, endpoints_found]
  exact hresource

/-- A process registers, and its first timer is on time. -/
def refreshed : List Event := [eventAt 0 (.register 0 accountsData), eventAt 1 (.update 0 1)]

/-- It is found a minute later. -/
theorem refreshed_found : ∃ found, sample.find (scanAt refreshed 60) none = some found ∧
    accountsData.found ∈ found.instances := by
  have hsample : (sample.cluster shippedParams).Along (fun _ e => OfSample e) {} refreshed :=
    ⟨Or.inl rfl, Or.inr (Or.inr rfl), trivial⟩
  have hcalm : (sample.cluster shippedParams).Along Undisturbed {} refreshed := by
    refine ⟨⟨rfl, ?_, ?_⟩, ⟨rfl, ?_, ?_⟩, trivial⟩
    · intro p data q other _ _ hserving
      cases hserving.2
    · exact fun _ _ _ _ _ haction => absurd haction hsample.1.not_foreign
    · intro p data q other haction
      cases haction
    · exact fun _ _ _ _ _ haction => absurd haction hsample.2.1.not_foreign
  have hlate : ∀ p, ∀ due ∈ (((sample.cluster shippedParams).run {} refreshed).members p).timers,
      60 ≤ due + 29 := by
    intro p due hdue
    cases p with
    | zero =>
        have htimers : (((sample.cluster shippedParams).run {} refreshed).members 0).timers = [31] := rfl
        rw [htimers, List.mem_singleton] at hdue
        omega
    | succ p =>
        have htimers : (((sample.cluster shippedParams).run {} refreshed).members (p + 1)).timers = [] := rfl
        rw [htimers] at hdue
        cases hdue
  obtain ⟨found, hfound, hserving⟩ := running_found (hsample.imp fun _ _ => OfSample.ordinary) hcalm hlate
    (by decide) (by simp [Literal] : Literal ((none : Option String).getD "")) (sample_scans hsample 60)
  exact ⟨found, hfound, (hserving 0 accountsData ⟨rfl, rfl⟩ (Or.inl rfl)).1⟩

end ServiceRegistry

end Apicrud
