import Apicrud.Bodies
import Apicrud.ReadThrough

/-! # Usage limits

`Grants` keeps the grants of each user in a cache of the process, next to the defaults for users
without a grant of their own.  The grants of a user are read from the database when somebody first asks for
one of them; `GrantController` takes the entry of a user out by hand.

An event is one call with the time that passed before it, and with what the cache lost on its own: the
entries that lapsed since the event before, and those that an entry made now takes the place of. -/

namespace Apicrud

open Relational

namespace BasicCrud

variable (svc : Service)

/-! ### How far `create` gets -/

/-- The body after `create` has set its owner. -/
def owned (db : Database) (acc : Access) (amb : Ambient) (now : ℕ) (m : Model) (body : Dict)
    (pre : String) : Except Response Dict := do
  let body ← preCheck svc db acc m body
  Checks.ensure ("id" ∉ body) readOnlyId
  let body ← convertExpires svc (withId (amb.genIdWith pre .record) now body)
  pure (withOwner acc m body)

/-- The checks of `create` before the quota: the owner, and the body. -/
def beforeQuota (db : Database) (acc : Access) (amb : Ambient) (now : ℕ) (m : Model) (body : Dict)
    (pre : String) : Except Response (Val × Dict) := do
  let body ← owned svc db acc amb now m body pre
  let allowed ← Checks.orElse (AccessControl.withPermission svc.policies db acc m 'c'
    { ownerUid := body.get "uid", membership := some svc.policies.privateResource,
      id := body.get "event_id" })
    fun _ => .raised
  Checks.ensure (allowed = true) (.message "access denied" 403)
  let uid := body.get "uid"
  let body ← defaultCategory acc amb m body
  pure (uid, withStatus m body)

/-- The checks of `create` from the limits on related records on. -/
def afterQuota (amb : Ambient) (m : Model) (body : Dict) (limits : List (String × Val)) :
    Except Response Prepared := do
  checkLimits limits body m.restRelated
  let (drawn, answer) ← drawKey svc amb m (dropRelated m body)
  Checks.ensure (∀ k ∈ drawn.keys, m.Has k) (.message "invalid keyword argument" 405)
  pure ⟨drawn, relatedOf m body, answer⟩

/-- The quota is checked in the middle of `create`. -/
theorem prepare_eq (db : Database) (acc : Access) (amb : Ambient) (now : ℕ) (m : Model) (body : Dict)
    (pre : String) (limits : List (String × Val)) :
    prepare svc db acc amb now m body pre limits = (do
      let (uid, body) ← beforeQuota svc db acc amb now m body pre
      checkQuota svc db amb m uid
      afterQuota svc amb m body limits) := by
  simp only [prepare, beforeQuota, owned, afterQuota, bind_assoc, pure_bind]

variable {svc} {db : Database} {acc : Access} {amb : Ambient} {now : ℕ} {m : Model} {body : Dict}
  {pre : String}

/-- The owner that `create` leaves in the body. -/
theorem owned_uid {body' : Dict} (hhas : m.Has "uid")
    (h : owned svc db acc amb now m body pre = .ok body') : body'.get "uid" = ownerFor acc body := by
  unfold owned at h
  obtain ⟨b₁, h₁, h⟩ := Checks.bind_eq_ok.mp h
  obtain ⟨_, _, h⟩ := Checks.bind_eq_ok.mp h
  obtain ⟨b₂, h₂, h⟩ := Checks.bind_eq_ok.mp h
  rw [Checks.pure_eq_ok] at h
  subst h
  have hpre : b₁.get "uid" = body.get "uid" := by
    unfold preCheck at h₁
    split_ifs at h₁
    · exact ((createContact_ok h₁).1 "uid" (by decide)).2
    · cases h₁
      rfl
  have huid : b₂.get "uid" = body.get "uid" :=
    (((withId_agree (amb.genIdWith pre .record) now b₁).trans (convertExpires_agree h₂)) "uid"
      (by decide)).2.trans hpre
  unfold withOwner ownerFor
  rw [huid]
  by_cases howner : (body.get "uid").truthy = true
  · rw [if_neg fun h => h.2 howner, if_pos howner, huid]
  · rw [if_pos ⟨hhas, howner⟩, if_neg howner, Dict.get_set, if_pos rfl]

/-- A request that passes the checks gets as far as the owner. -/
theorem prepare_owned {limits : List (String × Val)} {p : Prepared}
    (h : prepare svc db acc amb now m body pre limits = .ok p) :
    ∃ body', owned svc db acc amb now m body pre = .ok body' := by
  rw [prepare_eq] at h
  obtain ⟨r, hbefore, _⟩ := Checks.bind_eq_ok.mp h
  obtain ⟨body', howned, _⟩ := Checks.bind_eq_ok.mp hbefore
  exact ⟨body', howned⟩

/-- The quota is that of the owner. -/
theorem prepare_quota {limits : List (String × Val)} {p : Prepared} (hhas : m.Has "uid")
    (h : prepare svc db acc amb now m body pre limits = .ok p) :
    checkQuota svc db amb m (ownerFor acc body) = .ok () := by
  rw [prepare_eq] at h
  obtain ⟨⟨uid, body₁⟩, hbefore, h⟩ := Checks.bind_eq_ok.mp h
  obtain ⟨_, hquota, _⟩ := Checks.bind_eq_ok.mp h
  obtain ⟨body', howned, hrest⟩ := Checks.bind_eq_ok.mp hbefore
  obtain ⟨_, _, hrest⟩ := Checks.bind_eq_ok.mp hrest
  obtain ⟨_, _, hrest⟩ := Checks.bind_eq_ok.mp hrest
  obtain ⟨body₂, _, hrest⟩ := Checks.bind_eq_ok.mp hrest
  rw [Checks.pure_eq_ok, Prod.mk.injEq] at hrest
  rw [← owned_uid hhas howned, hrest.1]
  exact hquota

/-- The new record belongs to the owner that `create` finds. -/
theorem newRow_uid {limits : List (String × Val)} {p : Prepared} (hhas : m.Has "uid")
    (h : prepare svc db acc amb now m body pre limits = .ok p) :
    newRow m p.body "uid" = ownerFor acc body := by
  have hdefault : (schema.defaults m).lookup "uid" = none := by cases m <;> rfl
  have hfill : newRow m p.body "uid" = p.body.get "uid" := by
    unfold newRow Schema.fill
    split_ifs with hnone
    · rw [hdefault]
      exact hnone.symm
    · rfl
  rw [hfill, (prepare_ok h).uid_eq hhas]

end BasicCrud

namespace Grants

/-- The values of some names. -/
abbrev Limits := Val → Option Val

/-- `Grants._cache` -/
abbrev Cache := ReadThrough Val Limits

/-- What the grants are configured with. -/
structure Setting where
  svc : Service
  /-- `DEFAULT_GRANTS` -/
  defaults : List (String × Val)
  names : defaults.map Prod.fst = svc.conf.defaultGrants
  /-- `int(text, 0)`; `none` where it raises -/
  int0 : String → Option ℤ

/-- The defaults as a `dict`. -/
def Setting.limits (g : Setting) : Limits
  | .str name => g.defaults.lookup name
  | _ => none

/-- `int(ret, 0)`, or `ret` as it is. -/
def Setting.number (g : Setting) : Val → Val
  | .str text =>
      match g.int0 text with
      | some n => .int n
      | none => .str text
  | v => v

/-- What `TTLCache` gives up on its own. -/
structure Turnover where
  /-- the entries that have lapsed -/
  lapsed : List Val
  /-- the entries that a new one pushes out -/
  displaced : Val → List Val

/-- `'defaults'` -/
def defaultsKey : Val := .str "defaults"

/-- `v > utcnow()` -/
def later (now : ℕ) : Val → Bool
  | .time t => decide (now < t)
  | _ => false

/-- `not rec.expires or rec.expires > utcnow()` -/
def Unexpired (now : ℕ) (rec : Row) : Prop :=
  (rec "expires").truthy = false ∨ later now (rec "expires") = true

instance (now : ℕ) (rec : Row) : Decidable (Unexpired now rec) := inferInstanceAs (Decidable (_ ∨ _))

/-- The grants of a user, as they are read from the database. -/
def ofUser (now : ℕ) (db : Database) (uid : Val) : Limits :=
  ((db.rows .grant).filter fun rec =>
      decide (rec "uid" = uid ∧ rec "status" = .str "active")).foldl
    (fun grants rec =>
      if Unexpired now rec then Function.update grants (rec "name") (some (rec "value")) else grants)
    fun _ => none

variable (g : Setting)

/-- `Grants()`: the defaults are put back when they are gone. -/
def construct (t : Turnover) (c : Cache) : Cache :=
  (c.fetch (t.displaced defaultsKey) (fun _ => g.limits) defaultsKey).1

/-- The user whose grants are asked for: the session's when none is given. -/
def userOf (acc : Access) (uid : Val) : Val := if uid.truthy then uid else Val.ofOption acc.uid

/-- The value of a name among the grants of a user, or else among the defaults: these raise `KeyError` when
the entry of the user has just pushed them out. -/
def valueOf (c : Cache) (grants : Limits) (name : String) : Except Exc Val :=
  match grants (.str name) with
  | some value => .ok (g.number value)
  | none =>
      match c defaultsKey with
      | some defaults => .ok (g.number ((defaults (.str name)).getD .none))
      | none => .error .other

/-- `get` -/
def get (t : Turnover) (w : World) (acc : Access) (c : Cache) (name : String) (uid : Val) :
    Cache × Except Exc Val :=
  let (c, grants) := (construct g t c).fetch (t.displaced (userOf acc uid)) (ofUser w.now w.db)
    (userOf acc uid)
  (c, valueOf g c grants name)

/-- `uncache` -/
def uncache (t : Turnover) (c : Cache) (uid : Val) : Cache := (construct g t c).pop uid

end Grants

namespace GrantController

open Grants

variable (g : Setting) (t : Turnover) (w : World) (req : Request) (c : Cache)

/-- What a request takes from outside, with the quota that the cache holds. -/
def granted (amb : Ambient) (limit : Val) : Ambient := { amb with grants := fun _ => limit }

/-- `Grants().get(grant, uid=uid)` inside of `create`, when a request gets that far. -/
def quota (body : Dict) : Cache × Except Exc Val :=
  match BasicCrud.beforeQuota g.svc w.db (req.access g.svc w) req.amb w.now .grant body "x-" with
  | .error _ => (c, .ok .none)
  | .ok (uid, _) =>
      get g t w (req.access g.svc w) c (BasicCrud.grantName Model.grant.resource) uid

/-- `BasicCRUD.create` -/
def insert (body : Dict) : Cache × Database × Response :=
  match quota g t w req c body with
  | (c, .error _) => (c, w.db, .raised)
  | (c, .ok limit) => (c, BasicCrud.create g.svc w.db (req.access g.svc w) (granted req.amb limit) w.now
      .grant body "x-" [])

/-- `body.get('uid')` after `create`, which sets it in the caller's body. -/
def sentUid (body : Dict) : Val :=
  match BasicCrud.owned g.svc w.db (req.access g.svc w) req.amb w.now .grant body "x-" with
  | .error _ => body.get "uid"
  | .ok body => body.get "uid"

/-- `create`: the entry of the owner is taken out after the write, unless that raised. -/
def create (body : Dict) : Cache × Database × Response :=
  let body := Controllers.createBody req.amb (req.access g.svc w) .grant body
  let (c, db, answer) := insert g t w req c body
  (if answer = .raised then c else uncache g t c (sentUid g w req body), db, answer)

/-- `update`: the entry of the user in the body is taken out before the write. -/
def update (id : String) (body : Dict) : Cache × Database × Response :=
  let c := uncache g t c (body.get "uid")
  if Text.Contains id ":" then insert g t w req c (Controllers.hybridBody req.amb id body)
  else (c, BasicCrud.update g.svc w.db (req.access g.svc w) w.now .grant id
    (Controllers.updateBody req.amb .grant body) 'u' [])

end GrantController

/-! ### The process as a machine -/

namespace Grants

/-- What is called. -/
inductive Call where
  | get (name : String) (uid : Val)
  | create (body : Dict)
  | update (id : String) (body : Dict)
  | delete (ids : List String) (force : Bool)
  /-- `Trashcan.update` -/
  | restore (id : String) (body : Dict)
  /-- `Trashcan.delete` -/
  | purge (ids : List String)

/-- A call, the time that passed before it, and what the cache gives up meanwhile. -/
structure Event where
  elapsed : ℕ
  req : Request
  turnover : Turnover
  call : Call

/-- What a call gives back. -/
inductive Answer where
  | value (v : Except Exc Val)
  | response (r : Response)
deriving DecidableEq

/-- The state of the service with the cache of one process. -/
structure Process where
  world : World
  cache : Cache

namespace Process

/-- The state at the time of an event. -/
def worldAt (s : Process) (e : Event) : World := { s.world with now := s.world.now + e.elapsed }

/-- The cache at the time of an event. -/
def cacheAt (s : Process) (e : Event) : Cache := s.cache.drop e.turnover.lapsed

/-- What a write leaves. -/
def written (w : World) (r : Cache × Database × Response) : Process × Answer :=
  (⟨{ w with db := r.2.1 }, r.1⟩, .response r.2.2)

variable (g : Setting)

/-- One call is served. -/
def step (s : Process) (e : Event) : Process × Answer :=
  let w := s.worldAt e
  let c := s.cacheAt e
  match e.call with
  | .get name uid =>
      let (c, v) := Grants.get g e.turnover w (e.req.access g.svc w) c name uid
      (⟨w, c⟩, .value v)
  | .create body => written w (GrantController.create g e.turnover w e.req c body)
  | .update id body => written w (GrantController.update g e.turnover w e.req c id body)
  | .delete ids force =>
      written w (c, BasicCrud.delete g.svc w.db (e.req.access g.svc w) .grant ids force)
  | .restore id body => written w (c, Trashcan.update g.svc w.db (e.req.access g.svc w) id body)
  | .purge ids => written w (c, Trashcan.delete g.svc w.db (e.req.access g.svc w) ids)

/-- The process as a machine. -/
def machine : Machine Process Event Answer := ⟨step g⟩

end Process

end Grants

end Apicrud
