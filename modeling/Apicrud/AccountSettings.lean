import Apicrud.Find
import Apicrud.Grants

/-! # The settings of an account

`AccountSettings` is one object for the whole process, with a cache of settings by account.  It copies the
record of an account on first use, together with the names of its administrator and time zone.  An unknown
account gets the settings of the administrator, found by the record `global`.

`SettingsController.update` writes a record, and then takes the entry of the account `admin` out. -/

namespace Apicrud

open Relational
open Grants (Turnover)

namespace AccountSettings

/-- What the settings are read with. -/
structure Setting where
  svc : Service
  /-- `APPROVED_SENDERS` -/
  approvedSenders : String

/-- What is cached for an account. -/
structure Entry where
  uid : Val
  settings : Dict

/-- `AccountSettings._cache` -/
abbrev Cache := ReadThrough Val Entry

/-- The attributes that `__init__` sets on the object. -/
structure Attributes where
  get : Dict
  accountId : Val
  uid : Val

/-- `AccountSettings._singleton`: its attributes are missing until one call of `__init__` comes to its
end. -/
structure Singleton where
  cache : Cache
  /-- `_admin_id` -/
  adminId : Val
  attributes : Option Attributes

/-- Nothing was asked for yet. -/
def Singleton.fresh : Singleton := ⟨ReadThrough.empty, .none, none⟩

/-! ### What the database gives -/

/-- The record that a relationship leads to. -/
def related (db : Database) (m : Model) (id : Val) : Option Row :=
  (db.rows m).find? fun row => decide (row "id" = id)

/-- `category_id`: the user's own category by the name `default`, or else that of the settings. -/
def categoryId (db : Database) (uid : Val) (record : Row) : Except Exc Val :=
  match one (filterBy [("uid", uid), ("name", .str "default")] (db.rows .category)) with
  | .ok category => .ok (category "id")
  | .error .noResultFound => .ok (record "default_cat_id")
  | .error .multipleResultsFound => .error .other

/-- The settings as they are first cached. -/
def settingsOf (db : Database) (uid : Val) (record : Row) : Except Exc Dict := do
  let categoryId ← categoryId db uid record
  match related db .person (record "administrator_id"), related db .tz (record "tz_id") with
  | some administrator, some tz =>
      pure (((((BasicCrud.asDict db .settings record).set "category_id" categoryId).set
        "sender_name" (administrator "name")).set "sender_email" (administrator "identity")).set
        "tz" (tz "name"))
  | _, _ => .error .other

/-- `senders.members` -/
def members : Related := ⟨"members", .person, .listMember, "list_id", "uid"⟩

/-- `approved_senders`: whom the administrator has on a list. -/
def approvedSenders (g : Setting) (db : Database) (record : Row) : Except Exc Val :=
  match one (filterBy [("name", .str g.approvedSenders), ("uid", record "administrator_id")]
      (db.rows .list)) with
  | .ok senders => .ok (.list ((BasicCrud.currentRelated db members (senders "id").text).filterMap
      fun uid => (related db .person uid).map fun member => (member "identity").text))
  | .error .noResultFound => .ok (.list [])
  | .error .multipleResultsFound => .error .other

/-- The account that is asked for, by its id or by its user. -/
def accountOf (db : Database) (accountId uid : Val) : Except QueryError Row :=
  if accountId.truthy then one (filterBy [("id", accountId)] (db.rows .account))
  else one (filterBy [("uid", uid)] (db.rows .account))

/-- The settings `global`, and the account of their administrator. -/
def globalOf (db : Database) : Except QueryError (Row × Row) := do
  let record ← one (filterBy [("name", .str "global")] (db.rows .settings))
  let account ← one (filterBy [("uid", record "administrator_id")] (db.rows .account))
  pure (record, account)

/-! ### `__init__` -/

variable (g : Setting) (t : Turnover)

/-- The end of `__init__`: the attributes are set from the cache. -/
def attach (s : Singleton) (accountId : Val) : Singleton × Except Exc Unit :=
  match s.cache accountId with
  | some entry => ({ s with attributes := some ⟨entry.settings, accountId, entry.uid⟩ }, .ok ())
  | none => (s, .error .other)

/-- The record is copied into the cache; the approved senders are added to the copy. -/
def load (db : Database) (s : Singleton) (accountId uid : Val) (record : Row) :
    Singleton × Except Exc Unit :=
  match settingsOf db uid record with
  | .error e => (s, .error e)
  | .ok settings =>
      let cache := (s.cache.drop (t.displaced accountId)).put accountId ⟨uid, settings⟩
      match approvedSenders g db record with
      | .error e => ({ s with cache := cache }, .error e)
      | .ok senders =>
          attach { s with cache := cache.put accountId ⟨uid, settings.set "approved_senders" senders⟩ }
            accountId

/-- `__init__`, with the call it makes for an unknown account when it knows the administrator's.  Where the
administrator is not found, this is logged and the object stays as it is. -/
def initWith (again : Singleton → Singleton × Except Exc Unit) (session : Option Database)
    (s : Singleton) (accountId uid : Val) : Singleton × Except Exc Unit :=
  if (s.cache accountId).isSome then attach s accountId
  else
    match session with
    | none => (s, .error .other)
    | some db =>
        match accountOf db accountId uid with
        | .ok account =>
            match related db .settings (account "settings_id") with
            | some record =>
                if accountId.truthy then load g t db s accountId (account "uid") record
                else load g t db s (account "id") uid record
            | none => (s, .error .other)
        | .error .multipleResultsFound => (s, .error .other)
        | .error .noResultFound =>
            if s.adminId.truthy then again s
            else
              match globalOf db with
              | .error _ => (s, .ok ())
              | .ok (record, account) =>
                  load g t db { s with adminId := account "id" } (account "id")
                    (record "administrator_id") record

/-- `__init__`.  If the account of the administrator is gone, the call is the same again, until Python gives
up. -/
def init (session : Option Database) (s : Singleton) (accountId uid : Val) :
    Singleton × Except Exc Unit :=
  initWith g t (fun s => initWith g t (fun s => (s, .error .other)) session s s.adminId .none)
    session s accountId uid

/-- `AccountSettings(account_id, db_session=session, uid=uid).get` -/
def get (session : Option Database) (s : Singleton) (accountId uid : Val) :
    Singleton × Except Exc Dict :=
  match init g t session s accountId uid with
  | (s, .error e) => (s, .error e)
  | (s, .ok ()) =>
      match s.attributes with
      | some attributes => (s, .ok attributes.get)
      | none => (s, .error .other)

/-- `AccountSettings(account_id).uncache()` -/
def uncache (s : Singleton) (accountId : Val) : Singleton × Except Exc Unit :=
  match init g t none s accountId .none with
  | (s, .error e) => (s, .error e)
  | (s, .ok ()) =>
      match s.attributes with
      | some attributes => ({ s with cache := s.cache.pop attributes.accountId }, .ok ())
      | none => (s, .error .other)

end AccountSettings

namespace SettingsController

open AccountSettings

/-- The account `admin`, or nothing where it is missing. -/
def adminAccount (db : Database) : Except Exc Val :=
  match one (filterBy [("name", .str "admin")] (db.rows .account)) with
  | .ok account => .ok (account "id")
  | .error .noResultFound => .ok .none
  | .error .multipleResultsFound => .error .other

/-- `update` -/
def update (g : Setting) (t : Turnover) (w : World) (req : Request) (s : Singleton) (id : String)
    (body : Dict) : Singleton × Database × Response :=
  let (db, answer) := BasicCrud.update g.svc w.db (req.access g.svc w) w.now .settings id body 'u' []
  if answer.status = 200 then
    match adminAccount db with
    | .error _ => (s, db, .raised)
    | .ok accountId =>
        match uncache g t s accountId with
        | (s, .error _) => (s, db, .raised)
        | (s, .ok ()) => (s, db, answer)
  else (s, db, answer)

end SettingsController

/-! ### The process as a machine -/

namespace AccountSettings

/-- What is called: a construction is given a database session, or none. -/
inductive Call where
  | construct (accountId : Val) (session : Bool) (uid : Val)
  | update (id : String) (body : Dict)

/-- A call, the time that passed before it, and what the cache gives up meanwhile. -/
structure Event where
  elapsed : ℕ
  req : Request
  turnover : Turnover
  call : Call

/-- What a call gives back. -/
inductive Answer where
  | settings (v : Except Exc Dict)
  | response (r : Response)

/-- The state of the service with the settings object of one process. -/
structure Process where
  world : World
  singleton : Singleton

namespace Process

/-- The state of the service at the time of an event. -/
def worldAt (s : Process) (e : Event) : World := { s.world with now := s.world.now + e.elapsed }

/-- The settings object at the time of an event. -/
def singletonAt (s : Process) (e : Event) : Singleton :=
  { s.singleton with cache := s.singleton.cache.drop e.turnover.lapsed }

/-- One call is served. -/
def step (g : Setting) (s : Process) (e : Event) : Process × Answer :=
  let w := s.worldAt e
  match e.call with
  | .construct accountId session uid =>
      let r := get g e.turnover (if session then some w.db else none) (s.singletonAt e) accountId uid
      (⟨w, r.1⟩, .settings r.2)
  | .update id body =>
      let r := SettingsController.update g e.turnover w e.req (s.singletonAt e) id body
      (⟨{ w with db := r.2.1 }, r.1⟩, .response r.2.2)

/-- The process as a machine. -/
def machine (g : Setting) : Machine Process Event Answer := ⟨step g⟩

end Process

end AccountSettings

end Apicrud
