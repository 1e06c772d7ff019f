import Apicrud.BasicCrud

/-! # The state of the service

What outlives a request: the committed database, the redis store with its sessions and its marks
of spent one-time passwords, and the process-wide cache of verified API keys. -/

namespace Apicrud

open Relational

/-- An entry of `APIKEYS`. -/
structure CachedKey where
  accountId : Val
  expires : ℕ
  identity : Val
  roles : List String
  scopes : List Val
  totp : Bool
  uid : Val

/-- The state between two requests. -/
structure World where
  db : Database
  redis : Redis
  /-- The keys `totp:<account>:<otp>`. -/
  otps : Expiring (String × String) Unit
  apikeys : String → Option CachedKey
  now : ℕ

/-- What a handler sees of a request besides its parameters. -/
structure Request where
  headers : Headers
  amb : Ambient

/-- `AccessControl()` -/
def Request.access (req : Request) (svc : Service) (w : World) : Access :=
  accessControl svc.lib w.redis w.now req.headers

/-- `account.totp` -/
def hasTotp (account : Row) : Bool := (account "totp_secret").truthy

/-- `g.session.create`, in the world. -/
def World.createSession (w : World) (svc : Service) (uid : Option String) (roles : List String)
    (keyId : Option String) (token : String) (ttl : ℕ) (kwargs : List (String × Val)) :
    World × Option Session :=
  let (redis, ses) :=
    SessionManager.create svc.conf w.redis w.now uid roles keyId token ttl kwargs
  ({ w with redis := redis }, ses)

/-- A session is made in a free slot. -/
theorem World.createSession_isSome {w : World} {svc : Service} {uid : Option String}
    {keyId : Option String} {token : String}
    (h : w.redis.get w.now (SessionManager.key uid token keyId) = none) (roles : List String)
    (ttl : ℕ) (kwargs : List (String × Val)) :
    (w.createSession svc uid roles keyId token ttl kwargs).2.isSome := by
  unfold World.createSession SessionManager.create
  simp only [Expiring.setNX_of_none h, Option.isSome_some]

end Apicrud
