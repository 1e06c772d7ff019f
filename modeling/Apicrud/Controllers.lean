import Apicrud.ApiKey
import Apicrud.Machine

/-! # Controllers and the service as a machine

The controllers of the resources, each a few lines around the methods of `BasicCRUD`, and
`handle`, which serves one call.  The service is then a machine: an event is a call with its
headers, what it takes from outside, and the time that has passed since the event before. -/

namespace Apicrud

open Relational

/-- The endpoints whose handlers write. -/
inductive Call where
  /-- the security scheme `basic` -/
  | authBasic (username password : String)
  /-- the security scheme `apikey`, in front of an endpoint -/
  | authApikey (endpoint apikey : String) (required : List String)
  | login (username : String) (password method otp : Val)
  | logout
  | callback (method : String)
  | totpGenerate
  | totpRegister (body : Dict)
  | changePassword (uid : String) (body : Dict)
  | post (m : Model) (body : Dict)
  | put (m : Model) (id : String) (body : Dict)
  | delete (m : Model) (ids : List String) (force : Bool)
  | trashUpdate (id : String) (body : Dict)
  | trashDelete (ids : List String)
  | confirmationGet (id : String)
  | confirm (token : String)

namespace Controllers

variable (svc : Service)

/-- The models with endpoints of their own. -/
def routed : List Model :=
  [.account, .apikey, .category, .contact, .credential, .grant, .list, .location, .message,
    .person, .profile, .scope, .settings, .tz]

/-- The answer to a path that is not routed. -/
def notFound : Response := .message "Not Found" 404

/-! ### Bodies and limits -/

/-- `LocationController`: the geocoder's coordinates go with a city and a state. -/
def geocoded (amb : Ambient) (body : Dict) : Dict :=
  if (body.get "city").truthy ∧ (body.get "state").truthy then
    ((body.set "geolat" amb.geocode.1).set "geolong" amb.geocode.2.1).set "neighborhood"
      amb.geocode.2.2
  else body

/-- The body as the `create` of each controller passes it on. -/
def createBody (amb : Ambient) (acc : Access) (m : Model) (body : Dict) : Dict :=
  match m with
  | .grant => if (body.get "expires").truthy then body else body.pop "expires"
  | .location => geocoded amb body
  | .message => body.set "sender_id" (Val.ofOption acc.uid)
  | .person => body.set "referrer_id" (Val.ofOption acc.uid)
  | _ => body

/-- The body as the `update` of each controller passes it on. -/
def updateBody (amb : Ambient) (m : Model) (body : Dict) : Dict :=
  match m with
  | .apikey => body.pop "expires"
  | .grant => if (body.get "expires").truthy then body else body.set "expires" .none
  | .location => geocoded amb body
  | _ => body

/-- `limit_related` -/
def limits (amb : Ambient) (m : Model) : List (String × Val) :=
  match m with
  | .apikey => [("scopes", .int svc.conf.scopesMax)]
  | .list => [("members", amb.grants "list_size")]
  | _ => []

/-- `id_prefix` -/
def idPrefix (m : Model) : String := if m = .person then "u-" else "x-"

/-! ### POST -/

/-- A confirmation is requested after a contact was written. -/
def confirmed (w : World) (amb : Ambient) (id : String) (answer : Response) : World × Response :=
  match Confirmation.request svc w amb id with
  | (w, some sent) => (w, { answer with body := sent.body ∪ answer.body })
  | (w, none) => (w, .raised)

/-- The contact of a new person. -/
def personContact (amb : Ambient) (uid : String) (identity : Val) : Row :=
  record .contact [("id", .str (amb.genIdWith "x-" .contact)), ("uid", .str uid),
    ("type", .str "email"), ("info", identity), ("status", .str "unconfirmed")]

/-- `BasicCRUD.create` as the controller of the model calls it. -/
def created (w : World) (req : Request) (m : Model) (body : Dict) : Database × Response :=
  let acc := req.access svc w
  BasicCrud.create svc w.db acc req.amb w.now m (createBody req.amb acc m body) (idPrefix m)
    (limits svc req.amb m)

/-- What the controllers do after a successful `create`. -/
def afterCreate (w : World) (amb : Ambient) (m : Model) (body : Dict) (answer : Response) :
    World × Response :=
  let id := amb.genIdWith (idPrefix m) .record
  match m with
  | .contact => confirmed svc w amb id answer
  | .message =>
      if (body.get "list_id").truthy then
        match schema.store (w.db.1.insert .listMessage (record .listMessage
            [("list_id", body.get "list_id"), ("message_id", .str id)])) with
        | .ok db => ({ w with db := db }, answer)
        | .error _ => (w, .raised)
      else (w, answer)
  | .person =>
      match schema.store (w.db.1.insert .contact (personContact amb id (body.get "identity"))) with
      | .ok db => ({ w with db := db }, ⟨Dict.ofList [("id", .str id)], 201⟩)
      | .error _ => (w, .message "duplicate or other conflict" 405)
  | _ => (w, answer)

/-- `AccountController.register` -/
def register (w : World) (req : Request) (body : Dict) : World × Response :=
  if (body.get "forgot_password").truthy then
    LocalUser.forgotPassword svc w req.amb (body.get "identity") (body.get "username")
  else
    let (w, answer) := SessionAuth.register svc w req.amb (body.get "identity")
      (body.get "username") (body.get "name") true .none
    if 201 < answer.status then (w, answer)
    else SessionAuth.accountAdd w req.amb (body.get "username") (answer.body.get "uid")

/-- `POST /<resource>` -/
def post (w : World) (req : Request) (m : Model) (body : Dict) : World × Response :=
  if m = .account then register svc w req body
  else if m ∉ routed ∨ m = .settings then (w, notFound)
  else if m = .message ∧ req.amb.withinDailyTotal = false then
    (w, .message "daily limit exceeded" 405)
  else
    let (db, answer) := created svc w req m body
    let w := { w with db := db }
    if answer.status = 201 then afterCreate svc w req.amb m body answer else (w, answer)

/-! ### PUT and DELETE -/

/-- A grant's id may name the owner and the grant: then the grant is created. -/
def hybridBody (amb : Ambient) (id : String) (body : Dict) : Dict :=
  ((updateBody amb .grant body).set "uid" (.str ((Text.split id ':').headD ""))).pop "id"

/-- `PUT /<resource>/{id}` -/
def put (w : World) (req : Request) (m : Model) (id : String) (body : Dict) : World × Response :=
  let acc := req.access svc w
  if m ∉ routed then (w, notFound)
  else if m = .contact then
    match BasicCrud.updateContact svc w.db acc w.now id body with
    | .ok db => confirmed svc { w with db := db } req.amb id (.messageId "updated" id 200)
    | .error answer => (w, answer)
  else if m = .grant ∧ Text.Contains id ":" then
    let (db, answer) := BasicCrud.create svc w.db acc req.amb w.now .grant
      (hybridBody req.amb id body) "x-" []
    ({ w with db := db }, answer)
  else
    let (db, answer) := BasicCrud.update svc w.db acc w.now m id (updateBody req.amb m body) 'u'
      (limits svc req.amb m)
    ({ w with db := db }, answer)

/-- `DELETE /<resource>/{ids}` -/
def delete (w : World) (req : Request) (m : Model) (ids : List String) (force : Bool) :
    World × Response :=
  if m ∉ routed then (w, notFound)
  else
    let (db, answer) := BasicCrud.delete svc w.db (req.access svc w) m ids force
    ({ w with db := db }, answer)

end Controllers

/-! ### The service -/

variable (svc : Service)

/-- An identity as an answer. -/
def identified (uid : Option Val) : Response :=
  match uid with
  | some uid => ⟨Dict.ofList [("uid", uid)], 200⟩
  | none => .message "No authorization token provided" 401

/-- One call is served. -/
def handle (w : World) (req : Request) : Call → World × Response
  | .authBasic username password =>
      let (w, uid) := basic w username password
      (w, identified (uid.map .str))
  | .authApikey endpoint apikey required =>
      match ApiKey.auth svc w req.headers endpoint apikey required with
      | (w, .ok uid) => (w, identified uid)
      | (w, .error answer) => (w, answer)
  | .login username password method otp =>
      SessionAuth.accountLogin svc w req username password method otp
  | .logout =>
      match req.headers.authorization with
      | some (username, password) =>
          ({ w with redis := SessionManager.delete w.redis (some username) password none },
            .message "logged out" 200)
      | none => (w, .message "logged out" 200)
  | .callback method => OAuth2.callback svc w req method
  | .totpGenerate => AuthTotp.generate svc w req
  | .totpRegister body => AuthTotp.register svc w req body
  | .changePassword uid body =>
      LocalUser.changePassword svc w req.amb uid (body.get "new_password")
        (body.get "reset_token") (body.get "old_password") (body.get "verify_password")
  | .post m body => Controllers.post svc w req m body
  | .put m id body => Controllers.put svc w req m id body
  | .delete m ids force => Controllers.delete svc w req m ids force
  | .trashUpdate id body =>
      let (db, answer) := Trashcan.update svc w.db (req.access svc w) id body
      ({ w with db := db }, answer)
  | .trashDelete ids =>
      let (db, answer) := Trashcan.delete svc w.db (req.access svc w) ids
      ({ w with db := db }, answer)
  | .confirmationGet id =>
      match Confirmation.request svc w req.amb id with
      | (w, some answer) => (w, answer)
      | (w, none) => (w, .raised)
  | .confirm token => Confirmation.confirm svc w req.amb token false

/-- A call with the time that passed before it. -/
structure Event where
  elapsed : ℕ
  req : Request
  call : Call

/-- The state at the time of an event. -/
def World.at (w : World) (e : Event) : World := { w with now := w.now + e.elapsed }

/-- The service as a machine. -/
def machine : Machine World Event Response where
  step w e := handle svc (w.at e) e.req e.call

end Apicrud
