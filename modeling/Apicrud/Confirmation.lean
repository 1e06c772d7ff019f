import Apicrud.World

/-! # Confirmation of contacts

`request` puts the contact's id, its current info and a nonce into a signed token, remembers the
token in a session of the contact, and sends it to the contact's address.  `confirm` takes a token
back: the session must hold the same token, and the contact named in it becomes active. -/

namespace Apicrud

open Relational

namespace Confirmation

variable (svc : Service)

/-- A token and what it was made of. -/
structure Issue where
  contact : Row
  nonce : String
  token : String

/-- The token that `request` makes for a contact; `none` where there is no such contact. -/
def issue (db : Database) (now : ℕ) (amb : Ambient) (id : String) : Option Issue :=
  match one (byId db .contact id) with
  | .ok contact =>
      let nonce := if contact "type" = .str "sms" then "1" else amb.nonce
      some ⟨contact, nonce,
        svc.lib.dumps ((contact "id").text ++ ":" ++ (contact "info").text ++ ":" ++ nonce) now⟩
  | .error _ => none

/-- The id of a contact, as the owner of its session. -/
def Issue.owner (i : Issue) : Option String := some (i.contact "id").text

/-- `request`: a session with the token, unless the slot is taken; `none` where it raises. -/
def request (w : World) (amb : Ambient) (id : String) : World × Option Response :=
  match issue svc w.db w.now amb id with
  | some i =>
      ((w.createSession svc i.owner [] none i.nonce svc.conf.tokenTimeout
          [("param", .str i.token)]).1,
        some ⟨Dict.ofList [("token", .str i.token), ("id", .str id), ("uid", i.contact "uid")], 200⟩)
  | none => (w, none)

/-- The checks of `confirm`: the parts of the token, and the contact it names. -/
def check (w : World) (token : String) : Except Response (String × String × String × Row) :=
  match svc.lib.loads token w.now svc.conf.tokenTimeout with
  | none => .error ⟨Dict.ofList [("token", .str token), ("message", .str "bad token")], 403⟩
  | some payload =>
      match Text.split payload ':' with
      | [id, info, nonce] =>
          if SessionManager.get w.redis w.now (some id) nonce "param" = .str token then
            match one (byId w.db .contact id) with
            | .ok contact => .ok (id, info, nonce, contact)
            | .error .noResultFound => .error ⟨Dict.ofList [("token", .str token), ("id", .str id),
                ("message", .str "not found")], 404⟩
            | .error .multipleResultsFound => .error .raised
          else .error (.messageId "invalid token" id 403)
      | _ => .error ⟨Dict.ofList [("token", .str token), ("message", .str "bad token")], 403⟩

/-- The contact becomes active, and its owner loses the referrer. -/
def activate (db : Database) (id : String) (uid : Val) : Db Model :=
  (db.1.modify .contact (hasId id) fun row => Function.update row "status" (.str "active")).modify
    .person (fun person => decide (person "id" = uid))
    fun person => Function.update person "referrer_id" .none

/-- `confirm`: what is committed stays, also when the login session cannot be made. -/
def confirm (w : World) (amb : Ambient) (token : String) (clear : Bool) : World × Response :=
  match check svc w token with
  | .error answer => (w, answer)
  | .ok (id, info, nonce, contact) =>
      match schema.store (activate w.db id (contact "uid")) with
      | .error _ => (w, .raised)
      | .ok db =>
          let w := { w with
            db := db
            redis := if clear then SessionManager.delete w.redis (some id) nonce none else w.redis }
          let name := match ownerOf db contact with
            | some owner => owner "name"
            | none => .none
          let (w, ses) := w.createSession svc (some (contact "uid").text)
            [if clear then "pending" else "person"] none (amb.genId .session) svc.conf.redisTtl
            [("info", .str info), ("type", contact "type"), ("contact_id", .str id), ("name", name)]
          match ses with
          | some ses => (w, ⟨ses, 200⟩)
          | none => (w, .raised)

end Confirmation

end Apicrud
