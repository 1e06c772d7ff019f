import Apicrud.Login

/-! # Local users and the trashcan

Passwords are changed with the old one or with a token that a confirmation request sent to a
contact.  The trashcan restores and removes records of any model by their composite ids. -/

namespace Apicrud

open Relational

namespace LocalUser

variable (svc : Service)

/-- `string.punctuation` -/
def punctuation : List Char := "!\"#$%&'()*+,-./:;<=>?@[\\]^_`\x7b|\x7d~".toList

/-- `_password_weak`: two of the four kinds of characters are missing. -/
def passwordWeak (password : String) : Bool :=
  let cs := password.toList
  1 < ([!cs.any Char.isLower, !cs.any Char.isUpper, !cs.any Char.isDigit,
    !cs.any punctuation.contains].filter (· = true)).length

/-- The account of a user whose password may be changed. -/
def accountOf (db : Database) (uid : String) : Except Response Row :=
  match lookup db .account [("uid", .str uid), ("status", .str "active")] with
  | .ok account => .ok account
  | .error .noResultFound =>
      .error ⟨Dict.ofList [("uid", .str uid), ("message", .str "account not found")], 404⟩
  | .error .multipleResultsFound => .error .raised

/-- The checks of `change_password` before the old password or the token. -/
def checkNew (db : Database) (uid : String) (new verify : Val) : Except Response Row := do
  Checks.ensure (new.truthy ∧ new = verify) (.message "passwords do not match" 405)
  let account ← accountOf db uid
  Checks.ensure (passwordWeak new.text = false) (.message "rejected weak password" 405)
  pure account

/-- The new password is stored. -/
def storePassword (w : World) (amb : Ambient) (uid : String) (account : Row) (new : Val) :
    World × Response :=
  match schema.store (w.db.1.modify .account (fun row => decide (row "id" = account "id"))
      fun row => Row.write row (Dict.ofList
        [("password", .str (svc.lib.cryptHash amb.salt new.text)),
          ("password_must_change", .bool false)])) with
  | .ok db =>
      ({ w with db := db }, ⟨Dict.ofList [("id", account "id"), ("uid", .str uid),
        ("username", account "name")], 200⟩)
  | .error _ => (w, .raised)

/-- `change_password` -/
def changePassword (w : World) (amb : Ambient) (uid : String) (new resetToken old verify : Val) :
    World × Response :=
  match checkNew w.db uid new verify with
  | .error answer => (w, answer)
  | .ok account =>
      if old.truthy then
        if account "password" = .str "" then (w, .raised)
        else if svc.lib.cryptVerify old.text (account "password").text = true then
          storePassword svc w amb uid account new
        else (w, .message "invalid credential" 403)
      else
        match resetToken with
        | .str token =>
            let (w, answer) := Confirmation.confirm svc w amb token true
            if answer.status = 200 then storePassword svc w amb uid account new
            else if answer = .raised then (w, .raised)
            else (w, .message "invalid token" 405)
        | _ => (w, .message "invalid token" 405)

/-- The accounts that `forgot_password` finds. -/
def forgotten (db : Database) (identity username : Val) : List Row :=
  accountsOf db fun account owner =>
    decide (account "is_admin" = .bool false ∧ account "status" = .str "active" ∧
      ((username ≠ .none ∧ account "name" = username) ∨
        (identity ≠ .none ∧ owner "identity" = identity)))

/-- `forgot_password` -/
def forgotPassword (w : World) (amb : Ambient) (identity username : Val) : World × Response :=
  let notFound : Response := .message "username or email not found" 404
  match one (forgotten w.db (svc.lib.identityNormalize identity) username) with
  | .error .noResultFound => (w, notFound)
  | .error .multipleResultsFound => (w, .raised)
  | .ok account =>
      match SessionAuth.primaryContact w.db account with
      | .error .noResultFound => (w, notFound)
      | .error .multipleResultsFound => (w, .raised)
      | .ok contact =>
          match Confirmation.request svc w amb (contact "id").text with
          | (w, some answer) => (w, answer)
          | (w, none) => (w, .raised)

end LocalUser

namespace Trashcan

variable (svc : Service)

/-- `getattr(self.models, resource.capitalize())` -/
def modelOf (resource : String) : Option Model := Model.named (Text.capitalize resource)

/-- `update`: the status is taken from the body. -/
def update (db : Database) (acc : Access) (id : String) (body : Dict) : Database × Response :=
  match Text.splitFirst id '-' with
  | none => (db, .raised)
  | some (resource, recordId) =>
      match modelOf resource with
      | none => (db, .raised)
      | some m =>
          match AccessControl.withPermission svc.policies db acc m 'd'
              { query := some (byId db m recordId) } with
          | .error _ => (db, dbAbort)
          | .ok false => (db, .messageId "access denied" id 403)
          | .ok true =>
              if byId db m recordId = [] ∨ ¬ m.Has "status" then (db, dbAbort)
              else
                match BasicCrud.setStatus db m recordId (body.get "status") with
                | .error _ => (db, dbAbort)
                -- the log line after the commit takes `id` twice when the body has another one
                | .ok db' =>
                    if "id" ∈ body ∧ body.get "id" ≠ .str recordId then (db', .raised)
                    else (db', .messageId "updated" id 200)

/-- One composite id of a delete request. -/
def deleteOne (acc : Access) (st : Database × ℕ) (id : String) : Except Response (Database × ℕ) :=
  match Text.splitFirst id '-' with
  | none => .error .raised
  | some (resource, recordId) =>
      match if resource = "apikey" then some Model.apikey else modelOf resource with
      | none => .error .raised
      | some m => BasicCrud.deleteOne svc acc m true id recordId st

/-- `delete` -/
def delete (db : Database) (acc : Access) (ids : List String) : Database × Response :=
  match ids.foldlM (deleteOne svc acc) (db, 0) with
  | .error answer => (db, answer)
  | .ok (db, errors) => (db, BasicCrud.noContent errors)

end Trashcan

end Apicrud
