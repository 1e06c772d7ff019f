import Apicrud.Rbac

/-! # Create, update and delete

The controller methods behind the endpoints.  Each is a sequence of checks, which answers early,
and then writes that are committed.  What was committed before a later failure stays: the result
is the committed database and the answer, and work that is not committed when the request ends
is dropped.

A body is checked in the order of the code, since a key that one check adds is seen by the next. -/

namespace Apicrud

open Relational

/-- `Constants.REGEX_EMAIL` -/
def regexEmail : String := "[a-z0-9._%+-]+@[a-z0-9.-]+\\.[a-z]{2,}"

/-- `Constants.REGEX_PHONE` -/
def regexPhone : String := "[0-9()+ -]{5,20}"

/-- The row with the given `id`, as a condition. -/
def hasId (id : String) (row : Row) : Bool := decide (row "id" = .str id)

/-- `g.db.query(model).filter_by(id=id)` -/
def byId (db : Database) (m : Model) (id : String) : List Row := (db.rows m).filter (hasId id)

theorem of_one_byId {db : Database} {m : Model} {id : String} {row : Row}
    (h : one (byId db m id) = .ok row) : row ∈ db.rows m ∧ row "id" = .str id := by
  have hmem : row ∈ byId db m id := by
    rw [one_eq_ok.mp h]
    exact List.mem_singleton_self row
  obtain ⟨hrow, hid⟩ := List.mem_filter.mp hmem
  exact ⟨hrow, by simpa [hasId] using hid⟩

/-- A row is the only one with its id. -/
theorem byId_eq {db : Database} {m : Model} {id : String} {row : Row} (hrow : row ∈ db.rows m)
    (hkey : ["id"] ∈ schema.unique m) (hid : row "id" = .str id) : byId db m id = [row] := by
  refine db.filter_key hkey (fun r _ r' _ h h' => ⟨fun c hc => ?_, fun c hc => ?_⟩) hrow
    (decide_eq_true hid)
  · rw [List.mem_singleton.mp hc, of_decide_eq_true h]
    intro hnone
    cases hnone
  · rw [List.mem_singleton.mp hc]
    exact (of_decide_eq_true h).trans (of_decide_eq_true h').symm

theorem one_byId {db : Database} {m : Model} {id : String} {row : Row} (hrow : row ∈ db.rows m)
    (hkey : ["id"] ∈ schema.unique m) (hid : row "id" = .str id) : one (byId db m id) = .ok row :=
  one_eq_ok.mpr (byId_eq hrow hkey hid)

/-- The answer where the database refuses a write. -/
def conflict (error : StoreError) : Response :=
  match error with
  | .integrity => .message "duplicate or other conflict" 405
  | .statement => dbAbort

namespace BasicCrud

variable (svc : Service)

/-! ### Checks on the body -/

/-- `dict(message='id is a read-only property', title='Bad Request'), 405` -/
def readOnlyId : Response :=
  ⟨Dict.ofList [("message", .str "id is a read-only property"), ("title", .str "Bad Request")], 405⟩

/-- The `expires` date of a body, converted. -/
def convertExpires (body : Dict) : Except Response Dict :=
  if (body.get "expires").truthy then
    match body.get "expires" with
    | .str date =>
        match svc.lib.fromdate date with
        | some t => .ok (body.set "expires" (.time t))
        | none => .error (.message "invalid date" 405)
    | _ => .error (.message "invalid date" 405)
  else .ok body

/-- The checks on number or address that contact create and update share. -/
def contactInfo (body : Dict) : Except Response Dict :=
  if body.get "type" = .str "sms" then
    if body.get "carrier" = .none then .error (.message "carrier required for sms" 405)
    else
      match body.get "info" with
      | .str info =>
          if Regex.isMatch id regexPhone info = some true then
            .ok (body.set "info" (.str (Text.dropChars info ['-', ' ', '(', ')'])))
          else .error (.message "invalid mobile number" 405)
      | _ => .error .raised
  else if body.get "type" = .str "email" then
    match body.get "info" with
    | .str info =>
        match svc.lib.identityNormalize (.str (Text.strip info)) with
        | .str info =>
            if Regex.isMatch id regexEmail info = some true then .ok (body.set "info" (.str info))
            else .error (.message "invalid email address" 405)
        | _ => .error .raised
    | _ => .error .raised
  else .ok body

/-- The rank of a new contact, after those of its owner and type. -/
def withRank (db : Database) (body : Dict) : Dict :=
  if (body.get "rank").truthy then body
  else
    body.set "rank" (.int (((db.rows .contact).filter fun r =>
      decide (r "uid" = body.get "uid" ∧ r "type" = body.get "type")).length + 1))

/-- Only an administrator makes a contact for someone else. -/
def ownContact (acc : Access) (body : Dict) : Except Response Unit :=
  if "uid" ∈ body ∧ body.get "uid" ≠ Val.ofOption acc.uid then do
    Checks.ensure acc.auth.isSome .raised
    Checks.ensure (acc.HasRole "admin") (.message "access denied" 403)
  else .ok ()

/-- A contact is unconfirmed unless the body says otherwise. -/
def contactStatus (body : Dict) : Dict :=
  if (body.get "status").truthy then body else body.set "status" (.str "unconfirmed")

/-- `_create_contact` -/
def createContact (db : Database) (acc : Access) (body : Dict) : Except Response Dict := do
  let body ← contactInfo svc body
  Checks.ensure ("type" ∈ body → body.get "type" = .str "sms" ∨ body.get "type" = .str "email")
    (.message "contact type not yet supported" 405)
  let body := withRank db body
  ownContact acc body
  pure (contactStatus body)

/-! ### Related records -/

/-- The ids that the association table holds for a record. -/
def currentRelated (db : Database) (rel : Related) (id : String) : List Val :=
  ((db.rows rel.assoc).filter fun r => decide (r rel.here = .str id)).map fun r => r rel.there

/-- The association table rewritten to the given ids. -/
def rewriteAssoc (db : Database) (rel : Related) (id : String) (ids : List String) : Db Model :=
  let added := ids.dedup.filter fun x => decide (Val.str x ∉ currentRelated db rel id)
  Function.update db.1 rel.assoc
    ((db.rows rel.assoc).filter (fun r =>
        decide (r rel.here = .str id → r rel.there ∈ ids.map Val.str)) ++
      added.map fun x => schema.fill rel.assoc
        (Row.ofDict (Dict.ofList [(rel.here, .str id), (rel.there, .str x)])))

/-- `_update_related` without its limit: every added id must exist, and the result is committed. -/
def updateRelated (db : Database) (m : Model) (id : String) (rel : Related) (value : Val) :
    Except Exc Database := do
  Checks.ensure (byId db m id ≠ []) .noResultFound
  match value.items with
  | none => .error .other
  | some ids =>
      Checks.ensure (∀ x ∈ ids, Val.str x ∉ currentRelated db rel id → byId db rel.target x ≠ [])
        .noResultFound
      match schema.store (rewriteAssoc db rel id ids) with
      | .ok db => .ok db
      | .error .integrity => .error .integrityError
      | .error .statement => .error .other

/-! ### Create -/

/-- What the checks of `create` hand on. -/
structure Prepared where
  body : Dict
  related : List (Related × Val)
  answer : List (String × Val)

/-- The category of a record whose body names none. -/
def defaultCategory (acc : Access) (amb : Ambient) (m : Model) (body : Dict) :
    Except Response Dict :=
  if (body.get "category_id").truthy ∨ ¬ m.Has "category_id" then .ok body
  else if acc.accountId.truthy then
    match amb.categoryId with
    | some category => .ok (body.set "category_id" (.str category))
    | none => .error .raised
  -- with an event id, the code reads a model that does not exist here
  else if (body.get "event_id").truthy then .error .raised
  else .error (.message "access denied" 403)

/-- The name under which the quota of a resource is granted. -/
def grantName (resource : String) : String :=
  if resource.toList.getLast? = some 's' then resource else resource ++ "s"

/-- The quota of the owner. -/
def checkQuota (db : Database) (amb : Ambient) (m : Model) (uid : Val) : Except Response Unit :=
  if grantName m.resource ∈ svc.conf.defaultGrants then
    let count := ((db.rows m).filter fun r => decide (r "uid" = uid)).length
    if ¬ m.Has "uid" then .error .raised
    else
      match exceeds (count + 1) (amb.grants (grantName m.resource)) with
      | some false => .ok ()
      | some true => .error ⟨Dict.ofList [("message", .str "user limit exceeded"),
          ("allowed", amb.grants (grantName m.resource))], 405⟩
      | none => .error .raised
  else .ok ()

/-- The limits on the related records of a new record. -/
def checkLimits (limits : List (String × Val)) (body : Dict) : List Related → Except Response Unit
  | [] => .ok ()
  | rel :: rels =>
      match limits.lookup rel.attr with
      | some limit =>
          if rel.attr ∈ body then
            match (body.get rel.attr).items with
            | some ids =>
                match exceeds ids.length limit with
                | some false => checkLimits limits body rels
                | some true => .error (.message "limit exceeded" 405)
                | none => .error .raised
            | none => .error .raised
          else checkLimits limits body rels
      | none => checkLimits limits body rels

/-- An API key is drawn for its record; the answer carries it once. -/
def drawKey (amb : Ambient) (m : Model) (body : Dict) :
    Except Response (Dict × List (String × Val)) :=
  if m = .apikey then
    if "name" ∈ body then
      .ok ((body.set "prefix" (.str (amb.genId .keyId))).set "hashvalue"
          (.str (svc.lib.apikeyHash (amb.genId .keySecret))),
        [("apikey", .str (amb.genId .keyId ++ "." ++ amb.genId .keySecret)),
          ("name", body.get "name")])
    else .error .raised
  else .ok (body, [])

/-- The new record's id and date. -/
def withId (id : String) (now : ℕ) (body : Dict) : Dict :=
  (body.set "id" (.str id)).set "created" (.time now)

/-- The owner of a record whose body names none. -/
def withOwner (acc : Access) (m : Model) (body : Dict) : Dict :=
  if m.Has "uid" ∧ ¬ (body.get "uid").truthy then body.set "uid" (Val.ofOption acc.uid) else body

/-- The status of a new record. -/
def withStatus (m : Model) (body : Dict) : Dict :=
  if m.Has "status" then
    body.set "status" (if "status" ∈ body then body.get "status" else .str "active")
  else body

/-- The attributes of `__rest_related__` in a body. -/
def relatedOf (m : Model) (body : Dict) : List (Related × Val) :=
  m.restRelated.filterMap fun rel =>
    if rel.attr ∈ body then some (rel, body.get rel.attr) else none

/-- The body without the attributes of `__rest_related__`. -/
def dropRelated (m : Model) (body : Dict) : Dict :=
  m.restRelated.foldl (fun body rel => body.pop rel.attr) body

/-- The pre-checks of `create`, for contacts only. -/
def preCheck (db : Database) (acc : Access) (m : Model) (body : Dict) : Except Response Dict :=
  if m = .contact then createContact svc db acc body else .ok body

/-- The checks of `create`. -/
def prepare (db : Database) (acc : Access) (amb : Ambient) (now : ℕ) (m : Model) (body : Dict)
    (pre : String) (limits : List (String × Val)) : Except Response Prepared := do
  let body ← preCheck svc db acc m body
  Checks.ensure ("id" ∉ body) readOnlyId
  let body ← convertExpires svc (withId (amb.genIdWith pre .record) now body)
  let body := withOwner acc m body
  let uid := body.get "uid"
  let allowed ← Checks.orElse (AccessControl.withPermission svc.policies db acc m 'c'
    { ownerUid := uid, membership := some svc.policies.privateResource, id := body.get "event_id" })
    fun _ => .raised
  Checks.ensure (allowed = true) (.message "access denied" 403)
  let body ← defaultCategory acc amb m body
  let body := withStatus m body
  checkQuota svc db amb m uid
  checkLimits limits body m.restRelated
  let (drawn, answer) ← drawKey svc amb m (dropRelated m body)
  Checks.ensure (∀ k ∈ drawn.keys, m.Has k) (.message "invalid keyword argument" 405)
  pure ⟨drawn, relatedOf m body, answer⟩

/-- The association tables of a new record, one commit each. -/
def createRelated (m : Model) (id : String) (answer : Response) :
    Database → List (Related × Val) → Database × Response
  | db, [] => (db, answer)
  | db, (rel, value) :: rels =>
      match updateRelated db m id rel value with
      | .ok db => createRelated m id answer db rels
      | .error .integrityError => (db, .message "duplicate or other conflict" 405)
      | .error _ => (db, dbAbort)

/-- The row that `create` inserts. -/
def newRow (m : Model) (body : Dict) : Row := schema.fill m (Row.ofDict body)

/-- `create` -/
def create (db : Database) (acc : Access) (amb : Ambient) (now : ℕ) (m : Model) (body : Dict)
    (pre : String) (limits : List (String × Val)) : Database × Response :=
  match prepare svc db acc amb now m body pre limits with
  | .error answer => (db, answer)
  | .ok p =>
      match schema.store (db.1.insert m (newRow m p.body)) with
      | .error error => (db, conflict error)
      | .ok db =>
          createRelated m (amb.genIdWith pre .record)
            ⟨Dict.ofList (("id", .str (amb.genIdWith pre .record)) :: p.answer), 201⟩ db p.related

/-! ### Update -/

/-- The attributes of `__rest_related__` in a body, each rewritten and committed in turn. -/
def updateRelateds (m : Model) (id : String) (limits : List (String × Val)) :
    Database → List Related → Dict → Database × Except Response Dict
  | db, [], body => (db, .ok body)
  | db, rel :: rels, body =>
      if rel.attr ∈ body then
        let limit := (limits.lookup rel.attr).getD .none
        let count := ((body.get rel.attr).items.getD []).length
        if limit.truthy ∧ ((body.get rel.attr).items = none ∨ exceeds count limit = none) then
          (db, .error .raised)
        else if limit.truthy ∧ exceeds count limit = some true then
          (db, .error ⟨Dict.ofList [("message", .str "Limit exceeded"), ("allowed", limit)], 405⟩)
        else
          match updateRelated db m id rel (body.get rel.attr) with
          | .ok db => updateRelateds m id limits db rels (body.pop rel.attr)
          | .error _ => (db, .error .raised)
      else updateRelateds m id limits db rels body

/-- The permission check of `update`, and the row. -/
def writeRow (db : Database) (acc : Access) (m : Model) (id : String) (body : Dict)
    (access : Char) : Except Response Database := do
  let allowed ← Checks.orElse
    (AccessControl.withPermission svc.policies db acc m access { query := some (byId db m id) })
    fun _ => dbAbort
  Checks.ensure (allowed = true) (.messageId "access denied" id 403)
  Checks.ensure (byId db m id ≠ []) dbAbort
  Checks.ensure (∀ k ∈ body.keys, m.Has k) dbAbort
  Checks.orElse (schema.store (db.1.modify m (hasId id) (·.write body))) conflict

/-- The body `update` goes on with: a fresh `modified`, the date, and `totp` switched off. -/
def updateBody (now : ℕ) (id : String) (body : Dict) : Except Response Dict := do
  Checks.ensure ("id" ∈ body → body.get "id" = .str id) readOnlyId
  let body ← convertExpires svc (body.set "modified" (.time now))
  pure (if "totp" ∈ body then
      if (body.get "totp").truthy then body.pop "totp"
      else (body.pop "totp").set "totp_secret" .none
    else body)

/-- `update` -/
def update (db : Database) (acc : Access) (now : ℕ) (m : Model) (id : String) (body : Dict)
    (access : Char) (limits : List (String × Val)) : Database × Response :=
  match updateBody svc now id body with
  | .error answer => (db, answer)
  | .ok body =>
      match updateRelateds m id limits db m.restRelated body with
      | (db, .error answer) => (db, answer)
      | (db, .ok body) =>
          match writeRow svc db acc m id body access with
          | .error answer => (db, answer)
          | .ok db => (db, .messageId "updated" id 200)

/-- `update_contact`: the primary contact takes the identity of the person with it. -/
def updateContact (db : Database) (acc : Access) (now : ℕ) (id : String) (body : Dict) :
    Except Response Database := do
  let body ← contactInfo svc body
  Checks.ensure ("id" ∈ body → body.get "id" = .str id) readOnlyId
  let body := body.set "modified" (.time now)
  let refused : Response := .message "conflict with existing" 405
  let allowed ← Checks.orElse
    (AccessControl.withPermission svc.policies db acc .contact 'u'
      { query := some (byId db .contact id) })
    fun _ => refused
  Checks.ensure (allowed = true) (.messageId "access denied" id 403)
  let contact ← Checks.orElse (one (byId db .contact id)) fun _ => refused
  let body :=
    if body.get "status" = .str "disabled" then body else body.set "status" (.str "unconfirmed")
  Checks.ensure (∀ k ∈ body.keys, Model.contact.Has k) refused
  let db ← Checks.orElse (schema.store (db.1.modify .contact (hasId id) (·.write body)))
    fun _ => refused
  if IsIdentity db (contact "info") then
    Checks.orElse (schema.store (db.1.modify .person
        (fun person => decide (person "identity" = contact "info"))
        fun person => Function.update person "identity" (body.get "info")))
      fun _ => refused
  else pure db

/-! ### Delete -/

/-- `query.delete()`: the rows that refer to a deleted one with a cascade go with it. -/
def deleteRows (db : Database) (m : Model) (id : String) : Except StoreError Database :=
  schema.store (schema.cascade (db.1.remove m (hasId id)))

/-- `query.update(dict(status=status))` -/
def setStatus (db : Database) (m : Model) (id : String) (status : Val) : Except StoreError Database :=
  schema.store (db.1.modify m (hasId id) fun row => Function.update row "status" status)

/-- One id of a delete request; the count of ids without a record goes up when there is none. -/
def deleteOne (acc : Access) (m : Model) (force : Bool) (label : String) (id : String)
    (st : Database × ℕ) : Except Response (Database × ℕ) := do
  let db := st.1
  let allowed ← Checks.orElse
    (AccessControl.withPermission svc.policies db acc m 'd' { query := some (byId db m id) })
    fun _ => dbAbort
  Checks.ensure (allowed = true) (.messageId "access denied" label 403)
  if force then
    let db' ← Checks.orElse (deleteRows db m id) fun _ => dbAbort
    pure (db', if byId db m id = [] then st.2 + 1 else st.2)
  else
    Checks.ensure (m.Has "status") dbAbort
    let db' ← Checks.orElse (setStatus db m id (.str "disabled")) fun _ => dbAbort
    pure (db', st.2)

/-- The answer to a delete request. -/
def noContent (errors : ℕ) : Response := ⟨∅, if errors = 0 then 204 else 404⟩

/-- `delete`: nothing is committed unless every id is processed. -/
def delete (db : Database) (acc : Access) (m : Model) (ids : List String) (force : Bool) :
    Database × Response :=
  match ids.foldlM (fun st id => deleteOne svc acc m force id id st) (db, 0) with
  | .error answer => (db, answer)
  | .ok (db, errors) => (db, noContent errors)

end BasicCrud

end Apicrud
