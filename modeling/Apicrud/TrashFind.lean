import Apicrud.Find
import Apicrud.LocalUser

/-! # Finding deleted records

`Trashcan.find` asks one resource after the other for its disabled records, in the order in which the
controllers were registered, until the page is full.  Its cursor names the resource where it stopped, and
the offset there. -/

namespace Apicrud

open Relational

namespace Trashcan

/-! ### Arguments -/

/-- The arguments of `find`. -/
structure FindArgs where
  /-- the text that the cursor encodes -/
  cursorNext : Option String := none
  /-- the parsed `filter`; `some none` where it is no JSON -/
  filter : Option (Option Dict) := none
  limit : ℕ := 100
  offset : Option ℕ := none
  sort : String := "name"

/-- `int` of a numeral. -/
def parseInt (s : String) : Option ℕ :=
  if s ≠ "" ∧ s.toList.all Char.isDigit then some (Nat.ofDigitChars 10 s.toList 0) else none

/-- `'cursor:%s:%d' % (resource, offset)` -/
def cursorText (resource : String) (offset : ℕ) : String :=
  "cursor:" ++ resource ++ ":" ++ Nat.repr offset

/-- The resource to start with, and the offset there. -/
def position (args : FindArgs) : Except Response (String × ℕ) :=
  match args.cursorNext with
  | some cursor =>
      match Text.split cursor ':' with
      | _ :: start :: offset :: _ =>
          match parseInt offset with
          | some offset => .ok (start, offset)
          | none => .error .raised
      | _ => .error .raised
  | none => .ok ("0", args.offset.getD 0)

/-- The column to sort by, and whether it is descending. -/
def sortOf (sort : String) : Except Response (String × Bool) :=
  match Text.split sort ':' with
  | [column] => .ok (column, false)
  | [column, dir] => .ok (column, decide (dir = "desc"))
  | _ => .error .raised

/-- The filter; a session that is no admin's asks for its own records. -/
def filterOf (acc : Access) (args : FindArgs) : Except Response Dict :=
  match args.filter with
  | some none => .error (.message "invalid filter specified" 405)
  | some (some filter) => own filter
  | none => own ∅
where
  /-- `filter['uid'] = acc.uid` -/
  own (filter : Dict) : Except Response Dict :=
    match acc.auth with
    | none => .error .raised
    | some roles =>
        if "admin" ∈ roles then .ok filter
        else if "uid" ∈ filter ∧ filter.get "uid" ≠ Val.ofOption acc.uid then
          .error (.message "access denied" 403)
        else .ok (filter.set "uid" (Val.ofOption acc.uid))

/-- The resources to ask: the one of the filter, or those registered from `start` on. -/
def resourcesOf (controllers : List String) (args : FindArgs) (filter : Dict) (start : String) :
    Except Response (List String) :=
  if "resource" ∈ filter then
    match filter.get "resource" with
    | .str resource => .ok [resource]
    | _ => .error .raised
  else if args.offset.isSome then
    .error (.message "use cursor pagination or specify resource in filter" 405)
  else .ok (controllers.filter fun key =>
    decide (key ∉ ["auth", "scope", "settings", "trashcan", "tz"] ∧ start ≤ key))

/-- The filter as it goes into the queries: `{id: null}` asks for nothing. -/
def criteria (filter : Dict) : Dict :=
  let filter := filter.pop "resource"
  if "id" ∈ filter ∧ ¬ (filter.get "id").truthy then filter.pop "id" else filter

/-! ### One resource -/

/-- The model of a resource. -/
def modelFor (resource : String) : Option Model :=
  if resource = "apikey" then some .apikey else modelOf resource

/-- The loop over the keys of the filter: `xfilter` is what `filter_by` is given, and the clauses are
put on the query one by one. -/
def narrow (m : Model) (resource : String) :
    List String → Dict → List (String × BasicCrud.Clause) →
      Except Response (Dict × List (String × BasicCrud.Clause))
  | [], xfilter, clauses => .ok (xfilter, clauses)
  | key :: keys, xfilter, clauses =>
      if key = "uid" ∧ resource = "person" then
        narrow m resource keys ((xfilter.pop "uid").set "referrer_id" (xfilter.get "uid")) clauses
      else if ¬ m.Has key then
        .error ⟨Dict.ofList [("message", .str "invalid filter key"), ("resource", .str resource)], 405⟩
      else
        match xfilter.get key with
        | .str s =>
            if s = "*" then narrow m resource keys (xfilter.pop key) clauses
            else if '%' ∈ s.toList then
              narrow m resource keys (xfilter.pop key) (clauses ++ [(key, .like s)])
            else narrow m resource keys xfilter clauses
        | .list [s] => narrow m resource keys (xfilter.set key (.str s)) clauses
        | .list l => narrow m resource keys (xfilter.pop key) (clauses ++ [(key, .oneOf l)])
        | _ => narrow m resource keys xfilter clauses

/-- A record meets the filter of its resource. -/
def Meets (m : Model) (resource : String) (filter : Dict) (row : Row) : Prop :=
  ∃ xfilter clauses, narrow m resource filter.keys filter [] = .ok (xfilter, clauses) ∧
    (∀ entry ∈ xfilter.entries, row entry.1 = entry.2) ∧ ∀ c ∈ clauses, c.2.Holds (row c.1)

/-- The disabled records of a resource that the session finds, in order. -/
def query (svc : Service) (db : Database) (acc : Access) (filter : Dict) (sort : String × Bool)
    (resource : String) : Except Response (Model × List Row) := do
  match modelFor resource with
  | none => .error .raised
  | some m =>
      let (xfilter, clauses) ← narrow m resource filter.keys filter []
      Checks.ensure (m.Has "status") .raised
      let conds ← Checks.orElse (AccessControl.withFilter svc.policies acc m 'r') fun _ => .raised
      -- a second join of the persons is refused by the database
      Checks.ensure (((conds.getD []).filter (· = .referred)).length ≤ 1) dbAbort
      let rows := (db.rows m).filter fun row => decide
        ((∀ entry ∈ xfilter.entries, row entry.1 = entry.2) ∧ (∀ c ∈ clauses, c.2.Holds (row c.1)) ∧
          row "status" = .str "disabled")
      let rows := if m.Has sort.1 then BasicCrud.ordered sort.1 sort.2 rows else rows
      pure (m, AccessControl.keep db acc conds rows)

/-! ### One page -/

/-- A record of a page, with the data that describes it. -/
structure Item where
  resource : String
  record : Row
  fields : Dict

/-- `record` -/
def item (resource : String) (m : Model) (row : Row) : Item where
  resource := resource
  record := row
  fields := Dict.ofList
    (((["created", "modified", "uid", "status"].filter fun key => m.Has key).map
        fun key => (key, row key)) ++
      [("id", .str (resource ++ "-" ++ (row "id").text)), ("resource", .str resource),
        ("name", ((["name", "info", "item", "subject"].find? fun col => m.Has col).map row).getD
          (.str "")),
        ("rbac", .str "dru")])

/-- `retval` -/
structure Page where
  items : List Item := []
  count : ℕ := 0
  cursorNext : Option String := none

/-- The loop over the results of one resource: the page, and the offset after it, or `none` where the
page is returned. -/
def add (resource : String) (m : Model) (limit : ℕ) : List Row → Page → ℕ → Page × Option ℕ
  | [], page, offset => (page, some offset)
  | row :: rows, page, offset =>
      if limit ≤ page.count then
        ({ page with cursorNext := some (cursorText resource offset) }, none)
      else
        add resource m limit rows
          { page with items := page.items ++ [item resource m row], count := page.count + 1 }
          (offset + 1)

/-- The loop over the resources. -/
def fill (results : String → Except Response (Model × List Row)) (limit : ℕ) :
    List String → Page → ℕ → Except Response Page
  | [], page, _ => .ok page
  | resource :: resources, page, offset => do
      let (m, rows) ← results resource
      let slice := (rows.drop offset).take (limit + 1)
      match add resource m limit (slice.take (limit - page.count + 1)) page offset with
      | (page, none) => .ok page
      | (page, some offset) =>
          fill results limit resources page (if page.items = [] then offset else 0)

/-- `find` -/
def find (svc : Service) (db : Database) (acc : Access) (controllers : List String)
    (args : FindArgs) : Except Response Page := do
  let (start, offset) ← position args
  let sort ← sortOf args.sort
  let filter ← filterOf acc args
  let resources ← resourcesOf controllers args filter start
  fill (query svc db acc (criteria filter) sort) args.limit resources {} offset

end Trashcan

end Apicrud
