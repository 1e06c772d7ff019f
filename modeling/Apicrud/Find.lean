import Apicrud.BasicCrud

/-! # Finding records

`with_filter` turns the policies into a condition on the query, and `find` answers one page of the
records that a request selects.  The same policies decide a single record in `rbacPermissions`:
these are two evaluators of one table. -/

namespace Apicrud

open Relational

namespace AccessControl

/-! ### The policies as a condition -/

/-- A condition that `with_filter` puts on the records. -/
inductive Condition where
  /-- `model.privacy == 'public'` -/
  | isPublic
  /-- `model.uid == self.uid` -/
  | ownUid
  /-- `Person.referrer_id == self.uid`, on the joined person -/
  | referred
deriving DecidableEq

/-- A record meets a condition. -/
def Condition.Holds (db : Database) (acc : Access) (row : Row) : Condition → Prop
  | .isPublic => row "privacy" = .str "public"
  | .ownUid => row "uid" = Val.ofOption acc.uid
  | .referred => ∃ owner, ownerOf db row = some owner ∧ owner "referrer_id" = Val.ofOption acc.uid

instance (db : Database) (acc : Access) (row : Row) (c : Condition) :
    Decidable (c.Holds db acc row) := by
  cases c with
  | isPublic => exact inferInstanceAs (Decidable (_ = _))
  | ownUid => exact inferInstanceAs (Decidable (_ = _))
  | referred =>
      match h : ownerOf db row with
      | some owner =>
          exact decidable_of_iff (owner "referrer_id" = Val.ofOption acc.uid)
            (by simp [Condition.Holds, h])
      | none => exact isFalse (by simp [Condition.Holds, h])

/-- `or_(*conditions)`: without operands it adds no condition. -/
def Passes (db : Database) (acc : Access) (conds : List Condition) (row : Row) : Prop :=
  conds = [] ∨ ∃ c ∈ conds, c.Holds db acc row

instance (db : Database) (acc : Access) (conds : List Condition) (row : Row) :
    Decidable (Passes db acc conds row) := inferInstanceAs (Decidable (_ ∨ _))

/-- Some role matches the principal as a pattern; the first one ends the search. -/
def firstMatch (principal : String) : List String → Except Exc Bool
  | [] => .ok false
  | role :: roles => do
      let hit ← reMatch principal role
      if hit then pure true else firstMatch principal roles

/-- What one policy does to the conditions; `none` where the query is returned as it is. -/
def extend (acc : Access) (m : Model) (access : Char) (conds : List Condition) (policy : Policy) :
    Except Exc (Option (List Condition)) :=
  let head := (Text.split policy.principal '/').headD ""
  if policy.principal = ".*" ∧ access ∈ policy.actions then .ok none
  else
    match acc.auth with
    | some (role :: roles) =>
        let auth := role :: roles
        if policy.resource = m.resource ++ ":.*" ∧ policy.principal ∈ auth ∧
            access ∈ policy.actions then .ok none
        else if policy.resource = m.resource ++ ":{uid}" ∧ access ∈ policy.actions then
          if (head = "person" ∨ head = "user") ∧ head ∈ auth then
            if ¬ m.Has "uid" then .error .other
            else if m = .contact then .ok (some (conds ++ [.ownUid, .referred]))
            else .ok (some (conds ++ [.ownUid]))
          else do
            let hit ← firstMatch policy.principal auth
            if ¬ hit then pure (some conds)
            else if ¬ m.Has "uid" then .error .other
            else pure (some (conds ++ [.ownUid]))
        else .ok (some conds)
    | _ => .ok (some conds)

/-- The policies of the resource, in turn. -/
def extendAll (acc : Access) (m : Model) (access : Char) :
    List Policy → List Condition → Except Exc (Option (List Condition))
  | [], conds => .ok (some conds)
  | policy :: rules, conds => do
      match ← extend acc m access conds policy with
      | some conds => extendAll acc m access rules conds
      | none => pure none

/-- `with_filter` -/
def withFilter (pol : Policies) (acc : Access) (m : Model) (access : Char) :
    Except Exc (Option (List Condition)) := do
  let rules ← rulesOf pol m
  extendAll acc m access rules (if m.Has "privacy" then [.isPublic] else [])

/-- The records that the filtered query leaves. -/
def keep (db : Database) (acc : Access) (conds : Option (List Condition)) (rows : List Row) :
    List Row :=
  match conds with
  | some conds => rows.filter fun row => decide (Passes db acc conds row)
  | none => rows

end AccessControl

namespace BasicCrud

/-! ### The records a request selects -/

/-- The arguments of `find`. -/
structure FindArgs where
  /-- the parsed `filter`; `some none` where it is no JSON -/
  filter : Option (Option Dict) := none
  limit : ℕ := 100
  /-- from the cursor, or given -/
  offset : ℕ := 0
  /-- the column, and whether it is descending -/
  sort : Option (String × Bool) := none
  status : Option String := none

/-- What one entry of the filter asks for. -/
inductive Clause where
  | like (pattern : String)
  | oneOf (values : List String)
  | equals (value : Val)
deriving DecidableEq

/-- The clause goes through `filter_by`, which has an answer of its own for unknown columns. -/
def Clause.isEquals : Clause → Bool
  | .equals _ => true
  | _ => false

/-- An entry of the filter; an asterisk asks for nothing. -/
def clause (v : Val) : Option Clause :=
  match v with
  | .str s =>
      if s = "*" then none
      else if '%' ∈ s.toList then some (.like s)
      else some (.equals v)
  | .list [x] => some (.equals (.str x))
  | .list l => some (.oneOf l)
  | v => some (.equals v)

/-- SQL `LIKE`. -/
def likeAux : List Char → List Char → Bool
  | [], s => s.isEmpty
  | '%' :: ps, s => s.tails.any (likeAux ps)
  | '_' :: _, [] => false
  | '_' :: ps, _ :: s => likeAux ps s
  | _ :: _, [] => false
  | c :: ps, x :: s => c == x && likeAux ps s

/-- A cell meets a clause. -/
def Clause.Holds (cell : Val) : Clause → Prop
  | .like pattern => ∃ s, cell = .str s ∧ likeAux pattern.toList s.toList = true
  | .oneOf values => ∃ s ∈ values, cell = .str s
  | .equals value => cell = value

instance (cell : Val) (c : Clause) : Decidable (c.Holds cell) := by
  cases c with
  | like pattern =>
      match cell with
      | .str s =>
          exact decidable_of_iff (likeAux pattern.toList s.toList = true) (by simp [Clause.Holds])
      | .none | .bool _ | .int _ | .time _ | .list _ => exact isFalse (by simp [Clause.Holds])
  | oneOf values => exact inferInstanceAs (Decidable (∃ s ∈ values, cell = .str s))
  | equals value => exact inferInstanceAs (Decidable (cell = value))

/-- The clauses of a filter, by column. -/
def clauses (filter : Dict) : List (String × Clause) :=
  filter.entries.filterMap fun entry => (clause entry.2).map fun c => (entry.1, c)

/-- The filter with the owner of an account in its place; `none` where there is no such account. -/
def resolveAccount (db : Database) (filter : Dict) : Option Dict :=
  if (filter.get "account_id").truthy then
    match one ((db.rows .account).filter fun row =>
        decide (row "id" = filter.get "account_id")) with
    | .ok account => some ((filter.set "uid" (account "uid")).pop "account_id")
    | .error _ => none
  else some filter

/-- Cells in the order of the database: nulls first. -/
def precedes : Val → Val → Bool
  | .none, _ => true
  | _, .none => false
  | .bool a, .bool b => !a || b
  | .int a, .int b => decide (a ≤ b)
  | .str a, .str b => decide (a.toList ≤ b.toList)
  | .time a, .time b => decide (a ≤ b)
  | .bool _, _ => true
  | .int _, .bool _ => false
  | .int _, _ => true
  | .str _, .time _ | .str _, .list _ => true
  | .str _, _ => false
  | .time _, .list _ => true
  | .time _, _ => false
  | .list _, _ => true

/-- `order_by` -/
def ordered (column : String) (desc : Bool) (rows : List Row) : List Row :=
  rows.insertionSort fun a b =>
    if desc then precedes (b column) (a column) = true else precedes (a column) (b column) = true

/-- What a request selects before the policies are applied, in order; the columns it names must be
columns of the model. -/
def select (db : Database) (m : Model) (args : FindArgs) (filter : Dict) :
    Except Response (List Row) := do
  let clauses := clauses filter
  Checks.ensure (∀ c ∈ clauses, c.2.isEquals ∨ m.Has c.1) .raised
  let (column, desc) := args.sort.getD (if m.Has "name" then "name" else "id", false)
  Checks.ensure (m.Has column) .raised
  Checks.ensure (∀ c ∈ clauses, m.Has c.1) (.message "invalid filter specified" 405)
  Checks.ensure (m.Has "status") .raised
  pure (ordered column desc ((db.rows m).filter fun row =>
    decide ((∀ c ∈ clauses, c.2.Holds (row c.1)) ∧
      if args.status = some "disabled" then row "status" = .str "disabled"
      else row "status" ≠ .none ∧ row "status" ≠ .str "disabled")))

/-! ### Pages -/

/-- `as_dict` -/
def asDict (db : Database) (m : Model) (row : Row) : Dict :=
  Dict.ofList (((m.columns.filter (· ∉ m.restExclude)).map fun c => (c, row c)) ++
    (m.restRelated.map fun rel =>
      (rel.attr, .list ((currentRelated db rel (row "id").text).map Val.text))) ++
    m.restHybrid row)

/-- A record of a page, with the text of the actions available on it. -/
structure Item where
  record : Row
  fields : Dict
  rbac : String

/-- A page of records. -/
structure Page where
  items : List Item
  count : ℕ
  /-- the offset in the cursor of the next page -/
  cursorNext : Option ℕ

/-- The answer where nothing is asked for. -/
def Page.empty : Page := ⟨[], 0, none⟩

/-- `''.join(sorted(list(actions - set('c'))))` -/
def rbacText (actions : List Char) : String :=
  String.ofList ((actions.dedup.filter (· ≠ 'c')).insertionSort fun a b => a ≤ b)

/-- One record of a page. -/
def item (pol : Policies) (db : Database) (acc : Access) (m : Model) (row : Row) :
    Except Response Item := do
  let fields := asDict db m row
  let fields ←
    if m.hasOwner then
      match ownerOf db row with
      | some owner => .ok (fields.set "owner" (owner "name"))
      | none => .error .raised
    else .ok fields
  let fields ←
    if (fields.get "category_id").truthy then
      match one ((db.rows .category).filter fun c => decide (c "id" = fields.get "category_id")) with
      | .ok category => .ok (fields.set "category" (category "name"))
      | .error _ => .error .raised
    else .ok fields
  let actions ← Checks.orElse (AccessControl.rbacPermissions pol db acc m
    { ownerUid := fields.get "uid", membership := some pol.privateResource,
      id := fields.get "id", privacy := fields.get "privacy" }) fun _ => .raised
  pure ⟨row, fields, rbacText actions⟩

/-- The page at the offset of a result. -/
def page (pol : Policies) (db : Database) (acc : Access) (m : Model) (args : FindArgs)
    (rows : List Row) : Except Response Page := do
  let slice := (rows.drop args.offset).take (args.limit + 1)
  let items ← (slice.take args.limit).mapM (item pol db acc m)
  pure {
    items := items
    count :=
      if ¬ args.limit < slice.length ∧ items.length < rows.length ∧ items.length < args.limit ∧
        args.offset = 0 then items.length
      else rows.length
    cursorNext := if args.limit < slice.length then some (args.offset + args.limit) else none }

/-- The parsed filter that goes into the query; an answer where the request asks for nothing. -/
def filterOf (db : Database) (args : FindArgs) : Except (Except Response Page) Dict :=
  match args.filter with
  | some none => .error (.error (.message "invalid filter specified" 405))
  | none => .ok ∅
  | some (some filter) =>
      if "id" ∈ filter ∧ ¬ (filter.get "id").truthy ∧ filter.keys.length = 1 then
        .error (.ok .empty)
      else if "id" ∉ filter ∧ filter.keys = [] then .error (.ok .empty)
      else
        let filter := if (filter.get "id").truthy then filter else filter.pop "id"
        match resolveAccount db filter with
        | some filter => .ok filter
        | none => .error (.error (.message "not found" 404))

/-- `find` -/
def find (svc : Service) (db : Database) (acc : Access) (m : Model) (args : FindArgs) :
    Except Response Page := do
  let allowed ←
    if m = .account then .ok true
    else Checks.orElse (AccessControl.withPermission svc.policies db acc m 'r'
      { ownerUid := Val.ofOption acc.uid }) fun _ => .raised
  Checks.ensure (allowed = true) (.message "access denied" 403)
  match filterOf db args with
  | .error answer => answer
  | .ok filter =>
      let rows ← select db m args filter
      let conds ← Checks.orElse (AccessControl.withFilter svc.policies acc m 'r') fun _ => .raised
      -- a second join of the persons is refused by the database
      Checks.ensure (((conds.getD []).filter (· = .referred)).length ≤ 1) dbAbort
      page svc.policies db acc m args (AccessControl.keep db acc conds rows)

end BasicCrud

end Apicrud
