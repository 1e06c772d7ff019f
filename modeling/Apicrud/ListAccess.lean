import Apicrud.Memberships

/-! # What a membership opens

`get` names the first membership of the session to the evaluation.  A record that has no list of its
own, such as a list, is then judged by the id of that first list and by its own privacy: a session
opens every list whose privacy is a level it holds for its first list (`get_closed_iff`). -/

namespace Apicrud

open Relational

/-! ### Getting a record -/

/-- `_parse_id` -/
def parseId (role resource : String) : Option String :=
  match Text.split role '-' with
  | [] => none
  | x :: rest => if x = resource then some (Text.join rest.dropLast '-') else none

/-- `self.auth_ids[self.primary_resource]` -/
def authIds (pol : Policies) (acc : Access) : List String :=
  (acc.auth.getD []).filterMap fun role =>
    match parseId role pol.privateResource with
    | some ev => if ev = "" then none else some ev
    | none => none

namespace BasicCrud

/-- `geocode.with_privacy` -/
def withPrivacy (lib : Lib) (acc : Access) (record : Dict) (access : Bool) : Dict :=
  let exact := access ∨ record.get "uid" = Val.ofOption acc.uid
  let located :=
    if (record.get "geolat").truthy ∧ (record.get "geolong").truthy then
      let position := record.set "geo" (.list [lib.degrees (record.get "geolong") (decide ¬ exact),
        lib.degrees (record.get "geolat") (decide ¬ exact)])
      if ¬ exact ∧ "address" ∈ record then position.set "address" (.str "") else position
    else record
  (located.pop "geolong").pop "geolat"

/-- The name of the owner added; `none` where there is none. -/
def nameOwner (db : Database) (m : Model) (record : Row) (fields : Dict) : Option Dict :=
  if m.Has "uid" ∧ m.hasOwner then
    (ownerOf db record).map fun owner => fields.set "owner" (owner "name")
  else some fields

/-- The name of the category added; `none` where there is none. -/
def nameCategory (db : Database) (m : Model) (fields : Dict) : Option Dict :=
  if m.Has "category_id" ∧ (fields.get "category_id").truthy then
    ((db.rows .category).find? fun c => decide (c "id" = fields.get "category_id")).map
      fun category => fields.set "category" (category "name")
  else some fields

/-- The fields of the answer. -/
def namedFields (db : Database) (m : Model) (record : Row) : Option Dict := do
  let fields ← nameOwner db m record (asDict db m record)
  let fields ← nameCategory db m fields
  pure (if "modified" ∈ fields ∧ ¬ (fields.get "modified").truthy then fields.pop "modified"
    else fields)

/-- `get` -/
def get (svc : Service) (db : Database) (acc : Access) (m : Model) (id : String) : Response :=
  match one (byId db m id) with
  | .error .noResultFound =>
      ⟨Dict.ofList [("id", .str id), ("message", .str "not found")], 404⟩
  | .error .multipleResultsFound => .raised
  | .ok record =>
      match namedFields db m record with
      | none => .raised
      | some fields =>
          match AccessControl.rbacPermissions svc.policies db acc m
              { query := some (byId db m id), membership := some svc.policies.privateResource,
                id := Val.ofOption (authIds svc.policies acc).head? } with
          | .error _ => .raised
          | .ok actions =>
              let rbac := rbacText actions
              let fields := fields.set "rbac" (.str rbac)
              if "geolat" ∈ fields then
                if fields.get "privacy" = .str "secret" ∧ 'r' ∉ rbac.toList then
                  .message "access denied" 403
                else ⟨withPrivacy svc.lib acc fields (decide ('r' ∈ rbac.toList)), 200⟩
              else if 'r' ∈ rbac.toList then ⟨fields, 200⟩
              else ⟨Dict.ofList [("message", .str "access denied"), ("id", .str id)],
                if acc.auth.isSome then 403 else 401⟩

end BasicCrud

/-! ### Memberships of a session -/

/-- The id stands between the first hyphen and the last. -/
theorem split_role {resource level : String} (hresource : '-' ∉ resource.toList)
    (hlevel : '-' ∉ level.toList) (id : String) :
    Text.split (resource ++ "-" ++ id ++ "-" ++ level) '-' =
      resource :: (Text.split id '-' ++ [level]) := by
  have hrole : resource ++ "-" ++ id ++ "-" ++ level =
      String.ofList (resource.toList ++ '-' :: (id.toList ++ '-' :: level.toList)) := by
    rw [← String.toList_inj]
    simp
  rw [hrole, Text.split_between id hresource hlevel, String.ofList_toList, String.ofList_toList]

/-- A role names its id, to those who ask for its resource. -/
theorem parseId_role {resource level : String} (hresource : '-' ∉ resource.toList)
    (hlevel : '-' ∉ level.toList) (id other : String) :
    parseId (resource ++ "-" ++ id ++ "-" ++ level) other =
      if resource = other then some id else none := by
  rw [parseId, split_role hresource hlevel]
  simp only [List.dropLast_concat, Text.join_split]

/-- A session of a user whose other roles are memberships of lists.  Ids are made of the characters that
`gen_id` draws from, and levels hold no hyphen. -/
structure MemberSession (acc : Access) (u : String) : Prop where
  uid : acc.uid = some u
  user : acc.HasRole "user"
  roles : ∀ role, acc.HasRole role → role = "user" ∨
    ∃ id level, role = "list-" ++ id ++ "-" ++ level ∧ Word id ∧ id ≠ "" ∧ id ≠ "None" ∧
      Word level ∧ '-' ∉ level.toList

namespace MemberSession

variable {acc : Access} {u : String} {pol : Policies}

theorem word_role {id level : String} (hid : Word id) (hlevel : Word level) :
    Word ("list-" ++ id ++ "-" ++ level) := by
  simp only [Word, String.toList_append, List.all_append, Bool.and_eq_true]
  exact ⟨⟨⟨by decide, hid⟩, by decide⟩, hlevel⟩

theorem membershipRole {id level : String} (hid : Word id) (hlevel : Word level) :
    MembershipRole ("list-" ++ id ++ "-" ++ level) := by
  have hword := word_role hid hlevel
  refine ⟨?_, "list", id ++ "-" ++ level, ?_, by decide, by decide⟩
  · rw [Text.Formats, Text.format_eq_self _ hword.noBrace]
    rfl
  · simp [String.append_assoc]

theorem membership (h : MemberSession acc u) {role : String} (hrole : acc.HasRole role) :
    role = "user" ∨ MembershipRole role := by
  rcases h.roles role hrole with huser | ⟨id, level, rfl, hid, -, -, hlevel, -⟩
  · exact Or.inl huser
  · exact Or.inr (membershipRole hid hlevel)

/-- What a role of the session adds to its ids. -/
theorem parseId_cases (h : MemberSession acc u) {role : String} (hrole : acc.HasRole role) :
    (role = "user" ∧ parseId role "list" = none) ∨
      ∃ id level, role = "list-" ++ id ++ "-" ++ level ∧ parseId role "list" = some id ∧
        Word id ∧ id ≠ "" ∧ id ≠ "None" := by
  rcases h.roles role hrole with rfl | ⟨id, level, rfl, hid, hne, hnone, -, hhyphen⟩
  · exact Or.inl ⟨rfl, by decide +kernel⟩
  · have hlist : '-' ∉ "list".toList := by decide
    have hparse := parseId_role hlist hhyphen id "list"
    rw [if_pos rfl] at hparse
    exact Or.inr ⟨id, level, rfl, hparse, hid, hne, hnone⟩

/-- The ids of the session are those of its roles. -/
theorem mem_authIds (h : MemberSession acc u) (hpol : pol.privateResource = "list") {id : String}
    (hid : id ∈ authIds pol acc) : Word id ∧ id ≠ "" ∧ id ≠ "None" := by
  rw [authIds, List.mem_filterMap, hpol] at hid
  obtain ⟨role, hrole, hparsed⟩ := hid
  have hhas : acc.HasRole role := by
    cases hauth : acc.auth with
    | none =>
        rw [hauth] at hrole
        cases hrole
    | some roles =>
        rw [hauth] at hrole
        exact ⟨roles, hauth, hrole⟩
  rcases h.parseId_cases hhas with ⟨-, hparse⟩ | ⟨id', level, -, hparse, hword, hne, hnone⟩
  · rw [hparse] at hparsed
    cases hparsed
  · rw [hparse] at hparsed
    simp only [if_neg hne, Option.some.injEq] at hparsed
    rw [← hparsed]
    exact ⟨hword, hne, hnone⟩

/-- A session without ids has no membership. -/
theorem role_of_authIds (h : MemberSession acc u) (hpol : pol.privateResource = "list")
    (hnone : (authIds pol acc).head? = none) {role : String} (hrole : acc.HasRole role) :
    role = "user" := by
  rcases h.parseId_cases hrole with ⟨huser, -⟩ | ⟨id, level, -, hparse, -, hne, -⟩
  · exact huser
  · have hmem : id ∈ authIds pol acc := by
      obtain ⟨roles, hauth, hrole⟩ := hrole
      rw [authIds, hauth, hpol, List.mem_filterMap]
      exact ⟨role, hrole, by rw [hparse]; exact if_neg hne⟩
    rw [List.head?_eq_none_iff.mp hnone] at hmem
    cases hmem

theorem word (h : MemberSession acc u) {role : String} (hrole : acc.HasRole role) : Word role := by
  rcases h.roles role hrole with rfl | ⟨id, level, rfl, hid, -, -, hlevel, -⟩
  · decide
  · exact word_role hid hlevel

end MemberSession

/-! ### What the entries for lists grant -/

/-- The kinds of entries that the resources with lists have. -/
inductive ListEntry (res : String) : Policy → Prop
  | admin (resource : String) (actions : List Char) : ListEntry res ⟨"admin", resource, actions⟩
  | own (resource : String) (actions : List Char) : ListEntry res ⟨"user/{uid}", resource, actions⟩
  | ofList {level : String} (hlevel : Word level) (actions : List Char) :
      ListEntry res ⟨"list-{list_id}-" ++ level, res ++ ":{list_id}", actions⟩
  | ofEntry {level : String} (hlevel : Word level) (actions : List Char) :
      ListEntry res ⟨"list-{eid}-" ++ level, res ++ ":{list_id}", actions⟩

theorem ListEntry.ne_everyone {res : String} {p : Policy} (hp : ListEntry res p) :
    p.principal ≠ ".*" := by
  intro heq
  have hfirst := congrArg (fun s => s.toList.head?) heq
  cases hp <;> simp at hfirst

namespace AccessControl

variable {acc : Access} {u : String} {m : Model} {r : Resolved} {p : Policy} {role : String}

/-- An entry whose resource does not match does not apply. -/
theorem applies_of_not_matches {principal name : String}
    (hprincipal : fill r.id.text r.ownerUid.text p.principal = .ok principal)
    (hname : fill r.id.text acc.uidText (roleName role) = .ok name)
    (hmatch : resourceMatches acc m r p = .ok false) : applies acc m r p role = .ok false := by
  unfold applies
  simp only [hprincipal, hname, hmatch]
  by_cases heq : principal = name
  · cases r.membership <;> simp [bind, Except.bind, heq]
  · cases r.membership <;> simp [bind, Except.bind, heq]

/-- A role of the session names a list only when it is the role for it. -/
theorem name_of_list (h : MemberSession acc u) (hrole : acc.HasRole role) {id level : String}
    (hnone : ∀ level, ¬ acc.HasRole ("list-" ++ id ++ "-" ++ level)) :
    "list-" ++ id ++ ("-" ++ level) ≠ nameOf acc role := by
  intro heq
  rcases h.membership hrole with rfl | -
  · have hfirst := congrArg (fun s => s.toList.head?) heq
    rw [nameOf, if_pos (Or.inr rfl)] at hfirst
    simp at hfirst
  · by_cases hbare : role = "person" ∨ role = "user"
    · have hfirst := congrArg (fun s => s.toList.head?) heq
      rw [nameOf, if_pos hbare] at hfirst
      rcases hbare with rfl | rfl <;> simp at hfirst
    · rw [nameOf, if_neg hbare, ← String.append_assoc] at heq
      exact hnone level (heq ▸ hrole)

/-- On a record of another owner no entry applies to a session of a user: the resource of a list entry is
compared with nothing, and without a membership of that list the principal is not held. -/
theorem applies_member (h : MemberSession acc u) (howner : r.ownerUid.text ≠ acc.uidText)
    (hid : (Word r.id.text ∧ r.id.text ≠ "None") ∨
      ∀ level, ¬ acc.HasRole ("list-" ++ r.id.text ++ "-" ++ level))
    (hp : ListEntry m.resource p) (hrole : acc.HasRole role) :
    applies acc m r p role = .ok false := by
  obtain ⟨name, hname, hadmin, huser⟩ := name_ne (h.membership hrole) r.id.text howner
  have hlist : ∀ {w level actions}, p = ⟨w, m.resource ++ ":{list_id}", actions⟩ →
      fill r.id.text r.ownerUid.text w = .ok ("list-" ++ r.id.text ++ ("-" ++ level)) →
      (∀ membership, w ≠ membership ++ "-*") → applies acc m r p role = .ok false := by
    rintro w level actions rfl hfill hwild
    rcases hid with ⟨hword, hnone⟩ | hnone
    · exact applies_of_not_matches hfill hname (resourceMatches_list hword hnone w actions)
    · have hread := @fill_roleName acc role (h.word hrole).noBrace r.id.text
      exact applies_ne hfill hread (name_of_list h hrole hnone) hwild
  cases hp with
  | admin resource actions =>
      exact applies_ne (fill_of_noBrace (by decide : Text.NoBrace "admin") _ _) hname hadmin.symm
        (wildcard_ne (by decide : "admin".toList.getLast? ≠ some '*'))
  | own resource actions =>
      exact applies_ne (fill_uid "user/" (by decide) _ _) hname huser.symm
        (wildcard_ne (by decide : "user/{uid}".toList.getLast? ≠ some '*'))
  | ofList hlevel actions =>
      exact hlist rfl (fill_ofList _ _ hlevel)
        (principal_ne_wildcard (m := m) (.ofList hlevel (List.mem_singleton_self 'r')))
  | ofEntry hlevel actions =>
      exact hlist rfl (fill_ofEntry _ _ hlevel)
        (principal_ne_wildcard (m := m) (.ofEntry hlevel (List.mem_singleton_self 'r')))

theorem lastEveryone_none {rules : List Policy} (h : ∀ p ∈ rules, p.principal ≠ ".*")
    (default : List Char) : lastEveryone rules default = default := by
  induction rules generalizing default with
  | nil => rfl
  | cons p rules ih =>
      rw [lastEveryone, List.foldl_cons, if_neg (h p List.mem_cons_self)]
      exact ih (fun q hq => h q (List.mem_cons_of_mem _ hq)) default

/-- With entries for lists only, privacy decides on a record of another owner. -/
theorem rbac_member {pol : Policies} {db : Database} {t : Target} {record : Row}
    {rules : List Policy} (h : MemberSession acc u) (hrow : record ∈ db.rows m)
    (hrules : rulesOf pol m = .ok rules) (hentries : ∀ p ∈ rules, ListEntry m.resource p)
    (howner : (effectiveOwner db acc m t record).text ≠ acc.uidText)
    (hid : (Word (membershipId pol m t record).text ∧ (membershipId pol m t record).text ≠ "None") ∨
      ∀ level, ¬ acc.HasRole ("list-" ++ (membershipId pol m t record).text ++ "-" ++ level)) :
    rbacPermissions pol db acc m { t with query := some [record] } =
      .ok (if PrivacyOpen acc (viewed pol db acc m t record) then ['r'] else []) := by
  rw [rbacPermissions_default (resolve_record hrow) hrules
    fun p hp _ role hrole => applies_member h howner hid (hentries p hp) hrole,
    lastEveryone_none fun p hp => (hentries p hp).ne_everyone]

end AccessControl

/-! ### What `get` answers -/

namespace BasicCrud

variable {svc : Service} {db : Database} {acc : Access} {m : Model} {id : String} {record : Row}

theorem mem_rbacText {actions : List Char} : 'r' ∈ (rbacText actions).toList ↔ 'r' ∈ actions := by
  simp [rbacText]

/-- Without coordinates, a record is answered when it may be read. -/
theorem get_status {fields : Dict} {actions : List Char} (hone : one (byId db m id) = .ok record)
    (hnamed : namedFields db m record = some fields) (hgeo : "geolat" ∉ fields)
    (hrbac : AccessControl.rbacPermissions svc.policies db acc m
      { query := some (byId db m id), membership := some svc.policies.privateResource,
        id := Val.ofOption (authIds svc.policies acc).head? } = .ok actions) :
    (get svc db acc m id).status = 200 ↔ 'r' ∈ actions := by
  unfold get
  rw [hone]
  simp only [hnamed, hrbac]
  have hno : ¬ "geolat" ∈ fields.set "rbac" (.str (rbacText actions)) := by
    rw [Dict.mem_set, not_or]
    exact ⟨by decide, hgeo⟩
  rw [if_neg hno]
  by_cases hr : 'r' ∈ actions
  · rw [if_pos (mem_rbacText.mpr hr)]
    simp [hr]
  · rw [if_neg fun h => hr (mem_rbacText.mp h)]
    simp only [hr, iff_false]
    split <;> decide

theorem mem_ofList {k : String} {l : List (String × Val)} :
    k ∈ Dict.ofList l ↔ k ∈ l.map Prod.fst := by
  induction l with
  | nil => simp [Dict.ofList]
  | cons e l ih =>
      obtain ⟨k', v⟩ := e
      rw [Dict.ofList_cons, Dict.mem_set, ih]
      simp

theorem nameOwner_some (howner : ∃ owner, ownerOf db record = some owner) {fields : Dict}
    (hgeo : "geolat" ∉ fields) : ∃ fields', nameOwner db m record fields = some fields' ∧
      "geolat" ∉ fields' ∧ fields'.get "category_id" = fields.get "category_id" := by
  obtain ⟨owner, howner⟩ := howner
  unfold nameOwner
  split_ifs
  · rw [howner]
    refine ⟨_, rfl, ?_, by simp⟩
    rw [Dict.mem_set, not_or]
    exact ⟨by decide, hgeo⟩
  · exact ⟨fields, rfl, hgeo, rfl⟩

theorem nameCategory_some {fields : Dict} (hcategory : m.Has "category_id" →
      ∃ category ∈ db.rows .category, category "id" = fields.get "category_id")
    (hgeo : "geolat" ∉ fields) :
    ∃ fields', nameCategory db m fields = some fields' ∧ "geolat" ∉ fields' := by
  unfold nameCategory
  split_ifs with hhas
  · obtain ⟨category, hmem, hid⟩ := hcategory hhas.1
    have hfound : ((db.rows .category).find? fun c =>
        decide (c "id" = fields.get "category_id")).isSome := by
      rw [List.find?_isSome]
      exact ⟨category, hmem, decide_eq_true hid⟩
    obtain ⟨found, hfound⟩ := Option.isSome_iff_exists.mp hfound
    rw [hfound]
    refine ⟨_, rfl, ?_⟩
    rw [Dict.mem_set, not_or]
    exact ⟨by decide, hgeo⟩
  · exact ⟨fields, rfl, hgeo⟩

/-- The fields are named when the owner and the category are found. -/
theorem namedFields_some (howner : ∃ owner, ownerOf db record = some owner)
    (hcategory : m.Has "category_id" → ∃ category ∈ db.rows .category,
      category "id" = (asDict db m record).get "category_id")
    (hgeo : "geolat" ∉ asDict db m record) :
    ∃ fields, namedFields db m record = some fields ∧ "geolat" ∉ fields := by
  obtain ⟨owned, howned, hgeo', hsame⟩ := nameOwner_some (m := m) howner hgeo
  rw [← hsame] at hcategory
  obtain ⟨named, hnamed, hgeo''⟩ := nameCategory_some hcategory hgeo'
  refine ⟨if "modified" ∈ named ∧ ¬ (named.get "modified").truthy then named.pop "modified"
    else named, ?_, ?_⟩
  · unfold namedFields
    rw [howned]
    change Option.bind (nameCategory db m owned) _ = _
    rw [hnamed]
    rfl
  · split_ifs
    · rw [Dict.mem_pop, not_and]
      exact fun _ => hgeo''
    · exact hgeo''

theorem namedFields_list (hrow : record ∈ db.rows .list) :
    ∃ fields, namedFields db .list record = some fields ∧ "geolat" ∉ fields := by
  refine namedFields_some (AccessControl.ownerOf_isSome hrow
    (List.mem_cons_of_mem _ (List.mem_singleton_self _)) (by decide)) (fun _ => ?_) ?_
  · have hget : (asDict db .list record).get "category_id" = record "category_id" := by
      simp [asDict, Model.columns, Model.restExclude, Model.restRelated, Model.restHybrid]
    rw [hget]
    rcases db.refers hrow (List.mem_cons_self : _ ∈ [⟨"category_id", .category, false⟩,
      Model.ownedBy]) with hnone | hfound
    · exact absurd hnone (db.ne_none hrow (by decide))
    · exact hfound
  · rw [asDict, mem_ofList]
    simp [Model.columns, Model.restExclude, Model.restRelated, Model.restHybrid]

theorem namedFields_message (hrow : record ∈ db.rows .message) :
    ∃ fields, namedFields db .message record = some fields ∧ "geolat" ∉ fields := by
  refine namedFields_some (AccessControl.ownerOf_isSome hrow (List.mem_cons_of_mem _
    (List.mem_cons_of_mem _ (List.mem_cons_of_mem _ (List.mem_singleton_self _)))) (by decide))
    (fun h => absurd h (by decide)) ?_
  rw [asDict, mem_ofList]
  simp [Model.columns, Model.restExclude, Model.restRelated, Model.restHybrid]

/-- Anything but 200 where the table has no entries for the resource. -/
theorem get_status_of_rbac (h : ∀ actions, AccessControl.rbacPermissions svc.policies db acc m
      { query := some (byId db m id), membership := some svc.policies.privateResource,
        id := Val.ofOption (authIds svc.policies acc).head? } ≠ .ok actions) :
    (get svc db acc m id).status ≠ 200 := by
  unfold get
  split
  · exact (by decide : (404 : ℕ) ≠ 200)
  · decide
  · split
    · decide
    · split
      · decide
      · rename_i actions hactions
        exact absurd hactions (h actions)

end BasicCrud

/-! ### The lists of others -/

open AccessControl BasicCrud

variable {svc : Service} {db : Database} {acc : Access} {m : Model} {id u level : String}
  {record : Row}

theorem listRules : ∃ rules, rulesOf examplePolicies .list = .ok rules ∧
    ∀ p ∈ rules, ListEntry "list" p := by
  refine ⟨_, rfl, fun p hp => ?_⟩
  simp only [List.mem_cons, List.not_mem_nil, or_false] at hp
  rcases hp with rfl | rfl | rfl | rfl | rfl
  · exact .admin _ _
  · exact .own _ _
  · exact @ListEntry.ofEntry "list" "manager" (by decide) _
  · exact @ListEntry.ofList "list" "member" (by decide) _
  · exact @ListEntry.ofList "list" "invitee" (by decide) _

theorem messageRules : ∃ rules, rulesOf examplePolicies .message = .ok rules ∧
    ∀ p ∈ rules, ListEntry "message" p := by
  refine ⟨_, rfl, fun p hp => ?_⟩
  simp only [basePolicies, List.cons_append, List.nil_append, List.mem_cons, List.not_mem_nil,
    or_false] at hp
  rcases hp with rfl | rfl | rfl | rfl
  · exact .admin _ _
  · exact .own _ _
  · exact @ListEntry.ofList "message" "manager" (by decide) _
  · exact @ListEntry.ofList "message" "invitee" (by decide) _

theorem user_ne_list {rest : String} : "user" ≠ "list-" ++ rest := by
  intro h
  have hfirst := congrArg (fun s => s.toList.head?) h
  simp at hfirst

/-- The arguments that `get` gives to the evaluation. -/
def getTarget (acc : Access) : Target :=
  { membership := some "list", id := Val.ofOption (authIds examplePolicies acc).head? }

/-- A record of another owner is answered to a session of a user when its privacy lets it, and only
then. -/
theorem get_member (hpol : svc.policies = examplePolicies) (h : MemberSession acc u)
    {rules : List Policy} (hrow : record ∈ db.rows m)
    (hrules : rulesOf examplePolicies m = .ok rules) (hentries : ∀ p ∈ rules, ListEntry m.resource p)
    (hkey : ["id"] ∈ schema.unique m) (hid : record "id" = .str id) {fields : Dict}
    (hnamed : namedFields db m record = some fields) (hgeo : "geolat" ∉ fields)
    (howner : (effectiveOwner db acc m (getTarget acc) record).text ≠ u)
    (hmember : (Word (membershipId examplePolicies m (getTarget acc) record).text ∧
        (membershipId examplePolicies m (getTarget acc) record).text ≠ "None") ∨
      ∀ level, ¬ acc.HasRole
        ("list-" ++ (membershipId examplePolicies m (getTarget acc) record).text ++ "-" ++ level)) :
    (get svc db acc m id).status = 200 ↔
      PrivacyOpen acc (viewed examplePolicies db acc m (getTarget acc) record) := by
  have hone := one_byId hrow hkey hid
  have howner' : (effectiveOwner db acc m (getTarget acc) record).text ≠ acc.uidText := by
    rw [Access.uidText, h.uid]
    exact howner
  have hrbac : rbacPermissions svc.policies db acc m
      { query := some (byId db m id), membership := some svc.policies.privateResource,
        id := Val.ofOption (authIds svc.policies acc).head? } =
      .ok (if PrivacyOpen acc (viewed examplePolicies db acc m (getTarget acc) record) then ['r']
        else []) := by
    rw [hpol, one_eq_ok.mp hone]
    exact rbac_member h hrow hrules hentries howner' hmember
  rw [get_status hone hnamed hgeo hrbac]
  split_ifs with hopen
  · simp [hopen]
  · simp [hopen]

/-- A list of another owner opens to a session without a role for it exactly when the session holds
the level of its privacy for the first of its own lists. -/
theorem getList_iff (hpol : svc.policies = examplePolicies) (h : MemberSession acc u)
    (hrow : record ∈ db.rows .list) (hid : record "id" = .str id)
    (howner : (record "uid").text ≠ u) (hprivacy : record "privacy" = .str level)
    (hpublic : level ≠ "public") :
    (get svc db acc .list id).status = 200 ↔
      ∃ first, (authIds examplePolicies acc).head? = some first ∧
        acc.HasRole ("list-" ++ first ++ "-" ++ level) := by
  obtain ⟨rules, hrules, hentries⟩ := listRules
  obtain ⟨fields, hnamed, hgeo⟩ := namedFields_list hrow
  have hkey : ["id"] ∈ schema.unique .list := by decide
  have hview : viewed examplePolicies db acc .list (getTarget acc) record =
      ⟨record "uid", if (getTarget acc).id.truthy then some "list" else none, (getTarget acc).id,
        .str level, false⟩ := by
    rw [← hprivacy]
    rfl
  cases hfirst : (authIds examplePolicies acc).head? with
  | none =>
      have hid' : (getTarget acc).id = .none := by rw [getTarget, hfirst]; rfl
      have hmember : ∀ level, ¬ acc.HasRole ("list-" ++ (getTarget acc).id.text ++ "-" ++ level) := by
        intro level hrole
        have huser := h.role_of_authIds rfl hfirst hrole
        rw [String.append_assoc, String.append_assoc] at huser
        exact user_ne_list huser.symm
      rw [get_member hpol h hrow hrules hentries hkey hid hnamed hgeo howner (Or.inr hmember), hview,
        hid']
      simp [PrivacyOpen, hpublic]
  | some first =>
      obtain ⟨hword, hne, hnone⟩ := h.mem_authIds rfl (List.mem_of_mem_head? hfirst)
      have hid' : (getTarget acc).id = .str first := by rw [getTarget, hfirst]; rfl
      have hmember : Word (getTarget acc).id.text ∧ (getTarget acc).id.text ≠ "None" := by
        rw [hid']
        exact ⟨hword, hnone⟩
      rw [get_member hpol h hrow hrules hentries hkey hid hnamed hgeo howner (Or.inl hmember), hview,
        hid']
      have htruthy : (Val.str first).truthy = true := by simpa [Val.truthy] using hne
      rw [if_pos htruthy]
      constructor
      · rintro (hopen | ⟨-, hrole⟩)
        · exact absurd (Val.str.inj hopen) hpublic
        · exact ⟨first, rfl, hrole⟩
      · rintro ⟨first', heq, hrole⟩
        cases heq
        exact Or.inr ⟨htruthy, hrole⟩

/-- A message to a list stays closed to a session without a role for that list. -/
theorem getMessage_closed (hpol : svc.policies = examplePolicies) (h : MemberSession acc u)
    (hrow : record ∈ db.rows .message) (hid : record "id" = .str id)
    (howner : (record "uid").text ≠ u) (hprivacy : record "privacy" = .str level)
    (hpublic : level ≠ "public")
    (hnone : ∀ level, ¬ acc.HasRole ("list-" ++ (record "list_id").text ++ "-" ++ level)) :
    (get svc db acc .message id).status ≠ 200 := by
  obtain ⟨rules, hrules, hentries⟩ := messageRules
  obtain ⟨fields, hnamed, hgeo⟩ := namedFields_message hrow
  have hkey : ["id"] ∈ schema.unique .message := by decide
  rw [ne_eq, get_member hpol h hrow hrules hentries hkey hid hnamed hgeo howner (Or.inr hnone)]
  rintro (hopen | ⟨htruthy, hrole⟩)
  · change record "privacy" = .str "public" at hopen
    rw [hprivacy] at hopen
    exact hpublic (Val.str.inj hopen)
  · change (record "list_id").truthy = true at htruthy
    have hmembership : (viewed examplePolicies db acc .message (getTarget acc) record).membership =
        some "list" := if_pos htruthy
    rw [hmembership] at hrole
    exact hnone _ hrole

/-- Where the table has no entries, nothing is answered. -/
theorem get_unlisted (hrules : ∀ rules, rulesOf svc.policies m ≠ .ok rules) :
    (get svc db acc m id).status ≠ 200 := by
  refine get_status_of_rbac fun actions h => ?_
  obtain ⟨r, -, h⟩ := Checks.bind_eq_ok.mp h
  obtain ⟨rules, hfound, -⟩ := Checks.bind_eq_ok.mp h
  exact hrules rules hfound

/-! ### Every record of a list -/

/-- The list that a record is or belongs to. -/
def listOf (m : Model) (record : Row) : Val :=
  if m = .list then record "id" else record "list_id"

theorem unlisted_rules (hm : m = .listMember ∨ m = .listMessage) (rules : List Policy) :
    rulesOf examplePolicies m ≠ .ok rules := by
  rcases hm with rfl | rfl
  · exact fun h => nomatch h
  · exact fun h => nomatch h

/-- Among the records of lists that a session of a user has no role for, what is answered is exactly
the lists whose privacy is a level that the session holds for the first of its own lists. -/
theorem get_closed_iff (hpol : svc.policies = examplePolicies) (h : MemberSession acc u)
    (hm : m = .list ∨ m.Has "list_id") (hrow : record ∈ db.rows m) (hid : record "id" = .str id)
    (howner : (record "uid").text ≠ u) (hprivacy : record "privacy" = .str level)
    (hlevel : level ≠ "public")
    (hnone : ∀ l, ¬ acc.HasRole ("list-" ++ (listOf m record).text ++ "-" ++ l)) :
    (get svc db acc m id).status ≠ 200 ↔
      ¬ (m = .list ∧ ∃ first, (authIds examplePolicies acc).head? = some first ∧
        acc.HasRole ("list-" ++ first ++ "-" ++ level)) := by
  by_cases hlist : m = .list
  · subst hlist
    rw [ne_eq, getList_iff hpol h hrow hid howner hprivacy hlevel]
    simp
  · have hclosed : (get svc db acc m id).status ≠ 200 := by
      have hhas := hm.resolve_left hlist
      have hlistOf : listOf m record = record "list_id" := if_neg hlist
      rw [hlistOf] at hnone
      cases m with
      | message => exact getMessage_closed hpol h hrow hid howner hprivacy hlevel hnone
      | listMember => exact get_unlisted fun rules => hpol ▸ unlisted_rules (Or.inl rfl) rules
      | listMessage => exact get_unlisted fun rules => hpol ▸ unlisted_rules (Or.inr rfl) rules
      | list => exact absurd rfl hlist
      | _ => exact absurd hhas (by decide)
    exact ⟨fun _ hopen => hlist hopen.1, fun _ => hclosed⟩

/-- A user with one role of the first list. -/
theorem oneList_session {acc : Access} {level : String} (hword : Word level)
    (hhyphen : '-' ∉ level.toList) (hauth : acc.auth = some ["user", "list-x-list1-" ++ level])
    (huid : acc.uid = some u) : MemberSession acc u where
  uid := huid
  user := ⟨_, hauth, List.mem_cons_self⟩
  roles := by
    rintro role ⟨roles, hroles, hmem⟩
    cases hauth.symm.trans hroles
    rcases List.mem_cons.mp hmem with rfl | hmem
    · exact Or.inl rfl
    · rw [List.mem_singleton.mp hmem]
      exact Or.inr ⟨"x-list1", level, rfl, by decide, by decide, by decide, hword, hhyphen⟩

/-- It is no role of the second list. -/
theorem oneList_none {acc : Access} {level : String}
    (hauth : acc.auth = some ["user", "list-x-list1-" ++ level]) (l : String) :
    ¬ acc.HasRole ("list-x-list2-" ++ l) := by
  rintro ⟨roles, hroles, hmem⟩
  cases hauth.symm.trans hroles
  rcases List.mem_cons.mp hmem with h | hmem
  · have hfirst := congrArg (fun s => s.toList.head?) h
    simp at hfirst
  · have hdigit := congrArg (fun s => (s.toList.drop 11).head?) (List.mem_singleton.mp hmem)
    simp at hdigit

theorem memberList_mem : memberList "x-list2" ∈ listed.rows .list :=
  List.mem_cons_of_mem _ (List.mem_singleton_self _)

/-- Those invited to the first list do not get the second, whose privacy is for members. -/
theorem invitee_closed : (get Seed.service listed inviteeAccess .list "x-list2").status ≠ 200 := by
  have hsession : MemberSession inviteeAccess "u-0002" :=
    @oneList_session "u-0002" inviteeAccess "invitee" (by decide) (by decide) rfl rfl
  have hnone : ∀ l, ¬ inviteeAccess.HasRole
      ("list-" ++ (listOf .list (memberList "x-list2")).text ++ "-" ++ l) :=
    @oneList_none inviteeAccess "invitee" rfl
  have howner : ((memberList "x-list2") "uid").text ≠ "u-0002" := by decide +kernel
  refine (get_closed_iff rfl hsession (Or.inl rfl) memberList_mem rfl howner
    (rfl : (memberList "x-list2") "privacy" = .str "member") (by decide) hnone).mpr ?_
  rintro ⟨-, first, hfirst, hrole⟩
  have hhead : (authIds examplePolicies inviteeAccess).head? = some "x-list1" := by decide +kernel
  cases hhead.symm.trans hfirst
  exact absurd hrole (by decide)

/-- Its members do. -/
theorem list_opened : memberList "x-list2" ∈ listed.rows .list ∧
    memberList "x-list2" "uid" = .str "x-23450001" ∧
    memberList "x-list2" "privacy" = .str "member" ∧
    memberAccess.uid = some "u-0002" ∧ memberAccess.HasRole "user" ∧
    ¬ memberAccess.HasRole "admin" ∧ (∀ l, ¬ memberAccess.HasRole ("list-x-list2-" ++ l)) ∧
    (get Seed.service listed memberAccess .list "x-list2").status = 200 :=
  ⟨memberList_mem, rfl, rfl, rfl, by decide, by decide, @oneList_none memberAccess "member" rfl,
    by decide +kernel⟩

end Apicrud
