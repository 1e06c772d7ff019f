import Apicrud.SessionManager

/-! # Role-based access control

The policy table of `rbac.yaml`, the principal that the headers of a request stand for, and the
evaluation of a request against the table: `rbacPermissions` collects the actions of every policy
that applies to a role of the principal, and falls back to the defaults that the privacy of the
record and the `*` policies give.

`mem_rbacPermissions` says where an action can come from; every later result about who may do
what is read off it and off the entries of the table. -/

namespace Apicrud

open Relational

/-! ### Policies -/

/-- An entry of `rbac.yaml` as written. -/
structure RawPolicy where
  principal : String
  resource : String
  actions : String

/-- A loaded policy: the braces that are left are filled in at each request. -/
structure Policy where
  principal : String
  resource : String
  actions : List Char
deriving DecidableEq

/-- `rbac.yaml` -/
structure Rbac where
  privacyLevels : List String
  /-- The resource that defines privacy for others, and the attribute that names it. -/
  privateResource : String
  privateAttr : String
  policies : List (String × List RawPolicy)

/-- The loaded table. -/
structure Policies where
  privacyLevels : List String
  privateResource : String
  privateAttr : String
  rules : List (String × List Policy)
deriving DecidableEq

namespace RawPolicy

/-- One entry, loaded for a resource; `none` where `format` raises. -/
def load (res : String) (item : RawPolicy) : Option Policy := do
  let principal ← Text.format [] item.principal
  let resource ← Text.format [("resource", res)] item.resource
  pure ⟨Text.replace principal '*' ".*", Text.replace resource '*' ".*", item.actions.toList⟩

end RawPolicy

/-- `load_rbac` -/
def loadRbac (rbac : Rbac) : Option Policies := do
  let rules ← rbac.policies.mapM fun entry => do
    let rules ← entry.2.mapM (RawPolicy.load entry.1)
    pure (entry.1, rules)
  pure ⟨rbac.privacyLevels, rbac.privateResource, rbac.privateAttr, rules⟩

/-! ### Principals -/

/-- The attributes of an `AccessControl` object. -/
structure Access where
  auth : Option (List String) := none
  uid : Option String := none
  accountId : Val := .none
  authMethod : Val := .none
  identity : Val := .none
  apikeyId : Option String := none

/-- A request without valid credentials. -/
def Access.anonymous : Access := {}

/-- The object after a session was found: the other values are read under the same secret, which
for an API key is not the token of its session. -/
def Access.ofSession (redis : Redis) (now : ℕ) (roles : List String) (uid : Option String)
    (secret : String) (apikeyId : Option String) : Access where
  auth := some roles
  uid := uid
  accountId := SessionManager.get redis now uid secret "acc"
  authMethod := SessionManager.get redis now uid secret "method"
  identity := SessionManager.get redis now uid secret "identity"
  apikeyId := apikeyId

/-- `item.get('sub')` -/
def Session.sub (ses : Session) : Option String :=
  match ses.get "sub" with
  | .str uid => some uid
  | _ => none

/-- `AccessControl()` for the headers of a request. -/
def accessControl (lib : Lib) (redis : Redis) (now : ℕ) (h : Headers) : Access :=
  match h.apikey with
  | some header =>
      match Text.split header '.' with
      | [pre, secret] =>
          match SessionManager.find redis now none (Text.firstEight (lib.apikeyHash secret))
              (some pre) with
          | some item => .ofSession redis now item.roles item.sub secret (some pre)
          | none => .anonymous
      | _ => .anonymous
  | none =>
      match h.authorization with
      | some (uid, secret) =>
          match SessionManager.find redis now (some uid) secret none with
          | some item => .ofSession redis now item.roles (some uid) secret none
          | none => .anonymous
      | none => .anonymous

/-- `role in self.auth`, for a principal that may have none. -/
def Access.HasRole (acc : Access) (role : String) : Prop := ∃ roles, acc.auth = some roles ∧ role ∈ roles

instance (acc : Access) (role : String) : Decidable (acc.HasRole role) :=
  match h : acc.auth with
  | some roles => decidable_of_iff (role ∈ roles) (by simp [Access.HasRole, h])
  | none => isFalse (by simp [Access.HasRole, h])

/-- `self.uid`, as text. -/
def Access.uidText (acc : Access) : String := acc.uid.getD "None"

/-! ### Evaluation -/

/-- The arguments of `rbac_permissions`. -/
structure Target where
  query : Option (List Row) := none
  ownerUid : Val := .none
  membership : Option String := none
  id : Val := .none
  privacy : Val := .none

/-- What the policies are compared with, once the record has been looked at. -/
structure Resolved where
  ownerUid : Val
  membership : Option String
  id : Val
  privacy : Val
  denyDelete : Bool

/-- `record.owner` -/
def ownerOf (db : Database) (record : Row) : Option Row :=
  (db.rows .person).find? fun person => decide (person "id" = record "uid")

/-- `filter_by(identity=info).one()` finds a person. -/
def IsIdentity (db : Database) (info : Val) : Prop :=
  (db.rows .person).filter (fun person => decide (person "identity" = info)) ≠ []

instance (db : Database) (info : Val) : Decidable (IsIdentity db info) :=
  inferInstanceAs (Decidable (_ ≠ _))

namespace AccessControl

/-- The first part of `rbac_permissions`: owner, privacy and membership from the record. -/
def fromRecord (pol : Policies) (m : Model) (t : Target) : Except Exc Target :=
  match t.query with
  | none => .ok t
  | some rows =>
      match one rows with
      | .ok record => .ok {
          t with
          ownerUid :=
            if m.Has "uid" then record "uid"
            else if m.Has "referrer_id" then
              if (record "referrer_id").truthy then record "referrer_id" else record "id"
            else t.ownerUid
          privacy := if m.Has "privacy" then record "privacy" else t.privacy
          membership := if m.Has pol.privateAttr then some pol.privateResource else t.membership
          id := if m.Has pol.privateAttr then record pol.privateAttr else t.id }
      | .error .noResultFound => .ok t
      | .error .multipleResultsFound => .error .other

/-- The special cases of contacts: the referrer stands in for the owner, and the primary contact
is not deleted. -/
def resolve (pol : Policies) (db : Database) (acc : Access) (m : Model) (target : Target) :
    Except Exc Resolved := do
  let t ← fromRecord pol m target
  let membership := if t.id.truthy then t.membership else none
  match m, t.query with
  | .contact, some rows =>
      let ownerUid ←
        if acc.uid.isSome ∧ acc.uid ≠ some "" ∧ Val.ofOption acc.uid ≠ t.ownerUid then
          match one rows with
          | .ok record =>
              match ownerOf db record with
              | some owner =>
                  if (owner "referrer_id").truthy then .ok (owner "referrer_id") else .ok t.ownerUid
              | none => .error .other
          | .error .noResultFound => .error .noResultFound
          | .error .multipleResultsFound => .error .other
        else .ok t.ownerUid
      match one rows with
      | .ok record => pure ⟨ownerUid, membership, t.id, t.privacy,
          decide (IsIdentity db (record "info"))⟩
      | .error _ => pure ⟨ownerUid, membership, t.id, t.privacy, false⟩
  | _, _ => pure ⟨t.ownerUid, membership, t.id, t.privacy, false⟩

/-- `text.format(eid=id, list_id=id, uid=uid)` -/
def fill (id uid : String) (text : String) : Except Exc String :=
  match Text.format [("eid", id), ("list_id", id), ("uid", uid)] text with
  | some s => .ok s
  | none => .error .other

/-- `re.match(pattern, subject)` -/
def reMatch (pattern subject : String) : Except Exc Bool :=
  match Regex.isMatch id pattern subject with
  | some b => .ok b
  | none => .error .other

/-- `re.match('^%s$' % policy['resource'].format(..), '%s:%s' % (self.resource, match_id))` -/
def resourceMatches (acc : Access) (m : Model) (r : Resolved) (policy : Policy) :
    Except Exc Bool := do
  let matchId :=
    if Text.Contains policy.resource "uid" then acc.uidText
    else if Text.Contains policy.resource "eid" then r.id.text
    else "None"
  let resource ← fill r.id.text r.ownerUid.text policy.resource
  reMatch ("^" ++ resource ++ "$") (m.resource ++ ":" ++ matchId)

/-- The role as the policies spell it. -/
def roleName (role : String) : String :=
  if role = "person" ∨ role = "user" then role ++ "/{uid}" else role

/-- Whether a policy applies to one role. -/
def applies (acc : Access) (m : Model) (r : Resolved) (policy : Policy) (role : String) :
    Except Exc Bool := do
  let role := roleName role
  let principal ← fill r.id.text r.ownerUid.text policy.principal
  let name ← fill r.id.text acc.uidText role
  let direct ← if principal = name then resourceMatches acc m r policy else .ok false
  if direct then .ok true
  else
    match r.membership with
    | some membership =>
        if policy.principal = membership ++ "-*" ∧ (Text.split role '-').headD "" = membership then
          resourceMatches acc m r policy
        else .ok false
    | none => .ok false

/-- Some role passes; all are tried. -/
def someRole (f : String → Except Exc Bool) : List String → Except Exc Bool
  | [] => .ok false
  | role :: roles => do
      let hit ← f role
      let rest ← someRole f roles
      pure (hit || rest)

/-- One policy: the actions and the defaults collected so far are extended. -/
def consider (acc : Access) (m : Model) (r : Resolved) (st : List Char × List Char)
    (policy : Policy) : Except Exc (List Char × List Char) :=
  if policy.principal = ".*" then .ok (st.1, policy.actions)
  else
    match acc.auth with
    | some roles => do
        let hit ← someRole (applies acc m r policy) roles
        pure (if hit then st.1 ++ policy.actions else st.1, st.2)
    | none => .ok st

/-- The record is open to read by its privacy. -/
def PrivacyOpen (acc : Access) (r : Resolved) : Prop :=
  r.privacy = .str "public" ∨ (r.id.truthy ∧
    acc.HasRole (r.membership.getD "None" ++ "-" ++ r.id.text ++ "-" ++ r.privacy.text))

instance (acc : Access) (r : Resolved) : Decidable (PrivacyOpen acc r) :=
  inferInstanceAs (Decidable (_ ∨ _))

/-- `self.policies[self.resource]` -/
def rulesOf (pol : Policies) (m : Model) : Except Exc (List Policy) :=
  match pol.rules.lookup m.resource with
  | some rules => .ok rules
  | none => .error .other

/-- The policies of the resource, considered in turn. -/
def evaluate (acc : Access) (m : Model) (r : Resolved) (rules : List Policy) :
    Except Exc (List Char × List Char) :=
  rules.foldlM (consider acc m r) ([], if PrivacyOpen acc r then ['r'] else [])

/-- `rbac_permissions`: the actions available to the principal. -/
def rbacPermissions (pol : Policies) (db : Database) (acc : Access) (m : Model) (t : Target) :
    Except Exc (List Char) := do
  let r ← resolve pol db acc m t
  let rules ← rulesOf pol m
  let (actions, defaults) ← evaluate acc m r rules
  let actions := if r.denyDelete then actions.filter (· ≠ 'd') else actions
  pure (if actions = [] then defaults else actions)

/-- `with_permission` -/
def withPermission (pol : Policies) (db : Database) (acc : Access) (m : Model) (access : Char)
    (t : Target) : Except Exc Bool := do
  let rbac ← rbacPermissions pol db acc m t
  pure (decide (access ∈ rbac))

/-! ### Where an action comes from -/

/-- What puts an action into the result. -/
inductive Source (acc : Access) (m : Model) (r : Resolved) (rules : List Policy) (x : Char) : Prop
  | privacy (hopen : PrivacyOpen acc r) (hx : x = 'r')
  | everyone (policy : Policy) (hpolicy : policy ∈ rules) (hall : policy.principal = ".*")
      (hx : x ∈ policy.actions)
  | role (policy : Policy) (hpolicy : policy ∈ rules) (role : String) (hrole : acc.HasRole role)
      (happlies : applies acc m r policy role = .ok true) (hx : x ∈ policy.actions)
      (hdeny : x = 'd' → r.denyDelete = false)

theorem exists_of_someRole {f : String → Except Exc Bool} {roles : List String}
    (h : someRole f roles = .ok true) : ∃ role ∈ roles, f role = .ok true := by
  induction roles with
  | nil => cases h
  | cons role roles ih =>
      obtain ⟨hit, hhit, h⟩ := Checks.bind_eq_ok.mp h
      obtain ⟨rest, hrest, h⟩ := Checks.bind_eq_ok.mp h
      rw [Checks.pure_eq_ok, Bool.or_eq_true] at h
      rcases h with rfl | rfl
      · exact ⟨role, List.mem_cons_self, hhit⟩
      · obtain ⟨role', hmem, hrole'⟩ := ih hrest
        exact ⟨role', List.mem_cons_of_mem _ hmem, hrole'⟩

/-- One policy adds its own actions only, and to the actions only when it applies to a role. -/
theorem consider_cases {acc : Access} {m : Model} {r : Resolved} {st st' : List Char × List Char}
    {policy : Policy} (h : consider acc m r st policy = .ok st') :
    (policy.principal = ".*" ∧ st' = (st.1, policy.actions)) ∨
    (st'.2 = st.2 ∧ (st'.1 = st.1 ∨ (st'.1 = st.1 ++ policy.actions ∧
      ∃ role, acc.HasRole role ∧ applies acc m r policy role = .ok true))) := by
  unfold consider at h
  split_ifs at h with hall
  · cases h
    exact Or.inl ⟨hall, rfl⟩
  · refine Or.inr ?_
    cases hauth : acc.auth with
    | none =>
        rw [hauth] at h
        cases h
        exact ⟨rfl, Or.inl rfl⟩
    | some roles =>
        rw [hauth] at h
        obtain ⟨hit, hhit, h⟩ := Checks.bind_eq_ok.mp h
        rw [Checks.pure_eq_ok] at h
        subst h
        cases hit with
        | false => exact ⟨rfl, Or.inl rfl⟩
        | true =>
            obtain ⟨role, hmem, hrole⟩ := exists_of_someRole hhit
            exact ⟨rfl, Or.inr ⟨rfl, role, ⟨roles, hauth, hmem⟩, hrole⟩⟩

/-- What the policies add, the induction being on the table. -/
theorem mem_foldlM_consider {acc : Access} {m : Model} {r : Resolved} {rules : List Policy}
    {st st' : List Char × List Char} (h : rules.foldlM (consider acc m r) st = .ok st')
    (x : Char) :
    (x ∈ st'.1 → x ∈ st.1 ∨ ∃ policy ∈ rules, x ∈ policy.actions ∧
      ∃ role, acc.HasRole role ∧ applies acc m r policy role = .ok true) ∧
    (x ∈ st'.2 → x ∈ st.2 ∨ ∃ policy ∈ rules, policy.principal = ".*" ∧ x ∈ policy.actions) := by
  induction rules generalizing st with
  | nil =>
      cases h
      exact ⟨Or.inl, Or.inl⟩
  | cons policy rules ih =>
      rw [List.foldlM_cons] at h
      obtain ⟨mid, hmid, h⟩ := Checks.bind_eq_ok.mp h
      obtain ⟨ih1, ih2⟩ := ih h
      have hself : policy ∈ policy :: rules := List.mem_cons_self
      rcases consider_cases hmid with ⟨hall, rfl⟩ | ⟨h2, h1⟩
      · refine ⟨fun hx => ?_, fun hx => ?_⟩
        · rcases ih1 hx with hx | ⟨p, hp, hrest⟩
          · exact Or.inl hx
          · exact Or.inr ⟨p, List.mem_cons_of_mem _ hp, hrest⟩
        · rcases ih2 hx with hx | ⟨p, hp, hrest⟩
          · exact Or.inr ⟨policy, hself, hall, hx⟩
          · exact Or.inr ⟨p, List.mem_cons_of_mem _ hp, hrest⟩
      · refine ⟨fun hx => ?_, fun hx => ?_⟩
        · rcases ih1 hx with hx | ⟨p, hp, hrest⟩
          · rcases h1 with h1 | ⟨h1, hrole⟩
            · exact Or.inl (h1 ▸ hx)
            · rw [h1, List.mem_append] at hx
              exact hx.imp_right fun hx => ⟨policy, hself, hx, hrole⟩
          · exact Or.inr ⟨p, List.mem_cons_of_mem _ hp, hrest⟩
        · rcases ih2 hx with hx | ⟨p, hp, hrest⟩
          · exact Or.inl (h2 ▸ hx)
          · exact Or.inr ⟨p, List.mem_cons_of_mem _ hp, hrest⟩

/-- Every action of the result has a source. -/
theorem mem_rbacPermissions {pol : Policies} {db : Database} {acc : Access} {m : Model}
    {t : Target} {actions : List Char} (h : rbacPermissions pol db acc m t = .ok actions)
    {x : Char} (hx : x ∈ actions) :
    ∃ r rules, resolve pol db acc m t = .ok r ∧ rulesOf pol m = .ok rules ∧
      Source acc m r rules x := by
  obtain ⟨r, hr, h⟩ := Checks.bind_eq_ok.mp h
  obtain ⟨rules, hrules, h⟩ := Checks.bind_eq_ok.mp h
  obtain ⟨⟨found, defaults⟩, hst, h⟩ := Checks.bind_eq_ok.mp h
  refine ⟨r, rules, hr, hrules, ?_⟩
  rw [Checks.pure_eq_ok] at h
  obtain ⟨hfound, hdefaults⟩ := mem_foldlM_consider hst x
  split_ifs at h with hdeny hempty hempty <;> subst h
  case pos | pos =>
    rcases hdefaults hx with hx | ⟨policy, hpolicy, hall, hx⟩
    · split_ifs at hx with hopen
      · exact .privacy hopen (by simpa using hx)
      · cases hx
    · exact .everyone policy hpolicy hall hx
  case neg =>
    obtain ⟨hx, hd⟩ := List.mem_filter.mp hx
    rcases hfound hx with hx | ⟨policy, hpolicy, hx, role, hrole, happlies⟩
    · cases hx
    · exact .role policy hpolicy role hrole happlies hx fun h => by simp [h] at hd
  case neg =>
    rcases hfound hx with hx | ⟨policy, hpolicy, hx, role, hrole, happlies⟩
    · cases hx
    · exact .role policy hpolicy role hrole happlies hx fun _ => by simpa using hdeny

/-! ### Evaluation that raises nothing -/

section Evaluation

variable {acc : Access} {m : Model} {r : Resolved} {rules : List Policy} {pol : Policies}
  {db : Database} {t : Target}

theorem someRole_ok {f : String → Except Exc Bool} {roles : List String}
    (h : ∀ role ∈ roles, ∃ b, f role = .ok b) :
    ∃ b, someRole f roles = .ok b ∧ ((∃ role ∈ roles, f role = .ok true) → b = true) := by
  induction roles with
  | nil => exact ⟨false, rfl, by simp⟩
  | cons role roles ih =>
      obtain ⟨hit, hhit⟩ := h role List.mem_cons_self
      obtain ⟨rest, hrest, htrue⟩ := ih fun role hrole => h role (List.mem_cons_of_mem _ hrole)
      refine ⟨hit || rest, ?_, ?_⟩
      · rw [someRole, hhit, hrest]
        rfl
      · rintro ⟨role', hmem, hrole'⟩
        rcases List.mem_cons.mp hmem with rfl | hmem
        · cases hhit.symm.trans hrole'
          rfl
        · rw [htrue ⟨role', hmem, hrole'⟩, Bool.or_true]

/-- Some entry for a role applies. -/
def Applied (acc : Access) (m : Model) (r : Resolved) (p : Policy) : Prop :=
  p.principal ≠ ".*" ∧ ∃ role, acc.HasRole role ∧ applies acc m r p role = .ok true

/-- One entry that is for a role adds its actions when it applies, and leaves the defaults. -/
theorem consider_ok {p : Policy} (hall : p.principal ≠ ".*")
    (h : ∀ role, acc.HasRole role → ∃ b, applies acc m r p role = .ok b)
    (st : List Char × List Char) :
    ∃ st', consider acc m r st p = .ok st' ∧ st'.2 = st.2 ∧
      (st'.1 = st.1 ∨ st'.1 = st.1 ++ p.actions) ∧
      (Applied acc m r p → st'.1 = st.1 ++ p.actions) := by
  cases hauth : acc.auth with
  | none =>
      refine ⟨st, ?_, rfl, Or.inl rfl, ?_⟩
      · rw [consider, if_neg hall, hauth]
      · rintro ⟨-, role, ⟨roles, hroles, -⟩, -⟩
        rw [hauth] at hroles
        cases hroles
  | some roles =>
      obtain ⟨hit, hhit, htrue⟩ := someRole_ok fun role hmem => h role ⟨roles, hauth, hmem⟩
      refine ⟨(if hit then st.1 ++ p.actions else st.1, st.2), ?_, rfl, ?_, ?_⟩
      · rw [consider, if_neg hall, hauth]
        simp only [hhit]
        rfl
      · cases hit
        · exact Or.inl rfl
        · exact Or.inr rfl
      · rintro ⟨-, role, ⟨roles', hauth', hmem⟩, happlies⟩
        cases hauth.symm.trans hauth'
        rw [htrue ⟨role, hmem, happlies⟩, if_pos rfl]

/-- When no entry raises, every entry that applies adds its actions, the induction being on the
table. -/
theorem foldlM_applied (h : ∀ p ∈ rules, p.principal ≠ ".*" → ∀ role, acc.HasRole role →
    ∃ b, applies acc m r p role = .ok b) (st : List Char × List Char) :
    ∃ st', rules.foldlM (consider acc m r) st = .ok st' ∧ (∀ x ∈ st.1, x ∈ st'.1) ∧
      ∀ p ∈ rules, Applied acc m r p → ∀ x ∈ p.actions, x ∈ st'.1 := by
  induction rules generalizing st with
  | nil => exact ⟨st, rfl, fun x hx => hx, by simp⟩
  | cons p rules ih =>
      have ih := ih fun q hq => h q (List.mem_cons_of_mem _ hq)
      by_cases hall : p.principal = ".*"
      · obtain ⟨st', hst', hkept, hadded⟩ := ih (st.1, p.actions)
        refine ⟨st', ?_, hkept, fun q hq happlied => ?_⟩
        · rw [List.foldlM_cons, consider, if_pos hall]
          exact hst'
        · rcases List.mem_cons.mp hq with rfl | hq
          · exact absurd hall happlied.1
          · exact hadded q hq happlied
      · obtain ⟨mid, hmid, -, hmid1, happly⟩ := consider_ok hall (h p List.mem_cons_self hall) st
        obtain ⟨st', hst', hkept, hadded⟩ := ih mid
        have hmore : ∀ x ∈ st.1, x ∈ mid.1 := by
          intro x hx
          rcases hmid1 with h1 | h1
          · rwa [h1]
          · exact h1 ▸ List.mem_append_left _ hx
        refine ⟨st', ?_, fun x hx => hkept x (hmore x hx), fun q hq happlied x hx => ?_⟩
        · rw [List.foldlM_cons, hmid]
          exact hst'
        · rcases List.mem_cons.mp hq with rfl | hq
          · exact hkept x (happly happlied ▸ List.mem_append_right _ hx)
          · exact hadded q hq happlied x hx

/-- What is found for roles, without the denied action. -/
def granted (r : Resolved) (found : List Char) : List Char :=
  if r.denyDelete then found.filter (· ≠ 'd') else found

/-- The result of the evaluation. -/
theorem rbacPermissions_eq {st : List Char × List Char} (hr : resolve pol db acc m t = .ok r)
    (hrules : rulesOf pol m = .ok rules) (hst : evaluate acc m r rules = .ok st) :
    rbacPermissions pol db acc m t =
      .ok (if granted r st.1 = [] then st.2 else granted r st.1) := by
  unfold rbacPermissions
  rw [hr]
  change Except.bind (rulesOf pol m) _ = _
  rw [hrules]
  change Except.bind (evaluate acc m r rules) _ = _
  rw [hst]
  rfl

end Evaluation

end AccessControl

/-- A configured service: settings, libraries and policies. -/
structure Service where
  conf : Config
  lib : Lib
  policies : Policies

end Apicrud
