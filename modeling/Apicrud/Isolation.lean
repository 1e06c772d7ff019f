import Apicrud.Seed
import Apicrud.Words

/-! # Records of other owners

On a resource whose entries are for `admin`, for everyone, and for the owner, a session without
the `admin` role gets nothing from the entries on a record of another owner: the principal
`user/{uid}` is filled with the owner of the record and the role with the user of the session, so the two
texts differ before any pattern is looked at (`rbac_otherOwner`).  That holds whatever the ids
are made of. -/

namespace Apicrud

open Relational

/-! ### What a record is judged by -/

/-- The owner that the policies see: the referrer stands in for a person, and for the owner of another's
contact. -/
def effectiveOwner (db : Database) (acc : Access) (m : Model) (t : Target) (record : Row) : Val :=
  match m with
  | .person => if (record "referrer_id").truthy then record "referrer_id" else record "id"
  | .contact =>
      if acc.uid.isSome ∧ acc.uid ≠ some "" ∧ Val.ofOption acc.uid ≠ record "uid" then
        match ownerOf db record with
        | some owner =>
            if (owner "referrer_id").truthy then owner "referrer_id" else record "uid"
        | none => record "uid"
      else record "uid"
  | m => if m.Has "uid" then record "uid" else t.ownerUid

/-- The id of the membership: the attribute of the record, or else what the caller names. -/
def membershipId (pol : Policies) (m : Model) (t : Target) (record : Row) : Val :=
  if m.Has pol.privateAttr then record pol.privateAttr else t.id

/-- What the policies are compared with, for a record. -/
def viewed (pol : Policies) (db : Database) (acc : Access) (m : Model) (t : Target) (record : Row) :
    Resolved where
  ownerUid := effectiveOwner db acc m t record
  membership :=
    if (membershipId pol m t record).truthy then
      if m.Has pol.privateAttr then some pol.privateResource else t.membership
    else none
  id := membershipId pol m t record
  privacy := if m.Has "privacy" then record "privacy" else t.privacy
  denyDelete := decide (m = .contact ∧ IsIdentity db (record "info"))

namespace AccessControl

variable {pol : Policies} {db : Database} {acc : Access} {m : Model} {t : Target} {record : Row}
  {r : Resolved} {rules : List Policy}

/-- The person that a row with an owner column names. -/
theorem ownerOf_isSome (hrow : record ∈ db.rows m) (hfk : Model.ownedBy ∈ schema.foreign m)
    (huid : "uid" ∈ schema.notNull m) : ∃ owner, ownerOf db record = some owner := by
  rcases db.refers hrow hfk with hnone | ⟨person, hperson, hid⟩
  · exact absurd hnone (db.ne_none hrow huid)
  · have hfound : (ownerOf db record).isSome := by
      unfold ownerOf
      rw [List.find?_isSome]
      exact ⟨person, hperson, decide_eq_true hid⟩
    exact Option.isSome_iff_exists.mp hfound

theorem fromRecord_record : fromRecord pol m { t with query := some [record] } =
    .ok { t with
      query := some [record]
      ownerUid :=
        if m.Has "uid" then record "uid"
        else if m.Has "referrer_id" then
          if (record "referrer_id").truthy then record "referrer_id" else record "id"
        else t.ownerUid
      privacy := if m.Has "privacy" then record "privacy" else t.privacy
      membership := if m.Has pol.privateAttr then some pol.privateResource else t.membership
      id := membershipId pol m t record } := rfl

/-- Looking at one record raises nothing. -/
theorem resolve_record (hrow : record ∈ db.rows m) :
    resolve pol db acc m { t with query := some [record] } =
      .ok (viewed pol db acc m t record) := by
  unfold resolve
  rw [fromRecord_record]
  cases m with
  | contact =>
      obtain ⟨owner, howner⟩ := ownerOf_isSome hrow (List.mem_singleton_self _) (by decide)
      have huid : Model.contact.Has "uid" := by decide
      simp only [bind, Except.bind, pure, Except.pure, one, viewed, effectiveOwner, howner, huid,
        if_true, true_and]
      split
      · split
        · rfl
        · rfl
      · rfl
  | _ => rfl

/-! ### Entries that do not apply -/

/-- The defaults that the entries for everyone leave. -/
def lastEveryone (rules : List Policy) (default : List Char) : List Char :=
  rules.foldl (fun found p => if p.principal = ".*" then p.actions else found) default

theorem someRole_false {f : String → Except Exc Bool} {roles : List String}
    (h : ∀ role ∈ roles, f role = .ok false) : someRole f roles = .ok false := by
  induction roles with
  | nil => rfl
  | cons role roles ih =>
      rw [someRole, h role List.mem_cons_self,
        ih fun role hrole => h role (List.mem_cons_of_mem _ hrole)]
      rfl

/-- When no entry applies to a role, the last one for everyone decides. -/
theorem foldlM_default (h : ∀ p ∈ rules, p.principal ≠ ".*" → ∀ role, acc.HasRole role →
    applies acc m r p role = .ok false) (st : List Char × List Char) :
    rules.foldlM (consider acc m r) st = .ok (st.1, lastEveryone rules st.2) := by
  induction rules generalizing st with
  | nil => rfl
  | cons p rules ih =>
      have ih := ih fun q hq => h q (List.mem_cons_of_mem _ hq)
      by_cases hall : p.principal = ".*"
      · rw [List.foldlM_cons, consider, if_pos hall, lastEveryone, List.foldl_cons, if_pos hall]
        exact ih (st.1, p.actions)
      · have hkept : consider acc m r st p = .ok st := by
          unfold consider
          rw [if_neg hall]
          cases hauth : acc.auth with
          | none => rfl
          | some roles =>
              have hnone := someRole_false fun role hmem =>
                h p List.mem_cons_self hall role ⟨roles, hauth, hmem⟩
              simp only [hnone]
              rfl
        rw [List.foldlM_cons, hkept, lastEveryone, List.foldl_cons, if_neg hall]
        exact ih st

/-- When no entry applies to a role, the evaluation gives the defaults. -/
theorem rbacPermissions_default (hr : resolve pol db acc m t = .ok r)
    (hrules : rulesOf pol m = .ok rules)
    (h : ∀ p ∈ rules, p.principal ≠ ".*" → ∀ role, acc.HasRole role →
      applies acc m r p role = .ok false) :
    rbacPermissions pol db acc m t =
      .ok (lastEveryone rules (if PrivacyOpen acc r then ['r'] else [])) := by
  rw [rbacPermissions_eq hr hrules (foldlM_default h _)]
  cases hdeny : r.denyDelete <;> simp [granted, hdeny]

/-- The wildcard of a membership ends in an asterisk. -/
theorem wildcard_ne {s : String} (h : s.toList.getLast? ≠ some '*') (membership : String) :
    s ≠ membership ++ "-*" := by
  rintro rfl
  refine h ?_
  rw [String.toList_append]
  change (membership.toList ++ ['-', '*']).getLast? = some '*'
  simp

/-- An entry does not apply to a role that reads otherwise than its principal, unless the principal is
the wildcard of a membership. -/
theorem applies_ne {p : Policy} {role principal name : String}
    (hprincipal : fill r.id.text r.ownerUid.text p.principal = .ok principal)
    (hname : fill r.id.text acc.uidText (roleName role) = .ok name) (hne : principal ≠ name)
    (hwild : ∀ membership, p.principal ≠ membership ++ "-*") : applies acc m r p role = .ok false := by
  unfold applies
  simp only [hprincipal, hname]
  cases r.membership with
  | none => simp [bind, Except.bind, hne]
  | some membership => simp [bind, Except.bind, hne, hwild membership]

end AccessControl

/-! ### Entries for the owner -/

/-- The entries that know no membership. -/
inductive OwnerEntry : RawPolicy → Prop
  | admin (actions : String) : OwnerEntry ⟨"admin", "{resource}:*", actions⟩
  | everyone (resource actions : String) : OwnerEntry ⟨"*", resource, actions⟩
  | own (actions : String) : OwnerEntry ⟨"user/{{uid}}", "{resource}:{{uid}}", actions⟩

/-- A role `<membership>-<id>-<level>` that formats. -/
def MembershipRole (role : String) : Prop :=
  Text.Formats ["eid", "list_id", "uid"] role ∧
    ∃ res rest, role = res ++ "-" ++ rest ∧ '/' ∉ res.toList ∧ Text.NoBrace res

namespace AccessControl

variable {pol : Policies} {db : Database} {acc : Access} {m : Model} {t : Target} {record : Row}
  {r : Resolved} {rules : List Policy}

/-- What a membership role reads as begins like it. -/
theorem fill_membership {role : String} (h : MembershipRole role) (id uid : String) :
    ∃ res rest, fill id uid (roleName role) = .ok (res ++ "-" ++ rest) ∧ '/' ∉ res.toList := by
  obtain ⟨hformats, res, rest, rfl, hslash, hbrace⟩ := h
  have hbare : ¬ (res ++ "-" ++ rest = "person" ∨ res ++ "-" ++ rest = "user") := by
    have hdash : '-' ∈ (res ++ "-" ++ rest).toList := by simp
    rintro (h | h) <;>
    · rw [h] at hdash
      exact absurd hdash (by decide)
  have hpre : Text.NoBrace (res ++ "-") := by
    simpa [Text.NoBrace] using hbrace
  have hsplit := Text.formatAux_append [("eid", id), ("list_id", id), ("uid", uid)]
    (res ++ "-").toList rest.toList hpre.1 hpre.2
  rw [← String.toList_append] at hsplit
  have hsome : ∃ text, Text.format [("eid", id), ("list_id", id), ("uid", uid)]
      (res ++ "-" ++ rest) = some text := Text.format_of_formats hformats
  obtain ⟨text, htext⟩ := hsome
  have hfill : fill id uid (res ++ "-" ++ rest) = .ok text := by rw [fill, htext]
  rw [Text.format, hsplit, Option.map_map, Option.map_eq_some_iff] at htext
  obtain ⟨tail, -, rfl⟩ := htext
  refine ⟨res, String.ofList tail, ?_, hslash⟩
  rw [roleName, if_neg hbare, hfill]
  simp [String.append_assoc]

/-- A role of the session reads neither as the administrator nor as another user. -/
theorem name_ne {role : String} (hrole : role = "user" ∨ MembershipRole role) (id : String)
    {owner : String} (howner : owner ≠ acc.uidText) :
    ∃ name, fill id acc.uidText (roleName role) = .ok name ∧ name ≠ "admin" ∧
      name ≠ "user/" ++ owner := by
  rcases hrole with rfl | hrole
  · refine ⟨"user/" ++ acc.uidText, fill_uid "user/" (by decide) id acc.uidText, ?_, ?_⟩
    · intro h
      have hslash : '/' ∈ ("user/" ++ acc.uidText).toList := by simp
      rw [h] at hslash
      exact absurd hslash (by decide)
    · exact fun h => howner ((String.append_right_inj _).mp h).symm
  · obtain ⟨res, rest, hfill, hslash⟩ := fill_membership hrole id acc.uidText
    refine ⟨_, hfill, ?_, ?_⟩
    · intro h
      have hdash : '-' ∈ (res ++ "-" ++ rest).toList := by simp
      rw [h] at hdash
      exact absurd hdash (by decide)
    · intro h
      have hlist := congrArg String.toList h
      rw [String.toList_append, String.toList_append (s := "user/"),
        List.append_eq_append_iff] at hlist
      rcases hlist with ⟨tail, huser, -⟩ | ⟨tail, hres, -⟩
      · have hdash : '-' ∈ "user/".toList := by
          rw [huser]
          simp
        exact absurd hdash (by decide)
      · have hmem : '/' ∈ (res ++ "-").toList := by
          rw [hres]
          simp
        rw [String.toList_append, List.mem_append] at hmem
        rcases hmem with hmem | hmem
        · exact hslash hmem
        · exact absurd hmem (by decide)

end AccessControl

/-! ### Loading -/

/-- The entry that decides for everyone: the last one. -/
def lastWildcard (entries : List RawPolicy) : Option RawPolicy :=
  (entries.filter fun e => e.principal = "*").getLast?

theorem lastWildcard_cons_everyone {e : RawPolicy} (h : e.principal = "*")
    (entries : List RawPolicy) :
    lastWildcard (e :: entries) = some ((lastWildcard entries).getD e) := by
  simp [lastWildcard, h, List.getLast?_cons]

theorem lastWildcard_cons_other {e : RawPolicy} (h : e.principal ≠ "*") (entries : List RawPolicy) :
    lastWildcard (e :: entries) = lastWildcard entries := by
  simp [lastWildcard, h]

/-- What loading makes of an entry for the owner. -/
theorem OwnerEntry.load {res : String} {e : RawPolicy} {p : Policy} (he : OwnerEntry e)
    (h : e.load res = some p) : p.actions = e.actions.toList ∧
      ((e.principal = "*" ∧ p.principal = ".*") ∨
        (e.principal ≠ "*" ∧ (p.principal = "admin" ∨ p.principal = "user/{uid}"))) := by
  have hadmin : Text.format [] "admin" = some "admin" := by decide +kernel
  have hstar : Text.format [] "*" = some "*" := by decide +kernel
  have huser : Text.format [] "user/{{uid}}" = some "user/{uid}" := by decide +kernel
  unfold RawPolicy.load at h
  cases he with
  | admin actions =>
      simp only [hadmin, Option.bind_eq_bind, Option.bind_some, Option.bind_eq_some_iff] at h
      obtain ⟨resource, -, h⟩ := h
      cases h
      exact ⟨rfl, Or.inr ⟨(by decide : "admin" ≠ "*"),
        Or.inl (by decide +kernel : Text.replace "admin" '*' ".*" = "admin")⟩⟩
  | everyone resource actions =>
      simp only [hstar, Option.bind_eq_bind, Option.bind_some, Option.bind_eq_some_iff] at h
      obtain ⟨resource', -, h⟩ := h
      cases h
      exact ⟨rfl, Or.inl ⟨rfl, (by decide +kernel : Text.replace "*" '*' ".*" = ".*")⟩⟩
  | own actions =>
      simp only [huser, Option.bind_eq_bind, Option.bind_some, Option.bind_eq_some_iff] at h
      obtain ⟨resource, -, h⟩ := h
      cases h
      exact ⟨rfl, Or.inr ⟨(by decide : "user/{{uid}}" ≠ "*"),
        Or.inr (by decide +kernel : Text.replace "user/{uid}" '*' ".*" = "user/{uid}")⟩⟩

theorem lookup_mapM {α β : Type} {f : String → α → Option β} {l : List (String × α)}
    {l' : List (String × β)} (h : (l.mapM fun e => do pure (e.1, ← f e.1 e.2)) = some l')
    {k : String} {a : α} (hk : l.lookup k = some a) :
    ∃ b, l'.lookup k = some b ∧ f k a = some b := by
  induction l generalizing l' with
  | nil => cases hk
  | cons e l ih =>
      obtain ⟨k', a'⟩ := e
      rw [List.mapM_cons] at h
      obtain ⟨_, hentry, h⟩ := Option.bind_eq_some_iff.mp h
      obtain ⟨b', hb', hpair⟩ := Option.bind_eq_some_iff.mp hentry
      obtain ⟨rest, hrest, h⟩ := Option.bind_eq_some_iff.mp h
      cases hpair
      cases h
      rw [List.lookup_cons] at hk ⊢
      cases hkk : k == k' with
      | true =>
          rw [hkk] at hk
          cases hk
          rw [eq_of_beq hkk]
          exact ⟨b', rfl, hb'⟩
      | false =>
          rw [hkk] at hk
          exact ih hrest hk

/-- The table of a resource is made of its entries. -/
theorem rulesOf_load {rbac : Rbac} {pol : Policies} (hload : loadRbac rbac = some pol) {m : Model}
    {entries : List RawPolicy} (hentries : rbac.policies.lookup m.resource = some entries) :
    ∃ rules, AccessControl.rulesOf pol m = .ok rules ∧
      entries.mapM (RawPolicy.load m.resource) = some rules := by
  unfold loadRbac at hload
  obtain ⟨table, htable, hpol⟩ := Option.bind_eq_some_iff.mp hload
  cases hpol
  obtain ⟨rules, hrules, hmap⟩ :=
    lookup_mapM (f := fun res entries => entries.mapM (RawPolicy.load res)) htable hentries
  exact ⟨rules, by rw [AccessControl.rulesOf, hrules], hmap⟩

/-- The last entry for everyone, before loading and after. -/
theorem lastEveryone_load {res : String} {entries : List RawPolicy} {rules : List Policy}
    (hentries : ∀ e ∈ entries, OwnerEntry e) (h : entries.mapM (RawPolicy.load res) = some rules)
    (default : List Char) : AccessControl.lastEveryone rules default =
      ((lastWildcard entries).map fun e => e.actions.toList).getD default := by
  induction entries generalizing rules default with
  | nil =>
      cases h
      rfl
  | cons e entries ih =>
      rw [List.mapM_cons] at h
      obtain ⟨p, hp, h⟩ := Option.bind_eq_some_iff.mp h
      obtain ⟨rest, hrest, h⟩ := Option.bind_eq_some_iff.mp h
      cases h
      have ih := ih (fun e he => hentries e (List.mem_cons_of_mem _ he)) hrest
      obtain ⟨hactions, ⟨heveryone, hall⟩ | ⟨hother, hprincipal⟩⟩ :=
        (hentries e List.mem_cons_self).load hp
      · rw [AccessControl.lastEveryone, List.foldl_cons, if_pos hall, hactions]
        change AccessControl.lastEveryone rest e.actions.toList = _
        rw [ih, lastWildcard_cons_everyone heveryone]
        cases lastWildcard entries <;> rfl
      · have hne : p.principal ≠ ".*" := by
          rcases hprincipal with h | h <;>
          · rw [h]
            decide
        rw [AccessControl.lastEveryone, List.foldl_cons, if_neg hne]
        change AccessControl.lastEveryone rest default = _
        rw [ih, lastWildcard_cons_other hother]

/-- Every loaded entry comes from one of the table's. -/
theorem mem_of_load {res : String} {entries : List RawPolicy} {rules : List Policy}
    (h : entries.mapM (RawPolicy.load res) = some rules) {p : Policy} (hp : p ∈ rules) :
    ∃ e ∈ entries, e.load res = some p := by
  induction entries generalizing rules with
  | nil =>
      cases h
      cases hp
  | cons e entries ih =>
      rw [List.mapM_cons] at h
      obtain ⟨q, hq, h⟩ := Option.bind_eq_some_iff.mp h
      obtain ⟨rest, hrest, h⟩ := Option.bind_eq_some_iff.mp h
      cases h
      rcases List.mem_cons.mp hp with rfl | hp
      · exact ⟨e, List.mem_cons_self, hq⟩
      · obtain ⟨e', he', hload⟩ := ih hrest hp
        exact ⟨e', List.mem_cons_of_mem _ he', hload⟩

/-- Every entry of the table is loaded. -/
theorem exists_load {res : String} {entries : List RawPolicy} {rules : List Policy}
    (h : entries.mapM (RawPolicy.load res) = some rules) {e : RawPolicy} (he : e ∈ entries) :
    ∃ p ∈ rules, e.load res = some p := by
  induction entries generalizing rules with
  | nil => cases he
  | cons first entries ih =>
      rw [List.mapM_cons] at h
      obtain ⟨p, hp, h⟩ := Option.bind_eq_some_iff.mp h
      obtain ⟨rest, hrest, h⟩ := Option.bind_eq_some_iff.mp h
      cases h
      rcases List.mem_cons.mp he with rfl | he
      · exact ⟨p, List.mem_cons_self, hp⟩
      · obtain ⟨q, hq, hload⟩ := ih hrest he
        exact ⟨q, List.mem_cons_of_mem _ hq, hload⟩

/-! ### Isolation -/

/-- On a resource whose entries are for the administrator, everyone and the owner, a session of a user
gets nothing from them on a record of another owner: the last entry for everyone decides, or else the
privacy of the record. -/
theorem rbac_otherOwner {rbac : Rbac} {pol : Policies} (hload : loadRbac rbac = some pol)
    {m : Model} {entries : List RawPolicy}
    (hlookup : rbac.policies.lookup m.resource = some entries)
    (hentries : ∀ e ∈ entries, OwnerEntry e) {acc : Access}
    (hroles : ∀ role, acc.HasRole role → role = "user" ∨ MembershipRole role) {db : Database}
    (t : Target) {record : Row} (hrow : record ∈ db.rows m)
    (howner : (effectiveOwner db acc m t record).text ≠ acc.uidText) :
    AccessControl.rbacPermissions pol db acc m { t with query := some [record] } =
      .ok (((lastWildcard entries).map fun e => e.actions.toList).getD
        (if AccessControl.PrivacyOpen acc (viewed pol db acc m t record) then ['r'] else [])) := by
  obtain ⟨rules, hrules, hmap⟩ := rulesOf_load hload hlookup
  rw [AccessControl.rbacPermissions_default (AccessControl.resolve_record hrow) hrules,
    lastEveryone_load hentries hmap]
  intro p hp hall role hrole
  obtain ⟨e, he, hpload⟩ := mem_of_load hmap hp
  obtain ⟨-, ⟨-, heveryone⟩ | ⟨-, hprincipal⟩⟩ := (hentries e he).load hpload
  · exact absurd heveryone hall
  · obtain ⟨name, hname, hadmin, huser⟩ := AccessControl.name_ne (hroles role hrole)
      (viewed pol db acc m t record).id.text howner
    rcases hprincipal with hprincipal | hprincipal
    · have hfill : AccessControl.fill (viewed pol db acc m t record).id.text
          (viewed pol db acc m t record).ownerUid.text p.principal = .ok "admin" := by
        rw [hprincipal]
        exact AccessControl.fill_of_noBrace (by decide) _ _
      refine AccessControl.applies_ne hfill hname hadmin.symm ?_
      rw [hprincipal]
      exact AccessControl.wildcard_ne (by decide)
    · have hfill : AccessControl.fill (viewed pol db acc m t record).id.text
          (viewed pol db acc m t record).ownerUid.text p.principal =
            .ok ("user/" ++ (viewed pol db acc m t record).ownerUid.text) := by
        rw [hprincipal]
        exact AccessControl.fill_uid "user/" (by decide) _ _
      refine AccessControl.applies_ne hfill hname huser.symm ?_
      rw [hprincipal]
      exact AccessControl.wildcard_ne (by decide)

/-- A session of the other user, who is a member of a list. -/
def memberAccess : Access := { auth := some ["user", "list-x-list1-member"], uid := some "u-0002" }

/-- The category of the first user is closed to the other one. -/
theorem category_closed : ∃ record ∈ Seed.shared.rows .category,
    AccessControl.rbacPermissions examplePolicies Seed.shared memberAccess .category
      { query := some [record] } = .ok [] := by
  obtain ⟨record, hrow⟩ := List.exists_mem_of_ne_nil (Seed.shared.rows .category)
    (by decide +kernel)
  have howners : ∀ record ∈ Seed.shared.rows .category, record "uid" = .str "x-23450001" := by
    decide +kernel
  have howner : effectiveOwner Seed.shared memberAccess .category {} record =
      .str "x-23450001" := howners record hrow
  have hclosed : ¬ AccessControl.PrivacyOpen memberAccess
      (viewed examplePolicies Seed.shared memberAccess .category {} record) := by
    rintro (h | ⟨h, -⟩)
    · cases h
    · cases h
  have hentries : ∀ e ∈ basePolicy, OwnerEntry e := by
    intro e he
    rcases List.mem_cons.mp he with rfl | he
    · exact .admin _
    · rw [List.mem_singleton.mp he]
      exact .own _
  have hroles : ∀ role, memberAccess.HasRole role → role = "user" ∨ MembershipRole role := by
    rintro role ⟨roles, hauth, hmem⟩
    cases hauth
    rcases List.mem_cons.mp hmem with rfl | hmem
    · exact Or.inl rfl
    · rw [List.mem_singleton.mp hmem]
      exact Or.inr ⟨by decide +kernel, "list", "x-list1-member", by decide, by decide, by decide⟩
  have hrbac := rbac_otherOwner loadRbac_example (m := .category) rfl hentries hroles {} hrow (by
    rw [howner]
    decide)
  rw [if_neg hclosed] at hrbac
  exact ⟨record, hrow, hrbac⟩

end Apicrud
