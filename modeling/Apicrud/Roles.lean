import Apicrud.Rbac

/-! # Roles from memberships

`get_roles` goes through the active memberships of a user and grants for each, level by level, what comes
up to the membership's own.  The loop over the levels ends where it meets that level.  A membership whose
authorization is the first level, which is skipped, or no level at all gets every level there is:
`getRoles_iff` says that the roles are those of the memberships just when there is no such membership.

No model of the example application is a membership model: `getRoles_example`. -/

namespace Apicrud

open Relational

/-- A class of the models, with the rows of its table. -/
structure ModelClass where
  columns : List String
  relationships : List String
  rows : List Row

/-- `hasattr(record, name)` -/
def ModelClass.HasAttr (cls : ModelClass) (name : String) : Prop :=
  name ∈ cls.columns ∨ name ∈ cls.relationships

instance (cls : ModelClass) (name : String) : Decidable (cls.HasAttr name) :=
  inferInstanceAs (Decidable (_ ∨ _))

namespace SessionAuth

/-! ### The loop -/

/-- The levels in their order, up to the given one. -/
def levelsUpTo (authorization : Val) : List String → List String
  | [] => []
  | level :: levels =>
      if .str level = authorization then [level] else level :: levelsUpTo authorization levels

/-- `'%s-%s-%s' % (resource, id, level)` -/
def roleFor (resource : String) (id : Val) (level : String) : String :=
  resource ++ "-" ++ id.text ++ "-" ++ level

/-- The roles of one record; the first level is skipped. -/
def recordRoles (resource : String) (levels : List String) (record : Row) : List String :=
  (levelsUpTo (record "authorization") levels.tail).map
    (roleFor resource (record (resource ++ "_id")))

/-- The body of the loop over the records. -/
def visit (cls : ModelClass) (resource : String) (levels : List String) (record : Row) :
    Except Exc (List String) :=
  if ¬ cls.HasAttr resource then .ok []
  else if levels.tail = [] ∨ (cls.HasAttr (resource ++ "_id") ∧ cls.HasAttr "authorization") then
    .ok (recordRoles resource levels record)
  else .error .other

/-- The query of `get_roles`; the filter for one id is left out where there is no such column, and without
the other columns there is no query to run. -/
def memberships (cls : ModelClass) (uid : Val) (resource : String) (id : Option String) :
    Except Exc (List Row) :=
  if "uid" ∈ cls.columns ∧ "status" ∈ cls.columns then
    let rows := filterBy [("uid", uid), ("status", .str "active")] cls.rows
    match id with
    | some id =>
        if id ≠ "" ∧ resource ++ "_id" ∈ cls.columns then
          .ok (filterBy [(resource ++ "_id", .str id)] rows)
        else .ok rows
    | none => .ok rows
  else .error .other

/-- `name or default` -/
def nameOr (name : Option String) (default : String) : String :=
  match name with
  | some name => if name = "" then default else name
  | none => default

/-- `get_roles`; `modelOf` finds the class of the models with the capitalized name. -/
def getRoles (pol : Policies) (modelOf : String → Option ModelClass) (uid : Val)
    (memberModel resource id : Option String) : Except Exc (List String) :=
  let resource := nameOr resource pol.privateResource
  let memberModel := nameOr memberModel pol.privateResource
  if resource = "" ∨ memberModel = "" then .ok []
  else
    match modelOf memberModel with
    | none => .error .other
    | some cls => do
        let records ← memberships cls uid resource id
        let roles ← records.mapM (visit cls resource pol.privacyLevels)
        pure roles.flatten

end SessionAuth

open SessionAuth

variable {levels : List String} {level : String} {authorization : Val} {cls : ModelClass}
  {resource : String} {record : Row} {rows : List Row}

/-! ### Levels -/

/-- Without a level to stop at, the loop goes through all of them. -/
theorem levelsUpTo_unmatched (h : ∀ level ∈ levels, .str level ≠ authorization) :
    levelsUpTo authorization levels = levels := by
  induction levels with
  | nil => rfl
  | cons level levels ih =>
      rw [levelsUpTo, if_neg (h level List.mem_cons_self),
        ih fun other hother => h other (List.mem_cons_of_mem _ hother)]

/-- With one, it ends there. -/
theorem mem_levelsUpTo {own : String} (hown : own ∈ levels) :
    level ∈ levelsUpTo (.str own) levels ↔ levels.idxOf level ≤ levels.idxOf own := by
  induction levels with
  | nil => cases hown
  | cons first levels ih =>
      rw [levelsUpTo]
      by_cases hfirst : first = own
      · subst hfirst
        rw [if_pos rfl, List.mem_singleton, List.idxOf_cons_self, Nat.le_zero]
        by_cases hlevel : first = level
        · subst hlevel
          simp
        · simp [List.idxOf_cons_ne _ hlevel, Ne.symm hlevel]
      · have hrest : own ∈ levels := (List.mem_cons.mp hown).resolve_left (Ne.symm hfirst)
        rw [if_neg fun h => hfirst (Val.str.inj h), List.mem_cons, ih hrest,
          List.idxOf_cons_ne _ hfirst]
        by_cases hlevel : first = level
        · subst hlevel
          simp
        · simp [List.idxOf_cons_ne _ hlevel, Ne.symm hlevel]

/-! ### Memberships -/

/-- The class describes memberships in a resource. -/
structure ModelClass.Membership (cls : ModelClass) (resource : String) : Prop where
  uid : "uid" ∈ cls.columns
  status : "status" ∈ cls.columns
  id : resource ++ "_id" ∈ cls.columns
  authorization : "authorization" ∈ cls.columns
  resource : cls.HasAttr resource

/-- The records of the user that are active, for one id or for all. -/
def activeRecords (cls : ModelClass) (uid : Val) (resource : String) (id : Option String) : List Row :=
  cls.rows.filter fun record => decide (record "uid" = uid ∧ record "status" = .str "active" ∧
    (id.getD "" = "" ∨ record (resource ++ "_id") = .str (id.getD "")))

/-- The authorization is a level, and not the first. -/
def Ranked (levels : List String) (authorization : Val) : Prop :=
  ∃ own ∈ levels.tail, authorization = .str own

instance (levels : List String) (authorization : Val) : Decidable (Ranked levels authorization) :=
  inferInstanceAs (Decidable (∃ own ∈ levels.tail, _))

/-- The level is not the first and not later than the authorization. -/
def Within (levels : List String) (level : String) (authorization : Val) : Prop :=
  ∃ own ∈ levels, authorization = .str own ∧ 0 < levels.idxOf level ∧
    levels.idxOf level ≤ levels.idxOf own

/-- The roles are those within the levels of the records, and a record without a rank yields none. -/
structure NeverExceed (levels : List String) (resource : String) (rows : List Row)
    (roles : List String) : Prop where
  iff : ∀ role, role ∈ roles ↔ ∃ record ∈ rows, ∃ level,
    role = roleFor resource (record (resource ++ "_id")) level ∧
      Within levels level (record "authorization")
  unranked : ∀ record ∈ rows, ¬ Ranked levels (record "authorization") →
    recordRoles resource levels record = []

theorem memberships_eq (h : cls.Membership resource) (uid : Val) (id : Option String) :
    memberships cls uid resource id = .ok (activeRecords cls uid resource id) := by
  unfold memberships activeRecords
  rw [if_pos ⟨h.uid, h.status⟩]
  cases id with
  | none => simp [filterBy]
  | some id =>
      by_cases hid : id = ""
      · simp [filterBy, hid]
      · have hfilter : id ≠ "" ∧ resource ++ "_id" ∈ cls.columns := ⟨hid, h.id⟩
        simp only [if_pos hfilter, filterBy, List.filter_filter]
        refine congrArg Except.ok (List.filter_congr fun record _ => ?_)
        rw [Bool.eq_iff_iff]
        simp [hid]
        tauto

theorem visit_eq (h : cls.Membership resource) :
    visit cls resource levels record = .ok (recordRoles resource levels record) := by
  unfold visit
  rw [if_neg (not_not.mpr h.resource), if_pos (Or.inr ⟨Or.inl h.id, Or.inl h.authorization⟩)]

/-- The roles are those of the records. -/
theorem getRoles_eq {pol : Policies} {modelOf : String → Option ModelClass} {memberModel : String}
    (hmodel : modelOf memberModel = some cls) (hmember : memberModel ≠ "") (hresource : resource ≠ "")
    (h : cls.Membership resource) (uid : Val) (id : Option String) :
    getRoles pol modelOf uid (some memberModel) (some resource) id = .ok
      ((activeRecords cls uid resource id).flatMap (recordRoles resource pol.privacyLevels)) := by
  have hvisit : ∀ records : List Row, records.mapM (visit cls resource pol.privacyLevels) =
      (.ok (records.map (recordRoles resource pol.privacyLevels)) : Except Exc _) := by
    intro records
    induction records with
    | nil => rfl
    | cons record records ih => rw [List.mapM_cons, visit_eq h, ih]; rfl
  have hnames : nameOr (some resource) pol.privateResource = resource ∧
      nameOr (some memberModel) pol.privateResource = memberModel := by
    simp [nameOr, hmember, hresource]
  unfold getRoles
  rw [hnames.1, hnames.2, if_neg (by simp [hmember, hresource]), hmodel]
  simp only [memberships_eq h]
  show (List.mapM (visit cls resource pol.privacyLevels) _ >>= fun roles => pure roles.flatten) = _
  rw [hvisit]
  rfl

/-- What is within the level of a record. -/
theorem within_iff (hnodup : levels.Nodup) {own : String} (hown : own ∈ levels.tail) :
    Within levels level (.str own) ↔ level ∈ levelsUpTo (.str own) levels.tail := by
  cases levels with
  | nil => cases hown
  | cons first levels =>
      have hne : first ≠ own := fun h => (List.nodup_cons.mp hnodup).1 (h ▸ hown)
      have hidx : (first :: levels).idxOf own = levels.idxOf own + 1 := List.idxOf_cons_ne _ hne
      rw [List.tail_cons] at hown ⊢
      rw [mem_levelsUpTo hown]
      constructor
      · rintro ⟨own', -, heq, hpos, hle⟩
        obtain rfl := Val.str.inj heq
        have hlevel : first ≠ level := by
          rintro rfl
          simp at hpos
        rw [hidx, List.idxOf_cons_ne _ hlevel] at hle
        omega
      · intro hle
        have hlevel : first ≠ level := by
          rintro rfl
          have habsent : first ∉ levels := (List.nodup_cons.mp hnodup).1
          have hlt := List.idxOf_lt_length_of_mem hown
          rw [List.idxOf_eq_length habsent] at hle
          omega
        refine ⟨own, List.mem_cons_of_mem _ hown, rfl, ?_⟩
        rw [hidx, List.idxOf_cons_ne _ hlevel]
        omega

/-- A record with a rank yields what is within it. -/
theorem mem_recordRoles (hnodup : levels.Nodup) (hranked : Ranked levels (record "authorization"))
    {role : String} : role ∈ recordRoles resource levels record ↔ ∃ level,
      role = roleFor resource (record (resource ++ "_id")) level ∧
        Within levels level (record "authorization") := by
  obtain ⟨own, hown, hauthorization⟩ := hranked
  unfold recordRoles
  rw [List.mem_map, hauthorization]
  constructor
  · rintro ⟨level, hlevel, rfl⟩
    exact ⟨level, rfl, (within_iff hnodup hown).mpr hlevel⟩
  · rintro ⟨level, rfl, hlevel⟩
    exact ⟨level, (within_iff hnodup hown).mp hlevel, rfl⟩

/-- One without yields everything. -/
theorem recordRoles_unranked (h : ¬ Ranked levels (record "authorization")) :
    recordRoles resource levels record =
      levels.tail.map (roleFor resource (record (resource ++ "_id"))) := by
  unfold recordRoles
  rw [levelsUpTo_unmatched fun level hlevel heq => h ⟨level, hlevel, heq.symm⟩]

theorem neverExceed_iff (hnodup : levels.Nodup) :
    NeverExceed levels resource rows (rows.flatMap (recordRoles resource levels)) ↔
      levels.tail = [] ∨ ∀ record ∈ rows, Ranked levels (record "authorization") := by
  constructor
  · intro h
    by_cases hall : ∀ record ∈ rows, Ranked levels (record "authorization")
    · exact Or.inr hall
    push Not at hall
    obtain ⟨record, hrecord, hunranked⟩ := hall
    have hnone := h.unranked record hrecord hunranked
    rw [recordRoles_unranked hunranked] at hnone
    exact Or.inl (List.map_eq_nil_iff.mp hnone)
  · rintro (hone | hall)
    · have hnone : ∀ record, recordRoles resource levels record = [] := fun record => by
        unfold recordRoles
        rw [hone]
        rfl
      refine ⟨fun role => ?_, fun record _ _ => hnone record⟩
      simp only [List.mem_flatMap, hnone, List.not_mem_nil, and_false, exists_false, false_iff]
      rintro ⟨record, -, level, -, own, hown, -, hpos, hle⟩
      have hlt := List.idxOf_lt_length_of_mem hown
      have hlength : levels.length ≤ 1 := by
        have htail := congrArg List.length hone
        rw [List.length_tail, List.length_nil] at htail
        omega
      omega
    · refine ⟨fun role => ?_, fun record hrecord h => absurd (hall record hrecord) h⟩
      rw [List.mem_flatMap]
      exact exists_congr fun record => and_congr_right fun hrecord =>
        mem_recordRoles hnodup (hall record hrecord)

/-- The roles of a user never exceed the levels of the memberships, just when there is but one level or
every active membership has a level after the first. -/
theorem getRoles_iff (pol : Policies) (hfirst : pol.privacyLevels.head? = some "public")
    (hnodup : pol.privacyLevels.Nodup) (modelOf : String → Option ModelClass) (cls : ModelClass)
    (memberModel resource : String) (hmember : memberModel ≠ "") (hresource : resource ≠ "")
    (hmodel : modelOf memberModel = some cls) (hcls : cls.Membership resource) (uid : Val)
    (id : Option String) :
    ∃ roles, getRoles pol modelOf uid (some memberModel) (some resource) id = .ok roles ∧
      (NeverExceed pol.privacyLevels resource (activeRecords cls uid resource id) roles ↔
        pol.privacyLevels = ["public"] ∨ ∀ record ∈ activeRecords cls uid resource id,
          Ranked pol.privacyLevels (record "authorization")) := by
  refine ⟨_, getRoles_eq hmodel hmember hresource hcls uid id, ?_⟩
  rw [neverExceed_iff hnodup]
  refine or_congr_left' fun _ => ?_
  cases hlevels : pol.privacyLevels with
  | nil =>
      rw [hlevels] at hfirst
      cases hfirst
  | cons first levels =>
      rw [hlevels] at hfirst
      cases hfirst
      simp

/-! ### The example application -/

/-- `List` -/
def listClass (db : Database) : ModelClass where
  columns := Model.list.columns
  relationships := ["category", "listmembers", "members", "owner"]
  rows := db.rows .list

/-- Without arguments the records of the lists themselves are asked for: no roles come of these. -/
theorem getRoles_example (db : Database) (uid : Val) {modelOf : String → Option ModelClass}
    (h : modelOf "list" = some (listClass db)) :
    getRoles examplePolicies modelOf uid none none none = .ok [] := by
  have hvisit : ∀ records : List Row, records.mapM
      (visit (listClass db) "list" examplePolicies.privacyLevels) =
        (.ok (records.map fun _ => []) : Except Exc _) := by
    have hattr : ¬ (listClass db).HasAttr "list" := by
      rintro (hcolumn | hrelationship)
      · exact absurd hcolumn (by show "list" ∉ Model.list.columns; decide)
      · simp [listClass] at hrelationship
    intro records
    induction records with
    | nil => rfl
    | cons record records ih =>
        rw [List.mapM_cons, ih, visit, if_pos hattr]
        rfl
  have hquery : memberships (listClass db) uid "list" none = .ok
      (filterBy [("uid", uid), ("status", .str "active")] (db.rows .list)) :=
    if_pos (by show "uid" ∈ Model.list.columns ∧ "status" ∈ Model.list.columns; decide)
  have hdefault : nameOr none examplePolicies.privateResource = "list" := rfl
  unfold getRoles
  rw [hdefault, if_neg (by decide)]
  simp only [h, hquery]
  show (List.mapM (visit (listClass db) "list" examplePolicies.privacyLevels) _ >>=
    fun roles => pure roles.flatten) = _
  rw [hvisit]
  exact congrArg Except.ok (List.flatten_eq_nil_iff.mpr fun roles hroles =>
    (List.mem_map.mp hroles).elim fun _ h => h.2.symm)

/-! ### A membership that is open to the public -/

/-- The class of the members of groups, with one membership. -/
def groupMember (authorization : String) : ModelClass where
  columns := ["uid", "group_id", "authorization", "status"]
  relationships := ["group"]
  rows := [Row.ofDict (Dict.ofList [("uid", .str "u-1"), ("group_id", .str "g-1"),
    ("authorization", .str authorization), ("status", .str "active")])]

/-- The levels of the example application. -/
def groupPolicies : Policies where
  privacyLevels := ["public", "invitee", "member", "manager", "secret"]
  privateResource := "group"
  privateAttr := "group_id"
  rules := []

theorem groupMember_membership (authorization : String) :
    (groupMember authorization).Membership "group" := by
  refine ⟨?_, ?_, ?_, ?_, Or.inr ?_⟩ <;> simp [groupMember]

/-- A membership that is open to the public makes the user a manager of the group, and more. -/
theorem public_member_rules : ∃ roles,
    getRoles groupPolicies (fun _ => some (groupMember "public")) (.str "u-1") (some "groupmember")
      (some "group") none = .ok roles ∧
    "group-g-1-secret" ∈ roles ∧
    ¬ NeverExceed groupPolicies.privacyLevels "group"
      (activeRecords (groupMember "public") (.str "u-1") "group" none) roles := by
  refine ⟨["group-g-1-invitee", "group-g-1-member", "group-g-1-manager", "group-g-1-secret"],
    by decide +kernel, by decide, fun h => ?_⟩
  have hnone := h.unranked _ (List.mem_of_getElem? (i := 0) rfl) (by decide +kernel)
  revert hnone
  decide +kernel

/-- A member gets the roles of an invitee and of a member. -/
theorem getRoles_iff_member : ∃ roles,
    getRoles groupPolicies (fun _ => some (groupMember "member")) (.str "u-1") (some "groupmember")
      (some "group") none = .ok roles ∧
    NeverExceed groupPolicies.privacyLevels "group"
      (activeRecords (groupMember "member") (.str "u-1") "group" none) roles := by
  obtain ⟨roles, hroles, hiff⟩ := getRoles_iff groupPolicies rfl (by decide)
    (fun _ => some (groupMember "member")) (groupMember "member") "groupmember" "group" (by decide)
    (by decide) rfl (groupMember_membership "member") (.str "u-1") none
  refine ⟨roles, hroles, hiff.mpr (Or.inr fun record hrecord => ?_)⟩
  obtain ⟨hrecord, -⟩ := List.mem_filter.mp hrecord
  obtain rfl := List.mem_singleton.mp hrecord
  exact ⟨"member", by decide, rfl⟩

end Apicrud
