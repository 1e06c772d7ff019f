import Apicrud.ListAccess
import Apicrud.Roles
import Apicrud.SessionManager

/-! # Roles as texts

A membership becomes the role `<resource>-<id>-<level>`, the roles of a session are joined with colons,
and `AccessControl` splits them and takes the ids out again.  Ids may hold hyphens themselves: the id of a
role is what stands between its first hyphen and its last (`roleFor_inj`, `SessionManager.create_roles`),
and the ids of a session are those of the memberships that its roles were made of
(`authIds_memberships`). -/

namespace Apicrud

open Relational
open SessionAuth

variable {resource level level' : String}

/-! ### One role -/

theorem parseId_roleFor (hresource : '-' ∉ resource.toList) (hlevel : '-' ∉ level.toList) (id : Val)
    (other : String) : parseId (roleFor resource id level) other =
      if resource = other then some id.text else none :=
  parseId_role hresource hlevel id.text other

/-- The roles of a resource are told apart. -/
theorem roleFor_inj (hresource : '-' ∉ resource.toList) (hlevel : '-' ∉ level.toList)
    (hlevel' : '-' ∉ level'.toList) {id id' : Val}
    (h : roleFor resource id level = roleFor resource id' level') :
    id.text = id'.text ∧ level = level' := by
  have hsplit : resource :: (Text.split id.text '-' ++ [level]) =
      resource :: (Text.split id'.text '-' ++ [level']) := by
    rw [← split_role hresource hlevel id.text, ← split_role hresource hlevel' id'.text]
    exact congrArg (Text.split · '-') h
  obtain ⟨hid, hlast⟩ := List.append_inj' (List.cons.inj hsplit).2 rfl
  constructor
  · calc id.text = Text.join (Text.split id.text '-') '-' := (Text.join_split _ _).symm
      _ = Text.join (Text.split id'.text '-') '-' := by rw [hid]
      _ = id'.text := Text.join_split _ _
  · exact (List.cons.inj hlast).1

/-! ### The roles of a session -/

namespace SessionManager

variable {conf : Config} {redis : Redis} {now ttl : ℕ} {uid keyId : Option String}
  {roles : List String} {token : String} {kwargs : List (String × Val)} {ses : Session}

/-- What is not among the arguments of the caller is what `create` puts there. -/
theorem get_ofList_append {l l' : List (String × Val)} {k : String} (h : k ∉ l.map Prod.fst) :
    (Dict.ofList (l ++ l')).get k = (Dict.ofList l').get k := by
  induction l with
  | nil => rfl
  | cons p l ih =>
      obtain ⟨k', v⟩ := p
      rw [List.map_cons, List.mem_cons, not_or] at h
      rw [List.cons_append, Dict.ofList_cons, Dict.get_set, if_neg h.1]
      exact ih h.2

/-- A session has the roles that it was created with. -/
theorem create_roles (hne : roles ≠ []) (hcolon : ∀ role ∈ roles, ':' ∉ role.toList)
    (hauth : "auth" ∉ kwargs.map Prod.fst)
    (h : (create conf redis now uid roles keyId token ttl kwargs).2 = some ses) : ses.roles = roles := by
  have hses : content conf uid roles token (now + ttl) kwargs = ses := by
    obtain ⟨hcreate, -⟩ | ⟨hcreate, -⟩ := create_cases conf redis now uid roles keyId token ttl kwargs
    · rw [hcreate] at h
      exact Option.some.inj h
    · rw [hcreate] at h
      cases h
  have hget : ses.get "auth" = .str (Text.join roles ':') := by
    rw [← hses, content, get_ofList_append hauth, Dict.ofList_cons, Dict.get_set, if_pos rfl]
  rw [Session.roles, hget, Val.text_str, Text.split_join hne hcolon]

end SessionManager

/-! ### The roles of memberships -/

theorem mem_levelsUpTo_mem {levels : List String} {authorization : Val}
    (h : level ∈ levelsUpTo authorization levels) : level ∈ levels := by
  induction levels with
  | nil => cases h
  | cons first levels ih =>
      rw [levelsUpTo] at h
      split_ifs at h
      · rw [List.mem_singleton.mp h]
        exact List.mem_cons_self
      · obtain hfirst | hrest := List.mem_cons.mp h
        · rw [hfirst]
          exact List.mem_cons_self
        · exact List.mem_cons_of_mem _ (ih hrest)

theorem recordRoles_roles {levels : List String} {record : Row} {role : String}
    (h : role ∈ recordRoles resource levels record) :
    ∃ level ∈ levels.tail, role = roleFor resource (record (resource ++ "_id")) level := by
  obtain ⟨level, hlevel, hrole⟩ := List.mem_map.mp h
  exact ⟨level, mem_levelsUpTo_mem hlevel, hrole.symm⟩

/-- The ids that a session has from the roles of some records; its other roles name none. -/
theorem authIds_roles {pol : Policies} {acc : Access} {base : List String} {records : List Row}
    (hresource : '-' ∉ pol.privateResource.toList)
    (hlevels : ∀ level ∈ pol.privacyLevels.tail, '-' ∉ level.toList)
    (hbase : ∀ role ∈ base, parseId role pol.privateResource = none)
    (hid : ∀ record ∈ records, (record (pol.privateResource ++ "_id")).text ≠ "")
    (hauth : acc.auth =
      some (base ++ records.flatMap (recordRoles pol.privateResource pol.privacyLevels))) :
    authIds pol acc = records.flatMap fun record =>
      (recordRoles pol.privateResource pol.privacyLevels record).map fun _ =>
        (record (pol.privateResource ++ "_id")).text := by
  unfold authIds
  rw [hauth, Option.getD_some, List.filterMap_append, (List.filterMap_eq_nil_iff (l := base)).mpr ?_,
    List.nil_append, List.filterMap_flatMap]
  · refine List.flatMap_congr fun record hrecord => ?_
    rw [← List.filterMap_eq_map]
    refine List.filterMap_congr fun role hrole => ?_
    obtain ⟨level, hlevel, hrole⟩ := recordRoles_roles hrole
    rw [hrole, parseId_roleFor hresource (hlevels level hlevel), if_pos rfl]
    simp [hid record hrecord]
  · intro role hrole
    rw [hbase role hrole]

/-- Without a resource, the roles are those of the private one. -/
theorem getRoles_default {pol : Policies} (modelOf : String → Option ModelClass) (uid : Val)
    (memberModel id : Option String) : getRoles pol modelOf uid memberModel none id =
      getRoles pol modelOf uid memberModel (some pol.privateResource) id := by
  have hname : nameOr (some pol.privateResource) pol.privateResource = pol.privateResource := by
    unfold nameOr
    exact ite_self _
  unfold getRoles
  rw [hname]
  rfl

/-- The ids of a session that a login has opened, with the roles of all memberships of the user, are the
ids of these memberships: one for each role. -/
theorem authIds_memberships {pol : Policies} {modelOf : String → Option ModelClass} {cls : ModelClass}
    {memberModel : String} {base : List String} {conf : Config} {redis : Redis} {now ttl : ℕ}
    {user keyId : Option String} {token : String} {kwargs : List (String × Val)} {ses : Session}
    {acc : Access} {uid : Val} {roles : List String}
    (hmodel : modelOf memberModel = some cls) (hmember : memberModel ≠ "")
    (hprivate : pol.privateResource ≠ "") (hcls : cls.Membership pol.privateResource)
    (hresource : '-' ∉ pol.privateResource.toList)
    (hlevels : ∀ level ∈ pol.privacyLevels.tail, '-' ∉ level.toList)
    (hbase : ∀ role ∈ base, parseId role pol.privateResource = none) (hne : base ≠ [])
    (hid : ∀ record ∈ activeRecords cls uid pol.privateResource none,
      (record (pol.privateResource ++ "_id")).text ≠ "")
    (hroles : getRoles pol modelOf uid (some memberModel) none none = .ok roles)
    (hcolon : ∀ role ∈ base ++ roles, ':' ∉ role.toList) (hkwargs : "auth" ∉ kwargs.map Prod.fst)
    (hses : (SessionManager.create conf redis now user (base ++ roles) keyId token ttl kwargs).2 = some ses)
    (hauth : acc.auth = some ses.roles) :
    authIds pol acc = (activeRecords cls uid pol.privateResource none).flatMap fun record =>
      (recordRoles pol.privateResource pol.privacyLevels record).map fun _ =>
        (record (pol.privateResource ++ "_id")).text := by
  rw [getRoles_default, getRoles_eq hmodel hmember hprivate hcls uid none] at hroles
  obtain rfl := Except.ok.inj hroles
  have hsession := SessionManager.create_roles (by simp [hne]) hcolon hkwargs hses
  rw [hsession] at hauth
  exact authIds_roles hresource hlevels hbase hid hauth

/-! ### Encoding and decoding -/

/-- The role of an id and a level is read back by its resource only, no other id and level of the resource
have it, and a session gives back the roles that it was created with. -/
theorem roles_decode (resource : String) (hresource : '-' ∉ resource.toList) :
    (∀ id level : String, '-' ∉ level.toList →
      parseId (roleFor resource (.str id) level) resource = some id ∧
        ∀ other ≠ resource, parseId (roleFor resource (.str id) level) other = none) ∧
    (∀ id level id' level' : String, '-' ∉ level.toList → '-' ∉ level'.toList →
      (id, level) ≠ (id', level') →
        roleFor resource (.str id) level ≠ roleFor resource (.str id') level') ∧
    ∀ roles : List String, roles ≠ [] → (∀ role ∈ roles, ':' ∉ role.toList) →
      Text.split (Text.join roles ':') ':' = roles ∧
        ∀ conf redis now uid keyId token ttl kwargs ses, "auth" ∉ kwargs.map Prod.fst →
          (SessionManager.create conf redis now uid roles keyId token ttl kwargs).2 = some ses →
            Session.roles ses = roles := by
  refine ⟨fun id level hlevel => ⟨?_, fun other hother => ?_⟩, ?_, ?_⟩
  · rw [parseId_roleFor hresource hlevel, if_pos rfl, Val.text_str]
  · rw [parseId_roleFor hresource hlevel, if_neg (Ne.symm hother)]
  · intro id level id' level' hlevel hlevel' hne hsame
    obtain ⟨hid, hsameLevel⟩ := roleFor_inj hresource hlevel hlevel' hsame
    exact hne (Prod.ext hid hsameLevel)
  · intro roles hne hcolon
    refine ⟨Text.split_join hne hcolon, ?_⟩
    intro conf redis now uid keyId token ttl kwargs ses hauth hses
    exact SessionManager.create_roles hne hcolon hauth hses

/-- An id that holds hyphens, at its ends too. -/
theorem hyphens_decode : parseId (roleFor "list" (.str "-x-1-") "member") "list" = some "-x-1-" ∧
    parseId (roleFor "list" (.str "-x-1-") "member") "album" = none ∧
    roleFor "list" (.str "-x-1-") "member" ≠ roleFor "list" (.str "-x-1") "member" ∧
    Text.split (Text.join ["user", roleFor "list" (.str "-x-1-") "member"] ':') ':' =
      ["user", roleFor "list" (.str "-x-1-") "member"] := by
  obtain ⟨hparse, hunique, hroles⟩ := roles_decode "list" (by decide)
  have hmember := hparse "-x-1-" "member" (by decide)
  refine ⟨hmember.1, hmember.2 "album" (by decide), ?_, ?_⟩
  · exact hunique "-x-1-" "member" "-x-1" "member" (by decide) (by decide) (by decide)
  · exact (hroles _ (by simp) (by decide)).1

end Apicrud
