import Apicrud.AccessControl

/-! # The policies of the example application

The `rbac.yaml` the example application ships, and what its entries let the sessions of the
modelled code do.  `issuedRoles` lists the role names that those sessions carry: logins,
confirmations, enrolments, bypass cookies and API keys create no others, since no model of the
example has the attribute from which `get_roles` composes list roles. -/

namespace Apicrud

open Relational

/-- `base_policy` -/
def basePolicy : List RawPolicy :=
  [⟨"admin", "{resource}:*", "cdru"⟩, ⟨"user/{{uid}}", "{resource}:{{uid}}", "cdru"⟩]

/-- The `rbac.yaml` of the example application. -/
def exampleRbac : Rbac where
  privacyLevels := ["public", "invitee", "member", "manager", "secret"]
  privateResource := "list"
  privateAttr := "list_id"
  policies :=
    [("apikey", basePolicy), ("category", basePolicy), ("credential", basePolicy),
      ("location", basePolicy), ("profile", basePolicy), ("trashcan", basePolicy),
      ("tz", basePolicy),
      ("account", [⟨"*", "{resource}:*", "c"⟩, ⟨"admin", "{resource}:*", "cdru"⟩,
        ⟨"user/{{uid}}", "{resource}:{{uid}}", "cdru"⟩,
        ⟨"mfarequired:{{uid}}", "{resource}:{{uid}}", "ru"⟩]),
      ("contact", [⟨"admin", "{resource}:*", "cdru"⟩,
        ⟨"user/{{uid}}", "{resource}:{{uid}}", "cdru"⟩,
        ⟨"pending", "{resource}:{{uid}}", "ru"⟩, ⟨"person/{{uid}}", "{resource}:{{uid}}", "ru"⟩,
        ⟨"list-*", "{resource}:{{uid}}", "cru"⟩,
        ⟨"list-{{list_id}}-member", "{resource}:{{list_id}}", "r"⟩]),
      ("grant", [⟨"admin", "{resource}:*", "cdru"⟩, ⟨"user/{{uid}}", "{resource}:{{uid}}", "r"⟩]),
      ("list", [⟨"admin", "{resource}:*", "cdiru"⟩,
        ⟨"user/{{uid}}", "{resource}:{{uid}}", "cdghjiru"⟩,
        ⟨"list-{{eid}}-manager", "{resource}:{{list_id}}", "cdghijru"⟩,
        ⟨"list-{{list_id}}-member", "{resource}:{{list_id}}", "gijr"⟩,
        ⟨"list-{{list_id}}-invitee", "{resource}:{{list_id}}", "r"⟩]),
      ("message", [⟨"admin", "{resource}:*", "cdru"⟩,
        ⟨"user/{{uid}}", "{resource}:{{uid}}", "cdru"⟩,
        ⟨"list-{{list_id}}-manager", "{resource}:{{list_id}}", "cdhr"⟩,
        ⟨"list-{{list_id}}-invitee", "{resource}:{{list_id}}", "cr"⟩]),
      ("metric", [⟨"admin", "{resource}:*", "r"⟩, ⟨"user/{{uid}}", "{resource}:{{uid}}", "r"⟩]),
      ("person", [⟨"*", "{resource}:*", "cr"⟩, ⟨"admin", "{resource}:*", "cdru"⟩,
        ⟨"user/{{uid}}", "{resource}:{{uid}}", "cdru"⟩, ⟨"list-*", "{resource}:{{uid}}", "ru"⟩]),
      ("scope", [⟨"admin", "{resource}:*", "cdru"⟩, ⟨"*", "{resource}:*", "r"⟩]),
      ("settings", [⟨"admin", "{resource}:*", "cdru"⟩])]

/-- The first two entries of most resources, loaded. -/
def basePolicies (res : String) : List Policy :=
  [⟨"admin", res ++ ":.*", ['c', 'd', 'r', 'u']⟩,
    ⟨"user/{uid}", res ++ ":{uid}", ['c', 'd', 'r', 'u']⟩]

/-- The table of the example application, loaded. -/
def examplePolicies : Policies where
  privacyLevels := ["public", "invitee", "member", "manager", "secret"]
  privateResource := "list"
  privateAttr := "list_id"
  rules :=
    [("apikey", basePolicies "apikey"), ("category", basePolicies "category"),
      ("credential", basePolicies "credential"), ("location", basePolicies "location"),
      ("profile", basePolicies "profile"), ("trashcan", basePolicies "trashcan"),
      ("tz", basePolicies "tz"),
      ("account", ⟨".*", "account:.*", ['c']⟩ :: basePolicies "account" ++
        [⟨"mfarequired:{uid}", "account:{uid}", ['r', 'u']⟩]),
      ("contact", basePolicies "contact" ++
        [⟨"pending", "contact:{uid}", ['r', 'u']⟩, ⟨"person/{uid}", "contact:{uid}", ['r', 'u']⟩,
          ⟨"list-.*", "contact:{uid}", ['c', 'r', 'u']⟩,
          ⟨"list-{list_id}-member", "contact:{list_id}", ['r']⟩]),
      ("grant", [⟨"admin", "grant:.*", ['c', 'd', 'r', 'u']⟩, ⟨"user/{uid}", "grant:{uid}", ['r']⟩]),
      ("list", [⟨"admin", "list:.*", ['c', 'd', 'i', 'r', 'u']⟩,
        ⟨"user/{uid}", "list:{uid}", ['c', 'd', 'g', 'h', 'j', 'i', 'r', 'u']⟩,
        ⟨"list-{eid}-manager", "list:{list_id}", ['c', 'd', 'g', 'h', 'i', 'j', 'r', 'u']⟩,
        ⟨"list-{list_id}-member", "list:{list_id}", ['g', 'i', 'j', 'r']⟩,
        ⟨"list-{list_id}-invitee", "list:{list_id}", ['r']⟩]),
      ("message", basePolicies "message" ++
        [⟨"list-{list_id}-manager", "message:{list_id}", ['c', 'd', 'h', 'r']⟩,
          ⟨"list-{list_id}-invitee", "message:{list_id}", ['c', 'r']⟩]),
      ("metric", [⟨"admin", "metric:.*", ['r']⟩, ⟨"user/{uid}", "metric:{uid}", ['r']⟩]),
      ("person", ⟨".*", "person:.*", ['c', 'r']⟩ :: basePolicies "person" ++
        [⟨"list-.*", "person:{uid}", ['r', 'u']⟩]),
      ("scope", [⟨"admin", "scope:.*", ['c', 'd', 'r', 'u']⟩, ⟨".*", "scope:.*", ['r']⟩]),
      ("settings", [⟨"admin", "settings:.*", ['c', 'd', 'r', 'u']⟩])]

/-- Loading the file gives the table. -/
theorem loadRbac_example : loadRbac exampleRbac = some examplePolicies := by decide +kernel

/-- The example application. -/
def Service.example (conf : Config) (lib : Lib) : Service := ⟨conf, lib, examplePolicies⟩

/-! ### Roles -/

/-- The roles of the sessions that the code creates; no role at all reads back as the empty one. -/
def issuedRoles : List String :=
  ["", "admin", "user", "person", "pwchange", "mfarequired", "pendingtotp", "pending"]

/-- The principal's roles are all of the issued kinds. -/
def Access.Issued (acc : Access) : Prop := ∀ role, acc.HasRole role → role ∈ issuedRoles

/-- What a role stands for in a policy. -/
def nameOf (acc : Access) (role : String) : String :=
  if role = "person" ∨ role = "user" then role ++ "/" ++ acc.uidText else role

namespace AccessControl

theorem fill_of_noBrace {s : String} (h : Text.NoBrace s) (id uid : String) :
    fill id uid s = .ok s := by
  simp [fill, Text.format_eq_self _ h]

theorem fill_uid (pre : String) (h : Text.NoBrace pre) (id uid : String) :
    fill id uid (pre ++ "{uid}") = .ok (pre ++ uid) := by
  have hformat := Text.formatAux_append [("eid", id), ("list_id", id), ("uid", uid)] pre.toList
    "{uid}".toList h.1 h.2
  have huid : Text.formatAux [("eid", id), ("list_id", id), ("uid", uid)] none "{uid}".toList =
      some (uid.toList ++ []) := rfl
  rw [huid, Option.map_some, List.append_nil] at hformat
  simp only [fill, Text.format, String.toList_append, hformat, Option.map_some]
  rw [← String.toList_append, String.ofList_toList]

/-- What a role without braces reads as. -/
theorem fill_roleName {acc : Access} {role : String} (h : Text.NoBrace role) (id : String) :
    fill id acc.uidText (roleName role) = .ok (nameOf acc role) := by
  unfold roleName nameOf
  split_ifs with hrole
  · rcases hrole with rfl | rfl
    · exact fill_uid "person/" (by decide) id acc.uidText
    · exact fill_uid "user/" (by decide) id acc.uidText
  · exact fill_of_noBrace h id acc.uidText

theorem noBrace_of_issued {role : String} (h : role ∈ issuedRoles) : Text.NoBrace role := by
  revert h role
  decide

end AccessControl

end Apicrud
