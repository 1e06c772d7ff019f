import Apicrud.Isolation

/-! # Policies for memberships

A role `<resource>-<id>-<level>` stands for a membership.  An entry for such roles names the id of the
membership in its principal and in its resource.  The evaluator compares the resource with the user
when the text `uid` occurs in it, with the membership when `eid` does, and with nothing
otherwise, so an entry whose resource names `list_id` never applies; and the wildcard of a membership
is looked for as it was before loading.  `takesEffect_iff` says which entries grant their
actions in every table. -/

namespace Apicrud

open Relational

/-- The fields that a policy or a role may have. -/
def fieldNames : List String := ["eid", "list_id", "uid"]

/-- The settings of the file, without a table. -/
def Rbac.bare (rbac : Rbac) : Policies :=
  ⟨rbac.privacyLevels, rbac.privateResource, rbac.privateAttr, []⟩

namespace AccessControl

/-- The pattern of a resource, filled in, matches the resource with that id. -/
def Matches (m : Model) (pattern id : String) : Prop :=
  reMatch ("^" ++ pattern ++ "$") (m.resource ++ ":" ++ id) = .ok true

/-- `match_id`, as text. -/
def matchId (acc : Access) (r : Resolved) (p : Policy) : String :=
  if Text.Contains p.resource "uid" then acc.uidText
  else if Text.Contains p.resource "eid" then r.id.text
  else "None"

/-- What the fields of a resource denote is the record: the user of the session, when that is the owner,
or the membership.  Without a field every id is meant. -/
def Covers (acc : Access) (m : Model) (r : Resolved) (p : Policy) : Prop :=
  ∃ pattern, fill r.id.text r.ownerUid.text p.resource = .ok pattern ∧
    if Text.Contains p.resource "{uid}" then
      r.ownerUid.text = acc.uidText ∧ Matches m pattern acc.uidText
    else if Text.Contains p.resource "{list_id}" ∨ Text.Contains p.resource "{eid}" then
      Matches m pattern r.id.text
    else ∀ id, Word id → Matches m pattern id

/-- The session holds a role that equals the principal for the record, or one that the wildcard of a
membership stands for. -/
def Held (acc : Access) (r : Resolved) (e : RawPolicy) (p : Policy) : Prop :=
  ∃ principal, fill r.id.text r.ownerUid.text p.principal = .ok principal ∧
    ((∃ role, acc.HasRole role ∧
        (role = principal ∨ fill r.id.text acc.uidText (roleName role) = .ok principal)) ∨
      ∃ res role, e.principal = res ++ "-*" ∧ acc.HasRole role ∧
        (res ++ "-").toList <+: role.toList)

/-- No text of the entry makes the evaluation raise. -/
structure Readable (acc : Access) (m : Model) (r : Resolved) (p : Policy) : Prop where
  principal : Text.Formats fieldNames p.principal
  resource : ∃ b, resourceMatches acc m r p = .ok b

/-- All the actions are available on the record. -/
def Grants (pol : Policies) (db : Database) (acc : Access) (m : Model) (t : Target) (record : Row)
    (actions : List Char) : Prop :=
  ∃ granted, rbacPermissions pol db acc m { t with query := some [record] } = .ok granted ∧
    ∀ x ∈ actions, x ∈ granted

/-- The condition on an entry: it is not the one for everyone, a role that the session holds reads as its
principal, its resource matches the id that is compared, and it does not allow to delete what is not
to be deleted. -/
def TakesEffect (acc : Access) (m : Model) (r : Resolved) (p : Policy) : Prop :=
  p.actions = [] ∨ (p.principal ≠ ".*" ∧
    (∃ role principal, acc.HasRole role ∧
      fill r.id.text r.ownerUid.text p.principal = .ok principal ∧
      fill r.id.text acc.uidText (roleName role) = .ok principal) ∧
    (∃ pattern, fill r.id.text r.ownerUid.text p.resource = .ok pattern ∧
      Matches m pattern (matchId acc r p)) ∧
    ('d' ∈ p.actions → r.denyDelete = false))

variable {pol : Policies} {db : Database} {acc : Access} {m : Model} {t : Target} {record : Row}
  {r : Resolved} {rules : List Policy} {e : RawPolicy} {p : Policy}

/-! ### One entry -/

theorem fill_of_formats {s : String} (h : Text.Formats fieldNames s) (id uid : String) :
    ∃ text, fill id uid s = .ok text := by
  have hformat : ∃ text, Text.format [("eid", id), ("list_id", id), ("uid", uid)] s = some text :=
    Text.format_of_formats h
  obtain ⟨text, htext⟩ := hformat
  exact ⟨text, by rw [fill, htext]⟩

theorem resourceMatches_eq {pattern : String}
    (h : fill r.id.text r.ownerUid.text p.resource = .ok pattern) :
    resourceMatches acc m r p =
      reMatch ("^" ++ pattern ++ "$") (m.resource ++ ":" ++ matchId acc r p) := by
  unfold resourceMatches
  rw [h]
  rfl

/-- Loading puts a dot before every asterisk. -/
theorem flatMap_ne_wildcard (l k : List Char) :
    l.flatMap (fun c => if c = '*' then ['.', '*'] else [c]) ≠ k ++ ['-', '*'] := by
  rcases List.eq_nil_or_concat l with rfl | ⟨l, c, rfl⟩
  · simp
  · rw [List.concat_eq_append, List.flatMap_append, List.flatMap_singleton]
    split_ifs with hc
    · intro h
      have htail := (List.append_inj' h rfl).2
      exact absurd htail (by decide)
    · intro h
      have hlast : k ++ ['-', '*'] = (k ++ ['-']) ++ ['*'] := by simp
      rw [hlast] at h
      have htail := (List.append_inj' h rfl).2
      exact hc (List.singleton_inj.mp htail)

/-- A loaded entry is never the wildcard of a membership that the evaluator looks for. -/
theorem load_ne_wildcard {res : String} (h : e.load res = some p) (membership : String) :
    p.principal ≠ membership ++ "-*" := by
  obtain ⟨principal, -, h⟩ := Option.bind_eq_some_iff.mp h
  obtain ⟨resource, -, h⟩ := Option.bind_eq_some_iff.mp h
  cases h
  intro heq
  have hlist := congrArg String.toList heq
  rw [Text.replace, String.toList_ofList, String.toList_append] at hlist
  exact flatMap_ne_wildcard principal.toList membership.toList hlist

theorem applies_eq_true (hwild : ∀ membership, p.principal ≠ membership ++ "-*") {role : String} :
    applies acc m r p role = .ok true ↔
      ∃ principal, fill r.id.text r.ownerUid.text p.principal = .ok principal ∧
        fill r.id.text acc.uidText (roleName role) = .ok principal ∧
        resourceMatches acc m r p = .ok true := by
  constructor
  · intro h
    obtain ⟨principal, hprincipal, h⟩ := Checks.bind_eq_ok.mp h
    obtain ⟨name, hname, h⟩ := Checks.bind_eq_ok.mp h
    by_cases heq : principal = name
    · rw [if_pos heq] at h
      obtain ⟨direct, hdirect, h⟩ := Checks.bind_eq_ok.mp h
      cases direct with
      | true => exact ⟨principal, hprincipal, heq ▸ hname, hdirect⟩
      | false =>
          simp only [Bool.false_eq_true, if_false] at h
          split at h
          · rw [if_neg fun h => hwild _ h.1] at h
            cases h
          · cases h
    · rw [if_neg heq] at h
      split at h
      · rw [if_neg fun h => hwild _ h.1] at h
        cases h
      · cases h
  · rintro ⟨principal, hprincipal, hname, hmatch⟩
    unfold applies
    simp [hprincipal, hname, hmatch, bind, Except.bind]

/-- Whether a readable entry applies can be said for every role that formats. -/
theorem applies_isOk (hp : Readable acc m r p) {role : String}
    (hrole : Text.Formats fieldNames (roleName role)) : ∃ b, applies acc m r p role = .ok b := by
  obtain ⟨principal, hprincipal⟩ := fill_of_formats hp.principal r.id.text r.ownerUid.text
  obtain ⟨name, hname⟩ := fill_of_formats hrole r.id.text acc.uidText
  obtain ⟨b, hb⟩ := hp.resource
  unfold applies
  simp only [hprincipal, hname, hb]
  by_cases heq : principal = name
  · cases b with
    | true => exact ⟨true, by simp [bind, Except.bind, heq]⟩
    | false =>
        cases r.membership with
        | none => exact ⟨false, by simp [bind, Except.bind, heq]⟩
        | some membership => exact ⟨false, by simp [bind, Except.bind, heq]⟩
  · cases r.membership with
    | none => exact ⟨false, by simp [bind, Except.bind, heq]⟩
    | some membership =>
        simp only [bind, Except.bind, heq, if_false, Bool.false_eq_true]
        split
        · exact ⟨b, rfl⟩
        · exact ⟨false, rfl⟩

theorem formats_of_fill {id uid s text : String} (h : fill id uid s = .ok text) :
    Text.Formats fieldNames s := by
  have hnames : fieldNames.map (fun name => (name, "")) = [("eid", ""), ("list_id", ""), ("uid", "")] :=
    rfl
  unfold fill at h
  split at h
  · rename_i text' hformat
    rw [Text.format, Option.map_eq_some_iff] at hformat
    obtain ⟨chars, hchars, -⟩ := hformat
    have hsame := Text.formatAux_isSome_congr (show [("eid", id), ("list_id", id), ("uid", uid)].map
      Prod.fst = [("eid", ""), ("list_id", ""), ("uid", "")].map Prod.fst from rfl) none s.toList
    rw [hchars, Option.isSome_some] at hsame
    rw [Text.Formats, hnames, Text.format, Option.isSome_map, ← hsame]
  · cases h

/-- Whether a pattern reads does not depend on the subject. -/
theorem reMatch_isOk {pattern subject : String} {b : Bool} (h : reMatch pattern subject = .ok b)
    (subject' : String) : ∃ b', reMatch pattern subject' = .ok b' := by
  unfold reMatch Regex.isMatch at h ⊢
  cases hparse : Regex.parse pattern with
  | none =>
      rw [hparse] at h
      cases h
  | some regex => exact ⟨_, rfl⟩

/-- An entry that is held and covers the record is readable. -/
theorem readable_of_covers (hheld : Held acc r e p) (hcovers : Covers acc m r p) :
    Readable acc m r p := by
  obtain ⟨principal, hprincipal, -⟩ := hheld
  obtain ⟨pattern, hpattern, hdenoted⟩ := hcovers
  have hmatches : ∃ id, Matches m pattern id := by
    split_ifs at hdenoted
    · exact ⟨_, hdenoted.2⟩
    · exact ⟨_, hdenoted⟩
    · exact ⟨"x", hdenoted "x" (by decide)⟩
  obtain ⟨id, hid⟩ := hmatches
  refine ⟨formats_of_fill hprincipal, ?_⟩
  rw [resourceMatches_eq hpattern]
  exact reMatch_isOk hid _

/-! ### Tables -/

/-- In a readable table, an entry that takes effect grants its actions. -/
theorem grants_of_takesEffect (hr : resolve pol db acc m { t with query := some [record] } = .ok r)
    (hroles : ∀ role, acc.HasRole role → Text.Formats fieldNames (roleName role))
    (hrules : rulesOf pol m = .ok rules) (hread : ∀ q ∈ rules, Readable acc m r q)
    (hp : p ∈ rules) (heffect : TakesEffect acc m r p)
    (hwild : ∀ membership, p.principal ≠ membership ++ "-*") :
    Grants pol db acc m t record p.actions := by
  obtain ⟨st, hst, -, hadded⟩ := foldlM_applied
    (fun q hq _ role hrole => applies_isOk (hread q hq) (hroles role hrole))
    ([], if PrivacyOpen acc r then ['r'] else [])
  refine ⟨_, rbacPermissions_eq hr hrules hst, fun x hx => ?_⟩
  rcases heffect with hnone | ⟨hall, ⟨role, principal, hrole, hprincipal, hname⟩,
    ⟨pattern, hpattern, hmatch⟩, hdelete⟩
  · rw [hnone] at hx
    cases hx
  · have happlied : Applied acc m r p := by
      refine ⟨hall, role, hrole, (applies_eq_true hwild).mpr ⟨principal, hprincipal, hname, ?_⟩⟩
      rw [resourceMatches_eq hpattern]
      exact hmatch
    have hfound := hadded p hp happlied x hx
    have hkept : x ∈ granted r st.1 := by
      unfold granted
      split_ifs with hdeny
      · refine List.mem_filter.mpr ⟨hfound, ?_⟩
        have hne : x ≠ 'd' := by
          rintro rfl
          rw [hdelete hx] at hdeny
          cases hdeny
        simpa using hne
      · exact hfound
    rw [if_neg (List.ne_nil_of_mem hkept)]
    exact hkept

/-- An entry that grants its actions next to one that leaves nothing by default takes effect. -/
theorem takesEffect_of_grants {res : String}
    (hr : resolve pol db acc m { t with query := some [record] } = .ok r)
    (hrules : rulesOf pol m = .ok [p, ⟨".*", res, []⟩])
    (hwild : ∀ membership, p.principal ≠ membership ++ "-*")
    (h : Grants pol db acc m t record p.actions) : TakesEffect acc m r p := by
  obtain ⟨result, hresult, hall⟩ := h
  obtain ⟨r', hr', hresult⟩ := Checks.bind_eq_ok.mp hresult
  cases hr.symm.trans hr'
  obtain ⟨rules, hrules', hresult⟩ := Checks.bind_eq_ok.mp hresult
  cases hrules.symm.trans hrules'
  obtain ⟨⟨found, defaults⟩, hst, hresult⟩ := Checks.bind_eq_ok.mp hresult
  rw [evaluate, List.foldlM_cons] at hst
  obtain ⟨mid, hmid, hst⟩ := Checks.bind_eq_ok.mp hst
  rw [List.foldlM_cons, consider, if_pos rfl] at hst
  cases hst
  rw [Checks.pure_eq_ok] at hresult
  -- nothing is left by default, so the actions are those found for the roles
  have hfound : ∀ x ∈ p.actions, x ∈ granted r mid.1 := by
    intro x hx
    have hmem := hall x hx
    rw [← hresult] at hmem
    change x ∈ (if granted r mid.1 = [] then [] else granted r mid.1) at hmem
    split_ifs at hmem
    · cases hmem
    · exact hmem
  have hmore : ∀ x ∈ p.actions, x ∈ mid.1 ∧ (x = 'd' → r.denyDelete = false) := by
    intro x hx
    have hmem := hfound x hx
    unfold granted at hmem
    split_ifs at hmem with hdeny
    · obtain ⟨hmem, hne⟩ := List.mem_filter.mp hmem
      exact ⟨hmem, fun hd => by simp [hd] at hne⟩
    · exact ⟨hmem, fun _ => by simpa using hdeny⟩
  by_cases hnone : p.actions = []
  · exact Or.inl hnone
  · obtain ⟨x, hx⟩ := List.exists_mem_of_ne_nil _ hnone
    by_cases heveryone : p.principal = ".*"
    · rw [consider, if_pos heveryone] at hmid
      cases hmid
      cases (hmore x hx).1
    · rcases consider_cases hmid with ⟨h, -⟩ | ⟨-, hsame | ⟨-, role, hrole, happlies⟩⟩
      · exact absurd h heveryone
      · have hmem := (hmore x hx).1
        rw [hsame] at hmem
        cases hmem
      · obtain ⟨principal, hprincipal, hname, hmatch⟩ := (applies_eq_true hwild).mp happlies
        obtain ⟨pattern, hpattern, -⟩ := Checks.bind_eq_ok.mp hmatch
        rw [resourceMatches_eq hpattern] at hmatch
        exact Or.inr ⟨heveryone, ⟨role, principal, hrole, hprincipal, hname⟩,
          ⟨pattern, hpattern, hmatch⟩, fun hd => (hmore 'd' hd).2 rfl⟩

theorem reMatch_literal_false {s subject : String} (hs : ∀ c ∈ s.toList, Regex.Plain c)
    (hne : ¬ (subject = s ∨ subject = s ++ "\n")) :
    reMatch ("^" ++ s ++ "$") subject = .ok false := by
  rw [reMatch_literal hs, decide_eq_false hne]

/-- A resource that names the list is compared with nothing. -/
theorem resourceMatches_list (hid : Word r.id.text) (hnone : r.id.text ≠ "None") (w : String)
    (actions : List Char) :
    resourceMatches acc m r ⟨w, m.resource ++ ":{list_id}", actions⟩ = .ok false := by
  have huid : ¬ Text.Contains (m.resource ++ ":{list_id}") "uid" := by cases m <;> decide +kernel
  have heid : ¬ Text.Contains (m.resource ++ ":{list_id}") "eid" := by cases m <;> decide +kernel
  have hfill : fill r.id.text r.ownerUid.text (m.resource ++ ":{list_id}") =
      .ok (m.resource ++ (":" ++ r.id.text)) :=
    fill_wordListId _ _ ":" (word_resource m) (by decide)
  have hplain := plain_append (fun c hc => (word_resource m).plain hc)
    (plain_append plain_colon fun c hc => hid.plain hc)
  have hmatch := @resourceMatches_eq acc m r ⟨w, m.resource ++ ":{list_id}", actions⟩ _ hfill
  have hcompared : matchId acc r ⟨w, m.resource ++ ":{list_id}", actions⟩ = "None" := by
    rw [matchId, if_neg huid, if_neg heid]
  rw [hmatch, hcompared]
  refine reMatch_literal_false hplain ?_
  rw [resource_split]
  rintro (h | h)
  · exact hnone ((String.append_right_inj _).mp h).symm
  · have hbreak : '\n' ∈ (m.resource ++ ":" ++ "None").toList := by
      rw [h]
      simp
    rw [String.toList_append, String.toList_append, List.mem_append, List.mem_append] at hbreak
    rcases hbreak with (hbreak | hbreak) | hbreak
    · exact (word_resource m).not_mem (by decide) hbreak
    · exact absurd hbreak (by decide)
    · exact absurd hbreak (by decide)

/-- So an entry with such a resource takes no effect. -/
theorem not_takesEffect_listId (hid : Word r.id.text) (hnone : r.id.text ≠ "None") (w : String)
    {actions : List Char} (hactions : actions ≠ []) :
    ¬ TakesEffect acc m r ⟨w, m.resource ++ ":{list_id}", actions⟩ := by
  rintro (h | ⟨-, -, ⟨pattern, hpattern, hmatch⟩, -⟩)
  · exact hactions h
  · have hfalse := @resourceMatches_list acc m r hid hnone w actions
    rw [resourceMatches_eq hpattern] at hfalse
    cases hfalse.symm.trans hmatch

end AccessControl

/-! ### Every table -/

section Tables

open AccessControl

variable {rbac : Rbac} {m : Model} {e : RawPolicy} {p : Policy} {acc : Access} {db : Database}
  {t : Target} {record : Row}

theorem loadRbac_private {pol : Policies} (h : loadRbac rbac = some pol) :
    pol.privateResource = rbac.privateResource ∧ pol.privateAttr = rbac.privateAttr := by
  obtain ⟨table, -, hpol⟩ := Option.bind_eq_some_iff.mp h
  cases hpol
  exact ⟨rfl, rfl⟩

/-- What a record is judged by depends on the settings only. -/
theorem viewed_congr {pol pol' : Policies} (hresource : pol.privateResource = pol'.privateResource)
    (hattr : pol.privateAttr = pol'.privateAttr) :
    viewed pol db acc m t record = viewed pol' db acc m t record := by
  obtain ⟨levels, resource, attr, rules⟩ := pol
  obtain ⟨levels', resource', attr', rules'⟩ := pol'
  cases hresource
  cases hattr
  rfl

/-- A table of one entry and one that leaves nothing by default. -/
def alone (m : Model) (e : RawPolicy) : List (String × List RawPolicy) :=
  [(m.resource, [e, ⟨"*", "{resource}:*", ""⟩])]

theorem loadRbac_alone (hload : e.load m.resource = some p) :
    loadRbac { rbac with policies := alone m e } =
      some { rbac.bare with rules := [(m.resource, [p, ⟨".*", m.resource ++ ":.*", []⟩])] } := by
  have hnothing : (⟨"*", "{resource}:*", ""⟩ : RawPolicy).load m.resource =
      some ⟨".*", m.resource ++ ":.*", []⟩ := by cases m <;> decide +kernel
  simp [loadRbac, alone, hload, hnothing, Rbac.bare]

/-- An entry that the session holds and that covers the record grants its actions in every readable
table it stands in if and only if it takes effect. -/
theorem takesEffect_iff (hload : e.load m.resource = some p) (hrow : record ∈ db.rows m)
    (hroles : ∀ role, acc.HasRole role → Text.Formats fieldNames (roleName role))
    (hheld : Held acc (viewed rbac.bare db acc m t record) e p)
    (hcovers : Covers acc m (viewed rbac.bare db acc m t record) p) :
    (∀ policies pol entries rules, loadRbac { rbac with policies := policies } = some pol →
      policies.lookup m.resource = some entries → e ∈ entries → rulesOf pol m = .ok rules →
      (∀ q ∈ rules, Readable acc m (viewed rbac.bare db acc m t record) q) →
      Grants pol db acc m t record p.actions) ↔
      TakesEffect acc m (viewed rbac.bare db acc m t record) p := by
  have hview : ∀ {policies pol}, loadRbac { rbac with policies := policies } = some pol →
      resolve pol db acc m { t with query := some [record] } =
        .ok (viewed rbac.bare db acc m t record) := by
    intro policies pol hpol
    obtain ⟨hresource, hattr⟩ := loadRbac_private hpol
    have hsame : viewed pol db acc m t record = viewed rbac.bare db acc m t record :=
      viewed_congr hresource hattr
    rw [resolve_record hrow, hsame]
  have hwild := load_ne_wildcard hload
  constructor
  · intro h
    have halone := @loadRbac_alone rbac m e p hload
    have hrules : rulesOf { rbac.bare with
        rules := [(m.resource, [p, ⟨".*", m.resource ++ ":.*", []⟩])] } m =
          .ok [p, ⟨".*", m.resource ++ ":.*", []⟩] := by
      simp [rulesOf]
    have hlookup : (alone m e).lookup m.resource = some [e, ⟨"*", "{resource}:*", ""⟩] := by
      simp [alone]
    refine takesEffect_of_grants (hview halone) hrules hwild
      (h _ _ _ _ halone hlookup List.mem_cons_self hrules ?_)
    intro q hq
    rcases List.mem_cons.mp hq with rfl | hq
    · exact readable_of_covers hheld hcovers
    · rw [List.mem_singleton.mp hq]
      exact ⟨(by decide : Text.Formats fieldNames ".*"), _, resourceMatches_any _ _⟩
  · intro heffect policies pol entries rules hpol hlookup hmem hrules hread
    obtain ⟨rules', hrules', hmap⟩ := rulesOf_load hpol hlookup
    cases hrules.symm.trans hrules'
    refine grants_of_takesEffect (hview hpol) hroles hrules hread ?_ heffect hwild
    obtain ⟨q, hq, hqload⟩ := exists_load hmap hmem
    cases hload.symm.trans hqload
    exact hq

end Tables

/-! ### A message to a list -/

/-- A message of the first user to a list. -/
def listMessage : Row := Seed.row .message [("id", .str "x-msg1"), ("content", .str "hello"),
  ("sender_id", .str "x-23450001"), ("list_id", .str "x-list1"), ("privacy", .str "secret"),
  ("uid", .str "x-23450001"), ("status", .str "active")]

/-- A list of the first user, open to its members. -/
def memberList (id : String) : Row := Seed.row .list [("id", .str id), ("name", .str id),
  ("privacy", .str "member"), ("category_id", .str "x-3423ceaf"), ("uid", .str "x-23450001"),
  ("status", .str "active")]

/-- The seeded database with two lists and the message to the first. -/
def listed : Database := ⟨Seed.tables (Seed.records ++ Seed.member ++
  [(.list, memberList "x-list1"), (.list, memberList "x-list2"), (.message, listMessage)]),
  by decide +kernel⟩

theorem listMessage_mem : listMessage ∈ listed.rows .message := List.mem_singleton_self _

/-- The entry for those invited to a list. -/
def inviteeEntry : RawPolicy := ⟨"list-{{list_id}}-invitee", "{resource}:{{list_id}}", "cr"⟩

/-- The other user, invited to the list. -/
def inviteeAccess : Access := { auth := some ["user", "list-x-list1-invitee"], uid := some "u-0002" }

/-- The entry for the owner. -/
def ownerEntry : RawPolicy := ⟨"user/{{uid}}", "{resource}:{{uid}}", "cdru"⟩

/-- The first user. -/
def ownerAccess : Access := { auth := some ["user"], uid := some "x-23450001" }

theorem exampleRbac_message : ∃ entries, exampleRbac.policies.lookup "message" = some entries ∧
    ownerEntry ∈ entries :=
  ⟨_, rfl, List.mem_cons_of_mem _ List.mem_cons_self⟩

open AccessControl in
/-- The owner has every action on the message. -/
theorem ownerEntry_grants :
    Grants examplePolicies listed ownerAccess .message {} listMessage ['c', 'd', 'r', 'u'] := by
  have heffect : TakesEffect ownerAccess .message
      (viewed exampleRbac.bare listed ownerAccess .message {} listMessage)
      ⟨"user/{uid}", "message:{uid}", ['c', 'd', 'r', 'u']⟩ :=
    Or.inr ⟨by decide, ⟨"user", "user/x-23450001", ⟨["user"], rfl, by decide⟩,
      by decide +kernel, by decide +kernel⟩, ⟨"message:x-23450001", by decide +kernel,
      by unfold Matches; decide +kernel⟩, fun _ => by decide +kernel⟩
  obtain ⟨entries, hlookup, hmem⟩ := exampleRbac_message
  refine (@takesEffect_iff exampleRbac .message ownerEntry
    ⟨"user/{uid}", "message:{uid}", ['c', 'd', 'r', 'u']⟩ ownerAccess listed {} listMessage
    (by decide +kernel) listMessage_mem ?_ ?_ ?_).mpr heffect exampleRbac.policies examplePolicies
      entries _ loadRbac_example hlookup hmem rfl ?_
  · rintro role ⟨roles, hauth, hrole⟩
    cases hauth
    rw [List.mem_singleton.mp hrole]
    decide +kernel
  · exact ⟨"user/x-23450001", by decide +kernel, Or.inl ⟨"user", ⟨["user"], rfl, by decide⟩,
      Or.inr (by decide +kernel)⟩⟩
  · refine ⟨"message:x-23450001", by decide +kernel, ?_⟩
    rw [if_pos (by decide +kernel)]
    exact ⟨by decide +kernel, by unfold Matches; decide +kernel⟩
  · intro q hq
    simp only [basePolicies, List.cons_append, List.nil_append, List.mem_cons, List.not_mem_nil,
      or_false] at hq
    rcases hq with rfl | rfl | rfl | rfl
    · exact ⟨by decide +kernel, true, by decide +kernel⟩
    · exact ⟨by decide +kernel, true, by decide +kernel⟩
    · exact ⟨by decide +kernel, false, by decide +kernel⟩
    · exact ⟨by decide +kernel, false, by decide +kernel⟩

open AccessControl in
/-- Those invited to the list may not read its message. -/
theorem invitee_ignored : inviteeEntry ∈ (exampleRbac.policies.lookup "message").getD [] ∧
    Held inviteeAccess (viewed exampleRbac.bare listed inviteeAccess .message {} listMessage)
      inviteeEntry ⟨"list-{list_id}-invitee", "message:{list_id}", ['c', 'r']⟩ ∧
    Covers inviteeAccess .message
      (viewed exampleRbac.bare listed inviteeAccess .message {} listMessage)
      ⟨"list-{list_id}-invitee", "message:{list_id}", ['c', 'r']⟩ ∧
    ¬ Grants examplePolicies listed inviteeAccess .message {} listMessage ['c', 'r'] := by
  refine ⟨?_, ?_, ?_, ?_⟩
  · exact List.mem_cons_of_mem _ (List.mem_cons_of_mem _ (List.mem_cons_of_mem _
      (List.mem_singleton_self _)))
  · exact ⟨"list-x-list1-invitee", by decide +kernel, Or.inl ⟨"list-x-list1-invitee",
      ⟨["user", "list-x-list1-invitee"], rfl, by decide⟩, Or.inl rfl⟩⟩
  · refine ⟨"message:x-list1", by decide +kernel, ?_⟩
    rw [if_neg (by decide +kernel), if_pos (by decide +kernel)]
    unfold Matches
    decide +kernel
  · rintro ⟨granted, hgranted, hall⟩
    have hnone : rbacPermissions examplePolicies listed inviteeAccess .message
        { query := some [listMessage] } = .ok [] := by decide +kernel
    cases hnone.symm.trans hgranted
    exact absurd (hall 'r' (by decide)) (by decide)

end Apicrud
