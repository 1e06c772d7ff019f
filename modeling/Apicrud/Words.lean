import Apicrud.Find
import Apicrud.Rbac

/-! # Tables in the shape of `rbac.yaml`

Ids and role names are made of letters, digits, hyphens and underscores (`Word`), so they stand for
themselves in formats and patterns.  `Entry` lists the kinds of entries that `rbac.yaml` has.  On such a
table no evaluation raises, and what an entry grants is read off its kind. -/

namespace Apicrud

open Relational

/-! ### Words -/

/-- The characters that `gen_id` draws from. -/
def wordChar (c : Char) : Bool := c.isAlphanum || c == '-' || c == '_'

/-- A generated id, or a role name. -/
def Word (s : String) : Prop := s.toList.all wordChar = true

instance (s : String) : Decidable (Word s) := inferInstanceAs (Decidable (_ = true))

theorem Word.char {s : String} (h : Word s) {c : Char} (hc : c ∈ s.toList) : wordChar c = true :=
  List.all_eq_true.mp h c hc

theorem Word.not_mem {s : String} (h : Word s) {c : Char} (hc : wordChar c = false) :
    c ∉ s.toList := by
  intro hmem
  rw [h.char hmem] at hc
  cases hc

theorem Word.noBrace {s : String} (h : Word s) : Text.NoBrace s :=
  ⟨h.not_mem (by decide), h.not_mem (by decide)⟩

theorem Word.plain {s : String} (h : Word s) {c : Char} (hc : c ∈ s.toList) : Regex.Plain c := by
  intro hmem
  have hword := h.char hc
  simp only [List.mem_cons, List.not_mem_nil, or_false] at hmem
  rcases hmem with rfl | rfl | rfl | rfl | rfl | rfl | rfl | rfl | rfl | rfl | rfl | rfl <;>
    exact absurd hword (by decide)

theorem word_resource (m : Model) : Word m.resource := by cases m <;> decide +kernel

/-- A session that passed basic authentication, its roles being role names.  A list role names a
list. -/
structure Access.Ordinary (acc : Access) : Prop where
  auth : acc.auth ≠ none
  uid : ∃ u, acc.uid = some u ∧ u ≠ "" ∧ Word u
  roles : ∀ role, acc.HasRole role → Word role ∧ ¬ "list-None-".toList <+: role.toList

/-! ### Entries -/

/-- The kinds of entries of `rbac.yaml`, for a resource.  Those for a role grant reading. -/
inductive Entry (res : String) : Policy → Prop
  | everyone (actions : List Char) : Entry res ⟨".*", res ++ ":.*", actions⟩
  | role {w : String} {actions : List Char} (hw : Word w) (hbare : w ≠ "person" ∧ w ≠ "user")
      (hr : 'r' ∈ actions) : Entry res ⟨w, res ++ ":.*", actions⟩
  | own {w : String} {actions : List Char} (hw : w = "person" ∨ w = "user") (hr : 'r' ∈ actions) :
      Entry res ⟨w ++ "/{uid}", res ++ ":{uid}", actions⟩
  | word {w : String} {actions : List Char} (hw : Word w) (hbare : w ≠ "person" ∧ w ≠ "user")
      (hr : 'r' ∈ actions) : Entry res ⟨w, res ++ ":{uid}", actions⟩
  | suffixed {w : String} {actions : List Char} (hw : Word w) (hr : 'r' ∈ actions) :
      Entry res ⟨w ++ ":{uid}", res ++ ":{uid}", actions⟩
  | lists {actions : List Char} (hr : 'r' ∈ actions) : Entry res ⟨"list-.*", res ++ ":{uid}", actions⟩
  | ofList {level : String} {actions : List Char} (hw : Word level) (hr : 'r' ∈ actions) :
      Entry res ⟨"list-{list_id}-" ++ level, res ++ ":{list_id}", actions⟩
  | ofEntry {level : String} {actions : List Char} (hw : Word level) (hr : 'r' ∈ actions) :
      Entry res ⟨"list-{eid}-" ++ level, res ++ ":{list_id}", actions⟩

/-- A loaded table in the shape of `rbac.yaml`: what everyone may do with the records that privacy
can open includes reading them. -/
structure Policies.Shaped (pol : Policies) : Prop where
  resource : pol.privateResource = "list"
  attr : pol.privateAttr = "list_id"
  entry : ∀ m rules, AccessControl.rulesOf pol m = .ok rules → ∀ p ∈ rules, Entry m.resource p
  privacy : ∀ m rules, AccessControl.rulesOf pol m = .ok rules → m.Has "privacy" → ∀ p ∈ rules,
    p.principal = ".*" → 'r' ∈ p.actions
  agree : ∀ m rules, AccessControl.rulesOf pol m = .ok rules → ∀ p ∈ rules, ∀ q ∈ rules,
    p.principal = ".*" → q.principal = ".*" → 'r' ∈ p.actions → 'r' ∈ q.actions

theorem basePolicies_entry (res : String) : ∀ p ∈ basePolicies res, Entry res p := by
  intro p hp
  simp only [basePolicies, List.mem_cons, List.not_mem_nil, or_false] at hp
  rcases hp with rfl | rfl
  · exact .role (by decide +kernel) (by decide) (by decide)
  · exact Entry.own (w := "user") (Or.inr rfl) (by decide)

namespace AccessControl

variable {acc : Access} {m : Model} {r : Resolved}

/-! ### Formats and patterns on words -/

theorem fill_field (id uid field v : String) {pre post : String} (hpre : Text.NoBrace pre)
    (hpost : Text.NoBrace post)
    (hfield : ∀ cs, Text.formatAux [("eid", id), ("list_id", id), ("uid", uid)] none
      (field.toList ++ cs) = (Text.formatAux [("eid", id), ("list_id", id), ("uid", uid)] none
        cs).map (v.toList ++ ·)) :
    fill id uid (pre ++ field ++ post) = .ok (pre ++ v ++ post) := by
  have hend := Text.formatAux_append [("eid", id), ("list_id", id), ("uid", uid)] post.toList []
    hpost.1 hpost.2
  have hall := Text.formatAux_append [("eid", id), ("list_id", id), ("uid", uid)] pre.toList
    (field.toList ++ post.toList) hpre.1 hpre.2
  rw [List.append_nil] at hend
  rw [hfield, hend] at hall
  simp only [fill, Text.format, String.toList_append, List.append_assoc, hall, Text.formatAux,
    Option.map_some, List.append_nil]
  congr 1
  rw [← String.toList_append, ← String.toList_append, String.ofList_toList, String.append_assoc]

theorem fill_ofList (id uid : String) {level : String} (h : Word level) :
    fill id uid ("list-{list_id}-" ++ level) = .ok ("list-" ++ id ++ ("-" ++ level)) := by
  have hlevel : Text.NoBrace ("-" ++ level) := by
    have := h.noBrace
    simpa [Text.NoBrace] using this
  have hfill := fill_field id uid "{list_id}" id (by decide : Text.NoBrace "list-")
    hlevel (fun cs => rfl)
  rwa [show "list-" ++ "{list_id}" ++ ("-" ++ level) = "list-{list_id}-" ++ level by
    rw [← String.append_assoc]; rfl] at hfill

theorem fill_ofEntry (id uid : String) {level : String} (h : Word level) :
    fill id uid ("list-{eid}-" ++ level) = .ok ("list-" ++ id ++ ("-" ++ level)) := by
  have hlevel : Text.NoBrace ("-" ++ level) := by
    have := h.noBrace
    simpa [Text.NoBrace] using this
  have hfill := fill_field id uid "{eid}" id (by decide : Text.NoBrace "list-")
    hlevel (fun cs => rfl)
  rwa [show "list-" ++ "{eid}" ++ ("-" ++ level) = "list-{eid}-" ++ level by
    rw [← String.append_assoc]; rfl] at hfill

/-- A word, a separator and the owner. -/
theorem fill_wordUid (id uid sep : String) {w : String} (h : Word w) (hsep : Text.NoBrace sep) :
    fill id uid (w ++ (sep ++ "{uid}")) = .ok (w ++ (sep ++ uid)) := by
  have hpre : Text.NoBrace (w ++ sep) := by
    have := h.noBrace
    simp only [Text.NoBrace, String.toList_append, List.mem_append, not_or] at this hsep ⊢
    exact ⟨⟨this.1, hsep.1⟩, this.2, hsep.2⟩
  have hfill := fill_uid (w ++ sep) hpre id uid
  rwa [String.append_assoc, String.append_assoc] at hfill

/-- A word, a separator and the list. -/
theorem fill_wordListId (id uid sep : String) {w : String} (h : Word w) (hsep : Text.NoBrace sep) :
    fill id uid (w ++ (sep ++ "{list_id}")) = .ok (w ++ (sep ++ id)) := by
  have hpre : Text.NoBrace (w ++ sep) := by
    have := h.noBrace
    simp only [Text.NoBrace, String.toList_append, List.mem_append, not_or] at this hsep ⊢
    exact ⟨⟨this.1, hsep.1⟩, this.2, hsep.2⟩
  have hfill := fill_field id uid "{list_id}" id hpre (by decide : Text.NoBrace "")
    (fun cs => rfl)
  rw [String.append_empty, String.append_empty] at hfill
  rwa [String.append_assoc, String.append_assoc] at hfill

theorem reMatch_literal {s : String} (hs : ∀ c ∈ s.toList, Regex.Plain c) (subject : String) :
    reMatch ("^" ++ s ++ "$") subject = .ok (decide (subject = s ∨ subject = s ++ "\n")) := by
  have hmatch := Regex.match_literal hs subject.toList
  have hpattern : String.ofList ('^' :: (s.toList ++ ['$'])) = "^" ++ s ++ "$" := by
    apply String.toList_injective
    simp
  have hiff : (subject.toList = s.toList ∨ subject.toList = s.toList ++ ['\n']) ↔
      (subject = s ∨ subject = s ++ "\n") := by
    have hbreak : s.toList ++ ['\n'] = (s ++ "\n").toList := by simp
    rw [hbreak, String.toList_inj, String.toList_inj]
  rw [hpattern, String.ofList_toList] at hmatch
  rw [reMatch, hmatch]
  simp only [hiff]

theorem reMatch_prefix {s t : String} (hs : ∀ c ∈ s.toList, Regex.Plain c) (ht : '\n' ∉ t.toList) :
    reMatch ("^" ++ (s ++ ".*") ++ "$") (s ++ t) = .ok true := by
  have hmatch := Regex.match_prefix hs ht
  have hpattern : String.ofList ('^' :: (s.toList ++ ['.', '*', '$'])) =
      "^" ++ (s ++ ".*") ++ "$" := by
    apply String.toList_injective
    simp
  have hsubject : String.ofList (s.toList ++ t.toList) = s ++ t := by
    apply String.toList_injective
    simp
  rw [hpattern, hsubject] at hmatch
  rw [reMatch, hmatch]

/-! ### Resources -/

theorem plain_append {s t : String} (hs : ∀ c ∈ s.toList, Regex.Plain c)
    (ht : ∀ c ∈ t.toList, Regex.Plain c) : ∀ c ∈ (s ++ t).toList, Regex.Plain c := by
  intro c hc
  rw [String.toList_append, List.mem_append] at hc
  exact hc.elim (hs c) (ht c)

theorem plain_colon : ∀ c ∈ ":".toList, Regex.Plain c := by
  intro c hc
  have hc : c ∈ [':'] := hc
  rw [List.mem_singleton.mp hc]
  decide

theorem resourceMatches_any (w : String) (actions : List Char) :
    resourceMatches acc m r ⟨w, m.resource ++ ":.*", actions⟩ = .ok true := by
  have huid : ¬ Text.Contains (m.resource ++ ":.*") "uid" := by cases m <;> decide +kernel
  have heid : ¬ Text.Contains (m.resource ++ ":.*") "eid" := by cases m <;> decide +kernel
  have hfill : fill r.id.text r.ownerUid.text (m.resource ++ ":.*") =
      .ok (m.resource ++ ":.*") := by
    refine fill_of_noBrace ?_ _ _
    cases m <;> decide +kernel
  have hmatch := reMatch_prefix (s := m.resource ++ ":") (t := "None")
    (plain_append (fun c hc => (word_resource m).plain hc) plain_colon) (by decide)
  unfold resourceMatches
  simp only [huid, heid, if_false]
  rw [hfill]
  have hcolon : m.resource ++ ":" ++ ".*" = m.resource ++ ":.*" := by
    rw [String.append_assoc]
    rfl
  rw [hcolon] at hmatch
  exact hmatch

theorem resource_split (m : Model) (t : String) : m.resource ++ (":" ++ t) = m.resource ++ ":" ++ t :=
  (String.append_assoc ..).symm

theorem resourceMatches_uid {u : String} (hu : acc.uid = some u) (hword : Word u)
    (howner : Word r.ownerUid.text) (w : String) (actions : List Char) :
    resourceMatches acc m r ⟨w, m.resource ++ ":{uid}", actions⟩ =
      .ok (decide (u = r.ownerUid.text)) := by
  have huid : Text.Contains (m.resource ++ ":{uid}") "uid" := by cases m <;> decide +kernel
  have hfill : fill r.id.text r.ownerUid.text (m.resource ++ ":{uid}") =
      .ok (m.resource ++ (":" ++ r.ownerUid.text)) :=
    fill_wordUid _ _ ":" (word_resource m) (by decide)
  have hmatch := reMatch_literal (plain_append (fun c hc => (word_resource m).plain hc)
    (plain_append plain_colon fun c hc => howner.plain hc)) (m.resource ++ ":" ++ u)
  have hiff : (m.resource ++ ":" ++ u = m.resource ++ (":" ++ r.ownerUid.text) ∨
      m.resource ++ ":" ++ u = m.resource ++ (":" ++ r.ownerUid.text) ++ "\n") ↔
      u = r.ownerUid.text := by
    have hbreak : m.resource ++ ":" ++ r.ownerUid.text ++ "\n" =
        m.resource ++ ":" ++ (r.ownerUid.text ++ "\n") := String.append_assoc ..
    rw [resource_split, hbreak, String.append_right_inj, String.append_right_inj]
    constructor
    · rintro (h | h)
      · exact h
      · exfalso
        refine hword.not_mem (c := '\n') (by decide) ?_
        rw [h, String.toList_append]
        exact List.mem_append_right _ (by decide)
    · exact Or.inl
  unfold resourceMatches
  simp only [huid, if_true, Access.uidText, hu, Option.getD_some]
  rw [hfill]
  simp only [hiff] at hmatch
  exact hmatch

theorem resourceMatches_listId (hid : Word r.id.text) (w : String) (actions : List Char) :
    ∃ b, resourceMatches acc m r ⟨w, m.resource ++ ":{list_id}", actions⟩ = .ok b := by
  have hfill : fill r.id.text r.ownerUid.text (m.resource ++ ":{list_id}") =
      .ok (m.resource ++ (":" ++ r.id.text)) :=
    fill_wordListId _ _ ":" (word_resource m) (by decide)
  have hmatch := reMatch_literal (plain_append (fun c hc => (word_resource m).plain hc)
    (plain_append plain_colon fun c hc => hid.plain hc))
  unfold resourceMatches
  rw [hfill]
  exact ⟨_, hmatch _⟩

/-- No evaluation of a resource raises. -/
theorem resourceMatches_ok {u : String} (hu : acc.uid = some u) (hword : Word u)
    (howner : Word r.ownerUid.text) (hid : Word r.id.text) {p : Policy}
    (hp : Entry m.resource p) : ∃ b, resourceMatches acc m r p = .ok b := by
  cases hp with
  | everyone | role => exact ⟨_, resourceMatches_any _ _⟩
  | own | word | suffixed | lists => exact ⟨_, resourceMatches_uid hu hword howner _ _⟩
  | ofList | ofEntry => exact resourceMatches_listId hid _ _

/-- No evaluation of a principal raises. -/
theorem fill_principal_ok (id uid : String) {p : Policy} (hp : Entry m.resource p) :
    ∃ s, fill id uid p.principal = .ok s := by
  cases hp with
  | everyone => exact ⟨_, fill_of_noBrace (by decide : Text.NoBrace ".*") _ _⟩
  | role hw => exact ⟨_, fill_of_noBrace hw.noBrace _ _⟩
  | own hw =>
      rcases hw with rfl | rfl
      · exact ⟨_, fill_uid "person/" (by decide) _ _⟩
      · exact ⟨_, fill_uid "user/" (by decide) _ _⟩
  | word hw => exact ⟨_, fill_of_noBrace hw.noBrace _ _⟩
  | suffixed hw => exact ⟨_, fill_wordUid _ _ ":" hw (by decide)⟩
  | lists => exact ⟨_, fill_of_noBrace (by decide : Text.NoBrace "list-.*") _ _⟩
  | ofList hw => exact ⟨_, fill_ofList _ _ hw⟩
  | ofEntry hw => exact ⟨_, fill_ofEntry _ _ hw⟩

/-- No entry is the wildcard of a membership: loading replaces its asterisk. -/
theorem principal_ne_wildcard {p : Policy} (hp : Entry m.resource p) (membership : String) :
    p.principal ≠ membership ++ "-*" := by
  intro heq
  have hrev : p.principal.toList.reverse = '*' :: '-' :: membership.toList.reverse := by
    rw [heq]
    simp
  have hstar : '*' ∈ p.principal.toList := List.mem_reverse.mp (hrev ▸ List.mem_cons_self)
  cases hp with
  | everyone | lists => exact absurd hrev (by simp)
  | role hw | word hw => exact hw.not_mem (by decide) hstar
  | own hw =>
      change '*' ∈ (_ ++ "/{uid}").toList at hstar
      rcases hw with rfl | rfl <;> exact absurd hstar (by decide)
  | suffixed hw | ofList hw | ofEntry hw =>
      rw [String.toList_append, List.mem_append] at hstar
      rcases hstar with hstar | hstar <;>
        first
          | exact hw.not_mem (by decide) hstar
          | exact absurd hstar (by decide)

/-! ### Evaluation -/

/-- With the principal and the role read, an entry applies when they agree and the resource matches. -/
theorem applies_eq {u : String} (hu : acc.uid = some u) (hword : Word u)
    (howner : Word r.ownerUid.text) (hid : Word r.id.text) {p : Policy} (hp : Entry m.resource p)
    {role principal : String} (hrole : Word role)
    (hprincipal : fill r.id.text r.ownerUid.text p.principal = .ok principal) :
    applies acc m r p role =
      if principal = nameOf acc role then resourceMatches acc m r p else .ok false := by
  obtain ⟨b, hb⟩ := resourceMatches_ok hu hword howner hid hp
  unfold applies
  cases r.membership with
  | none =>
      simp only [hprincipal, fill_roleName hrole.noBrace, hb]
      by_cases hname : principal = nameOf acc role
      · rw [if_pos hname]
        cases b <;> simp [bind, Except.bind, hname]
      · simp [bind, Except.bind, hname]
  | some membership =>
      simp only [hprincipal, fill_roleName hrole.noBrace, hb, principal_ne_wildcard hp membership,
        false_and, if_false]
      by_cases hname : principal = nameOf acc role
      · rw [if_pos hname]
        cases b <;> simp [bind, Except.bind, hname]
      · simp [bind, Except.bind, hname]

theorem applies_ok {u : String} (hu : acc.uid = some u) (hword : Word u)
    (howner : Word r.ownerUid.text) (hid : Word r.id.text) {p : Policy} (hp : Entry m.resource p)
    {role : String} (hrole : Word role) : ∃ b, applies acc m r p role = .ok b := by
  obtain ⟨principal, hprincipal⟩ := fill_principal_ok r.id.text r.ownerUid.text hp
  obtain ⟨b, hb⟩ := resourceMatches_ok hu hword howner hid hp
  rw [applies_eq hu hword howner hid hp hrole hprincipal, hb]
  split <;> exact ⟨_, rfl⟩

/-- An entry that grants its actions to the session on records of its own, or on all. -/
def Carries (acc : Access) (m : Model) (p : Policy) : Prop :=
  ∃ w, acc.HasRole w ∧
    ((p.principal = w ∧ w ≠ "person" ∧ w ≠ "user" ∧
        (p.resource = m.resource ++ ":.*" ∨ p.resource = m.resource ++ ":{uid}")) ∨
      (p.principal = w ++ "/{uid}" ∧ (w = "person" ∨ w = "user") ∧
        p.resource = m.resource ++ ":{uid}"))

theorem applies_of_carries {u : String} (hu : acc.uid = some u) (hword : Word u)
    (howner : r.ownerUid.text = u) (hid : Word r.id.text) {p : Policy} (hp : Entry m.resource p)
    (hroles : ∀ role, acc.HasRole role → Word role) (hcarries : Carries acc m p) :
    ∃ role, acc.HasRole role ∧ applies acc m r p role = .ok true := by
  obtain ⟨w, hw, hkind⟩ := hcarries
  have howner' : Word r.ownerUid.text := howner ▸ hword
  obtain ⟨principal, resource, actions⟩ := p
  refine ⟨w, hw, ?_⟩
  rcases hkind with ⟨rfl, hperson, huser, hres⟩ | ⟨rfl, hbare, rfl⟩
  · have hfill := fill_of_noBrace (hroles _ hw).noBrace r.id.text r.ownerUid.text
    have hname : nameOf acc principal = principal := by
      unfold nameOf
      rw [if_neg]
      rintro (h | h)
      · exact hperson h
      · exact huser h
    rw [applies_eq hu hword howner' hid hp (hroles _ hw) hfill, if_pos hname.symm]
    rcases hres with rfl | rfl
    · exact resourceMatches_any _ _
    · rw [resourceMatches_uid hu hword howner', howner, decide_eq_true rfl]
  · have hfill : fill r.id.text r.ownerUid.text (w ++ "/{uid}") = .ok (w ++ ("/" ++ u)) := by
      rw [← howner]
      exact fill_wordUid _ _ "/" (hroles _ hw) (by decide)
    have hname : w ++ ("/" ++ u) = nameOf acc w := by
      unfold nameOf
      rw [if_pos hbare, Access.uidText, hu, String.append_assoc]
      rfl
    rw [applies_eq hu hword howner' hid hp (hroles _ hw) hfill, if_pos hname,
      resourceMatches_uid hu hword howner', howner, decide_eq_true rfl]

/-- What a role stands for is a word, with an owner after a slash for two of the roles. -/
theorem nameOf_char {u : String} (hu : acc.uid = some u) (hword : Word u) {role : String}
    (hrole : Word role) {c : Char} (hc : c ∈ (nameOf acc role).toList) :
    wordChar c = true ∨ (c = '/' ∧ (role = "person" ∨ role = "user")) := by
  unfold nameOf at hc
  split_ifs at hc with hbare
  · simp only [Access.uidText, hu, Option.getD_some, String.toList_append, List.mem_append] at hc
    rcases hc with (hc | hc) | hc
    · exact Or.inl (hrole.char hc)
    · exact Or.inr ⟨List.mem_singleton.mp hc, hbare⟩
    · exact Or.inl (hword.char hc)
  · exact Or.inl (hrole.char hc)

/-- A role that stands for a level of no list names no list. -/
theorem listNone_of_name {level role : String} (hlevel : Word level)
    (hname : "list-" ++ "None" ++ ("-" ++ level) = nameOf acc role) :
    "list-None-".toList <+: role.toList := by
  have hsplit : "list-None-" ++ level = nameOf acc role := by
    rw [← hname, ← String.append_assoc]
    rfl
  unfold nameOf at hsplit
  split_ifs at hsplit with hbare
  · have hslash : '/' ∈ ("list-None-" ++ level).toList := by
      rw [hsplit]
      simp
    rw [String.toList_append, List.mem_append] at hslash
    rcases hslash with hslash | hslash
    · exact absurd hslash (by decide)
    · exact absurd hslash (hlevel.not_mem (by decide))
  · rw [← hsplit, String.toList_append]
    exact List.prefix_append _ _

/-- An entry that applies to a record owned by the session and of no list carries over. -/
theorem carries_of_applies {u : String} (hacc : acc.Ordinary) (hu : acc.uid = some u)
    (hword : Word u) (howner : r.ownerUid.text = u) (hid : r.id.text = "None") {p : Policy}
    (hp : Entry m.resource p) {role : String} (hrole : acc.HasRole role)
    (happlies : applies acc m r p role = .ok true) : Carries acc m p := by
  obtain ⟨hroleWord, hlist⟩ := hacc.roles role hrole
  obtain ⟨principal, hprincipal⟩ := fill_principal_ok r.id.text r.ownerUid.text hp
  have hidWord : Word r.id.text := hid ▸ by decide +kernel
  have hname : principal = nameOf acc role := by
    by_contra hne
    rw [applies_eq hu hword (howner ▸ hword) hidWord hp hroleWord hprincipal, if_neg hne] at happlies
    cases happlies
  have hchar : ∀ c, c ∈ principal.toList → wordChar c = false → c ≠ '/' → False := by
    intro c hc hodd hslash
    rcases nameOf_char hu hword hroleWord (hname ▸ hc) with h | h
    · rw [h] at hodd
      cases hodd
    · exact hslash h.1
  -- a word as principal is the role itself
  have hself : ∀ w, Word w → principal = w → w = role ∧ role ≠ "person" ∧ role ≠ "user" := by
    rintro w hw rfl
    have hbare : ¬ (role = "person" ∨ role = "user") := by
      intro hbare
      refine hw.not_mem (c := '/') (by decide) ?_
      rw [hname, nameOf, if_pos hbare]
      simp
    rw [nameOf, if_neg hbare] at hname
    exact ⟨hname, not_or.mp hbare⟩
  cases hp with
  | everyone =>
      rw [fill_of_noBrace (by decide : Text.NoBrace ".*")] at hprincipal
      cases hprincipal
      exact absurd (hchar '.' (by decide) (by decide) (by decide)) not_false
  | lists =>
      rw [fill_of_noBrace (by decide : Text.NoBrace "list-.*")] at hprincipal
      cases hprincipal
      exact absurd (hchar '.' (by decide) (by decide) (by decide)) not_false
  | role hw hbare | word hw hbare =>
      rw [fill_of_noBrace hw.noBrace] at hprincipal
      cases hprincipal
      obtain ⟨rfl, -⟩ := hself _ hw rfl
      exact ⟨_, hrole, Or.inl ⟨rfl, hbare.1, hbare.2, by simp⟩⟩
  | suffixed hw =>
      have hfill := fill_wordUid r.id.text r.ownerUid.text ":" hw (by decide)
      cases hprincipal.symm.trans hfill
      refine absurd (hchar ':' ?_ (by decide) (by decide)) not_false
      simp
  | @own w actions hw hr =>
      have hwWord : Word w := by rcases hw with rfl | rfl <;> decide +kernel
      have hfill : fill r.id.text r.ownerUid.text (w ++ "/{uid}") = .ok (w ++ ("/" ++ u)) := by
        rw [← howner]
        exact fill_wordUid _ _ "/" hwWord (by decide)
      cases hprincipal.symm.trans hfill
      have hbare : role = "person" ∨ role = "user" := by
        by_contra hne
        rw [nameOf, if_neg hne] at hname
        refine hroleWord.not_mem (c := '/') (by decide) ?_
        rw [← hname]
        simp
      rw [nameOf, if_pos hbare, Access.uidText, hu, Option.getD_some, String.append_assoc] at hname
      have hw : w = role := (String.append_left_inj _).mp hname
      exact ⟨role, hrole, Or.inr ⟨by rw [hw], hbare, rfl⟩⟩
  | ofList hw =>
      cases hprincipal.symm.trans (fill_ofList r.id.text r.ownerUid.text hw)
      rw [hid] at hname
      exact absurd (listNone_of_name hw hname) hlist
  | ofEntry hw =>
      cases hprincipal.symm.trans (fill_ofEntry r.id.text r.ownerUid.text hw)
      rw [hid] at hname
      exact absurd (listNone_of_name hw hname) hlist

end AccessControl

end Apicrud
