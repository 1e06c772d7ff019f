import Apicrud.FindPaging
import Apicrud.Listing
import Apicrud.PermissionChanges
import Apicrud.RegexSteps

/-! # Finding what may be read

`get` evaluates the policies on one record, and `find` turns them into a condition of its query.  Both
say the same of the entries for a role and of those for the owner.  A record that is open to the members of
its list is read by them, but the condition knows nothing of memberships: `finds_iff` says when every
message that may be read is found. -/

namespace Apicrud

open Relational

namespace AccessControl

variable {acc : Access} {m : Model} {r : Resolved} {pol : Policies} {db : Database}
  {rules : List Policy} {t : Target} {u : String} {p : Policy}

/-! ### The entries that apply -/

/-- Some entry lets everyone read. -/
def OpenToAll (rules : List Policy) : Prop := ∃ p ∈ rules, p.principal = ".*"

/-- An entry that opens all records to a role of the session. -/
def CarriesAll (acc : Access) (m : Model) (p : Policy) : Prop :=
  acc.HasRole p.principal ∧ p.principal ≠ "person" ∧ p.principal ≠ "user" ∧
    p.resource = m.resource ++ ":.*"

/-- An entry that opens the session's own records to it. -/
def CarriesOwn (acc : Access) (m : Model) (p : Policy) : Prop :=
  p.resource = m.resource ++ ":{uid}" ∧ ∃ w, acc.HasRole w ∧
    (p.principal = w ∧ w ≠ "person" ∧ w ≠ "user" ∨
      p.principal = w ++ "/{uid}" ∧ (w = "person" ∨ w = "user"))

theorem CarriesAll.carries (h : CarriesAll acc m p) : Carries acc m p :=
  ⟨p.principal, h.1, Or.inl ⟨rfl, h.2.1, h.2.2.1, Or.inl h.2.2.2⟩⟩

theorem CarriesOwn.carries (h : CarriesOwn acc m p) : Carries acc m p := by
  obtain ⟨hresource, w, hw, ⟨hprincipal, hperson, huser⟩ | ⟨hprincipal, hbare⟩⟩ := h
  · exact ⟨w, hw, Or.inl ⟨hprincipal, hperson, huser, Or.inr hresource⟩⟩
  · exact ⟨w, hw, Or.inr ⟨hprincipal, hbare, hresource⟩⟩

/-- An entry that opens all records applies to each. -/
theorem applies_of_carriesAll (hu : acc.uid = some u) (hword : Word u) (howner : Word r.ownerUid.text)
    (hid : Word r.id.text) (hp : Entry m.resource p) (hroles : ∀ role, acc.HasRole role → Word role)
    (h : CarriesAll acc m p) : applies acc m r p p.principal = .ok true := by
  obtain ⟨hrole, hperson, huser, hresource⟩ := h
  obtain ⟨principal, resource, actions⟩ := p
  cases hresource
  have hname : nameOf acc principal = principal := by
    unfold nameOf
    rw [if_neg]
    rintro (h | h)
    · exact hperson h
    · exact huser h
  rw [applies_eq hu hword howner hid hp (hroles _ hrole)
    (fill_of_noBrace (hroles _ hrole).noBrace _ _), if_pos hname.symm]
  exact resourceMatches_any _ _

/-- An entry that applies opens all records to the role, or their own to it. -/
theorem carries_of_applied (hacc : acc.Ordinary) (hu : acc.uid = some u) (hword : Word u)
    (howner : Word r.ownerUid.text) (hid : Word r.id.text) (hp : Entry m.resource p) {role : String}
    (hrole : acc.HasRole role) (happlies : applies acc m r p role = .ok true) :
    CarriesAll acc m p ∨ r.ownerUid.text = u ∧ CarriesOwn acc m p := by
  obtain ⟨hroleWord, hlist⟩ := hacc.roles role hrole
  obtain ⟨principal, hprincipal⟩ := fill_principal_ok r.id.text r.ownerUid.text hp
  rw [applies_eq hu hword howner hid hp hroleWord hprincipal] at happlies
  have hname : principal = nameOf acc role := by
    by_contra hne
    rw [if_neg hne] at happlies
    cases happlies
  rw [if_pos hname] at happlies
  have hchar : ∀ c, c ∈ principal.toList → wordChar c = false → c ≠ '/' → False := by
    intro c hc hodd hslash
    rcases nameOf_char hu hword hroleWord (hname ▸ hc) with h | h
    · rw [h] at hodd
      cases hodd
    · exact hslash h.1
  -- a word as principal is the role itself
  have hself : ∀ w, Word w → principal = w → w = role := by
    rintro w hw rfl
    have hbare : ¬ (role = "person" ∨ role = "user") := by
      intro hbare
      refine hw.not_mem (c := '/') (by decide) ?_
      rw [hname, nameOf, if_pos hbare]
      simp
    rwa [nameOf, if_neg hbare] at hname
  have howned : ∀ {w actions}, resourceMatches acc m r ⟨w, m.resource ++ ":{uid}", actions⟩ = .ok true →
      r.ownerUid.text = u := by
    intro w actions h
    rw [resourceMatches_uid hu hword howner, Except.ok.injEq, decide_eq_true_iff] at h
    exact h.symm
  -- a list role has an id, and the resource of its entries is compared with none
  have hlistRole : ∀ {w level actions}, Word level → principal = "list-" ++ r.id.text ++ ("-" ++ level) →
      resourceMatches acc m r ⟨w, m.resource ++ ":{list_id}", actions⟩ = .ok true → False := by
    rintro w level actions hlevel rfl hmatch
    by_cases hnone : r.id.text = "None"
    · rw [hnone] at hname
      exact hlist (listNone_of_name hlevel hname)
    · rw [resourceMatches_list hid hnone] at hmatch
      cases hmatch
  cases hp with
  | everyone =>
      rw [fill_of_noBrace (by decide : Text.NoBrace ".*")] at hprincipal
      cases hprincipal
      exact absurd (hchar '.' (by decide) (by decide) (by decide)) not_false
  | lists =>
      rw [fill_of_noBrace (by decide : Text.NoBrace "list-.*")] at hprincipal
      cases hprincipal
      exact absurd (hchar '.' (by decide) (by decide) (by decide)) not_false
  | role hw hbare =>
      rw [fill_of_noBrace hw.noBrace] at hprincipal
      cases hprincipal
      cases hself _ hw rfl
      exact Or.inl ⟨hrole, hbare.1, hbare.2, rfl⟩
  | word hw hbare =>
      rw [fill_of_noBrace hw.noBrace] at hprincipal
      cases hprincipal
      cases hself _ hw rfl
      exact Or.inr ⟨howned happlies, rfl, _, hrole, Or.inl ⟨rfl, hbare⟩⟩
  | suffixed hw =>
      have hfill := fill_wordUid r.id.text r.ownerUid.text ":" hw (by decide)
      cases hprincipal.symm.trans hfill
      refine absurd (hchar ':' ?_ (by decide) (by decide)) not_false
      simp
  | @own w actions hw hr =>
      have hwWord : Word w := by rcases hw with rfl | rfl <;> decide +kernel
      have howner' := howned happlies
      have hfill : fill r.id.text r.ownerUid.text (w ++ "/{uid}") = .ok (w ++ ("/" ++ u)) := by
        rw [← howner']
        exact fill_wordUid _ _ "/" hwWord (by decide)
      cases hprincipal.symm.trans hfill
      have hbare : role = "person" ∨ role = "user" := by
        by_contra hne
        rw [nameOf, if_neg hne] at hname
        refine hroleWord.not_mem (c := '/') (by decide) ?_
        rw [← hname]
        simp
      rw [nameOf, if_pos hbare, Access.uidText, hu, Option.getD_some, String.append_assoc] at hname
      cases (String.append_left_inj _).mp hname
      exact Or.inr ⟨howner', rfl, role, hrole, Or.inr ⟨rfl, hw⟩⟩
  | ofList hw =>
      cases hprincipal.symm.trans (fill_ofList r.id.text r.ownerUid.text hw)
      exact absurd happlies fun h => hlistRole hw rfl h
  | ofEntry hw =>
      cases hprincipal.symm.trans (fill_ofEntry r.id.text r.ownerUid.text hw)
      exact absurd happlies fun h => hlistRole hw rfl h

/-! ### Reading a record -/

section shaped

variable (hacc : acc.Ordinary) (hu : acc.uid = some u) (hword : Word u)
  (hentries : ∀ p ∈ rules, Entry m.resource p)

include hacc hu hword hentries

/-- No entry in the shape of `rbac.yaml` raises. -/
theorem evaluates_shaped (howner : Word r.ownerUid.text) (hid : Word r.id.text) :
    Evaluates acc m r rules := by
  intro role hrole p hp _
  exact isOk_eq_true.mpr (applies_ok hu hword howner hid (hentries p hp) (hacc.roles role hrole).1)

/-- Something is added just when an entry opens all records, or the session's own and this is one. -/
theorem adds_shaped (howner : Word r.ownerUid.text) (hid : Word r.id.text) :
    (Adds acc m r rules 'r' ↔ (∃ p ∈ rules, CarriesAll acc m p) ∨
      r.ownerUid.text = u ∧ ∃ p ∈ rules, CarriesOwn acc m p) ∧
    ((∃ y, Adds acc m r rules y) → Adds acc m r rules 'r') := by
  have hroles : ∀ role, acc.HasRole role → Word role := fun role hrole => (hacc.roles role hrole).1
  have hreads : ∀ y, Adds acc m r rules y → Adds acc m r rules 'r' := by
    rintro y ⟨role, hrole, p, hp, hne, happlies, -⟩
    exact ⟨role, hrole, p, hp, hne, happlies, Entry_reads (hentries p hp) hne⟩
  refine ⟨⟨?_, ?_⟩, fun hsome => hsome.elim hreads⟩
  · rintro ⟨role, hrole, p, hp, -, happlies, -⟩
    rcases carries_of_applied hacc hu hword howner hid (hentries p hp) hrole happlies with h | ⟨hown, h⟩
    · exact Or.inl ⟨p, hp, h⟩
    · exact Or.inr ⟨hown, p, hp, h⟩
  · have hadds : ∀ p ∈ rules, (∃ role, acc.HasRole role ∧ applies acc m r p role = .ok true) →
        Carries acc m p → Adds acc m r rules 'r' := by
      rintro p hp ⟨role, hrole, happlies⟩ ⟨w, hw, hkind⟩
      have hne : p.principal ≠ ".*" := by
        intro hall
        rcases hkind with ⟨hprincipal, -⟩ | ⟨hprincipal, hbare, -⟩
        · rw [hall] at hprincipal
          rw [← hprincipal] at hw
          exact (hroles _ hw).not_mem (c := '*') (by decide) (by decide)
        · rw [hall] at hprincipal
          rcases hbare with rfl | rfl <;> exact absurd hprincipal (by decide)
      exact ⟨role, hrole, p, hp, hne, happlies, Entry_reads (hentries p hp) hne⟩
    rintro (⟨p, hp, h⟩ | ⟨hown, p, hp, h⟩)
    · exact hadds p hp ⟨_, h.1, applies_of_carriesAll hu hword howner hid (hentries p hp) hroles h⟩
        h.carries
    · exact hadds p hp (applies_of_carries hu hword hown hid (hentries p hp) hroles h.carries) h.carries

end shaped

/-- The defaults of a resource whose entries for everyone let read. -/
theorem mem_lastEveryone (h : ∀ p ∈ rules, p.principal = ".*" → 'r' ∈ p.actions) {default : List Char} :
    'r' ∈ lastEveryone rules default ↔ OpenToAll rules ∨ 'r' ∈ default := by
  induction rules generalizing default with
  | nil => simp [lastEveryone, OpenToAll]
  | cons p rules ih =>
      have ih := @ih fun q hq => h q (List.mem_cons_of_mem _ hq)
      rw [lastEveryone, List.foldl_cons]
      change 'r' ∈ lastEveryone rules _ ↔ _
      rw [ih]
      by_cases hall : p.principal = ".*"
      · rw [if_pos hall]
        have hread := h p List.mem_cons_self hall
        exact ⟨fun _ => Or.inl ⟨p, List.mem_cons_self, hall⟩, fun _ => Or.inr hread⟩
      · rw [if_neg hall]
        refine or_congr_left ⟨?_, ?_⟩
        · rintro ⟨q, hq, hqall⟩
          exact ⟨q, List.mem_cons_of_mem _ hq, hqall⟩
        · rintro ⟨q, hq, hqall⟩
          rcases List.mem_cons.mp hq with rfl | hq
          · exact absurd hqall hall
          · exact ⟨q, hq, hqall⟩

/-- On a table in the shape of `rbac.yaml`, why a session may read. -/
theorem reads_iff (hshape : pol.Shaped) (hacc : acc.Ordinary) (hu : acc.uid = some u) (hword : Word u)
    (hm : m.Has "privacy") (hr : resolve pol db acc m t = .ok r) (hdeny : r.denyDelete = false)
    (howner : Word r.ownerUid.text) (hid : Word r.id.text) (hrules : rulesOf pol m = .ok rules) :
    ∃ actions, rbacPermissions pol db acc m t = .ok actions ∧ ('r' ∈ actions ↔
      (∃ p ∈ rules, CarriesAll acc m p) ∨ (r.ownerUid.text = u ∧ ∃ p ∈ rules, CarriesOwn acc m p) ∨
        OpenToAll rules ∨ PrivacyOpen acc r) := by
  have hentries := hshape.entry m rules hrules
  obtain ⟨hadds, hmore⟩ := adds_shaped hacc hu hword hentries howner hid
  obtain ⟨found, hfound, hmem⟩ := allowed_of_evaluates hr hrules hdeny
    (evaluates_shaped hacc hu hword hentries howner hid)
  obtain ⟨actions, hactions, hset⟩ : ∃ actions, rbacPermissions pol db acc m t = .ok actions ∧
      actions.toFinset = found := by
    rw [allowed] at hfound
    cases hactions : rbacPermissions pol db acc m t with
    | error e =>
        rw [hactions] at hfound
        cases hfound
    | ok actions =>
        rw [hactions] at hfound
        cases hfound
        exact ⟨actions, rfl, rfl⟩
  refine ⟨actions, hactions, ?_⟩
  have hdefault : 'r' ∈ defaultsOf acc r rules ↔ OpenToAll rules ∨ PrivacyOpen acc r := by
    rw [defaultsOf, mem_lastEveryone (hshape.privacy m rules hrules hm)]
    by_cases hopen : PrivacyOpen acc r <;> simp [hopen]
  rw [← List.mem_toFinset, hset, hmem, Allows, hdefault, ← or_assoc, ← hadds]
  constructor
  · exact fun h => h.imp_right fun h => h.2
  · rintro (h | h)
    · exact Or.inl h
    · by_cases hsome : ∃ y, Adds acc m r rules y
      · exact Or.inl (hmore hsome)
      · exact Or.inr ⟨not_exists.mp hsome, h⟩

/-! ### The condition of the query -/

/-- What stands before the slash of a principal. -/
def headOf (p : Policy) : String := (Text.split p.principal '/').headD ""

theorem headOf_user {w : String} {res : String} {actions : List Char} (hw : '/' ∉ w.toList) :
    headOf ⟨w ++ "/{uid}", res, actions⟩ = w := by
  have htext : w ++ "/{uid}" = String.ofList (w.toList ++ '/' :: "{uid}".toList) := by
    apply String.toList_injective
    simp
  have hplain : ∀ c ∈ w.toList, decide (c ≠ '/') = true :=
    fun c hc => decide_eq_true fun heq => hw (heq ▸ hc)
  rw [headOf, htext, Text.split_headD, List.takeWhile_append_of_pos hplain,
    List.takeWhile_cons_of_neg (by simp), List.append_nil, String.ofList_toList]

/-- A pattern that is read gives a result for every role. -/
theorem firstMatch_ok {principal : String} {regex : Regex} (h : Regex.parse principal = some regex)
    (roles : List String) : ∃ hit, firstMatch principal roles = .ok hit := by
  induction roles with
  | nil => exact ⟨false, rfl⟩
  | cons role roles ih =>
      obtain ⟨b, hb⟩ := @Regex.isMatch_eq_some id _ _ h role
      have hmatch : reMatch principal role = .ok b := by rw [reMatch, hb]
      cases b with
      | true => exact ⟨true, by rw [firstMatch, hmatch]; rfl⟩
      | false =>
          obtain ⟨hit, hhit⟩ := ih
          exact ⟨hit, by rw [firstMatch, hmatch]; exact hhit⟩

/-- A role that matches is found. -/
theorem firstMatch_of_mem {principal role : String} {roles : List String} {hit : Bool}
    (h : firstMatch principal roles = .ok hit) (hrole : role ∈ roles)
    (hmatch : reMatch principal role = .ok true) : hit = true := by
  induction roles with
  | nil => cases hrole
  | cons r roles ih =>
      obtain ⟨b, hb, h⟩ := Checks.bind_eq_ok.mp h
      cases b with
      | true =>
          cases h
          rfl
      | false =>
          rcases List.mem_cons.mp hrole with rfl | hrole
          · rw [hmatch] at hb
            cases hb
          · exact ih h hrole

theorem reMatch_self {w : String} (hw : Word w) : reMatch w w = .ok true := by
  have hmatch := Regex.match_start (fun c hc => hw.plain hc) []
  rw [List.append_nil, String.ofList_toList] at hmatch
  rw [reMatch, hmatch]

/-- A brace that starts no repetition stands for itself. -/
theorem parse_uid {l : List Char} (hl : ∀ c ∈ l, Regex.Plain c) :
    ∃ regex, Regex.parse (String.ofList (l ++ "{uid}".toList)) = some regex := by
  have hread : ∀ n, Regex.parseSeq (5 + n + 1) "{uid}".toList =
      some (Regex.literal "{uid}".toList .eps, []) := by
    intro n
    rw [Nat.add_comm 5 n]
    rfl
  exact ⟨_, Regex.parse_literal hl (fun _ => rfl) hread (by decide)⟩

theorem plain_slash : ∀ c ∈ ['/'], Regex.Plain c := List.forall_mem_singleton.mpr (by decide)

/-- The principals of entries for own records are read as patterns. -/
theorem parse_principal (hp : Entry m.resource p) (hresource : p.resource = m.resource ++ ":{uid}") :
    ∃ regex, Regex.parse p.principal = some regex := by
  have hcolon : ∀ {w : String}, Word w → ∀ {sep : List Char}, (∀ c ∈ sep, Regex.Plain c) →
      ∀ c ∈ w.toList ++ sep, Regex.Plain c := by
    intro w hw sep hsep c hc
    rcases List.mem_append.mp hc with hc | hc
    · exact hw.plain hc
    · exact hsep c hc
  cases hp with
  | everyone | role =>
      exact absurd ((String.append_right_inj _).mp hresource) (by decide)
  | ofList | ofEntry =>
      exact absurd ((String.append_right_inj _).mp hresource) (by decide)
  | lists => exact Option.isSome_iff_exists.mp (by decide +kernel : (Regex.parse "list-.*").isSome = true)
  | @word w actions hw =>
      have hread : ∀ n, Regex.parseSeq (0 + n + 1) [] = some (.eps, []) := fun n => by rw [Regex.parseSeq]
      have hparse := Regex.parse_literal (fun c hc => hw.plain hc) (fun _ => rfl) hread (by decide)
      rw [List.append_nil, String.ofList_toList] at hparse
      exact ⟨_, hparse⟩
  | @suffixed w actions hw =>
      obtain ⟨regex, hregex⟩ := parse_uid (hcolon hw plain_colon)
      refine ⟨regex, ?_⟩
      rw [← hregex]
      refine congrArg Regex.parse ?_
      apply String.toList_injective
      simp
  | @own w actions hw =>
      have hwWord : Word w := by rcases hw with rfl | rfl <;> decide +kernel
      obtain ⟨regex, hregex⟩ := parse_uid (hcolon hwWord plain_slash)
      refine ⟨regex, ?_⟩
      rw [← hregex]
      refine congrArg Regex.parse ?_
      apply String.toList_injective
      simp

/-- The search for a role ends at one for which the entry opens the own records. -/
theorem firstMatch_of_carriesOwn {roles : List String} {hit : Bool} (hauth : acc.auth = some roles)
    (hroles : ∀ role, acc.HasRole role → Word role)
    (hhead : ¬ ((headOf p = "person" ∨ headOf p = "user") ∧ headOf p ∈ roles))
    (h : firstMatch p.principal roles = .ok hit) (hown : CarriesOwn acc m p) : hit = true := by
  obtain ⟨-, w, hw, hkind⟩ := hown
  have hmem : w ∈ roles := by
    obtain ⟨roles', hroles', hmem⟩ := hw
    cases hauth.symm.trans hroles'
    exact hmem
  rcases hkind with ⟨hprincipal, -⟩ | ⟨hprincipal, hbare⟩
  · rw [hprincipal] at h
    exact firstMatch_of_mem h hmem (reMatch_self (hroles w hw))
  · have hself : headOf p = w := by
      obtain ⟨principal, resource, actions⟩ := p
      cases hprincipal
      exact headOf_user ((hroles w hw).not_mem (by decide))
    exact absurd ⟨hself ▸ hbare, hself ▸ hmem⟩ hhead

/-- Only an entry for a role is for all records. -/
theorem bare_of_all (hp : Entry m.resource p) (hall : p.principal ≠ ".*")
    (hresource : p.resource = m.resource ++ ":.*") : p.principal ≠ "person" ∧ p.principal ≠ "user" := by
  cases hp with
  | everyone => exact absurd rfl hall
  | role hw hbare => exact hbare
  | own | word | suffixed | lists => exact absurd ((String.append_right_inj _).mp hresource) (by decide)
  | ofList | ofEntry => exact absurd ((String.append_right_inj _).mp hresource) (by decide)

/-- What an entry makes of the conditions: it leaves the query as it is when it is for everyone or opens all
records, and otherwise it may add the owner, and does where it opens the own records. -/
theorem extend_cases (hm : m.Has "uid") (hcontact : m ≠ .contact)
    (hroles : ∀ role, acc.HasRole role → Word role) (hp : Entry m.resource p)
    (hread : p.principal = ".*" → 'r' ∈ p.actions) (conds : List Condition) :
    (extend acc m 'r' conds p = .ok none ∧ (p.principal = ".*" ∨ CarriesAll acc m p)) ∨
      p.principal ≠ ".*" ∧ ¬ CarriesAll acc m p ∧
        (extend acc m 'r' conds p = .ok (some conds) ∧ ¬ CarriesOwn acc m p ∨
          extend acc m 'r' conds p = .ok (some (conds ++ [.ownUid]))) := by
  by_cases hall : p.principal = ".*"
  · refine Or.inl ⟨?_, Or.inl hall⟩
    unfold extend
    rw [if_pos ⟨hall, hread hall⟩]
  have hr := Entry_reads hp hall
  have hskip : ¬ (p.principal = ".*" ∧ 'r' ∈ p.actions) := fun h => hall h.1
  have hhas : ∀ role, acc.HasRole role ↔ role ∈ acc.auth.getD [] := by
    intro role
    cases hauth : acc.auth with
    | none => simp [Access.HasRole, hauth]
    | some roles => simp [Access.HasRole, hauth]
  unfold extend
  rw [if_neg hskip]
  cases hauth : acc.auth.getD [] with
  | nil =>
      have hnone : ∀ role, ¬ acc.HasRole role := by
        intro role hrole
        rw [hhas, hauth] at hrole
        cases hrole
      refine Or.inr ⟨hall, fun h => hnone _ h.1, Or.inl ⟨?_, fun h => ?_⟩⟩
      rotate_left
      · obtain ⟨-, w, hw, -⟩ := h
        exact hnone w hw
      cases hauth' : acc.auth with
      | none => rfl
      | some roles =>
          rw [hauth', Option.getD_some] at hauth
          rw [hauth]
  | cons first roles =>
      have hauth' : acc.auth = some (first :: roles) := by
        cases hauth' : acc.auth with
        | none =>
            rw [hauth'] at hauth
            cases hauth
        | some roles' =>
            rw [hauth', Option.getD_some] at hauth
            rw [hauth]
      rw [hauth] at hhas
      rw [hauth']
      simp only [hr, and_true]
      by_cases hopen : p.resource = m.resource ++ ":.*" ∧ p.principal ∈ first :: roles
      · rw [if_pos hopen]
        obtain ⟨hperson, huser⟩ := bare_of_all hp hall hopen.1
        exact Or.inl ⟨rfl, Or.inr ⟨(hhas _).mpr hopen.2, hperson, huser, hopen.1⟩⟩
      · rw [if_neg hopen]
        refine Or.inr ⟨hall, fun h => hopen ⟨h.2.2.2, (hhas _).mp h.1⟩, ?_⟩
        by_cases hresource : p.resource = m.resource ++ ":{uid}"
        · rw [if_pos hresource]
          by_cases hhead : (headOf p = "person" ∨ headOf p = "user") ∧ headOf p ∈ first :: roles
          · rw [headOf] at hhead
            rw [if_pos hhead, if_neg (not_not.mpr hm), if_neg hcontact]
            exact Or.inr rfl
          · obtain ⟨regex, hregex⟩ := parse_principal hp hresource
            obtain ⟨hit, hhit⟩ := firstMatch_ok hregex (first :: roles)
            have hown := firstMatch_of_carriesOwn (m := m) hauth' hroles hhead hhit
            rw [headOf] at hhead
            rw [if_neg hhead, hhit]
            cases hit with
            | true =>
                refine Or.inr ?_
                simp [bind, Except.bind, hm, pure, Except.pure]
            | false => exact Or.inl ⟨rfl, fun h => Bool.false_ne_true (hown h)⟩
        · rw [if_neg hresource]
          exact Or.inl ⟨rfl, fun h => hresource h.1⟩

/-- The conditions of a table in the shape of `rbac.yaml`, the induction being on the table. -/
theorem extendAll_shaped (hm : m.Has "uid") (hcontact : m ≠ .contact)
    (hroles : ∀ role, acc.HasRole role → Word role) (hentries : ∀ p ∈ rules, Entry m.resource p)
    (hread : ∀ p ∈ rules, p.principal = ".*" → 'r' ∈ p.actions) (conds : List Condition) :
    (extendAll acc m 'r' rules conds = .ok none ∧
        (OpenToAll rules ∨ ∃ p ∈ rules, CarriesAll acc m p)) ∨
      ¬ OpenToAll rules ∧ (∀ p ∈ rules, ¬ CarriesAll acc m p) ∧
        ∃ added, extendAll acc m 'r' rules conds = .ok (some (conds ++ added)) ∧
          (∀ c ∈ added, c = .ownUid) ∧ ((∃ p ∈ rules, CarriesOwn acc m p) → .ownUid ∈ added) := by
  induction rules generalizing conds with
  | nil =>
      refine Or.inr ⟨by simp [OpenToAll], by simp, [], ?_, by simp, by simp⟩
      rw [extendAll, List.append_nil]
  | cons p rules ih =>
      have ih := ih (fun q hq => hentries q (List.mem_cons_of_mem _ hq))
        (fun q hq => hread q (List.mem_cons_of_mem _ hq))
      rcases extend_cases hm hcontact hroles (hentries p List.mem_cons_self)
        (hread p List.mem_cons_self) conds with ⟨hnone, hopen⟩ | ⟨hall, hclosed, hadd⟩
      · refine Or.inl ⟨?_, ?_⟩
        · rw [extendAll, hnone]
          rfl
        · rcases hopen with hopen | hopen
          · exact Or.inl ⟨p, List.mem_cons_self, hopen⟩
          · exact Or.inr ⟨p, List.mem_cons_self, hopen⟩
      · obtain ⟨mine, hmine, hself, hown⟩ : ∃ mine, extend acc m 'r' conds p =
            .ok (some (conds ++ mine)) ∧ (∀ c ∈ mine, c = .ownUid) ∧
              (CarriesOwn acc m p → .ownUid ∈ mine) := by
          rcases hadd with ⟨hsame, hnot⟩ | hadd
          · exact ⟨[], by rw [hsame, List.append_nil], by simp, fun h => absurd h hnot⟩
          · exact ⟨[.ownUid], hadd, by simp, by simp⟩
        have hstep : extendAll acc m 'r' (p :: rules) conds =
            extendAll acc m 'r' rules (conds ++ mine) := by
          rw [extendAll, hmine]
          rfl
        rw [hstep]
        rcases ih (conds ++ mine) with ⟨hnone, hopen⟩ | ⟨hopen, hcarries, added, hadded, honly, howned⟩
        · refine Or.inl ⟨hnone, ?_⟩
          rcases hopen with ⟨q, hq, h⟩ | ⟨q, hq, h⟩
          · exact Or.inl ⟨q, List.mem_cons_of_mem _ hq, h⟩
          · exact Or.inr ⟨q, List.mem_cons_of_mem _ hq, h⟩
        · refine Or.inr ⟨?_, List.forall_mem_cons.mpr ⟨hclosed, hcarries⟩, mine ++ added, ?_, ?_, ?_⟩
          · rintro ⟨q, hq, h⟩
            rcases List.mem_cons.mp hq with rfl | hq
            · exact hall h
            · exact hopen ⟨q, hq, h⟩
          · rw [hadded, List.append_assoc]
          · intro c hc
            rcases List.mem_append.mp hc with hc | hc
            · exact hself c hc
            · exact honly c hc
          · rintro ⟨q, hq, h⟩
            rcases List.mem_cons.mp hq with rfl | hq
            · exact List.mem_append_left _ (hown h)
            · exact List.mem_append_right _ (howned ⟨q, hq, h⟩)

end AccessControl

/-! ### Listing the messages -/

open AccessControl

namespace BasicCrud

/-- The record is among those of the pages that are followed from the first one on. -/
def Found (svc : Service) (db : Database) (acc : Access) (m : Model) (args : FindArgs) (limits : ℕ → ℕ)
    (record : Row) : Prop :=
  ∃ pages, Follows svc db acc m args limits 0 none pages ∧
    record ∈ (pages.flatMap Page.items).map Item.record

/-- Reading is among the permissions on the record. -/
def MayRead (svc : Service) (db : Database) (acc : Access) (m : Model) (record : Row) : Prop :=
  ∃ actions, rbacPermissions svc.policies db acc m { query := some [record] } = .ok actions ∧
    'r' ∈ actions

/-- The session has the membership that the privacy of the record asks for, in its list. -/
def OpenToMember (acc : Access) (record : Row) : Prop :=
  (record "list_id").truthy = true ∧
    acc.HasRole ("list-" ++ (record "list_id").text ++ "-" ++ (record "privacy").text)

/-- The arguments of a listing without a filter. -/
structure Plain (m : Model) (args : FindArgs) : Prop where
  filter : args.filter = none
  status : args.status = none
  offset : args.offset = 0
  sort : ∀ s ∈ args.sort, m.Has s.1

/-- The ids of a message are made of the characters of ids, and its owner is text. -/
structure MessageIds (record : Row) : Prop where
  id : Word (record "id").text
  list : Word (record "list_id").text
  owner : ∃ owner, record "uid" = .str owner ∧ Word owner

variable {svc : Service} {db : Database} {acc : Access} {m : Model} {args : FindArgs} {rows : List Row}
  {u : String} {limits : ℕ → ℕ} {record : Row} {rules : List Policy}

/-- What is found is what the query results in. -/
theorem found_iff (hresults : results svc db acc m args = .ok rows) (hoffset : args.offset = 0)
    (hlimits : ∀ n, 1 ≤ limits n) (hrbac : ∀ row ∈ rows, ∃ actions,
      rbacPermissions svc.policies db acc m (itemTarget svc.policies db m row) = .ok actions) :
    Found svc db acc m args limits record ↔ record ∈ rows := by
  obtain ⟨hcomplete, hends⟩ := find_paging_complete hresults hoffset hlimits
  constructor
  · rintro ⟨pages, hpages, hmem⟩
    rwa [(hcomplete pages hpages).records] at hmem
  · intro hmem
    obtain ⟨pages, hpages⟩ := hends hrbac
    refine ⟨pages, hpages, ?_⟩
    rwa [(hcomplete pages hpages).records]

/-- Nothing is found where the query is refused. -/
theorem not_found {answer : Response} (h : results svc db acc m args = .error (.error answer)) :
    ¬ Found svc db acc m args limits record := by
  rintro ⟨pages, hpages, -⟩
  have hrefused : ∀ page, findAt svc db acc m { args with limit := limits 0 } none ≠ .ok page := by
    intro page hpage
    have hfind := find_eq svc db acc m args args.offset (limits 0)
    rw [h, respond] at hfind
    cases hfind.symm.trans hpage
  cases hpages with
  | last hserve => exact hrefused _ hserve
  | more hserve => exact hrefused _ hserve

/-- A listing without a filter selects all records that are not disabled. -/
theorem select_plain (h : Plain .message args) : ∃ rows, select db .message args ∅ = .ok rows ∧
    ∀ row, row ∈ rows ↔ row ∈ db.rows .message ∧ row "status" ≠ .str "disabled" := by
  have hsort : Model.message.Has (args.sort.getD ("id", false)).1 := by
    cases hsort : args.sort with
    | none => decide
    | some s => exact h.sort s hsort
  refine ⟨ordered (args.sort.getD ("id", false)).1 (args.sort.getD ("id", false)).2
    ((db.rows .message).filter fun row => decide ((∀ c ∈ ([] : List (String × Clause)), c.2.Holds (row c.1)) ∧
      row "status" ≠ .none ∧ row "status" ≠ .str "disabled")), ?_, fun row => ?_⟩
  · have hnone : clauses ∅ = [] := rfl
    have hdefault : (if Model.message.Has "name" then "name" else "id", false) = ("id", false) := rfl
    unfold select
    rw [hnone, hdefault]
    cases hsorted : args.sort.getD ("id", false) with
    | mk column desc =>
        rw [hsorted] at hsort
        have hstatus : Model.message.Has "status" := by decide
        simp [Checks.ensure, bind, Except.bind, hsort, hstatus, h.status, pure, Except.pure]
  · have hperm : ∀ column desc, ∀ l : List Row, (ordered column desc l).Perm l :=
      fun column desc l => List.perm_insertionSort ..
    rw [(hperm _ _ _).mem_iff, List.mem_filter, decide_eq_true_iff]
    constructor
    · exact fun hrow => ⟨hrow.1, hrow.2.2.2⟩
    · exact fun hrow => ⟨hrow.1, by simp, db.ne_none hrow.1 (by decide), hrow.2⟩

section listing

variable (hshape : svc.policies.Shaped) (hacc : acc.Ordinary) (hu : acc.uid = some u) (hword : Word u)
  (hrules : rulesOf svc.policies .message = .ok rules)

include hshape hacc hu hword hrules

/-- The check of `find` passes when an entry opens some records to the session. -/
theorem mayFind_message : ∃ allowed, mayFind svc db acc .message = .ok allowed ∧ (allowed = true ↔
    (∃ p ∈ rules, CarriesAll acc .message p) ∨ (∃ p ∈ rules, CarriesOwn acc .message p) ∨
      OpenToAll rules) := by
  have hr : resolve svc.policies db acc .message { ownerUid := Val.ofOption acc.uid } =
      .ok ⟨.str u, none, .none, .none, false⟩ := by
    rw [hu]
    rfl
  obtain ⟨actions, hactions, hread⟩ := reads_iff hshape hacc hu hword (by decide) hr rfl hword
    (by decide +kernel : Word "None") hrules
  refine ⟨decide ('r' ∈ actions), ?_, ?_⟩
  · unfold mayFind withPermission
    rw [if_neg (by decide), hactions]
    rfl
  · have hclosed : ¬ PrivacyOpen acc ⟨.str u, none, .none, .none, false⟩ := by
      rintro (h | ⟨h, -⟩)
      · cases h
      · cases h
    rw [decide_eq_true_iff, hread]
    simp [hclosed, Val.text]

/-- What the query of the messages results in. -/
theorem results_message (h : Plain .message args) (hmay : (∃ p ∈ rules, CarriesAll acc .message p) ∨
      (∃ p ∈ rules, CarriesOwn acc .message p) ∨ OpenToAll rules) :
    ∃ rows, results svc db acc .message args = .ok rows ∧ ∀ row, row ∈ rows ↔
      row ∈ db.rows .message ∧ row "status" ≠ .str "disabled" ∧ (OpenToAll rules ∨
        (∃ p ∈ rules, CarriesAll acc .message p) ∨ row "privacy" = .str "public" ∨ row "uid" = .str u) := by
  obtain ⟨allowed, hallowed, hiff⟩ := @mayFind_message svc db acc u rules hshape hacc hu hword hrules
  cases hiff.mpr hmay
  obtain ⟨selected, hselected, hmem⟩ := @select_plain db args h
  have hfilter : filterOf db args = .ok ∅ := by
    unfold filterOf
    rw [h.filter]
  have hresults : ∀ conds, withFilter svc.policies acc .message 'r' = .ok conds →
      ((conds.getD []).filter (· = .referred)).length ≤ 1 →
      results svc db acc .message args = .ok (keep db acc conds selected) := by
    intro conds hconds hjoin
    unfold results queried
    rw [hallowed, hfilter]
    simp [bind, Except.bind, Checks.orElse, Checks.ensure, hselected, hconds, hjoin, pure, Except.pure]
  have hwith : withFilter svc.policies acc .message 'r' =
      extendAll acc .message 'r' rules [.isPublic] := by
    unfold withFilter
    rw [hrules]
    rfl
  rcases extendAll_shaped (by decide : Model.message.Has "uid") (by decide)
      (fun role hrole => (hacc.roles role hrole).1) (hshape.entry _ rules hrules)
      (hshape.privacy _ rules hrules (by decide)) [.isPublic] with
    ⟨hnone, hopen⟩ | ⟨hclosed, hcarries, added, hadded, honly, hown⟩
  · refine ⟨_, hresults none (hwith.trans hnone) (by simp), fun row => ?_⟩
    rw [mem_keep, hmem]
    rcases hopen with hopen | hopen
    · simp [hopen]
    · simp [hopen]
  · have hjoin : ((Option.some ([Condition.isPublic] ++ added)).getD []).filter (· = .referred) = [] := by
      rw [Option.getD_some, List.filter_eq_nil_iff]
      intro c hc
      rcases List.mem_append.mp hc with hc | hc
      · rw [List.mem_singleton.mp hc]
        decide
      · rw [honly c hc]
        decide
    refine ⟨_, hresults _ (hwith.trans hadded) (by rw [hjoin]; exact Nat.zero_le _), fun row => ?_⟩
    have hnot : ¬ ∃ p ∈ rules, CarriesAll acc .message p := by
      rintro ⟨p, hp, hall⟩
      exact hcarries p hp hall
    have howned : .ownUid ∈ added := by
      rcases hmay with hall | howns | hopen
      · exact absurd hall hnot
      · exact hown howns
      · exact absurd hopen hclosed
    have hpasses : Passes db acc ([.isPublic] ++ added) row ↔
        row "privacy" = .str "public" ∨ row "uid" = .str u := by
      have huid : Val.ofOption acc.uid = .str u := by rw [hu]; rfl
      rw [← huid]
      constructor
      · rintro (hnil | ⟨c, hc, hholds⟩)
        · cases hnil
        · rcases List.mem_append.mp hc with hc | hc
          · rw [List.mem_singleton.mp hc] at hholds
            exact Or.inl hholds
          · rw [honly c hc] at hholds
            exact Or.inr hholds
      · rintro (hpublic | hmine)
        · exact Or.inr ⟨.isPublic, by simp, hpublic⟩
        · exact Or.inr ⟨.ownUid, List.mem_append_right _ howned, hmine⟩
    rw [mem_keep, hmem, ← hpasses]
    simp [hclosed, hnot, and_assoc]

/-- Why a message may be read. -/
theorem mayRead_iff {record : Row} (hrow : record ∈ db.rows .message) (hids : MessageIds record) :
    MayRead svc db acc .message record ↔ (∃ p ∈ rules, CarriesAll acc .message p) ∨
      (record "uid" = .str u ∧ ∃ p ∈ rules, CarriesOwn acc .message p) ∨ OpenToAll rules ∨
        record "privacy" = .str "public" ∨ OpenToMember acc record := by
  obtain ⟨owner, howner, hownerWord⟩ := hids.owner
  have hresource := hshape.resource
  have hattr : Model.message.Has svc.policies.privateAttr := by
    rw [hshape.attr]
    decide
  have hview : viewed svc.policies db acc .message {} record =
      ⟨.str owner, if (record "list_id").truthy then some "list" else none, record "list_id",
        record "privacy", false⟩ := by
    have hid : membershipId svc.policies .message {} record = record "list_id" := by
      rw [membershipId, if_pos hattr, hshape.attr]
    have huid : effectiveOwner db acc .message {} record = record "uid" := rfl
    rw [viewed, hid, huid, howner, if_pos hattr, hresource]
    rfl
  have hr : resolve svc.policies db acc .message { query := some [record] } = _ :=
    @resolve_record svc.policies db acc .message {} record hrow
  rw [hview] at hr
  obtain ⟨actions, hactions, hread⟩ := reads_iff hshape hacc hu hword (by decide) hr rfl hownerWord
    hids.list hrules
  have hopen : PrivacyOpen acc ⟨.str owner, if (record "list_id").truthy then some "list" else none,
      record "list_id", record "privacy", false⟩ ↔
        record "privacy" = .str "public" ∨ OpenToMember acc record := by
    refine or_congr_right (and_congr_right fun htruthy => ?_)
    have hmember : (if (record "list_id").truthy = true then some "list" else none).getD "None" ++ "-" =
        "list-" := by
      rw [if_pos htruthy]
      rfl
    rw [hmember]
  have hown : (Val.str owner).text = u ↔ record "uid" = .str u := by
    rw [howner, Val.str.injEq]
    rfl
  rw [hopen, hown] at hread
  rw [← hread, MayRead, hactions]
  constructor
  · rintro ⟨found, hfound, hmem⟩
    cases hfound
    exact hmem
  · exact fun hmem => ⟨actions, rfl, hmem⟩

/-- The actions on a listed message are evaluated. -/
theorem item_message {record : Row} (hids : MessageIds record) : ∃ actions,
    rbacPermissions svc.policies db acc .message (itemTarget svc.policies db .message record) =
      .ok actions := by
  obtain ⟨owner, howner, hownerWord⟩ := hids.owner
  have hid : (asDict db .message record).get "id" = record "id" := by
    simp [asDict, Model.columns, Model.restExclude, Model.restRelated, Model.restHybrid]
  have huid : (asDict db .message record).get "uid" = .str owner := by
    rw [← howner]
    simp [asDict, Model.columns, Model.restExclude, Model.restRelated, Model.restHybrid]
  have hr : resolve svc.policies db acc .message (itemTarget svc.policies db .message record) =
      .ok ⟨(asDict db .message record).get "uid",
        if ((asDict db .message record).get "id").truthy then some svc.policies.privateResource else none,
        (asDict db .message record).get "id", (asDict db .message record).get "privacy", false⟩ := rfl
  rw [hid, huid] at hr
  obtain ⟨actions, hactions, -⟩ := reads_iff hshape hacc hu hword (by decide) hr rfl hownerWord hids.id hrules
  exact ⟨actions, hactions⟩

/-- Every message that is not disabled and may be read is found just when an entry opens all of them to
everyone or to a role of the session; or when those that are public, or open to the session as a member of
their list, are public or its own, and an entry opens its own records to it. -/
theorem finds_iff (h : Plain .message args) (hlimits : ∀ n, 1 ≤ limits n)
    (hids : ∀ record ∈ db.rows .message, MessageIds record) :
    (∀ record ∈ db.rows .message, record "status" ≠ .str "disabled" → MayRead svc db acc .message record →
        Found svc db acc .message args limits record) ↔
      OpenToAll rules ∨ (∃ p ∈ rules, CarriesAll acc .message p) ∨
        ∀ record ∈ db.rows .message, record "status" ≠ .str "disabled" →
          (record "privacy" = .str "public" ∨ OpenToMember acc record) →
          (∃ p ∈ rules, CarriesOwn acc .message p) ∧
            (record "privacy" = .str "public" ∨ record "uid" = .str u) := by
  have hread := fun record hrow => @mayRead_iff svc db acc u rules hshape hacc hu hword hrules record hrow
    (hids record hrow)
  by_cases hmay : (∃ p ∈ rules, CarriesAll acc .message p) ∨ (∃ p ∈ rules, CarriesOwn acc .message p) ∨
      OpenToAll rules
  · obtain ⟨rows, hresults, hmem⟩ :=
      @results_message svc db acc args u rules hshape hacc hu hword hrules h hmay
    have hfound : ∀ record, Found svc db acc .message args limits record ↔ record ∈ rows := fun record =>
      found_iff hresults h.offset hlimits fun row hrow =>
        item_message hshape hacc hu hword hrules (hids row ((hmem row).mp hrow).1)
    simp only [hfound, hmem]
    constructor
    · intro hall
      by_cases hopen : OpenToAll rules
      · exact Or.inl hopen
      by_cases hcarries : ∃ p ∈ rules, CarriesAll acc .message p
      · exact Or.inr (Or.inl hcarries)
      refine Or.inr (Or.inr fun record hrow hstatus hwhy => ⟨?_, ?_⟩)
      · rcases hmay with h | h | h
        · exact absurd h hcarries
        · exact h
        · exact absurd h hopen
      · obtain ⟨-, -, hlisted⟩ := hall record hrow hstatus
          ((hread record hrow).mpr (Or.inr (Or.inr (Or.inr hwhy))))
        rcases hlisted with h | h | h
        · exact absurd h hopen
        · exact absurd h hcarries
        · exact h
    · intro hcond record hrow hstatus hmayRead
      refine ⟨hrow, hstatus, ?_⟩
      rcases hcond with hopen | hcarries | hmembers
      · exact Or.inl hopen
      · exact Or.inr (Or.inl hcarries)
      · rcases (hread record hrow).mp hmayRead with h | ⟨hmine, -⟩ | h | h
        · exact Or.inr (Or.inl h)
        · exact Or.inr (Or.inr (Or.inr hmine))
        · exact Or.inl h
        · exact Or.inr (Or.inr (hmembers record hrow hstatus h).2)
  · obtain ⟨allowed, hallowed, hiff⟩ := @mayFind_message svc db acc u rules hshape hacc hu hword hrules
    have hfalse : allowed = false := Bool.eq_false_iff.mpr fun htrue => hmay (hiff.mp htrue)
    have hrefused : results svc db acc .message args = .error (.error (.message "access denied" 403)) := by
      unfold results
      rw [hallowed, hfalse]
      rfl
    rw [not_or, not_or] at hmay
    obtain ⟨hcarries, howns, hopen⟩ := hmay
    constructor
    · intro hall
      refine Or.inr (Or.inr fun record hrow hstatus hwhy => ?_)
      exact absurd (hall record hrow hstatus ((hread record hrow).mpr (Or.inr (Or.inr (Or.inr hwhy)))))
        (not_found hrefused)
    · rintro (h | h | hmembers) record hrow hstatus hmayRead
      · exact absurd h hopen
      · exact absurd h hcarries
      · rcases (hread record hrow).mp hmayRead with h | ⟨-, h⟩ | h | h
        · exact absurd h hcarries
        · exact absurd h howns
        · exact absurd h hopen
        · exact absurd (hmembers record hrow hstatus h).1 howns

end listing

/-! ### A message to the members of a list -/

/-- The entries of the example application are of the kinds of `rbac.yaml`. -/
theorem example_entries {m : Model} {rules : List Policy} (hrules : rulesOf examplePolicies m = .ok rules) :
    ∀ p ∈ rules, Entry m.resource p := by
  have hadd : ∀ {res : String} {more : List Policy}, (∀ p ∈ more, Entry res p) →
      ∀ p ∈ basePolicies res ++ more, Entry res p := by
    intro res more hmore p hp
    rcases List.mem_append.mp hp with hp | hp
    · exact basePolicies_entry res p hp
    · exact hmore p hp
  cases m
  case apikey | category | credential | location | profile | tz =>
    cases hrules
    exact basePolicies_entry _
  case account =>
    cases hrules
    refine List.forall_mem_cons.mpr ⟨.everyone _, hadd (List.forall_mem_singleton.mpr ?_)⟩
    exact @Entry.suffixed "account" "mfarequired" _ (by decide) (by decide)
  case person =>
    cases hrules
    refine List.forall_mem_cons.mpr ⟨.everyone _, hadd (List.forall_mem_singleton.mpr ?_)⟩
    exact @Entry.lists "person" _ (by decide)
  case contact =>
    cases hrules
    refine hadd ?_
    simp only [List.forall_mem_cons, List.not_mem_nil, false_implies, implies_true, and_true]
    exact ⟨@Entry.word "contact" "pending" _ (by decide) (by decide) (by decide),
      @Entry.own "contact" "person" _ (Or.inl rfl) (by decide), @Entry.lists "contact" _ (by decide),
      @Entry.ofList "contact" "member" _ (by decide) (by decide)⟩
  case message =>
    cases hrules
    refine hadd ?_
    simp only [List.forall_mem_cons, List.not_mem_nil, false_implies, implies_true, and_true]
    exact ⟨@Entry.ofList "message" "manager" _ (by decide) (by decide),
      @Entry.ofList "message" "invitee" _ (by decide) (by decide)⟩
  case list =>
    cases hrules
    simp only [List.forall_mem_cons, List.not_mem_nil, false_implies, implies_true, and_true]
    exact ⟨@Entry.role "list" "admin" _ (by decide) (by decide) (by decide),
      @Entry.own "list" "user" _ (Or.inr rfl) (by decide),
      @Entry.ofEntry "list" "manager" _ (by decide) (by decide),
      @Entry.ofList "list" "member" _ (by decide) (by decide),
      @Entry.ofList "list" "invitee" _ (by decide) (by decide)⟩
  case grant =>
    cases hrules
    simp only [List.forall_mem_cons, List.not_mem_nil, false_implies, implies_true, and_true]
    exact ⟨@Entry.role "grant" "admin" _ (by decide) (by decide) (by decide),
      @Entry.own "grant" "user" _ (Or.inr rfl) (by decide)⟩
  case scope =>
    cases hrules
    exact List.forall_mem_cons.mpr ⟨@Entry.role "scope" "admin" _ (by decide) (by decide) (by decide),
      List.forall_mem_singleton.mpr (.everyone _)⟩
  case settings =>
    cases hrules
    exact List.forall_mem_singleton.mpr (@Entry.role "settings" "admin" _ (by decide) (by decide) (by decide))
  case apikeyScope | directMessage | listMember | listMessage | storage => cases hrules

theorem example_everyone {m : Model} {rules : List Policy} (hrules : rulesOf examplePolicies m = .ok rules) :
    ∀ p ∈ rules, p.principal = ".*" → p.actions =
      if m = .account then ['c'] else if m = .person then ['c', 'r'] else ['r'] := by
  cases m <;> cases hrules <;> simp [basePolicies]

/-- So its table has the shape. -/
theorem example_shaped : examplePolicies.Shaped where
  resource := rfl
  attr := rfl
  entry _ _ hrules := example_entries hrules
  privacy m rules hrules hm p hp hall := by
    rw [example_everyone hrules p hp hall]
    cases m <;> first
      | decide
      | exact absurd hm (by decide)
  agree m rules hrules p hp q hq hall hall' hr := by
    rw [example_everyone hrules q hq hall', ← example_everyone hrules p hp hall]
    exact hr

theorem member_ordinary : memberAccess.Ordinary where
  auth := by decide
  uid := ⟨"u-0002", rfl, by decide, by decide⟩
  roles := by
    rintro role ⟨roles, hroles, hmem⟩
    cases hroles
    rcases List.mem_cons.mp hmem with rfl | hmem
    · exact ⟨by decide, by decide⟩
    · rw [List.mem_singleton.mp hmem]
      exact ⟨by decide, by decide⟩

/-- A message that its list does not open is no record that a member misses. -/
theorem member_finds : listMessage ∈ listed.rows .message ∧
    ∀ record ∈ listed.rows .message, record "status" ≠ .str "disabled" →
      MayRead Seed.service listed memberAccess .message record →
        Found Seed.service listed memberAccess .message {} (fun _ => 1) record := by
  have honly : ∀ record ∈ listed.rows .message, record = listMessage := fun record hrow =>
    List.mem_singleton.mp hrow
  refine ⟨List.mem_singleton_self _, ?_⟩
  refine (@finds_iff Seed.service listed memberAccess {} "u-0002" (fun _ => 1) _ example_shaped
    member_ordinary rfl (by decide) rfl ⟨rfl, rfl, rfl, fun s hs => by cases hs⟩ (fun _ => Nat.le_refl 1)
    ?_).mpr (Or.inr (Or.inr ?_))
  · intro record hrow
    rw [honly record hrow]
    exact ⟨by decide, by decide, "x-23450001", rfl, by decide⟩
  · intro record hrow _ hwhy
    rw [honly record hrow] at hwhy
    rcases hwhy with hpublic | ⟨-, hrole⟩
    · exact absurd hpublic (by decide)
    · exact absurd hrole (by decide)

/-- A message of the first user to the members of a list. -/
def memberMessage : Row := Seed.row .message [("id", .str "x-msg2"), ("content", .str "hello"),
  ("sender_id", .str "x-23450001"), ("list_id", .str "x-list1"), ("privacy", .str "member"),
  ("uid", .str "x-23450001"), ("status", .str "active")]

/-- The seeded database with a list and the message. -/
def posted : Database := ⟨Seed.tables (Seed.records ++ Seed.member ++
  [(.list, memberList "x-list1"), (.message, memberMessage)]), by decide +kernel⟩

/-- A member may read it, and does not find it. -/
theorem member_misses : memberMessage ∈ posted.rows .message ∧
    memberMessage "status" ≠ .str "disabled" ∧ memberAccess.HasRole "user" ∧
    MayRead Seed.service posted memberAccess .message memberMessage ∧
    ¬ Found Seed.service posted memberAccess .message {} (fun _ => 100) memberMessage := by
  refine ⟨List.mem_singleton_self _, by decide, by decide, ⟨['r'], by decide +kernel, by decide⟩, ?_⟩
  rintro ⟨pages, hpages, hmem⟩
  have hfind : (findAt Seed.service posted memberAccess .message { limit := 100 } none).toOption.map
      (fun page => (page.items.length, page.cursorNext)) = some (0, none) := by decide +kernel
  cases hpages with
  | @last _ _ page hserve =>
      rw [hserve, Except.toOption, Option.map_some, Option.some.injEq, Prod.mk.injEq] at hfind
      rw [List.flatMap_singleton, List.eq_nil_of_length_eq_zero hfind.1] at hmem
      cases hmem
  | @more _ _ _ page _ hserve hsome =>
      rw [hserve, Except.toOption, Option.map_some, Option.some.injEq, Prod.mk.injEq] at hfind
      rw [Page.cursor, hfind.2] at hsome
      cases hsome

end BasicCrud

end Apicrud
