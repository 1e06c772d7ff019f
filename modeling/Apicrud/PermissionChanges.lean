import Apicrud.Isolation

/-! # Permissions before and after a change

`rbac_permissions` returns the actions of the entries that apply to a role of the session and, only when
these are none, the defaults: what the last entry for everyone lists, or else reading when the record is
open.  So an action of the defaults can be lost when an entry begins to apply, and the order of the entries
for everyone counts.

`allowed_of_evaluates` says what the result is in terms of the session, the record and the table.
`changes_iff` is read off it: what a role, an entry, a record made public, or another order of the entries
change, and when a public record can be read. -/

namespace Apicrud

open Relational

/-- The table with other entries for the resource. -/
def Policies.withRules (pol : Policies) (m : Model) (rules : List Policy) : Policies :=
  { pol with rules := (m.resource, rules) :: pol.rules }

/-- The session with other roles. -/
def Access.withRoles (acc : Access) (roles : List String) : Access := { acc with auth := some roles }

/-- The record with its privacy changed to `public`. -/
def Target.publish (t : Target) : Target where
  query := t.query.map (List.map fun record => Function.update record "privacy" (.str "public"))
  ownerUid := t.ownerUid
  membership := t.membership
  id := t.id
  privacy := .str "public"

/-- What a public record is compared as. -/
def Resolved.publish (r : Resolved) : Resolved := { r with privacy := .str "public" }

namespace AccessControl

/-- `rbac_permissions`, as the set that it returns. -/
def allowed (pol : Policies) (db : Database) (acc : Access) (m : Model) (t : Target) :
    Except Exc (Finset Char) :=
  (rbacPermissions pol db acc m t).map List.toFinset

/-- What is allowed before is allowed after. -/
def Keeps (before after : Except Exc (Finset Char)) : Prop :=
  ∀ actions, before = .ok actions → ∃ actions', after = .ok actions' ∧ actions ⊆ actions'

/-! ### The result in terms of the table -/

variable (acc : Access) (m : Model) (r : Resolved) (rules : List Policy)

/-- No entry raises when it is compared with the role. -/
def Runs (role : String) : Prop :=
  ∀ p ∈ rules, p.principal ≠ ".*" → (applies acc m r p role).isOk = true

/-- No entry raises. -/
def Evaluates : Prop := ∀ role, acc.HasRole role → Runs acc m r rules role

/-- An entry that applies to the role lists the action. -/
def RoleAdds (role : String) (x : Char) : Prop :=
  ∃ p ∈ rules, p.principal ≠ ".*" ∧ applies acc m r p role = .ok true ∧ x ∈ p.actions

/-- An entry that applies to some role lists the action. -/
def Adds (x : Char) : Prop := ∃ role, acc.HasRole role ∧ RoleAdds acc m r rules role x

/-- The defaults: of the last entry for everyone, or of an open record. -/
def defaultsOf : List Char := lastEveryone rules (if PrivacyOpen acc r then ['r'] else [])

/-- The actions that are returned. -/
def Allows (x : Char) : Prop :=
  Adds acc m r rules x ∨ (∀ y, ¬ Adds acc m r rules y) ∧ x ∈ defaultsOf acc r rules

variable {acc m r rules}

theorem isOk_eq_true {x : Except Exc Bool} : x.isOk = true ↔ ∃ b, x = .ok b := by
  cases x with
  | ok b => simp [Except.isOk, Except.toBool]
  | error e => simp [Except.isOk, Except.toBool]

theorem adds_nil (x : Char) : ¬ Adds acc m r [] x := by
  rintro ⟨role, -, p, hp, -⟩
  cases hp

theorem adds_append {rules' : List Policy} (x : Char) : Adds acc m r (rules ++ rules') x ↔
    Adds acc m r rules x ∨ Adds acc m r rules' x := by
  constructor
  · rintro ⟨role, hrole, p, hp, hrest⟩
    rcases List.mem_append.mp hp with hp | hp
    · exact Or.inl ⟨role, hrole, p, hp, hrest⟩
    · exact Or.inr ⟨role, hrole, p, hp, hrest⟩
  · rintro (⟨role, hrole, p, hp, hrest⟩ | ⟨role, hrole, p, hp, hrest⟩)
    · exact ⟨role, hrole, p, List.mem_append_left _ hp, hrest⟩
    · exact ⟨role, hrole, p, List.mem_append_right _ hp, hrest⟩

theorem adds_cons {p : Policy} (x : Char) : Adds acc m r (p :: rules) x ↔
    Adds acc m r [p] x ∨ Adds acc m r rules x := @adds_append acc m r [p] rules x

/-- An entry for everyone grants no role anything. -/
theorem not_adds_everyone {p : Policy} (h : p.principal = ".*") (x : Char) : ¬ Adds acc m r [p] x := by
  rintro ⟨role, -, q, hq, hne, -⟩
  rw [List.mem_singleton.mp hq] at hne
  exact hne h

theorem evaluates_cons {p : Policy} : Evaluates acc m r (p :: rules) ↔
    Evaluates acc m r [p] ∧ Evaluates acc m r rules := by
  simp only [Evaluates, Runs, List.forall_mem_cons, List.not_mem_nil, false_implies, implies_true,
    and_true]
  exact ⟨fun h => ⟨fun role hrole => (h role hrole).1, fun role hrole => (h role hrole).2⟩,
    fun h role hrole => ⟨h.1 role hrole, h.2 role hrole⟩⟩

/-- All roles are compared with an entry, and one that raises decides. -/
theorem someRole_eq {f : String → Except Exc Bool} {roles : List String}
    (h : ∀ role ∈ roles, (f role).isOk = true) : ∃ hit, someRole f roles = .ok hit ∧
      (hit = true ↔ ∃ role ∈ roles, f role = .ok true) := by
  obtain ⟨hit, hhit, htrue⟩ := someRole_ok fun role hrole => isOk_eq_true.mp (h role hrole)
  refine ⟨hit, hhit, ?_, htrue⟩
  rintro rfl
  exact exists_of_someRole hhit

theorem someRole_error {f : String → Except Exc Bool} {roles : List String}
    (herror : ∀ role ∈ roles, ∀ e, f role = .error e → e = .other)
    (h : ∃ role ∈ roles, (f role).isOk = false) : someRole f roles = .error .other := by
  induction roles with
  | nil =>
      obtain ⟨role, hrole, -⟩ := h
      cases hrole
  | cons role roles ih =>
      have ih := ih fun role' hrole' => herror role' (List.mem_cons_of_mem _ hrole')
      rw [someRole]
      cases hf : f role with
      | error e =>
          cases herror role List.mem_cons_self e hf
          rfl
      | ok hit =>
          have hrest : ∃ role ∈ roles, (f role).isOk = false := by
            obtain ⟨role', hrole', hfalse⟩ := h
            rcases List.mem_cons.mp hrole' with rfl | hrole'
            · rw [hf] at hfalse
              cases hfalse
            · exact ⟨role', hrole', hfalse⟩
          rw [ih hrest]
          rfl

theorem fill_error {eid uid text : String} {e : Exc} (h : fill eid uid text = .error e) : e = .other := by
  unfold fill at h
  split at h
  · cases h
  · cases h
    rfl

theorem resourceMatches_error {p : Policy} {e : Exc} (h : resourceMatches acc m r p = .error e) :
    e = .other := by
  rcases Checks.bind_eq_error.mp h with h | ⟨resource, -, h⟩
  · exact fill_error h
  · unfold reMatch at h
    split at h
    · cases h
    · cases h
      rfl

/-- What is tried when the principal is not the role itself. -/
theorem wildcard_error {p : Policy} {role : String} {direct : Bool} {e : Exc}
    (h : (if direct then .ok true
      else match r.membership with
        | some membership =>
            if p.principal = membership ++ "-*" ∧ (Text.split role '-').headD "" = membership then
              resourceMatches acc m r p
            else .ok false
        | none => .ok false : Except Exc Bool) = .error e) : e = .other := by
  split_ifs at h
  cases hmember : r.membership with
  | none =>
      rw [hmember] at h
      cases h
  | some membership =>
      rw [hmember] at h
      simp only at h
      split_ifs at h
      exact resourceMatches_error h

theorem applies_error {p : Policy} {role : String} {e : Exc} (h : applies acc m r p role = .error e) :
    e = .other := by
  rcases Checks.bind_eq_error.mp h with h | ⟨principal, -, h⟩
  · exact fill_error h
  · rcases Checks.bind_eq_error.mp h with h | ⟨name, -, h⟩
    · exact fill_error h
    · dsimp only at h
      split_ifs at h
      · rcases Checks.bind_eq_error.mp h with h | ⟨direct, -, h⟩
        · exact resourceMatches_error h
        · exact wildcard_error h
      · rcases Checks.bind_eq_error.mp h with h | ⟨direct, -, h⟩
        · cases h
        · exact wildcard_error h

/-- An entry that raises nothing adds its actions when it applies, or replaces the defaults. -/
theorem consider_evaluates {p : Policy} (h : Evaluates acc m r [p]) (st : List Char × List Char) :
    ∃ st', consider acc m r st p = .ok st' ∧ (∀ x, x ∈ st'.1 ↔ x ∈ st.1 ∨ Adds acc m r [p] x) ∧
      st'.2 = if p.principal = ".*" then p.actions else st.2 := by
  by_cases hall : p.principal = ".*"
  · refine ⟨(st.1, p.actions), ?_, fun x => ?_, (if_pos hall).symm⟩
    · rw [consider, if_pos hall]
    · simp [not_adds_everyone hall x]
  · have hruns : ∀ role, acc.HasRole role → (applies acc m r p role).isOk = true := fun role hrole =>
      h role hrole p (List.mem_singleton_self p) hall
    cases hauth : acc.auth with
    | none =>
        refine ⟨st, ?_, fun x => ?_, (if_neg hall).symm⟩
        · rw [consider, if_neg hall, hauth]
        · have hnone : ¬ Adds acc m r [p] x := by
            rintro ⟨role, ⟨roles, hroles, -⟩, -⟩
            rw [hauth] at hroles
            cases hroles
          simp [hnone]
    | some roles =>
        have hroles : ∀ role, role ∈ roles → acc.HasRole role := fun role hmem => ⟨roles, hauth, hmem⟩
        obtain ⟨hit, hhit, htrue⟩ := someRole_eq fun role hmem => hruns role (hroles role hmem)
        refine ⟨(if hit then st.1 ++ p.actions else st.1, st.2), ?_, fun x => ?_, (if_neg hall).symm⟩
        · rw [consider, if_neg hall, hauth]
          simp only [hhit]
          rfl
        · have hadds : Adds acc m r [p] x ↔ hit = true ∧ x ∈ p.actions := by
            rw [htrue]
            constructor
            · rintro ⟨role, ⟨roles', hauth', hmem⟩, q, hq, -, happlies, hx⟩
              cases hauth.symm.trans hauth'
              cases List.mem_singleton.mp hq
              exact ⟨⟨role, hmem, happlies⟩, hx⟩
            · rintro ⟨⟨role, hmem, happlies⟩, hx⟩
              exact ⟨role, hroles role hmem, p, List.mem_singleton_self p, hall, happlies, hx⟩
          rw [hadds]
          cases hit with
          | true => simp
          | false => simp

/-- When no entry raises: the actions that are found, and the defaults. -/
theorem foldlM_evaluates (h : Evaluates acc m r rules) (st : List Char × List Char) :
    ∃ st', rules.foldlM (consider acc m r) st = .ok st' ∧
      (∀ x, x ∈ st'.1 ↔ x ∈ st.1 ∨ Adds acc m r rules x) ∧ st'.2 = lastEveryone rules st.2 := by
  induction rules generalizing st with
  | nil => exact ⟨st, rfl, fun x => by simp [adds_nil x], rfl⟩
  | cons p rules ih =>
      obtain ⟨hfirst, hrest⟩ := evaluates_cons.mp h
      obtain ⟨mid, hmid, hmid1, hmid2⟩ := consider_evaluates hfirst st
      obtain ⟨st', hst', h1, h2⟩ := ih hrest mid
      refine ⟨st', ?_, fun x => ?_, ?_⟩
      · rw [List.foldlM_cons, hmid]
        exact hst'
      · rw [h1, hmid1, @adds_cons acc m r rules, or_assoc]
      · rw [h2, hmid2]
        rfl

/-- When an entry raises, the evaluation does. -/
theorem foldlM_error (h : ¬ Evaluates acc m r rules) (st : List Char × List Char) :
    rules.foldlM (consider acc m r) st = .error .other := by
  induction rules generalizing st with
  | nil => exact absurd (fun role _ p hp => absurd hp List.not_mem_nil) h
  | cons p rules ih =>
      rw [List.foldlM_cons]
      by_cases hfirst : Evaluates acc m r [p]
      · obtain ⟨mid, hmid, -, -⟩ := consider_evaluates hfirst st
        rw [hmid]
        exact ih (fun hrest => h (evaluates_cons.mpr ⟨hfirst, hrest⟩)) mid
      · have hall : p.principal ≠ ".*" := by
          intro hall
          refine hfirst fun role _ q hq hne => ?_
          rw [List.mem_singleton.mp hq] at hne
          exact absurd hall hne
        have hraises : ∃ role, acc.HasRole role ∧ (applies acc m r p role).isOk = false := by
          by_contra hnone
          refine hfirst fun role hrole q hq _ => ?_
          rw [List.mem_singleton.mp hq]
          by_contra hfalse
          exact hnone ⟨role, hrole, Bool.eq_false_iff.mpr hfalse⟩
        obtain ⟨role, ⟨roles, hauth, hmem⟩, hfalse⟩ := hraises
        have herror : someRole (applies acc m r p) roles = .error .other :=
          someRole_error (fun _ _ _ => applies_error) ⟨role, hmem, hfalse⟩
        have hconsider : consider acc m r st p = .error .other := by
          rw [consider, if_neg hall, hauth]
          simp only [herror]
          rfl
        rw [hconsider]
        rfl

section result

variable {pol : Policies} {db : Database} {t : Target}

/-- What is returned when no entry raises. -/
theorem allowed_of_evaluates (hr : resolve pol db acc m t = .ok r) (hrules : rulesOf pol m = .ok rules)
    (hdeny : r.denyDelete = false) (h : Evaluates acc m r rules) :
    ∃ actions, allowed pol db acc m t = .ok actions ∧ ∀ x, x ∈ actions ↔ Allows acc m r rules x := by
  obtain ⟨st, hst, h1, h2⟩ := foldlM_evaluates h ([], if PrivacyOpen acc r then ['r'] else [])
  have hadds : ∀ x, x ∈ st.1 ↔ Adds acc m r rules x := by
    intro x
    rw [h1]
    simp
  have hgranted : granted r st.1 = st.1 := by simp [granted, hdeny]
  have hallowed : allowed pol db acc m t = .ok (if st.1 = [] then st.2 else st.1).toFinset := by
    rw [allowed, rbacPermissions_eq hr hrules hst, hgranted]
    rfl
  refine ⟨_, hallowed, fun x => ?_⟩
  rw [List.mem_toFinset]
  by_cases hnone : st.1 = []
  · have hnot : ∀ y, ¬ Adds acc m r rules y := by
      intro y hy
      have := (hadds y).mpr hy
      rw [hnone] at this
      cases this
    rw [if_pos hnone, h2]
    exact ⟨fun hx => Or.inr ⟨hnot, hx⟩, fun hx => (hx.resolve_left (hnot x)).2⟩
  · obtain ⟨y, hy⟩ := List.exists_mem_of_ne_nil _ hnone
    rw [if_neg hnone, hadds]
    exact ⟨Or.inl, fun hx => hx.resolve_right fun hnot => hnot.1 y ((hadds y).mp hy)⟩

theorem allowed_of_error (hr : resolve pol db acc m t = .ok r) (hrules : rulesOf pol m = .ok rules)
    (h : ¬ Evaluates acc m r rules) : allowed pol db acc m t = .error .other := by
  have hevaluate : evaluate acc m r rules = .error .other := foldlM_error h _
  unfold allowed rbacPermissions
  rw [hr]
  change Except.map _ (Except.bind (rulesOf pol m) _) = _
  rw [hrules]
  change Except.map _ (Except.bind (evaluate acc m r rules) _) = _
  rw [hevaluate]
  rfl

/-! ### Two results -/

variable {acc' : Access} {r' : Resolved} {rules' : List Policy} {pol' : Policies} {t' : Target}

/-- Nothing is lost when what is allowed still is. -/
theorem keeps_iff (hr : resolve pol db acc m t = .ok r) (hrules : rulesOf pol m = .ok rules)
    (hdeny : r.denyDelete = false) (hr' : resolve pol' db acc' m t' = .ok r')
    (hrules' : rulesOf pol' m = .ok rules') (hdeny' : r'.denyDelete = false) :
    Keeps (allowed pol db acc m t) (allowed pol' db acc' m t') ↔ (Evaluates acc m r rules →
      Evaluates acc' m r' rules' ∧ ∀ x, Allows acc m r rules x → Allows acc' m r' rules' x) := by
  constructor
  · intro h heval
    obtain ⟨actions, hactions, hmem⟩ := allowed_of_evaluates hr hrules hdeny heval
    obtain ⟨actions', hactions', hsub⟩ := h actions hactions
    by_cases heval' : Evaluates acc' m r' rules'
    · obtain ⟨found, hfound, hmem'⟩ := allowed_of_evaluates hr' hrules' hdeny' heval'
      cases hactions'.symm.trans hfound
      exact ⟨heval', fun x hx => (hmem' x).mp (hsub ((hmem x).mpr hx))⟩
    · rw [allowed_of_error hr' hrules' heval'] at hactions'
      cases hactions'
  · intro h actions hactions
    by_cases heval : Evaluates acc m r rules
    · obtain ⟨found, hfound, hmem⟩ := allowed_of_evaluates hr hrules hdeny heval
      cases hactions.symm.trans hfound
      obtain ⟨heval', hsub⟩ := h heval
      obtain ⟨actions', hactions', hmem'⟩ := allowed_of_evaluates hr' hrules' hdeny' heval'
      exact ⟨actions', hactions', fun x hx => (hmem' x).mpr (hsub x ((hmem x).mp hx))⟩
    · rw [allowed_of_error hr hrules heval] at hactions
      cases hactions

/-- The results are the same when the same is allowed. -/
theorem allowed_eq_iff (hr : resolve pol db acc m t = .ok r) (hrules : rulesOf pol m = .ok rules)
    (hdeny : r.denyDelete = false) (hr' : resolve pol' db acc' m t' = .ok r')
    (hrules' : rulesOf pol' m = .ok rules') (hdeny' : r'.denyDelete = false)
    (heval : Evaluates acc m r rules ↔ Evaluates acc' m r' rules') :
    allowed pol db acc m t = allowed pol' db acc' m t' ↔ (Evaluates acc m r rules →
      ∀ x, Allows acc m r rules x ↔ Allows acc' m r' rules' x) := by
  by_cases hall : Evaluates acc m r rules
  · obtain ⟨actions, hactions, hmem⟩ := allowed_of_evaluates hr hrules hdeny hall
    obtain ⟨actions', hactions', hmem'⟩ := allowed_of_evaluates hr' hrules' hdeny' (heval.mp hall)
    rw [hactions, hactions', Except.ok.injEq, Finset.ext_iff]
    simp only [hmem, hmem']
    exact ⟨fun h _ => h, fun h => h hall⟩
  · rw [allowed_of_error hr hrules hall, allowed_of_error hr' hrules' fun h => hall (heval.mpr h)]
    exact ⟨fun _ h => absurd h hall, fun _ => rfl⟩

theorem rulesOf_withRules : rulesOf (pol.withRules m rules) m = .ok rules := by
  simp [rulesOf, Policies.withRules]

theorem lastEveryone_mono {default default' : List Char} (h : ∀ x ∈ default, x ∈ default') {x : Char}
    (hx : x ∈ lastEveryone rules default) : x ∈ lastEveryone rules default' := by
  induction rules generalizing default default' with
  | nil => exact h x hx
  | cons p rules ih =>
      rw [lastEveryone, List.foldl_cons] at hx ⊢
      by_cases hall : p.principal = ".*"
      · rw [if_pos hall] at hx ⊢
        exact hx
      · rw [if_neg hall] at hx ⊢
        exact ih h hx

/-! ### One more role -/

section role

variable {role : String} {roles : List String}

theorem hasRole_withRoles : (acc.withRoles roles).HasRole role ↔ role ∈ roles := by
  constructor
  · rintro ⟨roles', hroles', hmem⟩
    cases hroles'
    exact hmem
  · intro hmem
    exact ⟨roles, rfl, hmem⟩

theorem evaluates_withRoles (h : ∀ x, x ∈ roles ↔ x = role ∨ acc.HasRole x) :
    Evaluates (acc.withRoles roles) m r rules ↔ Runs acc m r rules role ∧ Evaluates acc m r rules := by
  constructor
  · intro heval
    exact ⟨heval role (hasRole_withRoles.mpr ((h role).mpr (Or.inl rfl))), fun x hx =>
      heval x (hasRole_withRoles.mpr ((h x).mpr (Or.inr hx)))⟩
  · rintro ⟨hruns, heval⟩ x hx
    rcases (h x).mp (hasRole_withRoles.mp hx) with rfl | hx
    · exact hruns
    · exact heval x hx

theorem adds_withRoles (h : ∀ x, x ∈ roles ↔ x = role ∨ acc.HasRole x) (x : Char) :
    Adds (acc.withRoles roles) m r rules x ↔ RoleAdds acc m r rules role x ∨ Adds acc m r rules x := by
  constructor
  · rintro ⟨role', hrole', hadds⟩
    rcases (h role').mp (hasRole_withRoles.mp hrole') with rfl | hrole'
    · exact Or.inl hadds
    · exact Or.inr ⟨role', hrole', hadds⟩
  · rintro (hadds | ⟨role', hrole', hadds⟩)
    · exact ⟨role, hasRole_withRoles.mpr ((h role).mpr (Or.inl rfl)), hadds⟩
    · exact ⟨role', hasRole_withRoles.mpr ((h role').mpr (Or.inr hrole')), hadds⟩

theorem defaultsOf_withRoles (h : ∀ x, x ∈ roles ↔ x = role ∨ acc.HasRole x) {x : Char}
    (hx : x ∈ defaultsOf acc r rules) : x ∈ defaultsOf (acc.withRoles roles) r rules := by
  refine lastEveryone_mono (fun y hy => ?_) hx
  split_ifs at hy with hopen
  · have hopen' : PrivacyOpen (acc.withRoles roles) r :=
      hopen.imp_right (And.imp_right fun hmember => hasRole_withRoles.mpr ((h _).mpr (Or.inr hmember)))
    rwa [if_pos hopen']
  · cases hy

/-- A role takes nothing away when the entries for it raise nothing and: an entry applies already, or none
applies to the new role, or those that do list the defaults. -/
theorem keeps_role (hr : resolve pol db acc m t = .ok r) (hrules : rulesOf pol m = .ok rules)
    (hdeny : r.denyDelete = false) (h : ∀ x, x ∈ roles ↔ x = role ∨ acc.HasRole x) :
    Keeps (allowed pol db acc m t) (allowed pol db (acc.withRoles roles) m t) ↔
      (Evaluates acc m r rules → Runs acc m r rules role ∧ ((∃ y, Adds acc m r rules y) ∨
        (∀ y, ¬ RoleAdds acc m r rules role y) ∨
        ∀ x ∈ defaultsOf acc r rules, RoleAdds acc m r rules role x)) := by
  have hr' : resolve pol db (acc.withRoles roles) m t = .ok r := hr
  rw [keeps_iff hr hrules hdeny hr' hrules hdeny, evaluates_withRoles h]
  refine imp_congr_right fun heval => ?_
  rw [and_iff_left heval]
  refine and_congr_right fun _ => ?_
  simp only [Allows, adds_withRoles h]
  constructor
  · intro hsub
    by_cases hsome : ∃ y, Adds acc m r rules y
    · exact Or.inl hsome
    · have hnone := not_exists.mp hsome
      refine Or.inr ?_
      by_cases hrole : ∀ y, ¬ RoleAdds acc m r rules role y
      · exact Or.inl hrole
      · obtain ⟨y, hy⟩ := not_forall_not.mp hrole
        refine Or.inr fun x hx => ?_
        rcases hsub x (Or.inr ⟨hnone, hx⟩) with (hadds | hadds) | ⟨hnot, -⟩
        · exact hadds
        · exact absurd hadds (hnone x)
        · exact absurd (Or.inl hy) (hnot y)
  · rintro hcases x (hadds | ⟨hnone, hx⟩)
    · exact Or.inl (Or.inr hadds)
    · rcases hcases with ⟨y, hy⟩ | hrole | hrole
      · exact absurd hy (hnone y)
      · exact Or.inr ⟨fun y hy => hy.elim (hrole y) (hnone y), defaultsOf_withRoles h hx⟩
      · exact Or.inl (Or.inl (hrole x hx))

end role

/-! ### One more entry -/

theorem resolve_withRules : resolve (pol.withRules m rules') db acc m t = resolve pol db acc m t := rfl

theorem evaluates_insert {before after : List Policy} {p : Policy} :
    Evaluates acc m r (before ++ p :: after) ↔
      Evaluates acc m r [p] ∧ Evaluates acc m r (before ++ after) := by
  simp only [Evaluates, Runs, List.mem_append, List.mem_cons, List.not_mem_nil, or_false]
  constructor
  · intro h
    exact ⟨fun role hrole q hq => h role hrole q (Or.inr (Or.inl hq)), fun role hrole q hq =>
      h role hrole q (hq.imp_right Or.inr)⟩
  · rintro ⟨hself, hrest⟩ role hrole q (hq | hq | hq)
    · exact hrest role hrole q (Or.inl hq)
    · exact hself role hrole q hq
    · exact hrest role hrole q (Or.inr hq)

theorem adds_insert {before after : List Policy} {p : Policy} (x : Char) :
    Adds acc m r (before ++ p :: after) x ↔
      Adds acc m r [p] x ∨ Adds acc m r (before ++ after) x := by
  rw [adds_append, @adds_cons acc m r after p, adds_append]
  exact or_left_comm

/-- An entry takes nothing away when it raises nothing and: another applies already, or it applies and lists
the defaults, or it does not apply and the defaults stay. -/
theorem keeps_entry {before after : List Policy} {p : Policy} (hr : resolve pol db acc m t = .ok r)
    (hrules : rulesOf pol m = .ok (before ++ after)) (hdeny : r.denyDelete = false) :
    Keeps (allowed pol db acc m t) (allowed (pol.withRules m (before ++ p :: after)) db acc m t) ↔
      (Evaluates acc m r (before ++ after) → Evaluates acc m r [p] ∧
        ((∃ y, Adds acc m r (before ++ after) y) ∨
        (∀ x ∈ defaultsOf acc r (before ++ after), Adds acc m r [p] x) ∨
        (∀ y, ¬ Adds acc m r [p] y) ∧ ∀ x ∈ defaultsOf acc r (before ++ after),
          x ∈ defaultsOf acc r (before ++ p :: after))) := by
  rw [keeps_iff hr hrules hdeny (resolve_withRules.trans hr) rulesOf_withRules hdeny, evaluates_insert]
  refine imp_congr_right fun heval => ?_
  rw [and_iff_left heval]
  refine and_congr_right fun _ => ?_
  simp only [Allows, adds_insert]
  constructor
  · intro hsub
    by_cases hsome : ∃ y, Adds acc m r (before ++ after) y
    · exact Or.inl hsome
    · have hnone := not_exists.mp hsome
      refine Or.inr ?_
      by_cases hentry : ∀ y, ¬ Adds acc m r [p] y
      · refine Or.inr ⟨hentry, fun x hx => ?_⟩
        rcases hsub x (Or.inr ⟨hnone, hx⟩) with (hadds | hadds) | ⟨-, hx'⟩
        · exact absurd hadds (hentry x)
        · exact absurd hadds (hnone x)
        · exact hx'
      · obtain ⟨y, hy⟩ := not_forall_not.mp hentry
        refine Or.inl fun x hx => ?_
        rcases hsub x (Or.inr ⟨hnone, hx⟩) with (hadds | hadds) | ⟨hnot, -⟩
        · exact hadds
        · exact absurd hadds (hnone x)
        · exact absurd (Or.inl hy) (hnot y)
  · rintro hcases x (hadds | ⟨hnone, hx⟩)
    · exact Or.inl (Or.inr hadds)
    · rcases hcases with ⟨y, hy⟩ | hentry | ⟨hentry, hdefaults⟩
      · exact absurd hy (hnone y)
      · exact Or.inl (Or.inl (hentry x hx))
      · exact Or.inr ⟨fun y hy => hy.elim (hentry y) (hnone y), hdefaults x hx⟩

/-! ### A public record -/

/-- Making a record public changes its privacy only. -/
theorem fromRecord_publish (hattr : pol.privateAttr ≠ "privacy") (h : fromRecord pol m t = .ok t') :
    fromRecord pol m t.publish = .ok t'.publish := by
  obtain ⟨query, ownerUid, membership, eid, privacy⟩ := t
  cases query with
  | none =>
      cases h
      rfl
  | some rows =>
      cases rows with
      | nil =>
          cases h
          rfl
      | cons record rest =>
          cases rest with
          | nil =>
              cases h
              simp [fromRecord, Target.publish, one, Function.update_of_ne hattr]
          | cons other rest => cases h

theorem fromRecord_query (h : fromRecord pol m t = .ok t') : t'.query = t.query := by
  unfold fromRecord at h
  split at h
  · cases h
    rfl
  · split at h <;> cases h <;> rfl

/-- So it is compared as before, its privacy apart. -/
theorem resolve_publish (hattr : pol.privateAttr ≠ "privacy") (h : resolve pol db acc m t = .ok r) :
    resolve pol db acc m t.publish = .ok r.publish := by
  obtain ⟨t', ht', -⟩ := Checks.bind_eq_ok.mp h
  have hfrom := fromRecord_publish hattr ht'
  have hownerOf : ∀ record : Row, ownerOf db (Function.update record "privacy" (.str "public")) =
      ownerOf db record := by
    intro record
    simp [ownerOf]
  have hinfo : ∀ record : Row, Function.update record "privacy" (.str "public") "info" = record "info" := by
    intro record
    simp
  unfold resolve at h ⊢
  rw [hfrom]
  rw [ht'] at h
  obtain ⟨query, ownerUid, membership, eid, privacy⟩ := t'
  by_cases hcontact : m = .contact ∧ query.isSome
  · obtain ⟨rfl, hsome⟩ := hcontact
    obtain ⟨rows, rfl⟩ := Option.isSome_iff_exists.mp hsome
    cases rows with
    | nil =>
        simp only [Target.publish, bind, Except.bind, one, pure, Except.pure, List.map_nil,
          Option.map_some] at h ⊢
        split_ifs at h ⊢ <;> cases h <;> rfl
    | cons record rest =>
        cases rest with
        | nil =>
            simp only [Target.publish, bind, Except.bind, one, pure, Except.pure, List.map_cons,
              List.map_nil, hownerOf, hinfo, Option.map_some] at h ⊢
            cases hperson : ownerOf db record with
            | none =>
                rw [hperson] at h
                split_ifs at h ⊢ <;> cases h <;> rfl
            | some owner =>
                simp only [hperson] at h ⊢
                split_ifs at h ⊢ <;> cases h <;> rfl
        | cons other rest =>
            have hquery : t.query = some (record :: other :: rest) := (fromRecord_query ht').symm
            unfold fromRecord at ht'
            rw [hquery] at ht'
            cases ht'
  · cases m <;> cases query <;> first
      | exact absurd ⟨rfl, rfl⟩ hcontact
      | (cases h; rfl)

/-- A record loses nothing when it is made public. -/
theorem keeps_publish (hattr : pol.privateAttr ≠ "privacy") (hr : resolve pol db acc m t = .ok r)
    (hrules : rulesOf pol m = .ok rules) (hdeny : r.denyDelete = false) :
    Keeps (allowed pol db acc m t) (allowed pol db acc m t.publish) := by
  rw [keeps_iff hr hrules hdeny (resolve_publish hattr hr) hrules hdeny]
  intro heval
  refine ⟨heval, fun x hx => hx.imp_right (And.imp_right fun hdefault => ?_)⟩
  refine lastEveryone_mono (fun y hy => ?_) hdefault
  split_ifs at hy with hopen
  · have hpublic : PrivacyOpen acc r.publish := Or.inl rfl
    rwa [if_pos hpublic]
  · cases hy

/-- A public record can be read just when nothing raises, and: an entry that applies lists reading, or none
applies and the last one for everyone, if there is one, lists it. -/
theorem public_read (hr : resolve pol db acc m t = .ok r) (hrules : rulesOf pol m = .ok rules)
    (hdeny : r.denyDelete = false) (hpublic : r.privacy = .str "public") :
    (∃ actions, allowed pol db acc m t = .ok actions ∧ 'r' ∈ actions) ↔ Evaluates acc m r rules ∧
      (Adds acc m r rules 'r' ∨
        (∀ y, ¬ Adds acc m r rules y) ∧ 'r' ∈ lastEveryone rules ['r']) := by
  have hdefaults : defaultsOf acc r rules = lastEveryone rules ['r'] := by
    have hopen : PrivacyOpen acc r := Or.inl hpublic
    rw [defaultsOf, if_pos hopen]
  have hallows : Allows acc m r rules 'r' ↔ Adds acc m r rules 'r' ∨
      (∀ y, ¬ Adds acc m r rules y) ∧ 'r' ∈ lastEveryone rules ['r'] := by
    rw [Allows, hdefaults]
  rw [← hallows]
  constructor
  · rintro ⟨actions, hactions, hread⟩
    by_cases heval : Evaluates acc m r rules
    · obtain ⟨found, hfound, hmem⟩ := allowed_of_evaluates hr hrules hdeny heval
      cases hactions.symm.trans hfound
      exact ⟨heval, (hmem 'r').mp hread⟩
    · rw [allowed_of_error hr hrules heval] at hactions
      cases hactions
  · rintro ⟨heval, hread⟩
    obtain ⟨actions, hactions, hmem⟩ := allowed_of_evaluates hr hrules hdeny heval
    exact ⟨actions, hactions, (hmem 'r').mpr hread⟩

/-! ### Another order -/

theorem evaluates_perm (h : rules.Perm rules') :
    Evaluates acc m r rules ↔ Evaluates acc m r rules' := by
  simp only [Evaluates, Runs, h.mem_iff]

theorem adds_perm (h : rules.Perm rules') (x : Char) :
    Adds acc m r rules x ↔ Adds acc m r rules' x := by
  simp only [Adds, RoleAdds, h.mem_iff]

/-- Another order of the entries gives the same just when an entry applies, or the defaults are the same. -/
theorem allowed_perm (hr : resolve pol db acc m t = .ok r) (hrules : rulesOf pol m = .ok rules)
    (hdeny : r.denyDelete = false) (h : rules.Perm rules') :
    allowed pol db acc m t = allowed (pol.withRules m rules') db acc m t ↔
      (Evaluates acc m r rules → (∃ y, Adds acc m r rules y) ∨
        ∀ x, x ∈ defaultsOf acc r rules ↔ x ∈ defaultsOf acc r rules') := by
  rw [allowed_eq_iff hr hrules hdeny (resolve_withRules.trans hr) rulesOf_withRules hdeny
    (evaluates_perm h)]
  refine imp_congr_right fun _ => ?_
  simp only [Allows, ← adds_perm h]
  constructor
  · intro hsame
    by_cases hsome : ∃ y, Adds acc m r rules y
    · exact Or.inl hsome
    · have hnone := not_exists.mp hsome
      refine Or.inr fun x => ?_
      simpa [hnone] using hsame x
  · rintro (⟨y, hy⟩ | hsame) x
    · have hnot : ¬ ∀ y, ¬ Adds acc m r rules y := fun hnone => hnone y hy
      simp [hnot]
    · rw [hsame x]

/-! ### All the changes -/

/-- When what is allowed is kept by one more role and by one more entry, at any place, and by a record made
public; when a public record can be read; and when the order of the entries makes no difference. -/
theorem changes_iff (hr : resolve pol db acc m t = .ok r) (hrules : rulesOf pol m = .ok rules)
    (hdeny : r.denyDelete = false) (hattr : pol.privateAttr ≠ "privacy") :
    (∀ role roles, (∀ x, x ∈ roles ↔ x = role ∨ acc.HasRole x) →
      (Keeps (allowed pol db acc m t) (allowed pol db (acc.withRoles roles) m t) ↔
        (Evaluates acc m r rules → Runs acc m r rules role ∧ ((∃ y, Adds acc m r rules y) ∨
          (∀ y, ¬ RoleAdds acc m r rules role y) ∨
          ∀ x ∈ defaultsOf acc r rules, RoleAdds acc m r rules role x)))) ∧
    (∀ before after p, rules = before ++ after →
      (Keeps (allowed pol db acc m t) (allowed (pol.withRules m (before ++ p :: after)) db acc m t) ↔
        (Evaluates acc m r rules → Evaluates acc m r [p] ∧ ((∃ y, Adds acc m r rules y) ∨
          (∀ x ∈ defaultsOf acc r rules, Adds acc m r [p] x) ∨
          (∀ y, ¬ Adds acc m r [p] y) ∧
            ∀ x ∈ defaultsOf acc r rules, x ∈ defaultsOf acc r (before ++ p :: after))))) ∧
    Keeps (allowed pol db acc m t) (allowed pol db acc m t.publish) ∧
    (r.privacy = .str "public" → ((∃ actions, allowed pol db acc m t = .ok actions ∧ 'r' ∈ actions) ↔
      Evaluates acc m r rules ∧ (Adds acc m r rules 'r' ∨
        (∀ y, ¬ Adds acc m r rules y) ∧ 'r' ∈ lastEveryone rules ['r']))) ∧
    (∀ rules', rules.Perm rules' →
      (allowed pol db acc m t = allowed (pol.withRules m rules') db acc m t ↔
        (Evaluates acc m r rules → (∃ y, Adds acc m r rules y) ∨
          ∀ x, x ∈ defaultsOf acc r rules ↔ x ∈ defaultsOf acc r rules'))) := by
  refine ⟨fun role roles h => keeps_role hr hrules hdeny h, fun before after p h => ?_,
    keeps_publish hattr hr hrules hdeny, public_read hr hrules hdeny, fun rules' h =>
    allowed_perm hr hrules hdeny h⟩
  subst h
  exact keeps_entry hr hrules hdeny

end result

/-! ### A table with one entry -/

/-- Messages are posted by one role. -/
def posterTable : Policies where
  privacyLevels := ["public", "invitee", "member", "manager", "secret"]
  privateResource := "list"
  privateAttr := "list_id"
  rules := [("message", [⟨"poster", "message:.*", ['c']⟩])]

/-- A public message of another user. -/
def publicMessage : Target where
  query := some [fun column => if column = "privacy" then .str "public"
    else if column = "uid" then .str "x-uid00002" else .none]

/-- A session without roles. -/
def readerSession : Access where
  auth := some []
  uid := some "x-uid00001"

/-- The session can read the message. -/
theorem reader_reads : ∃ actions,
    allowed posterTable Seed.database readerSession .message publicMessage = .ok actions ∧ 'r' ∈ actions := by
  refine ((@changes_iff readerSession .message
    ⟨.str "x-uid00002", none, .none, .str "public", false⟩ [⟨"poster", "message:.*", ['c']⟩] posterTable
    Seed.database publicMessage rfl rfl rfl (by decide)).2.2.2.1 rfl).mpr ?_
  have hrole : ∀ role, ¬ readerSession.HasRole role := by
    rintro role ⟨roles, hroles, hmem⟩
    cases hroles
    cases hmem
  refine ⟨fun role h => absurd h (hrole role), Or.inr ⟨fun y hy => ?_, by decide⟩⟩
  obtain ⟨role, h, -⟩ := hy
  exact hrole role h

/-- With the role it can post, and not read. -/
theorem poster_loses :
    allowed posterTable Seed.database readerSession .message publicMessage = .ok {'r'} ∧
      allowed posterTable Seed.database (readerSession.withRoles ["poster"]) .message publicMessage =
        .ok {'c'} := by
  decide +kernel

end AccessControl

end Apicrud
