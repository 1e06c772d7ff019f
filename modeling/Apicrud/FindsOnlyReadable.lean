import Apicrud.FindsReadable

/-! # What a listing shows

`find` checks the session once, without a record, and leaves the rest to the condition of its query; for the
accounts it makes no check.  On a table in the shape of `rbac.yaml` the condition never lets more through than
`get` would show, as long as that check passes.  A session that it refuses finds every account, none of which it
may read (`found_mayRead_iff`). -/

namespace Apicrud

open Relational

/-- The ids of the records, and of those that they refer to, are made of the characters of ids. -/
def WordIds (db : Database) : Prop :=
  ∀ m, ∀ record ∈ db.rows m, ∀ c ∈ ["id", "uid", "referrer_id", "list_id"], Word (record c).text

namespace AccessControl

variable {acc : Access} {m : Model} {r : Resolved} {pol : Policies} {db : Database} {t : Target}
  {rules : List Policy} {u : String} {p : Policy} {conds : List Condition}

/-! ### Reading by default -/

/-- The last entry for everyone counts, if there is one. -/
theorem lastEveryone_cases (rules : List Policy) (default : List Char) :
    (∃ p ∈ rules, p.principal = ".*" ∧ lastEveryone rules default = p.actions) ∨
      ¬ OpenToAll rules ∧ lastEveryone rules default = default := by
  induction rules generalizing default with
  | nil => exact Or.inr ⟨by simp [OpenToAll], rfl⟩
  | cons p rules ih =>
      have hstep : lastEveryone (p :: rules) default =
          lastEveryone rules (if p.principal = ".*" then p.actions else default) := List.foldl_cons ..
      rw [hstep]
      rcases ih (if p.principal = ".*" then p.actions else default) with ⟨q, hq, hall, heq⟩ | ⟨hnone, heq⟩
      · exact Or.inl ⟨q, List.mem_cons_of_mem _ hq, hall, heq⟩
      · by_cases hall : p.principal = ".*"
        · rw [if_pos hall] at heq ⊢
          exact Or.inl ⟨p, List.mem_cons_self, hall, heq⟩
        · rw [if_neg hall] at heq ⊢
          refine Or.inr ⟨?_, heq⟩
          rintro ⟨q, hq, hqall⟩
          rcases List.mem_cons.mp hq with rfl | hq
          · exact hall hqall
          · exact hnone ⟨q, hq, hqall⟩

theorem lastEveryone_opens (h : ∀ p ∈ rules, ∀ q ∈ rules, p.principal = ".*" → q.principal = ".*" →
      'r' ∈ p.actions → 'r' ∈ q.actions) (hopens : Opens rules) (default : List Char) :
    'r' ∈ lastEveryone rules default := by
  obtain ⟨p, hp, hall, hread⟩ := hopens
  rcases lastEveryone_cases rules default with ⟨q, hq, hqall, heq⟩ | ⟨hnone, -⟩
  · rw [heq]
    exact h p hp q hq hall hqall hread
  · exact absurd ⟨p, hp, hall⟩ hnone

theorem opens_of_lastEveryone (h : 'r' ∈ lastEveryone rules []) : Opens rules := by
  rcases lastEveryone_cases rules [] with ⟨p, hp, hall, heq⟩ | ⟨-, heq⟩
  · exact ⟨p, hp, hall, heq ▸ h⟩
  · rw [heq] at h
    cases h

/-! ### Reading a record -/

theorem CarriesOwn.principal_ne (hroles : ∀ role, acc.HasRole role → Word role) (h : CarriesOwn acc m p) :
    p.principal ≠ ".*" := by
  obtain ⟨-, w, hw, ⟨hprincipal, -⟩ | ⟨hprincipal, hbare⟩⟩ := h
  · intro hall
    rw [hprincipal] at hall
    rw [hall] at hw
    exact (hroles _ hw).not_mem (c := '*') (by decide) (by decide)
  · rw [hprincipal]
    rcases hbare with rfl | rfl <;> decide

section shaped

variable (hshape : pol.Shaped) (hacc : acc.Ordinary) (hu : acc.uid = some u) (hword : Word u)
  (hr : resolve pol db acc m t = .ok r) (howner : Word r.ownerUid.text) (hid : Word r.id.text)
  (hrules : rulesOf pol m = .ok rules)

include hshape hacc hu hword hr howner hid hrules

/-- Why reading is among the actions: an entry for all records or for one's own, or the defaults. -/
theorem readable_iff : withPermission pol db acc m 'r' t = .ok true ↔
    (∃ p ∈ rules, CarriesAll acc m p) ∨ (r.ownerUid.text = u ∧ ∃ p ∈ rules, CarriesOwn acc m p) ∨
      'r' ∈ defaultsOf acc r rules := by
  have hentries := hshape.entry m rules hrules
  obtain ⟨hadds, hmore⟩ := adds_shaped hacc hu hword hentries howner hid
  obtain ⟨st, hst, hfound, hdefault⟩ := foldlM_evaluates
    (evaluates_shaped hacc hu hword hentries howner hid) ([], if PrivacyOpen acc r then ['r'] else [])
  have hmem : ∀ x, x ∈ st.1 ↔ Adds acc m r rules x := by
    intro x
    rw [hfound]
    simp
  have hresult : withPermission pol db acc m 'r' t =
      .ok (decide ('r' ∈ if granted r st.1 = [] then st.2 else granted r st.1)) := by
    rw [withPermission, rbacPermissions_eq hr hrules hst]
    rfl
  rw [hresult, Except.ok.injEq, decide_eq_true_iff, ← or_assoc, ← hadds, ← hmem]
  by_cases hnone : st.1 = []
  · have hgranted : granted r [] = [] := by
      rw [granted]
      split <;> rfl
    rw [hnone, hgranted, if_pos rfl, hdefault]
    simp [defaultsOf]
  · obtain ⟨y, hy⟩ := List.exists_mem_of_ne_nil _ hnone
    have hread : 'r' ∈ st.1 := (hmem 'r').mpr (hmore ⟨y, (hmem y).mp hy⟩)
    have hkept : 'r' ∈ granted r st.1 := by
      unfold granted
      split
      · exact List.mem_filter.mpr ⟨hread, by decide⟩
      · exact hread
    rw [if_neg (List.ne_nil_of_mem hkept)]
    exact ⟨fun _ => Or.inl hread, fun _ => hkept⟩

end shaped

/-- The check that is made without a record. -/
theorem checked_iff (hshape : pol.Shaped) (hacc : acc.Ordinary) (hu : acc.uid = some u) (hword : Word u)
    (hrules : rulesOf pol m = .ok rules) :
    withPermission pol db acc m 'r' { ownerUid := Val.ofOption acc.uid } = .ok true ↔
      (∃ p ∈ rules, CarriesAll acc m p) ∨ (∃ p ∈ rules, CarriesOwn acc m p) ∨ Opens rules := by
  have hr : resolve pol db acc m { ownerUid := Val.ofOption acc.uid } =
      .ok ⟨.str u, none, .none, .none, false⟩ := by
    rw [hu]
    cases m <;> rfl
  rw [readable_iff hshape hacc hu hword hr hword (by decide +kernel : Word "None") hrules]
  have hclosed : ¬ PrivacyOpen acc ⟨.str u, none, .none, .none, false⟩ := by
    rintro (h | ⟨h, -⟩)
    · cases h
    · cases h
  have hdefault : 'r' ∈ defaultsOf acc ⟨.str u, none, .none, .none, false⟩ rules ↔ Opens rules := by
    rw [defaultsOf, if_neg hclosed]
    exact ⟨opens_of_lastEveryone, fun h => lastEveryone_opens (hshape.agree m rules hrules) h []⟩
  rw [hdefault]
  simp [Val.text]

/-! ### What the condition lets through -/

/-- What the conditions are extended with. -/
def Extends (m : Model) (added : List Condition) : Prop :=
  ∀ c ∈ added, m.Has "uid" ∧ (c = .ownUid ∨ c = .referred ∧ m = .contact)

/-- The query is returned as it is for an entry that lets everyone read, or carries all records; else a
condition is added for the session's own. -/
theorem extend_adds (hroles : ∀ role, acc.HasRole role → Word role) (hp : Entry m.resource p)
    {result : Option (List Condition)} (h : extend acc m 'r' conds p = .ok result) :
    match result with
    | none => p.principal = ".*" ∧ 'r' ∈ p.actions ∨ CarriesAll acc m p
    | some conds' => ∃ added, conds' = conds ++ added ∧ Extends m added ∧
        (CarriesOwn acc m p → .ownUid ∈ added) := by
  have hsame : ¬ CarriesOwn acc m p → ∃ added, conds = conds ++ added ∧ Extends m added ∧
      (CarriesOwn acc m p → .ownUid ∈ added) := fun hnot =>
    ⟨[], (List.append_nil _).symm, by simp [Extends], fun hown => absurd hown hnot⟩
  unfold extend at h
  by_cases hall : p.principal = ".*" ∧ 'r' ∈ p.actions
  · rw [if_pos hall] at h
    cases h
    exact Or.inl hall
  rw [if_neg hall] at h
  cases hauth : acc.auth.getD [] with
  | nil =>
      have hnot : ¬ CarriesOwn acc m p := by
        rintro ⟨-, w, ⟨roles, hroles', hw⟩, -⟩
        rw [hroles', Option.getD_some] at hauth
        rw [hauth] at hw
        cases hw
      cases hauth' : acc.auth with
      | none =>
          rw [hauth'] at h
          cases h
          exact hsame hnot
      | some roles =>
          rw [hauth', Option.getD_some] at hauth
          rw [hauth', hauth] at h
          cases h
          exact hsame hnot
  | cons first roles =>
      have hauth' : acc.auth = some (first :: roles) := by
        cases hauth' : acc.auth with
        | none =>
            rw [hauth'] at hauth
            cases hauth
        | some roles' =>
            rw [hauth', Option.getD_some] at hauth
            rw [hauth]
      rw [hauth'] at h
      dsimp only at h
      by_cases hopen : p.resource = m.resource ++ ":.*" ∧ p.principal ∈ first :: roles ∧ 'r' ∈ p.actions
      · rw [if_pos hopen] at h
        cases h
        have hne : p.principal ≠ ".*" := fun heq => hall ⟨heq, hopen.2.2⟩
        obtain ⟨hperson, huser⟩ := bare_of_all hp hne hopen.1
        exact Or.inr ⟨⟨_, hauth', hopen.2.1⟩, hperson, huser, hopen.1⟩
      rw [if_neg hopen] at h
      by_cases hown : p.resource = m.resource ++ ":{uid}" ∧ 'r' ∈ p.actions
      · rw [if_pos hown] at h
        by_cases hhead : (headOf p = "person" ∨ headOf p = "user") ∧ headOf p ∈ first :: roles
        · rw [headOf] at hhead
          rw [if_pos hhead] at h
          by_cases huid : m.Has "uid"
          · rw [if_neg (not_not.mpr huid)] at h
            by_cases hcontact : m = .contact
            · rw [if_pos hcontact] at h
              cases h
              refine ⟨_, rfl, ?_, by simp⟩
              have huid' : Model.contact.Has "uid" := by decide
              simp [Extends, huid', hcontact]
            · rw [if_neg hcontact] at h
              cases h
              refine ⟨_, rfl, ?_, by simp⟩
              simp [Extends, huid]
          · rw [if_pos huid] at h
            cases h
        · have hmatched := fun hit =>
            @firstMatch_of_carriesOwn acc m p (first :: roles) hit hauth' hroles hhead
          rw [headOf] at hhead
          rw [if_neg hhead] at h
          obtain ⟨hit, hhit, h⟩ := Checks.bind_eq_ok.mp h
          cases hit with
          | false =>
              cases h
              exact hsame fun hcarries => Bool.false_ne_true (hmatched _ hhit hcarries)
          | true =>
              rw [if_neg (by simp)] at h
              by_cases huid : m.Has "uid"
              · rw [if_neg (not_not.mpr huid)] at h
                cases h
                refine ⟨_, rfl, ?_, by simp⟩
                simp [Extends, huid]
              · rw [if_pos huid] at h
                cases h
      · rw [if_neg hown] at h
        cases h
        exact hsame fun hcarries => hown ⟨hcarries.1, Entry_reads hp (hcarries.principal_ne hroles)⟩

/-- The same of the whole table, the induction being on the entries. -/
theorem extendAll_adds (hroles : ∀ role, acc.HasRole role → Word role)
    (hentries : ∀ p ∈ rules, Entry m.resource p) {result : Option (List Condition)}
    (h : extendAll acc m 'r' rules conds = .ok result) :
    match result with
    | none => Opens rules ∨ ∃ p ∈ rules, CarriesAll acc m p
    | some conds' => ∃ added, conds' = conds ++ added ∧ Extends m added ∧
        ((∃ p ∈ rules, CarriesOwn acc m p) → .ownUid ∈ added) := by
  induction rules generalizing conds with
  | nil =>
      cases h
      exact ⟨[], (List.append_nil _).symm, by simp [Extends], by simp⟩
  | cons p rules ih =>
      obtain ⟨mid, hmid, h⟩ := Checks.bind_eq_ok.mp h
      have hstep := extend_adds hroles (hentries p List.mem_cons_self) hmid
      cases mid with
      | none =>
          cases h
          rcases hstep with ⟨hall, hread⟩ | hcarries
          · exact Or.inl ⟨p, List.mem_cons_self, hall, hread⟩
          · exact Or.inr ⟨p, List.mem_cons_self, hcarries⟩
      | some conds₁ =>
          obtain ⟨mine, rfl, hmine, hown⟩ := hstep
          have ih := ih (fun q hq => hentries q (List.mem_cons_of_mem _ hq)) h
          cases result with
          | none =>
              rcases ih with ⟨q, hq, hopen⟩ | ⟨q, hq, hcarries⟩
              · exact Or.inl ⟨q, List.mem_cons_of_mem _ hq, hopen⟩
              · exact Or.inr ⟨q, List.mem_cons_of_mem _ hq, hcarries⟩
          | some conds' =>
              obtain ⟨added, rfl, hadded, howns⟩ := ih
              refine ⟨mine ++ added, List.append_assoc .., ?_, ?_⟩
              · intro c hc
                rcases List.mem_append.mp hc with hc | hc
                · exact hmine c hc
                · exact hadded c hc
              · rintro ⟨q, hq, hcarries⟩
                rcases List.mem_cons.mp hq with rfl | hq
                · exact List.mem_append_left _ (hown hcarries)
                · exact List.mem_append_right _ (howns ⟨q, hq, hcarries⟩)

end AccessControl

/-! ### A page -/

open AccessControl

namespace BasicCrud

variable {svc : Service} {db : Database} {acc : Access} {m : Model} {args : FindArgs} {page : Page}
  {it : Item} {record : Row} {rows : List Row} {rules : List Policy} {u : String}

/-- The ids that the policies are compared with are those of a record. -/
theorem viewed_words (pol : Policies) (hids : WordIds db) (hrow : record ∈ db.rows m) :
    Word (viewed pol db acc m {} record).ownerUid.text ∧
      (pol.privateAttr = "list_id" → Word (viewed pol db acc m {} record).id.text) := by
  have hnone : Word (Val.none).text := by decide +kernel
  have hcell : ∀ c ∈ ["id", "uid", "referrer_id", "list_id"], Word (record c).text := hids m record hrow
  refine ⟨?_, fun hattr => ?_⟩
  · change Word (effectiveOwner db acc m {} record).text
    unfold effectiveOwner
    split
    · split
      · exact hcell _ (by simp)
      · exact hcell _ (by simp)
    · split
      · cases howner : ownerOf db record with
        | none => exact hcell _ (by simp)
        | some owner =>
            dsimp only
            split
            · exact hids .person owner (List.mem_of_find?_eq_some howner) _ (by simp)
            · exact hcell _ (by simp)
      · exact hcell _ (by simp)
    · split
      · exact hcell _ (by simp)
      · exact hnone
  · change Word (membershipId pol m {} record).text
    rw [membershipId, hattr]
    split
    · exact hcell _ (by simp)
    · exact hnone

/-- Only a filter that asks for nothing is answered with a page at once. -/
theorem filterOf_page (h : filterOf db args = .error (.ok page)) : page = .empty := by
  unfold filterOf at h
  split at h
  · cases h
  · cases h
  · split at h
    · cases h
      rfl
    · split at h
      · cases h
        rfl
      · dsimp only at h
        split at h
        · cases h
        · cases h

/-- A record on a page passed the check, and the condition of the query. -/
theorem found_passes (h : find svc db acc m args = .ok page) (hit : it ∈ page.items) :
    mayFind svc db acc m = .ok true ∧ it.record ∈ db.rows m ∧
      ∃ conds, withFilter svc.policies acc m 'r' = .ok conds ∧
        ∀ cs, conds = some cs → Passes db acc cs it.record := by
  have hfind := find_eq svc db acc m args args.offset args.limit
  have hself : find svc db acc m { args with offset := args.offset, limit := args.limit } = .ok page := h
  rw [hself] at hfind
  cases hresults : results svc db acc m args with
  | error answer =>
      rw [hresults, respond] at hfind
      subst hfind
      have hempty : page = .empty := by
        rcases Checks.bind_eq_error.mp hresults with hbad | ⟨allowed, -, hresults⟩
        · cases hmay : mayFind svc db acc m with
          | ok b =>
              rw [hmay] at hbad
              cases hbad
          | error e =>
              rw [hmay] at hbad
              cases hbad
        rcases Checks.bind_eq_error.mp hresults with hbad | ⟨_, -, hresults⟩
        · rw [Checks.ensure_eq_error] at hbad
          cases hbad.2
        rcases Checks.bind_eq_error.mp hresults with hbad | ⟨filter, -, hbad⟩
        · exact filterOf_page hbad
        · cases hquery : queried svc db acc m args filter with
          | ok rows =>
              rw [hquery] at hbad
              cases hbad
          | error e =>
              rw [hquery] at hbad
              cases hbad
      rw [hempty] at hit
      cases hit
  | ok rows =>
      rw [hresults, respond] at hfind
      obtain ⟨hrecords, -, -⟩ := page_ok hfind.symm
      have hmem : it.record ∈ rows := by
        have hslice : it.record ∈ (rows.drop args.offset).take args.limit :=
          hrecords ▸ List.mem_map_of_mem hit
        exact List.mem_of_mem_drop (List.mem_of_mem_take hslice)
      obtain ⟨allowed, hallowed, hquery⟩ := Checks.bind_eq_ok.mp hresults
      rw [Checks.orElse_eq_ok] at hallowed
      obtain ⟨_, hensure, hquery⟩ := Checks.bind_eq_ok.mp hquery
      obtain ⟨filter, -, hquery⟩ := Checks.bind_eq_ok.mp hquery
      rw [Checks.orElse_eq_ok] at hquery
      obtain ⟨selected, -, hquery⟩ := Checks.bind_eq_ok.mp hquery
      obtain ⟨conds, hconds, hquery⟩ := Checks.bind_eq_ok.mp hquery
      rw [Checks.orElse_eq_ok] at hconds
      obtain ⟨_, -, hquery⟩ := Checks.bind_eq_ok.mp hquery
      cases hquery
      refine ⟨?_, (results_spec hresults).2 _ hmem, conds, hconds, (mem_keep.mp hmem).2⟩
      rw [hallowed, Checks.ensure_eq_ok.mp hensure]

section record

variable (hshape : svc.policies.Shaped) (hacc : acc.Ordinary) (hu : acc.uid = some u) (hword : Word u)
  (hids : WordIds db) (hrow : record ∈ db.rows m) (hrules : rulesOf svc.policies m = .ok rules)

include hshape hacc hu hword hids hrow hrules

/-- Why a record may be read. -/
theorem mayRead_record_iff : MayRead svc db acc m record ↔ (∃ p ∈ rules, CarriesAll acc m p) ∨
    ((viewed svc.policies db acc m {} record).ownerUid.text = u ∧ ∃ p ∈ rules, CarriesOwn acc m p) ∨
      'r' ∈ defaultsOf acc (viewed svc.policies db acc m {} record) rules := by
  obtain ⟨howner, hid⟩ := @viewed_words db acc m record svc.policies hids hrow
  have hr : resolve svc.policies db acc m { query := some [record] } = _ :=
    @resolve_record svc.policies db acc m {} record hrow
  rw [← readable_iff hshape hacc hu hword hr howner (hid hshape.attr) hrules, MayRead, withPermission]
  cases rbacPermissions svc.policies db acc m { query := some [record] } with
  | error e => simp [bind, Except.bind]
  | ok actions => simp [bind, Except.bind, pure, Except.pure]

/-- A record that the condition lets through may be read, if any entry opens records to the session. -/
theorem mayRead_of_passes {conds : Option (List Condition)} (hu' : u ≠ "")
    (hconds : withFilter svc.policies acc m 'r' = .ok conds)
    (hpasses : ∀ cs, conds = some cs → Passes db acc cs record)
    (hchecked : (∃ p ∈ rules, CarriesAll acc m p) ∨ (∃ p ∈ rules, CarriesOwn acc m p) ∨ Opens rules) :
    MayRead svc db acc m record := by
  have hroles : ∀ role, acc.HasRole role → Word role := fun role hrole => (hacc.roles role hrole).1
  rw [mayRead_record_iff hshape hacc hu hword hids hrow hrules]
  have hopens : Opens rules → 'r' ∈ defaultsOf acc (viewed svc.policies db acc m {} record) rules :=
    fun h => lastEveryone_opens (hshape.agree m rules hrules) h _
  rcases hchecked with hall | hown | hopen
  · exact Or.inl hall
  rotate_left
  · exact Or.inr (Or.inr (hopens hopen))
  obtain ⟨rules', hrules', hextend⟩ := Checks.bind_eq_ok.mp hconds
  cases hrules.symm.trans hrules'
  have hadds := extendAll_adds hroles (hshape.entry m rules hrules) hextend
  cases conds with
  | none =>
      rcases hadds with hopen | hall
      · exact Or.inr (Or.inr (hopens hopen))
      · exact Or.inl hall
  | some cs =>
      obtain ⟨added, rfl, hadded, howned⟩ := hadds
      have hmine := howned hown
      rcases hpasses _ rfl with hnil | ⟨c, hc, hholds⟩
      · rw [List.append_eq_nil_iff.mp hnil |>.2] at hmine
        cases hmine
      rcases List.mem_append.mp hc with hc | hc
      -- a public record is read by default
      · have hprivacy : m.Has "privacy" ∧ c = .isPublic := by
          by_cases hm : m.Has "privacy"
          · rw [if_pos hm] at hc
            exact ⟨hm, List.mem_singleton.mp hc⟩
          · rw [if_neg hm] at hc
            cases hc
        obtain ⟨hm, rfl⟩ := hprivacy
        refine Or.inr (Or.inr ?_)
        have hpublic : PrivacyOpen acc (viewed svc.policies db acc m {} record) := by
          refine Or.inl ?_
          change (if m.Has "privacy" then record "privacy" else _) = _
          rw [if_pos hm]
          exact hholds
        rw [defaultsOf, mem_lastEveryone (hshape.privacy m rules hrules hm), if_pos hpublic]
        exact Or.inr List.mem_cons_self
      · refine Or.inr (Or.inl ⟨?_, hown⟩)
        change (effectiveOwner db acc m {} record).text = u
        have huid : Val.ofOption acc.uid = .str u := by rw [hu]; rfl
        obtain ⟨hm, rfl | ⟨rfl, rfl⟩⟩ := hadded c hc
        · have hself : record "uid" = .str u := by rw [← huid]; exact hholds
          have heffective : effectiveOwner db acc m {} record = .str u := by
            cases m <;> first
              | exact absurd hm (by decide)
              | exact hself
              | simp [effectiveOwner, huid, hself]
          rw [heffective]
          rfl
        · obtain ⟨owner, howner, hrefer⟩ := hholds
          rw [huid] at hrefer
          have htruthy : (Val.str u).truthy = true := by simp [Val.truthy, hu']
          have heffective : effectiveOwner db acc .contact {} record = .str u := by
            by_cases hself : record "uid" = .str u
            · simp [effectiveOwner, huid, hself]
            · simp [effectiveOwner, hu, hu', howner, hrefer, htruthy, Ne.symm hself, Val.ofOption]
          rw [heffective]
          rfl

end record

/-- An account has no privacy that would open it. -/
theorem account_closed (hattr : svc.policies.privateAttr = "list_id") :
    ¬ PrivacyOpen acc (viewed svc.policies db acc .account {} record) := by
  have hid : membershipId svc.policies .account {} record = .none := by
    rw [membershipId, hattr]
    rfl
  rintro (hpublic | ⟨htruthy, -⟩)
  · cases hpublic
  · change (membershipId svc.policies .account {} record).truthy = true at htruthy
    rw [hid] at htruthy
    cases htruthy

/-- A record on a page may be read, unless it is an account; an account just when the session passes the check
that `find` makes of it for the other models. -/
theorem found_mayRead_iff (hshape : svc.policies.Shaped) (hacc : acc.Ordinary) (hids : WordIds db)
    (hfind : find svc db acc m args = .ok page) :
    (m ≠ .account → ∀ it ∈ page.items, MayRead svc db acc m it.record) ∧
      ∀ it ∈ page.items, (MayRead svc db acc m it.record ↔
        withPermission svc.policies db acc m 'r' { ownerUid := Val.ofOption acc.uid } = .ok true) := by
  obtain ⟨u, hu, hne, hword⟩ := hacc.uid
  have hiff : ∀ it ∈ page.items, (MayRead svc db acc m it.record ↔
      withPermission svc.policies db acc m 'r' { ownerUid := Val.ofOption acc.uid } = .ok true) := by
    intro it hit
    obtain ⟨hmay, hrow, conds, hconds, hpasses⟩ := found_passes hfind hit
    obtain ⟨rules, hrules, -⟩ := Checks.bind_eq_ok.mp hconds
    have hchecked := @checked_iff acc m svc.policies db rules u hshape hacc hu hword hrules
    constructor
    · intro hread
      by_cases hm : m = .account
      · subst hm
        rw [hchecked]
        rcases (mayRead_record_iff hshape hacc hu hword hids hrow hrules).mp hread with h | ⟨-, h⟩ | h
        · exact Or.inl h
        · exact Or.inr (Or.inl h)
        · rw [defaultsOf, if_neg (account_closed hshape.attr)] at h
          exact Or.inr (Or.inr (opens_of_lastEveryone h))
      · rwa [mayFind, if_neg hm, Checks.orElse_eq_ok] at hmay
    · exact fun h =>
        mayRead_of_passes hshape hacc hu hword hids hrow hrules hne hconds hpasses (hchecked.mp h)
  refine ⟨fun hm it hit => (hiff it hit).mpr ?_, hiff⟩
  obtain ⟨hmay, -⟩ := found_passes hfind hit
  rwa [mayFind, if_neg hm, Checks.orElse_eq_ok] at hmay

/-! ### Between the password and the one-time password -/

/-- A session that waits for a one-time password. -/
def otpAccess : Access where
  auth := some ["pendingtotp"]
  uid := some "x-23450001"

theorem otp_ordinary : otpAccess.Ordinary where
  auth := by decide
  uid := ⟨"x-23450001", rfl, by decide, by decide⟩
  roles := by
    rintro role ⟨roles, hroles, hmem⟩
    cases hroles
    rw [List.mem_singleton.mp hmem]
    exact ⟨by decide, by decide⟩

theorem seed_words : WordIds Seed.database := by
  intro m
  cases m <;> decide +kernel

/-- It finds accounts, and may read none of them. -/
theorem otp_finds_accounts : ∃ page, find Seed.service Seed.database otpAccess .account {} = .ok page ∧
    page.items ≠ [] ∧ ∀ it ∈ page.items, ¬ MayRead Seed.service Seed.database otpAccess .account it.record := by
  have hfound : (find Seed.service Seed.database otpAccess .account {}).toOption.map
      (fun page => page.items.isEmpty) = some false := by decide +kernel
  have hrefused : withPermission Seed.service.policies Seed.database otpAccess .account 'r'
      { ownerUid := Val.ofOption otpAccess.uid } = .ok false := by decide +kernel
  cases hfind : find Seed.service Seed.database otpAccess .account {} with
  | error answer =>
      rw [hfind] at hfound
      cases hfound
  | ok page =>
      rw [hfind] at hfound
      refine ⟨page, rfl, ?_, fun it hit => ?_⟩
      · rintro hnil
        rw [Except.toOption, Option.map_some, hnil] at hfound
        cases hfound
      · rw [(found_mayRead_iff example_shaped otp_ordinary seed_words hfind).2 it hit, hrefused]
        simp

end BasicCrud

end Apicrud
