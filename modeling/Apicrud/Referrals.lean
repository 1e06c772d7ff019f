import Apicrud.ListAccess
import Apicrud.Promotion
import Apicrud.SecondFactor
import Apicrud.Tokens

/-! # Referrers

A person who was referred by another belongs to the referrer, until a contact of the person is confirmed:
`confirm` clears `referrer_id`.  From then on the person is its own owner (`Unreferred`), and no request of
a session that is neither the person's nor an administrator's changes that (`unreferred_next`), so the
referrer has lost control for good (`referrer_loses_control`). -/

namespace Apicrud

open Relational

variable {svc : Service} {w : World} {req : Request} {call : Call} {db db' : Database} {acc : Access}
  {p : String} {record : Row}

/-! ### The roles of sessions -/

/-- Every session of the store has roles that the code gives to sessions. -/
def RolesIssued (w : World) : Prop :=
  ∀ k ses d, w.redis k = some (ses, d) → ∀ role ∈ ses.roles, role ∈ issuedRoles

theorem roles_of_auth {ses : Session} (roles : List String)
    (h : ses.get "auth" = .str (Text.join roles ':')) (hroles : ∀ role ∈ roles, role ∈ issuedRoles) :
    ∀ role ∈ ses.roles, role ∈ issuedRoles := by
  intro role hrole
  rw [Session.roles, h, Val.text_str] at hrole
  by_cases hnil : roles = []
  · subst hnil
    have hempty : Text.split (Text.join [] ':') ':' = [""] := by decide +kernel
    rw [hempty, List.mem_singleton] at hrole
    rw [hrole]
    decide
  · have hcolon : ∀ role ∈ issuedRoles, ':' ∉ role.toList := by decide
    rw [Text.split_join hnil fun role hrole => hcolon role (hroles role hrole)] at hrole
    exact hroles role hrole

/-- The roles of the sessions that are opened. -/
theorem Opening.rolesIssued {k : String} {ses : Session} {d : ℕ} (h : Opening svc w req call k ses d)
    (hkeys : KeysVerified svc w) : ∀ role ∈ ses.roles, role ∈ issuedRoles := by
  cases h with
  | confirmation =>
      refine roles_of_auth [] ?_ nofun
      simp [SessionManager.content]
  | confirmed clear name =>
      refine roles_of_auth [if clear then "pending" else "person"] ?_ ?_
      · simp [SessionManager.content]
      · cases clear <;> decide
  | login a account method db =>
      refine roles_of_auth (a.roles account) ?_ ?_
      · simp [SessionManager.content, SessionAuth.loginKwargs]
      · have hall : ∀ roles ∈ [["person", "pwchange"], ["mfarequired"], ["pendingtotp"],
            ["admin", "user"], ["user"], []], ∀ role ∈ roles, role ∈ issuedRoles := by decide
        refine hall _ ?_
        unfold SessionAuth.Accepted.roles
        split
        case h_4 => split <;> simp
        all_goals simp
  | bypass =>
      refine roles_of_auth [] ?_ nofun
      simp [SessionManager.content]
  | enrolment =>
      refine roles_of_auth ["pendingtotp"] ?_ (by decide)
      simp [SessionManager.content]
  | @apikey keyId secret item ttl hitem =>
      refine roles_of_auth item.roles ?_ ?_
      · simp [SessionManager.content]
      · obtain ⟨now, hverified⟩ := hkeys.cached hitem
        rcases hverified.roles with hroles | hroles
        · rw [hroles]
          decide
        · rw [hroles]
          decide

theorem RolesIssued.next (h : RolesIssued w) (hkeys : KeysVerified svc w) (e : Event) :
    RolesIssued ((machine svc).next w e) := by
  intro k ses d hk
  rcases (handle_serves svc (w.at e) e.req e.call).opens k ses d hk with hold | hnew
  · exact h k ses d hold
  · exact hnew.rolesIssued hkeys

/-- The principal of a request has the roles of its session. -/
theorem RolesIssued.access (h : RolesIssued w) (req : Request) : (req.access svc w).Issued := by
  have hsession : ∀ {uid : Option String} {token : String} {keyId : Option String} {ses : Session},
      SessionManager.find w.redis w.now uid token keyId = some ses →
        ∀ role ∈ ses.roles, role ∈ issuedRoles := by
    intro uid token keyId ses hfind
    obtain ⟨⟨d, hk, -⟩, -⟩ := SessionManager.find_eq_some.mp hfind
    exact h _ ses d hk
  have hnone : Access.anonymous.Issued := by
    rintro role ⟨roles, hauth, -⟩
    cases hauth
  unfold Request.access accessControl
  split
  · split
    · split
      · rename_i hfind
        rintro role ⟨roles, hauth, hrole⟩
        cases hauth
        exact hsession hfind role hrole
      · exact hnone
    · exact hnone
  · split
    · split
      · rename_i hfind
        rintro role ⟨roles, hauth, hrole⟩
        cases hauth
        exact hsession hfind role hrole
      · exact hnone
    · exact hnone

/-! ### Sessions of others -/

/-- A session that is neither the person's nor an administrator's. -/
structure Stranger (p : String) (acc : Access) : Prop where
  uid : acc.uidText ≠ p
  issued : acc.Issued
  notAdmin : ¬ acc.HasRole "admin"

/-- What the role of a stranger reads as. -/
theorem Stranger.name (h : Stranger p acc) {role : String} (hrole : acc.HasRole role) :
    nameOf acc role ≠ "admin" ∧ nameOf acc role ≠ "user/" ++ p ∧ nameOf acc role ≠ "list-.*" := by
  have hbare : ∀ role' ∈ ["", "pwchange", "mfarequired", "pendingtotp", "pending"],
      role' ≠ "admin" ∧ '/' ∉ role'.toList ∧ role' ≠ "list-.*" ∧ ¬ (role' = "person" ∨ role' = "user") := by
    decide
  have hslash : '/' ∈ ("user/" ++ p).toList := by simp
  have hnamed : ∀ kind, nameOf acc role = kind ++ "/" ++ acc.uidText → kind = "person" ∨ kind = "user" →
      nameOf acc role ≠ "admin" ∧ nameOf acc role ≠ "user/" ++ p ∧ nameOf acc role ≠ "list-.*" := by
    intro kind hname hkind
    have hmem : '/' ∈ (kind ++ "/" ++ acc.uidText).toList := by simp
    rw [hname]
    refine ⟨fun heq => ?_, fun heq => ?_, fun heq => ?_⟩
    · rw [heq] at hmem
      exact absurd hmem (by decide)
    · rcases hkind with rfl | rfl
      · have hfirst := congrArg (fun s => s.toList.head?) heq
        simp at hfirst
      · exact h.uid ((String.append_right_inj _).mp heq)
    · rw [heq] at hmem
      exact absurd hmem (by decide)
  have hcases : role = "person" ∨ role = "user" ∨
      role ∈ ["", "pwchange", "mfarequired", "pendingtotp", "pending"] := by
    have hissued := h.issued role hrole
    have hadmin : role ≠ "admin" := fun heq => h.notAdmin (heq ▸ hrole)
    simp only [issuedRoles, List.mem_cons, List.not_mem_nil, or_false] at hissued ⊢
    tauto
  rcases hcases with rfl | rfl | hother
  · exact hnamed "person" (by simp [nameOf]) (Or.inl rfl)
  · exact hnamed "user" (by simp [nameOf]) (Or.inr rfl)
  · obtain ⟨hadmin, hno, hlists, hkind⟩ := hbare role hother
    rw [nameOf, if_neg hkind]
    exact ⟨hadmin, fun heq => hno (heq ▸ hslash), hlists⟩

theorem Stranger.noBrace (h : Stranger p acc) {role : String} (hrole : acc.HasRole role) :
    Text.NoBrace role := AccessControl.noBrace_of_issued (h.issued role hrole)

theorem lists_ne_wildcard (membership : String) : "list-.*" ≠ membership ++ "-*" :=
  @AccessControl.principal_ne_wildcard .person ⟨"list-.*", "person:{uid}", ['r']⟩
    (Entry.lists (by decide)) membership

/-- On the record of a person without a referrer, a stranger has what everyone has. -/
theorem Stranger.rbac_person (h : Stranger p acc) (hrow : record ∈ db.rows .person)
    (hid : record "id" = .str p) (hnone : record "referrer_id" = .none) (t : Target) :
    AccessControl.rbacPermissions examplePolicies db acc .person { t with query := some [record] } =
      .ok ['c', 'r'] := by
  have howner : (viewed examplePolicies db acc .person t record).ownerUid = .str p := by
    simp only [viewed, effectiveOwner, hnone, Val.truthy_none, Bool.false_eq_true, if_false, hid]
  have hrules : AccessControl.rulesOf examplePolicies .person = .ok
      (⟨".*", "person:.*", ['c', 'r']⟩ :: basePolicies "person" ++
        [⟨"list-.*", "person:{uid}", ['r', 'u']⟩]) := rfl
  rw [AccessControl.rbacPermissions_default (AccessControl.resolve_record hrow) hrules ?_]
  · rfl
  · intro policy hpolicy hall role hrole
    obtain ⟨hadmin, huser, hlists⟩ := h.name hrole
    have hname := @AccessControl.fill_roleName acc role (h.noBrace hrole)
      (viewed examplePolicies db acc .person t record).id.text
    simp only [basePolicies, List.cons_append, List.nil_append, List.mem_cons, List.not_mem_nil,
      or_false] at hpolicy
    rcases hpolicy with rfl | rfl | rfl | rfl
    · exact absurd rfl hall
    · exact AccessControl.applies_ne
        (AccessControl.fill_of_noBrace (by decide : Text.NoBrace "admin") _ _) hname hadmin.symm
        (AccessControl.wildcard_ne (by decide))
    · refine AccessControl.applies_ne (AccessControl.fill_uid "user/" (by decide) _ _) hname ?_
        (AccessControl.wildcard_ne (by decide))
      rw [howner]
      exact huser.symm
    · exact AccessControl.applies_ne
        (AccessControl.fill_of_noBrace (by decide : Text.NoBrace "list-.*") _ _) hname hlists.symm
        lists_ne_wildcard

/-- A session of another user or confirmed person. -/
structure OtherUser (p : String) (acc : Access) : Prop where
  uid : acc.uidText ≠ p
  roles : ∀ role, acc.HasRole role → role = "user" ∨ role = "person"

theorem OtherUser.stranger (h : OtherUser p acc) : Stranger p acc where
  uid := h.uid
  issued role hrole := by
    rcases h.roles role hrole with rfl | rfl
    · decide
    · decide
  notAdmin hadmin := absurd (h.roles "admin" hadmin) (by decide)

/-- What the role of such a session reads as. -/
theorem OtherUser.name (h : OtherUser p acc) {role : String} (hrole : acc.HasRole role) :
    (∀ text, '/' ∉ text.toList → nameOf acc role ≠ text) ∧
      (∀ text, nameOf acc role ≠ "list-" ++ text) ∧ nameOf acc role ≠ "person/" ++ p := by
  obtain ⟨kind, hkind, hname⟩ : ∃ kind, (kind = "person" ∨ kind = "user") ∧
      nameOf acc role = kind ++ "/" ++ acc.uidText := by
    rcases h.roles role hrole with rfl | rfl
    · exact ⟨"user", Or.inr rfl, by simp [nameOf]⟩
    · exact ⟨"person", Or.inl rfl, by simp [nameOf]⟩
  rw [hname]
  refine ⟨fun text htext heq => ?_, fun text heq => ?_, fun heq => ?_⟩
  · have hslash : '/' ∈ (kind ++ "/" ++ acc.uidText).toList := by simp
    exact htext (heq ▸ hslash)
  · have hfirst := congrArg (fun s => s.toList.head?) heq
    rcases hkind with rfl | rfl
    · simp at hfirst
    · simp at hfirst
  · rcases hkind with rfl | rfl
    · exact h.uid ((String.append_right_inj _).mp heq)
    · have hfirst := congrArg (fun s => s.toList.head?) heq
      simp at hfirst

/-- On a contact of a person without a referrer, such a session has what the privacy gives it. -/
theorem OtherUser.rbac_contact (h : OtherUser p acc) (hrow : record ∈ db.rows .contact)
    (huid : record "uid" = .str p) {owner : Row} (howner : ownerOf db record = some owner)
    (hnone : owner "referrer_id" = .none) (t : Target) :
    AccessControl.rbacPermissions examplePolicies db acc .contact { t with query := some [record] } =
      .ok (if AccessControl.PrivacyOpen acc (viewed examplePolicies db acc .contact t record) then ['r']
        else []) := by
  have hself : (viewed examplePolicies db acc .contact t record).ownerUid = .str p := by
    simp only [viewed, effectiveOwner, howner, hnone, Val.truthy_none, Bool.false_eq_true, if_false, huid,
      ite_self]
  have hrules : AccessControl.rulesOf examplePolicies .contact = .ok
      (basePolicies "contact" ++
        [⟨"pending", "contact:{uid}", ['r', 'u']⟩, ⟨"person/{uid}", "contact:{uid}", ['r', 'u']⟩,
          ⟨"list-.*", "contact:{uid}", ['c', 'r', 'u']⟩,
          ⟨"list-{list_id}-member", "contact:{list_id}", ['r']⟩]) := rfl
  rw [AccessControl.rbacPermissions_default (AccessControl.resolve_record hrow) hrules ?_]
  · rfl
  · intro policy hpolicy _ role hrole
    obtain ⟨hplain, hlists, hperson⟩ := h.name hrole
    obtain ⟨-, huser, -⟩ := h.stranger.name hrole
    have hname := @AccessControl.fill_roleName acc role (h.stranger.noBrace hrole)
      (viewed examplePolicies db acc .contact t record).id.text
    simp only [basePolicies, List.cons_append, List.nil_append, List.mem_cons, List.not_mem_nil,
      or_false] at hpolicy
    rcases hpolicy with rfl | rfl | rfl | rfl | rfl | rfl
    · exact AccessControl.applies_ne
        (AccessControl.fill_of_noBrace (by decide : Text.NoBrace "admin") _ _) hname
        (hplain _ (by decide)).symm (AccessControl.wildcard_ne (by decide))
    · refine AccessControl.applies_ne (AccessControl.fill_uid "user/" (by decide) _ _) hname ?_
        (AccessControl.wildcard_ne (by decide))
      rw [hself]
      exact huser.symm
    · exact AccessControl.applies_ne
        (AccessControl.fill_of_noBrace (by decide : Text.NoBrace "pending") _ _) hname
        (hplain _ (by decide)).symm (AccessControl.wildcard_ne (by decide))
    · refine AccessControl.applies_ne (AccessControl.fill_uid "person/" (by decide) _ _) hname ?_
        (AccessControl.wildcard_ne (by decide))
      rw [hself]
      exact hperson.symm
    · exact AccessControl.applies_ne
        (AccessControl.fill_of_noBrace (by decide : Text.NoBrace "list-.*") _ _) hname
        (hplain _ (by decide)).symm lists_ne_wildcard
    · refine AccessControl.applies_ne (AccessControl.fill_ofList _ _ (by decide : Word "member")) hname
        ?_ (AccessControl.wildcard_ne (by decide))
      rw [String.append_assoc]
      exact (hlists _).symm

/-! ### Persons without a referrer -/

/-- The person is there and has no referrer. -/
def Unreferred (p : String) (db : Database) : Prop :=
  ∃ row ∈ db.rows .person, row "id" = .str p ∧ row "referrer_id" = .none

theorem Unreferred.eq (h : Unreferred p db) {row : Row} (hrow : row ∈ db.rows .person)
    (hid : row "id" = .str p) : row "referrer_id" = .none := by
  obtain ⟨row', hrow', hid', hnone⟩ := h
  have hsame : row = row' :=
    db.eq_of_column (by decide : ["id"] ∈ schema.unique .person) (by decide) hrow hrow'
      (hid.trans hid'.symm)
  rw [hsame]
  exact hnone

/-- The owner of a contact of the person. -/
theorem Unreferred.owner (h : Unreferred p db) (hrow : record ∈ db.rows .contact)
    (huid : record "uid" = .str p) : ∃ owner, ownerOf db record = some owner ∧
      owner "referrer_id" = .none := by
  obtain ⟨owner, howner⟩ := AccessControl.ownerOf_isSome hrow (List.mem_singleton_self _) (by decide)
  refine ⟨owner, howner, h.eq (List.mem_of_find?_eq_some howner) ?_⟩
  have hfound := List.find?_some howner
  exact (of_decide_eq_true hfound).trans huid

theorem Unreferred.of_rows (h : Unreferred p db)
    (hrows : ∀ row ∈ db.rows .person, row "id" = .str p → row ∈ db'.rows .person) :
    Unreferred p db' := by
  obtain ⟨row, hrow, hid, hnone⟩ := h
  exact ⟨row, hrows row hrow hid, hid, hnone⟩

theorem Unreferred.of_eq (h : Unreferred p db) (heq : db'.1 .person = db.1 .person) :
    Unreferred p db' :=
  h.of_rows fun row hrow _ => by rwa [Store.rows, heq]

theorem Unreferred.insert (h : Unreferred p db) {m : Model} {row : Row}
    (hdb : db'.1 = db.1.insert m row) : Unreferred p db' := by
  by_cases hm : m = .person
  · subst hm
    refine h.of_rows fun row' hrow' _ => ?_
    rw [Store.rows, hdb]
    exact Db.mem_insert.mpr (Or.inl hrow')
  · refine h.of_eq ?_
    rw [hdb, Db.insert_ne _ _ (Ne.symm hm)]

/-- A rewrite that keeps the ids, and the referrers or clears them. -/
theorem Unreferred.modify (h : Unreferred p db) {m : Model} {q : Row → Bool} {f : Row → Row}
    (hdb : db'.1 = db.1.modify m q f)
    (hf : ∀ row, f row "id" = row "id" ∧ (f row "referrer_id" = row "referrer_id" ∨
      f row "referrer_id" = .none)) : Unreferred p db' := by
  by_cases hm : m = .person
  · subst hm
    obtain ⟨row, hrow, hid, hnone⟩ := h
    refine ⟨if q row then f row else row, ?_, ?_, ?_⟩
    · rw [Store.rows, hdb]
      exact Db.mem_modify.mpr ⟨row, hrow, rfl⟩
    · split_ifs
      · rw [(hf row).1, hid]
      · exact hid
    · split_ifs
      · rcases (hf row).2 with hkept | hcleared
        · rw [hkept, hnone]
        · exact hcleared
      · exact hnone
  · refine h.of_eq ?_
    rw [hdb, Db.modify_ne _ _ _ (Ne.symm hm)]

/-- A confirmation clears the referrer of the owner of the contact, and no other's. -/
theorem Unreferred.activate (h : Unreferred p db) {id : String} {uid : Val}
    (hdb : db'.1 = Confirmation.activate db id uid) : Unreferred p db' := by
  obtain ⟨row, hrow, hid, hnone⟩ := h
  refine ⟨if decide (row "id" = uid) then Function.update row "referrer_id" .none else row, ?_, ?_, ?_⟩
  · rw [Store.rows, hdb, Confirmation.activate]
    refine Db.mem_modify.mpr ⟨row, ?_, rfl⟩
    rwa [Db.modify_ne _ _ _ (by decide)]
  · split_ifs
    · rw [Function.update_of_ne (by decide), hid]
    · exact hid
  · split_ifs
    · exact Function.update_self ..
    · exact hnone

theorem unreferred_of_activate {id : String} (hdb : db'.1 = Confirmation.activate db id (.str p))
    (hperson : ∃ row ∈ db.rows .person, row "id" = .str p) : Unreferred p db' := by
  obtain ⟨row, hrow, hid⟩ := hperson
  refine ⟨Function.update row "referrer_id" .none, ?_, ?_, Function.update_self ..⟩
  · rw [Store.rows, hdb, Confirmation.activate]
    refine Db.mem_modify.mpr ⟨row, ?_, if_pos (decide_eq_true hid)⟩
    rwa [Db.modify_ne _ _ _ (by decide)]
  · rw [Function.update_of_ne (by decide), hid]

theorem Unreferred.setStatus (h : Unreferred p db) {m : Model} {id : String} {status : Val}
    (hok : BasicCrud.setStatus db m id status = .ok db') : Unreferred p db' :=
  h.modify (store_ok hok) fun _ =>
    ⟨Function.update_of_ne (by decide) _ _, Or.inl (Function.update_of_ne (by decide) _ _)⟩

/-- A stranger may neither update nor delete the person. -/
theorem Unreferred.denied (h : Unreferred p db) (hother : Stranger p acc) {x : Char}
    (hx : x ∉ ['c', 'r']) : AccessControl.withPermission examplePolicies db acc .person x
      { query := some (byId db .person p) } ≠ .ok true := by
  obtain ⟨row, hrow, hid, hnone⟩ := h
  have hone := one_byId hrow (by decide : ["id"] ∈ schema.unique .person) hid
  rw [one_eq_ok.mp hone]
  have hrbac := hother.rbac_person hrow hid hnone {}
  unfold AccessControl.withPermission
  rw [hrbac]
  change Except.ok (decide (x ∈ ['c', 'r'])) ≠ _
  rw [decide_eq_false hx]
  exact fun heq => nomatch heq

/-- No commit of a stranger gives the person a referrer, or takes the person away. -/
theorem Commit.unreferred (hpol : svc.policies = examplePolicies)
    (h : Commit svc w req call db db') (hother : Stranger p (req.access svc w))
    (hfree : Unreferred p db) : Unreferred p db' := by
  cases h with
  | created _ _ _ hdb => exact hfree.insert hdb
  | related hrel hdb =>
      refine hfree.of_eq ?_
      rw [hdb, Function.update_of_ne (assoc_ne hrel).2.symm]
  | messageListed hdb => exact hfree.insert hdb
  | personContact _ hdb => exact hfree.insert hdb
  | @written m id body body' _ _ _ _ _ _ hallowed _ hdb =>
      rw [hpol] at hallowed
      by_cases hm : m = .person
      · subst hm
        have hid : id ≠ p := by
          rintro rfl
          exact hfree.denied hother (by decide) hallowed
        refine hfree.of_rows fun row hrow hrowId => ?_
        rw [Store.rows, hdb]
        refine Db.mem_modify.mpr ⟨row, hrow, if_neg ?_⟩
        rw [hasId, decide_eq_true_iff, hrowId, Val.str.injEq]
        exact fun heq => hid heq.symm
      · refine hfree.of_eq ?_
        rw [hdb, Db.modify_ne _ _ _ (Ne.symm hm)]
  | contactWritten _ _ hok =>
      obtain ⟨checked, contact, db₁, hupdated⟩ := BasicCrud.updateContact_ok hok
      have hfirst : Unreferred p db₁ := by
        refine hfree.of_eq ?_
        rw [hupdated.written, Db.modify_ne _ _ _ (by decide)]
      rcases hupdated.moved with ⟨-, hdb⟩ | ⟨-, rfl⟩
      · exact hfirst.modify hdb fun _ =>
          ⟨Function.update_of_ne (by decide) _ _, Or.inl (Function.update_of_ne (by decide) _ _)⟩
      · exact hfirst
  | disabled hok => exact hfree.setStatus hok
  | restored _ _ _ _ _ hok => exact hfree.setStatus hok
  | @deleted m id _ _ hallowed hok =>
      rw [hpol] at hallowed
      -- the references between persons do not cascade
      have hcascade : schema.cascade (db.1.remove m (hasId id)) .person =
          db.1.remove m (hasId id) .person := schema.cascade_eq_self (by decide)
      by_cases hm : m = .person
      · subst hm
        have hid : id ≠ p := by
          rintro rfl
          exact hfree.denied hother (by decide) hallowed
        refine hfree.of_rows fun row hrow hrowId => ?_
        rw [Store.rows, store_ok hok, hcascade]
        refine Db.mem_remove.mpr ⟨hrow, ?_⟩
        rw [hasId, decide_eq_false_iff_not, hrowId, Val.str.injEq]
        exact fun heq => hid heq.symm
      · refine hfree.of_eq ?_
        rw [store_ok hok, hcascade, Db.remove_ne _ _ (Ne.symm hm)]
  | confirmed _ _ hdb => exact hfree.activate hdb
  | activated _ hok => exact hfree.setStatus hok
  | stamped _ hf hdb =>
      exact hfree.modify hdb fun row => ⟨hf row _ (by decide), Or.inl (hf row _ (by decide))⟩
  | registered _ hdb =>
      refine hfree.of_rows fun row hrow _ => ?_
      rw [Store.rows, hdb, SessionAuth.addPerson, Db.insert_ne _ _ (by decide)]
      exact Db.mem_insert.mpr (Or.inl hrow)
  | accountAdded hdb => exact hfree.insert hdb
  | profiled hdb => exact hfree.insert hdb

/-- A request of a stranger leaves the person without a referrer. -/
theorem unreferred_next (hpol : svc.policies = examplePolicies) (e : Event)
    (hother : Stranger p (e.req.access svc (w.at e))) (hfree : Unreferred p w.db) :
    Unreferred p ((machine svc).next w e).db :=
  (handle_commits svc (w.at e) e.req e.call).relation (R := fun db db' => Unreferred p db →
    Unreferred p db') (fun _ h => h) (fun _ _ _ h h' hfree => h' (h hfree))
    (fun _ _ hcommit => hcommit.unreferred hpol hother) hfree

/-! ### Confirmations -/

/-- The request confirms a contact of the person. -/
def Confirms (svc : Service) (w : World) (p : String) (e : Event) : Prop :=
  ∃ token clear id info nonce contact, confirmCall (w.at e) e.call = some (token, clear) ∧
    Confirmation.check svc (w.at e) token = .ok (id, info, nonce, contact) ∧ contact "uid" = .str p

theorem confirm_unreferred (amb : Ambient) {token id info nonce : String} {contact : Row} (clear : Bool)
    (hcheck : Confirmation.check svc w token = .ok (id, info, nonce, contact))
    (huid : contact "uid" = .str p) :
    Unreferred p (Confirmation.confirm svc w amb token clear).1.db := by
  obtain ⟨-, -, hone⟩ := check_ok hcheck
  have hrow := (of_one_byId hone).1
  have hstore := schema.store_of_valid (Confirmation.activate_valid w.db id (contact "uid"))
  have hperson : ∃ row ∈ w.db.rows .person, row "id" = .str p := by
    rcases w.db.refers hrow (List.mem_singleton_self _ : Model.ownedBy ∈ schema.foreign .contact) with
      hnone | ⟨person, hmem, hid⟩
    · exact absurd hnone (w.db.ne_none hrow (by decide))
    · exact ⟨person, hmem, hid.trans huid⟩
  rw [Confirmation.confirm_eq clear hcheck hstore]
  refine @unreferred_of_activate w.db _ p id ?_ hperson
  rw [← huid]
  rfl

theorem storePassword_unreferred {amb : Ambient} (uid : String) (account : Row) (new : Val)
    (h : Unreferred p w.db) :
    Unreferred p (LocalUser.storePassword svc w amb uid account new).1.db := by
  unfold LocalUser.storePassword
  split
  · rename_i hstore
    refine h.of_eq ?_
    rw [store_ok hstore, Db.modify_ne _ _ _ (by decide)]
  · exact h

/-- After the request the person has no referrer. -/
theorem Confirms.unreferred {e : Event} (h : Confirms svc w p e) :
    Unreferred p ((machine svc).next w e).db := by
  obtain ⟨token, clear, id, info, nonce, contact, hcall, hcheck, huid⟩ := h
  have hconfirm := confirm_unreferred e.req.amb clear hcheck huid
  change Unreferred p (handle svc (w.at e) e.req e.call).1.db
  cases hc : e.call with
  | confirm token' =>
      rw [hc] at hcall
      cases hcall
      exact hconfirm
  | changePassword uid body =>
      rw [hc, confirmCall] at hcall
      simp only [handle]
      unfold LocalUser.changePassword
      cases hnew : LocalUser.checkNew (w.at e).db uid (body.get "new_password")
        (body.get "verify_password") with
      | error answer =>
          rw [hnew] at hcall
          cases hcall
      | ok account =>
          simp only [hnew] at hcall ⊢
          split_ifs at hcall ⊢ with hold
          cases htoken : body.get "reset_token" with
          | str token' =>
              rw [htoken] at hcall
              cases hcall
              simp only
              split_ifs
              · exact storePassword_unreferred _ _ _ hconfirm
              · exact hconfirm
              · exact hconfirm
          | none | bool _ | int _ | time _ | list _ =>
              rw [htoken] at hcall
              cases hcall
  | _ =>
      rw [hc] at hcall
      cases hcall

/-! ### Runs -/

/-- The request is neither the person's nor an administrator's. -/
def NotBy (svc : Service) (p : String) (w : World) (e : Event) : Prop :=
  (e.req.access svc (w.at e)).uidText ≠ p ∧ ¬ (e.req.access svc (w.at e)).HasRole "admin"

/-- Other users and confirmed persons may neither update nor delete the person and the contacts of the
person, and none of their requests gives the person a referrer. -/
structure LostControl (svc : Service) (p : String) (w : World) : Prop where
  person : ∀ acc, OtherUser p acc → ∀ record ∈ w.db.rows .person, record "id" = .str p →
    ∀ (t : Target) actions, AccessControl.rbacPermissions svc.policies w.db acc .person
      { t with query := some [record] } = .ok actions → 'u' ∉ actions ∧ 'd' ∉ actions
  contact : ∀ acc, OtherUser p acc → ∀ record ∈ w.db.rows .contact, record "uid" = .str p →
    ∀ (t : Target) actions, AccessControl.rbacPermissions svc.policies w.db acc .contact
      { t with query := some [record] } = .ok actions → 'u' ∉ actions ∧ 'd' ∉ actions
  request : ∀ e : Event, OtherUser p (e.req.access svc (w.at e)) →
    Unreferred p w.db ∧ Unreferred p ((machine svc).next w e).db

theorem Unreferred.lostControl (hpol : svc.policies = examplePolicies) (h : Unreferred p w.db) :
    LostControl svc p w where
  person := by
    intro acc hother record hrow hid t actions hactions
    rw [hpol, hother.stranger.rbac_person hrow hid (h.eq hrow hid)] at hactions
    cases hactions
    decide
  contact := by
    intro acc hother record hrow huid t actions hactions
    obtain ⟨owner, howner, hnone⟩ := h.owner hrow huid
    rw [hpol, hother.rbac_contact hrow huid howner hnone] at hactions
    cases hactions
    split_ifs <;> decide
  request e hother := ⟨h, unreferred_next hpol e hother.stranger h⟩

/-- From a fresh process on: once a contact of the person was confirmed, and as long as neither the person
nor an administrator makes requests, others have lost control of the person. -/
theorem referrer_loses_control (hpol : svc.policies = examplePolicies) {es₁ es₂ : List Event}
    {e : Event} (hredis : w.redis = Expiring.empty) (hkeys : w.apikeys = fun _ => none)
    (hconfirms : Confirms svc ((machine svc).run w es₁) p e)
    (hlater : (machine svc).Along (NotBy svc p) ((machine svc).run w (es₁ ++ [e])) es₂) :
    LostControl svc p ((machine svc).run w (es₁ ++ e :: es₂)) := by
  have hissued : ∀ es, RolesIssued ((machine svc).run w es) ∧ KeysVerified svc ((machine svc).run w es) := by
    intro es
    refine Machine.invariant_run (I := fun w => RolesIssued w ∧ KeysVerified svc w)
      (fun w e h => ⟨h.1.next h.2 e, h.2.next e⟩) ⟨?_, ?_⟩ es
    · intro k ses d hk
      rw [hredis] at hk
      cases hk
    · intro keyId item hitem
      rw [hkeys] at hitem
      cases hitem
  have hfirst : Unreferred p ((machine svc).run w (es₁ ++ [e])).db := by
    rw [Machine.run_append]
    exact hconfirms.unreferred
  have hall : Unreferred p ((machine svc).run ((machine svc).run w (es₁ ++ [e])) es₂).db := by
    refine (Machine.invariant (I := fun w => (RolesIssued w ∧ KeysVerified svc w) ∧ Unreferred p w.db)
      (fun w e h hby => ⟨⟨h.1.1.next h.1.2 e, h.1.2.next e⟩, ?_⟩) hlater ⟨hissued _, hfirst⟩).2
    have hroles : RolesIssued (w.at e) := h.1.1
    exact unreferred_next hpol e ⟨hby.1, hroles.access e.req, hby.2⟩ h.2
  have hrun : (machine svc).run w (es₁ ++ e :: es₂) =
      (machine svc).run ((machine svc).run w (es₁ ++ [e])) es₂ := by
    rw [← Machine.run_append, List.append_assoc]
    rfl
  rw [hrun]
  exact hall.lostControl hpol

/-- A person whom the other user has referred. -/
def invited : Database :=
  ⟨Seed.tables (Seed.records ++ Seed.member ++
    [(.person, Seed.row .person [("id", .str "u-0003"), ("name", .str "Third User"),
        ("identity", .str "third@example.com"), ("referrer_id", .str "u-0002"),
        ("status", .str "active")]),
      (.contact, Seed.row .contact [("id", .str "x-c0005"), ("uid", .str "u-0003"),
        ("type", .str "email"), ("info", .str "third@example.com")])]), by decide +kernel⟩

/-- The referrer logs in, and the contact of the person is to be confirmed. -/
def referral : List Event :=
  [⟨0, Seed.request {} "t1", .login "second" (.str "Second2!") .none .none⟩,
    ⟨0, Seed.request {} "t2", .confirmationGet "x-c0005"⟩]

/-- It is confirmed. -/
def acceptance : Event :=
  ⟨1, Seed.request {} "t3", .confirm "100|x-c0005:third@example.com:noncet2"⟩

/-- The referrer tries to take the person back. -/
def takeBack : Event :=
  ⟨1, Seed.request { authorization := some ("u-0002", "t1") } "q1", .put .person "u-0003"
    (Dict.ofList [("name", .str "Third User"), ("identity", .str "third@example.com"),
      ("referrer_id", .str "u-0002")])⟩

/-- The referrer, who could take the person back before the confirmation, no longer can. -/
theorem invited_freed :
    LostControl Seed.service "u-0003"
      ((machine Seed.service).run (Seed.world invited) (referral ++ acceptance :: [takeBack])) ∧
    ((machine Seed.service).out ((machine Seed.service).run (Seed.world invited) referral)
      takeBack).status = 200 ∧
    ((machine Seed.service).out ((machine Seed.service).run (Seed.world invited)
      (referral ++ [acceptance])) takeBack).status = 403 := by
  refine ⟨referrer_loses_control rfl rfl rfl ?_ ⟨?_, trivial⟩, by decide +kernel, by decide +kernel⟩
  · have hchecked : (Confirmation.check Seed.service
        (((machine Seed.service).run (Seed.world invited) referral).at acceptance)
        "100|x-c0005:third@example.com:noncet2").toOption.map (fun r => r.2.2.2 "uid") =
          some (.str "u-0003") := by decide +kernel
    cases hcheck : Confirmation.check Seed.service
        (((machine Seed.service).run (Seed.world invited) referral).at acceptance)
        "100|x-c0005:third@example.com:noncet2" with
    | error answer =>
        rw [hcheck] at hchecked
        cases hchecked
    | ok r =>
        obtain ⟨id, info, nonce, contact⟩ := r
        rw [hcheck] at hchecked
        exact ⟨_, false, id, info, nonce, contact, rfl, hcheck, Option.some.inj hchecked⟩
  · exact ⟨by decide +kernel, by decide +kernel⟩

end Apicrud
