import Apicrud.Seed
import Apicrud.Words

/-! # What a session may read

`get` and `find` evaluate the policies on each record.  On a table in the shape of `rbac.yaml` the evaluation
raises nothing (`foldlM_reads`), and an entry that applies, one for everyone or an open privacy is reason
enough to read a record (`readable_of`). -/

namespace Apicrud

open Relational

namespace AccessControl

variable {acc : Access} {m : Model} {r : Resolved} {pol : Policies} {db : Database}
  {rules : List Policy} {t : Target} {u : String}

/-! ### Reading a record -/

/-- Some entry lets everyone read. -/
def Opens (rules : List Policy) : Prop := ∃ p ∈ rules, p.principal = ".*" ∧ 'r' ∈ p.actions

theorem Entry_reads {res : String} {p : Policy} (hp : Entry res p) (hrole : p.principal ≠ ".*") :
    'r' ∈ p.actions := by
  cases hp with
  | everyone => exact absurd rfl hrole
  | role _ _ hr | own _ hr | word _ _ hr | suffixed _ hr | lists hr | ofList _ hr | ofEntry _ hr =>
      exact hr

/-- What a table in the shape of `rbac.yaml` collects for reading, the induction being on the
table. -/
theorem foldlM_reads (hacc : acc.Ordinary) (hu : acc.uid = some u) (hword : Word u)
    (howner : Word r.ownerUid.text) (hid : Word r.id.text)
    (hrules : ∀ p ∈ rules, Entry m.resource p) (st : List Char × List Char)
    (hst : st.1 = [] ∨ 'r' ∈ st.1) :
    ∃ st', rules.foldlM (consider acc m r) st = .ok st' ∧ (st'.1 = [] ∨ 'r' ∈ st'.1) ∧
      ('r' ∈ st.1 ∨ (∃ p ∈ rules, Applied acc m r p) → 'r' ∈ st'.1) ∧
      ((∀ p ∈ rules, p.principal = ".*" → 'r' ∈ p.actions) → ('r' ∈ st.2 ∨ Opens rules) →
        'r' ∈ st'.2) := by
  induction rules generalizing st with
  | nil => exact ⟨st, rfl, hst, by simp, by simp [Opens]⟩
  | cons p rules ih =>
      have hself : p ∈ p :: rules := List.mem_cons_self
      have hrest : ∀ q ∈ rules, Entry m.resource q := fun q hq =>
        hrules q (List.mem_cons_of_mem _ hq)
      by_cases hall : p.principal = ".*"
      · obtain ⟨st', hst', hne, hfound, hopen⟩ := ih hrest (st.1, p.actions) hst
        refine ⟨st', ?_, hne, ?_, ?_⟩
        · rw [List.foldlM_cons, consider, if_pos hall]
          exact hst'
        · rintro (h | ⟨q, hq, happlied⟩)
          · exact hfound (Or.inl h)
          · rcases List.mem_cons.mp hq with rfl | hq
            · exact absurd hall happlied.1
            · exact hfound (Or.inr ⟨q, hq, happlied⟩)
        · intro hevery _
          exact hopen (fun q hq => hevery q (List.mem_cons_of_mem _ hq))
            (Or.inl (hevery p hself hall))
      · obtain ⟨mid, hmid, hmid2, hmid1, happly⟩ :=
          consider_ok hall (fun role hrole => applies_ok hu hword howner hid (hrules p hself)
            (hacc.roles role hrole).1) st
        have hreads := Entry_reads (hrules p hself) hall
        have hmem : mid.1 = [] ∨ 'r' ∈ mid.1 := by
          rcases hmid1 with h | h
          · rwa [h]
          · exact Or.inr (h ▸ List.mem_append_right _ hreads)
        obtain ⟨st', hst', hne, hfound, hopen⟩ := ih hrest mid hmem
        refine ⟨st', ?_, hne, ?_, ?_⟩
        · rw [List.foldlM_cons, hmid]
          exact hst'
        · rintro (h | ⟨q, hq, happlied⟩)
          · refine hfound (Or.inl ?_)
            rcases hmid1 with h1 | h1
            · rwa [h1]
            · exact h1 ▸ List.mem_append_left _ h
          · rcases List.mem_cons.mp hq with rfl | hq
            · exact hfound (Or.inl (happly happlied ▸ List.mem_append_right _ hreads))
            · exact hfound (Or.inr ⟨q, hq, happlied⟩)
        · intro hevery hwhy
          refine hopen (fun q hq => hevery q (List.mem_cons_of_mem _ hq)) ?_
          rcases hwhy with h | ⟨q, hq, hqall, hqr⟩
          · exact Or.inl (hmid2 ▸ h)
          · rcases List.mem_cons.mp hq with rfl | hq
            · exact absurd hqall hall
            · exact Or.inr ⟨q, hq, hqall, hqr⟩

/-- Why a session may read a record. -/
inductive Reason (acc : Access) (m : Model) (r : Resolved) (rules : List Policy) : Prop
  | applied (p : Policy) (hp : p ∈ rules) (h : Applied acc m r p)
  | opens (h : Opens rules)
  | isPublic (hm : m.Has "privacy") (h : r.privacy = .str "public")

/-- On a table in the shape of `rbac.yaml`, a reason is enough. -/
theorem readable_of (hshape : pol.Shaped) (hacc : acc.Ordinary) (hu : acc.uid = some u)
    (hword : Word u) (hr : resolve pol db acc m t = .ok r) (howner : Word r.ownerUid.text)
    (hid : Word r.id.text) (hrules : rulesOf pol m = .ok rules) (hwhy : Reason acc m r rules) :
    withPermission pol db acc m 'r' t = .ok true := by
  obtain ⟨st, hst, hne, hfound, hopen⟩ := foldlM_reads hacc hu hword howner hid
    (hshape.entry m rules hrules) ([], if PrivacyOpen acc r then ['r'] else []) (Or.inl rfl)
  have hreads : 'r' ∈ (if granted r st.1 = [] then st.2 else granted r st.1) := by
    rcases hne with hnil | hmem
    · have hnone : granted r st.1 = [] := by
        rw [granted, hnil]
        split <;> rfl
      rw [if_pos hnone]
      rcases hwhy with ⟨p, hp, happlied⟩ | ⟨p, hp, hall, hpr⟩ | ⟨hm, hpublic⟩
      · rw [hnil] at hfound
        exact absurd (hfound (Or.inr ⟨p, hp, happlied⟩)) List.not_mem_nil
      · exact hopen (fun q hq hqall => hshape.agree m rules hrules p hp q hq hall hqall hpr)
          (Or.inr ⟨p, hp, hall, hpr⟩)
      · refine hopen (hshape.privacy m rules hrules hm) (Or.inl ?_)
        have hprivacy : PrivacyOpen acc r := Or.inl hpublic
        rw [if_pos hprivacy]
        exact List.mem_cons_self
    · have hkept : 'r' ∈ granted r st.1 := by
        unfold granted
        split
        · exact List.mem_filter.mpr ⟨hmem, by decide⟩
        · exact hmem
      rw [if_neg (List.ne_nil_of_mem hkept)]
      exact hkept
  rw [withPermission, rbacPermissions_eq hr hrules hst]
  exact congrArg _ (decide_eq_true hreads)

end AccessControl

end Apicrud
