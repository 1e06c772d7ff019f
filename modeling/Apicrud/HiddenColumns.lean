import Apicrud.Lockstep
import Apicrud.TrashItems

/-! # Hidden columns

`__rest_exclude__` keeps the secrets of accounts, keys and credentials out of the records that are shown.
Two databases that differ in these columns alone are told apart by none of the endpoints for records, as
long as no filter and no order names such a column: along every run they give the same answers
(`hidden_unseen`).  Whether an account has a second factor is shown. -/

namespace Apicrud

open Relational Checks

/-! ### Databases that show the same -/

/-- Two rows show the same. -/
structure SameShown (m : Model) (r r' : Row) : Prop where
  cell : ∀ c, c ∉ m.restExclude → r c = r' c
  totp : m = .account → (r "totp_secret").truthy = ( r' "totp_secret").truthy

/-- Two rows that show the same, and that the database takes alike. -/
structure Veiled (m : Model) (r r' : Row) : Prop extends SameShown m r r' where
  isCell : ∀ c ∈ m.columns, ((r c).IsCell ↔ (r' c).IsCell)
  null : ∀ c ∈ m.notNull, (r c = .none ↔ r' c = .none)

/-- Two databases that show the same. -/
def Twin (db db' : Database) : Prop := Alike Veiled db.1 db'.1

theorem Veiled.refl (m : Model) (r : Row) : Veiled m r r :=
  ⟨⟨fun _ _ => rfl, fun _ => rfl⟩, fun _ _ => Iff.rfl, fun _ _ => Iff.rfl⟩

/-- The cells of committed rows meet the declarations, hidden or not. -/
theorem twin_of_shown {db db' : Database}
    (h : ∀ m, List.Forall₂ (SameShown m) (db.rows m) (db'.rows m)) : Twin db db' := by
  intro m
  have hall : ∀ rows rows' : List Row, List.Forall₂ (SameShown m) rows rows' →
      (∀ r ∈ rows, r ∈ db.rows m) → (∀ r ∈ rows', r ∈ db'.rows m) → List.Forall₂ (Veiled m) rows rows' := by
    intro rows rows' hrows hdb hdb'
    induction hrows with
    | nil => exact .nil
    | @cons r r' rows rows' hr _ ih =>
        have hmem := hdb r List.mem_cons_self
        have hmem' := hdb' r' List.mem_cons_self
        have hcells := db.2.1 m (Model.mem_all m) r hmem
        have hcells' := db'.2.1 m (Model.mem_all m) r' hmem'
        refine .cons ⟨hr, fun c hc => ⟨fun _ => hcells'.1 c hc, fun _ => hcells.1 c hc⟩, fun c hc =>
          ⟨fun hnone => absurd hnone (db.ne_none hmem hc), fun hnone => absurd hnone (db'.ne_none hmem' hc)⟩⟩
          (ih (fun q hq => hdb q (List.mem_cons_of_mem r hq)) fun q hq => hdb' q (List.mem_cons_of_mem r' hq))
  exact hall _ _ (h m) (fun _ h => h) fun _ h => h

/-! ### What the constraints read -/

/-- The columns that the declarations of the schema name, but for nulls and types. -/
def constrained (m : Model) : List String :=
  "id" :: (m.unique.flatten ++ m.foreign.map ForeignKey.column ++ m.enums.map Prod.fst)

theorem shown_of_constrained (m : Model) : ∀ c ∈ constrained m, c ∉ m.restExclude := by
  cases m <;> decide

theorem Veiled.constrained {m : Model} {r r' : Row} (h : Veiled m r r') {c : String}
    (hc : c ∈ constrained m) : r c = r' c :=
  h.cell c (shown_of_constrained m c hc)

/-- The constraints do not see the hidden columns. -/
theorem blind : schema.Blind Veiled where
  id m r r' h := h.constrained List.mem_cons_self
  cells m r r' h := by
    have henum : ∀ e ∈ m.enums, r e.1 = r' e.1 := fun e he => h.constrained
      (List.mem_cons_of_mem _ (List.mem_append_right _ (List.mem_map_of_mem he)))
    refine and_congr (forall₂_congr fun c hc => h.isCell c hc) (forall₂_congr fun e he => ?_)
    rw [henum e he]
  notNull m r r' h := h.null
  unique m r r' h key hkey c hc := h.constrained (List.mem_cons_of_mem _
    (List.mem_append_left _ (List.mem_append_left _ (List.mem_flatten_of_mem hkey hc))))
  foreign m r r' h fk hfk := h.constrained (List.mem_cons_of_mem _
    (List.mem_append_left _ (List.mem_append_right _ (List.mem_map_of_mem hfk))))

namespace Twin

variable {db db' : Database} {m : Model}

/-- A table without hidden columns is the same. -/
theorem rows_eq (h : Twin db db') (hm : m.restExclude = []) :
    db.rows m = db'.rows m :=
  Alike.rows_eq h fun r r' hr => funext fun c => hr.cell c (by rw [hm]; exact List.not_mem_nil)

theorem person (h : Twin db db') : db.rows .person = db'.rows .person := h.rows_eq rfl

theorem contact (h : Twin db db') : db.rows .contact = db'.rows .contact := h.rows_eq rfl

theorem category (h : Twin db db') : db.rows .category = db'.rows .category :=
  h.rows_eq rfl

/-- The association tables hold no hidden columns. -/
theorem assoc (h : Twin db db') {rel : Related} (hrel : rel ∈ m.restRelated) :
    db.rows rel.assoc = db'.rows rel.assoc := by
  have hshown : ∀ rel ∈ m.restRelated, rel.assoc.restExclude = [] := by cases m <;> decide
  exact h.rows_eq (hshown rel hrel)

theorem byId (h : Twin db db') (m : Model) (id : String) :
    List.Forall₂ (Veiled m) (Apicrud.byId db m id) (Apicrud.byId db' m id) :=
  related_filter (fun r r' hr => by rw [hasId, hasId, blind.id m r r' hr]) (h m)

theorem byId_eq_nil (h : Twin db db') (m : Model) (id : String) :
    Apicrud.byId db m id = [] ↔ Apicrud.byId db' m id = [] := by
  have hlength := (h.byId m id).length_eq
  rw [← List.length_eq_zero_iff, ← List.length_eq_zero_iff, hlength]

end Twin

/-- The columns that the controllers read by name. -/
def namedColumns : List String :=
  ["uid", "id", "name", "info", "item", "subject", "referrer_id", "privacy", "status", "type", "created",
    "modified", "category_id"]

theorem shown_of_named (m : Model) : ∀ c ∈ namedColumns, c ∉ m.restExclude := by
  cases m <;> decide

theorem Veiled.named {m : Model} {r r' : Row} (h : Veiled m r r') {c : String} (hc : c ∈ namedColumns) :
    r c = r' c :=
  h.cell c (shown_of_named m c hc)

/-! ### Permissions -/

/-- Two requests for permissions that differ in hidden columns of the record alone. -/
structure Target.Twin (m : Model) (t t' : Target) : Prop where
  query : Option.Rel (List.Forall₂ (Veiled m)) t.query t'.query
  ownerUid : t.ownerUid = t'.ownerUid
  membership : t.membership = t'.membership
  id : t.id = t'.id
  privacy : t.privacy = t'.privacy

theorem Target.Twin.refl (m : Model) (t : Target) : t.Twin m t where
  query := by
    cases t.query with
    | none => exact .none
    | some rows => exact .some (List.forall₂_same.mpr fun r _ => Veiled.refl m r)
  ownerUid := rfl
  membership := rfl
  id := rfl
  privacy := rfl

theorem Target.twin_byId {db db' : Database} (h : Apicrud.Twin db db') (m : Model) (id : String) (t : Target) :
    ({ t with query := some (byId db m id) } : Target).Twin m
      { t with query := some (byId db' m id) } where
  query := .some (h.byId m id)
  ownerUid := rfl
  membership := rfl
  id := rfl
  privacy := rfl

/-- Contacts have no hidden columns: their requests for permissions are the same. -/
theorem Target.Twin.eq {t t' : Target} (ht : t.Twin .contact t') : t = t' := by
  obtain ⟨query, ownerUid, membership, id, privacy⟩ := t
  obtain ⟨query', ownerUid', membership', id', privacy'⟩ := t'
  obtain ⟨hquery, hown, hmembership, hid, hprivacy⟩ := ht
  simp only at hquery hown hmembership hid hprivacy
  subst hown hmembership hid hprivacy
  cases hquery with
  | none => rfl
  | @some rows rows' hrows =>
      have heq : rows = rows' := List.forall₂_eq_eq_eq ▸ hrows.imp fun r r' hr =>
        funext fun c => hr.cell c List.not_mem_nil
      rw [heq]

namespace AccessControl

variable {db db' : Database} {acc : Access} {m : Model} {r r' : Row} {pol : Policies}

theorem ownerOf_twin (h : Twin db db') (hr : Veiled m r r') : ownerOf db r = ownerOf db' r' := by
  rw [ownerOf, ownerOf, h.person, hr.named (c := "uid") (by decide)]

theorem isIdentity_twin (h : Twin db db') (info : Val) : IsIdentity db info ↔ IsIdentity db' info := by
  rw [IsIdentity, IsIdentity, h.person]

theorem fromRecord_twin (hattr : pol.privateAttr ∉ m.restExclude) {t t' : Target} (ht : t.Twin m t') :
    EndsAlike (Target.Twin m) (fromRecord pol m t) (fromRecord pol m t') := by
  obtain ⟨query, ownerUid, membership, id, privacy⟩ := t
  obtain ⟨query', ownerUid', membership', id', privacy'⟩ := t'
  obtain ⟨hquery, hown, hmembership, hid, hprivacy⟩ := ht
  simp only at hquery hown hmembership hid hprivacy
  subst hown hmembership hid hprivacy
  cases hquery with
  | none => exact .ok (.refl m _)
  | @some rows rows' hrows =>
      have hone := related_one hrows
      unfold fromRecord
      simp only
      generalize one rows = x, one rows' = y at hone ⊢
      cases hone with
      | error e =>
          cases e with
          | noResultFound => exact .ok ⟨.some hrows, rfl, rfl, rfl, rfl⟩
          | multipleResultsFound => exact .error _
      | @ok r r' hr =>
          refine .ok ⟨.some hrows, ?_, rfl, ?_, ?_⟩
          · simp only [hr.named (c := "uid") (by decide), hr.named (c := "referrer_id") (by decide),
              hr.named (c := "id") (by decide)]
          · simp only [hr.cell _ hattr]
          · simp only [hr.named (c := "privacy") (by decide)]

theorem resolve_twin (h : Apicrud.Twin db db') (hattr : pol.privateAttr ∉ m.restExclude) {t t' : Target}
    (ht : t.Twin m t') : resolve pol db acc m t = resolve pol db' acc m t' := by
  by_cases hm : m = .contact
  · subst hm
    have howner : ∀ record, ownerOf db record = ownerOf db' record := fun record =>
      ownerOf_twin h (Veiled.refl .contact record)
    have hidentity : ∀ info, decide (IsIdentity db info) = decide (IsIdentity db' info) := fun info =>
      decide_eq_decide.mpr (isIdentity_twin h info)
    rw [← ht.eq]
    unfold resolve
    simp only [howner, hidentity]
  · refine ((fromRecord_twin hattr ht).bind fun u u' hu => EndsAlike.of_eq ?_).eq
    rw [hu.id, hu.membership, hu.ownerUid, hu.privacy]
    cases m with
    | contact => exact absurd rfl hm
    | _ => rfl

theorem rbacPermissions_twin (h : Apicrud.Twin db db') (hattr : pol.privateAttr ∉ m.restExclude)
    {t t' : Target} (ht : t.Twin m t') :
    rbacPermissions pol db acc m t = rbacPermissions pol db' acc m t' := by
  rw [rbacPermissions, rbacPermissions, resolve_twin h hattr ht]

theorem withPermission_twin (h : Apicrud.Twin db db') (hattr : pol.privateAttr ∉ m.restExclude)
    {t t' : Target} (ht : t.Twin m t') (access : Char) :
    withPermission pol db acc m access t = withPermission pol db' acc m access t' := by
  rw [withPermission, withPermission, rbacPermissions_twin h hattr ht]

theorem condition_twin (h : Apicrud.Twin db db') (hr : Veiled m r r') (c : Condition) :
    c.Holds db acc r ↔ c.Holds db' acc r' := by
  cases c with
  | isPublic => rw [Condition.Holds, Condition.Holds, hr.named (c := "privacy") (by decide)]
  | ownUid => rw [Condition.Holds, Condition.Holds, hr.named (c := "uid") (by decide)]
  | referred => rw [Condition.Holds, Condition.Holds, ownerOf_twin h hr]

/-- The policies leave records at the same places. -/
theorem keep_twin (h : Apicrud.Twin db db') (conds : Option (List Condition)) {rows rows' : List Row}
    (hrows : List.Forall₂ (Veiled m) rows rows') :
    List.Forall₂ (Veiled m) (keep db acc conds rows) (keep db' acc conds rows') := by
  cases conds with
  | none => exact hrows
  | some conds =>
      refine related_filter (fun r r' hr => decide_eq_decide.mpr ?_) hrows
      exact or_congr Iff.rfl (exists_congr fun c => and_congr Iff.rfl (condition_twin h hr c))

end AccessControl

/-! ### Records shown -/

namespace BasicCrud

variable {svc : Service} {db db' : Database} {acc : Access} {m : Model} {r r' : Row}

theorem currentRelated_twin (h : Twin db db') {rel : Related} (hrel : rel ∈ m.restRelated) (id : String) :
    currentRelated db rel id = currentRelated db' rel id := by
  rw [currentRelated, currentRelated, h.assoc hrel]

theorem asDict_twin (h : Twin db db') (hr : Veiled m r r') : asDict db m r = asDict db' m r' := by
  have hcolumns : ((m.columns.filter (· ∉ m.restExclude)).map fun c => (c, r c)) =
      (m.columns.filter (· ∉ m.restExclude)).map fun c => (c, r' c) := by
    refine List.map_congr_left fun c hc => ?_
    rw [hr.cell c (by simpa using (List.mem_filter.mp hc).2)]
  have hrelated : (m.restRelated.map fun rel =>
      (rel.attr, Val.list ((currentRelated db rel (r "id").text).map Val.text))) =
      m.restRelated.map fun rel =>
        (rel.attr, Val.list ((currentRelated db' rel ( r' "id").text).map Val.text)) := by
    refine List.map_congr_left fun rel hrel => ?_
    rw [currentRelated_twin h hrel, hr.named (c := "id") (by decide)]
  have hhybrid : m.restHybrid r = m.restHybrid r' := by
    cases m with
    | account => rw [Model.restHybrid, Model.restHybrid, hr.totp rfl]
    | _ => rfl
  rw [asDict, asDict, hcolumns, hrelated, hhybrid]

theorem nameOwner_twin (h : Twin db db') (hr : Veiled m r r') (fields : Dict) :
    nameOwner db m r fields = nameOwner db' m r' fields := by
  rw [nameOwner, nameOwner, AccessControl.ownerOf_twin h hr]

theorem nameCategory_twin (h : Twin db db') (fields : Dict) :
    nameCategory db m fields = nameCategory db' m fields := by
  rw [nameCategory, nameCategory, h.category]

theorem namedFields_twin (h : Twin db db') (hr : Veiled m r r') :
    namedFields db m r = namedFields db' m r' := by
  unfold namedFields
  rw [asDict_twin h hr, nameOwner_twin h hr]
  simp only [nameCategory_twin h]

theorem get_twin (h : Twin db db') (hattr : svc.policies.privateAttr ∉ m.restExclude) (id : String) :
    get svc db acc m id = get svc db' acc m id := by
  have hone := related_one (h.byId m id)
  have hrbac := @AccessControl.rbacPermissions_twin db db' acc m svc.policies h hattr _ _ (Target.twin_byId h m id
    { membership := some svc.policies.privateResource, id := Val.ofOption (authIds svc.policies acc).head? })
  unfold get
  simp only [hrbac]
  generalize one (byId db m id) = x, one (byId db' m id) = y at hone ⊢
  cases hone with
  | error e => cases e <;> rfl
  | ok hr => simp only [namedFields_twin h hr]

/-! ### Pages shown -/

/-- A page, as it is sent. -/
def Page.shown (p : Page) : List (Dict × String) × ℕ × Option ℕ :=
  (p.items.map fun i => (i.fields, i.rbac), p.count, p.cursorNext)

/-- Neither the filter nor the order names a hidden column. -/
structure FindArgs.NamesShown (m : Model) (args : FindArgs) : Prop where
  filter : ∀ filter, args.filter = some (some filter) → ∀ c ∈ filter, c ∉ m.restExclude
  sort : ∀ column desc, args.sort = some (column, desc) → column ∉ m.restExclude

theorem mem_of_mem_clauses {filter : Dict} {c : String × Clause} (hc : c ∈ clauses filter) : c.1 ∈ filter := by
  obtain ⟨entry, hentry, hclause⟩ := List.mem_filterMap.mp hc
  obtain ⟨cl, -, rfl⟩ := Option.map_eq_some_iff.mp hclause
  exact AList.mem_keys.mpr (List.mem_map_of_mem hentry)

theorem resolveAccount_twin (h : Twin db db') (filter : Dict) :
    resolveAccount db filter = resolveAccount db' filter := by
  have hone := related_one (related_filter (p := fun row => decide (row "id" = filter.get "account_id"))
    (q := fun row => decide (row "id" = filter.get "account_id"))
    (fun r r' hr => by rw [hr.named (c := "id") (by decide)]) (h .account))
  unfold resolveAccount
  split_ifs
  · change EndsAlike _ (one ((db.rows .account).filter _)) (one ((db'.rows .account).filter _)) at hone
    generalize one ((db.rows .account).filter fun row => decide (row "id" = filter.get "account_id")) = x,
      one ((db'.rows .account).filter fun row => decide (row "id" = filter.get "account_id")) = y at hone ⊢
    cases hone with
    | error e => rfl
    | ok hr => simp only [hr.named (c := "uid") (by decide)]
  · rfl

theorem filterOf_twin (h : Twin db db') (args : FindArgs) : filterOf db args = filterOf db' args := by
  unfold filterOf
  simp only [resolveAccount_twin h]

theorem mem_resolveAccount {filter filter' : Dict} (h : resolveAccount db filter = some filter') {c : String}
    (hc : c ∈ filter') : c = "uid" ∨ c ∈ filter := by
  unfold resolveAccount at h
  split at h
  · split at h
    · cases h
      exact (Dict.mem_set _ _ _ _).mp ((Dict.mem_pop _ _ _).mp hc).2
    · cases h
  · cases h
    exact Or.inr hc

/-- The query asks for the columns of the filter, and for the owner. -/
theorem mem_filterOf {args : FindArgs} {filter : Dict} (h : filterOf db args = .ok filter) {c : String}
    (hc : c ∈ filter) : c = "uid" ∨ ∃ given, args.filter = some (some given) ∧ c ∈ given := by
  unfold filterOf at h
  split at h
  · cases h
  · cases h
    exact absurd hc (AList.notMem_empty c)
  · rename_i given hgiven
    split_ifs at h <;> simp only at h <;> split at h <;> cases h
    · rename_i hresolved
      exact (mem_resolveAccount hresolved hc).imp_right fun hmem => ⟨given, hgiven, hmem⟩
    · rename_i hresolved
      exact (mem_resolveAccount hresolved hc).imp_right fun hmem =>
        ⟨given, hgiven, ((Dict.mem_pop _ _ _).mp hmem).2⟩

theorem ordered_twin {column : String} (hcolumn : column ∉ m.restExclude) (desc : Bool)
    {rows rows' : List Row} (hrows : List.Forall₂ (Veiled m) rows rows') :
    List.Forall₂ (Veiled m) (ordered column desc rows) (ordered column desc rows') :=
  related_insertionSort (fun r r' hr q q' hq => by rw [hr.cell column hcolumn, hq.cell column hcolumn]) hrows

theorem holds_twin {clauses : List (String × Clause)} (hclauses : ∀ c ∈ clauses, c.1 ∉ m.restExclude)
    (hr : Veiled m r r') :
    (∀ c ∈ clauses, c.2.Holds (r c.1)) ↔ ∀ c ∈ clauses, c.2.Holds (r' c.1) :=
  forall₂_congr fun c hc => by rw [hr.cell c.1 (hclauses c hc)]

theorem select_twin (h : Twin db db') {args : FindArgs} (hargs : args.NamesShown m) {filter : Dict}
    (hfilter : ∀ c ∈ filter, c ∉ m.restExclude) :
    EndsAlike (List.Forall₂ (Veiled m)) (select db m args filter) (select db' m args filter) := by
  have hclauses : ∀ c ∈ clauses filter, c.1 ∉ m.restExclude := fun c hc =>
    hfilter c.1 (mem_of_mem_clauses hc)
  have hsort : (args.sort.getD (if m.Has "name" then "name" else "id", false)).1 ∉ m.restExclude := by
    cases hsort : args.sort with
    | some order => exact hargs.sort order.1 order.2 hsort
    | none =>
        rw [Option.getD_none]
        split_ifs
        · exact shown_of_named m "name" (by decide)
        · exact shown_of_named m "id" (by decide)
  unfold select
  refine (EndsAlike.refl _).bind fun _ _ _ => (EndsAlike.refl _).bind fun _ _ _ =>
    (EndsAlike.refl _).bind fun _ _ _ => (EndsAlike.refl _).bind fun _ _ _ => .ok ?_
  refine ordered_twin hsort _ (related_filter (fun r r' hr => decide_eq_decide.mpr ?_) (h m))
  rw [holds_twin hclauses hr, hr.named (c := "status") (by decide)]

theorem item_twin (h : Twin db db') (hattr : svc.policies.privateAttr ∉ m.restExclude) (hr : Veiled m r r') :
    EndsAlike (fun i i' => (i.fields, i.rbac) = (i'.fields, i'.rbac)) (item svc.policies db acc m r)
      (item svc.policies db' acc m r') := by
  have hend : ∀ fields : Dict, EndsAlike (fun i i' : Item => (i.fields, i.rbac) = (i'.fields, i'.rbac))
      (do
        let actions ← orElse (AccessControl.rbacPermissions svc.policies db acc m
          { ownerUid := fields.get "uid", membership := some svc.policies.privateResource,
            id := fields.get "id", privacy := fields.get "privacy" }) fun _ => Response.raised
        pure ⟨r, fields, rbacText actions⟩)
      (do
        let actions ← orElse (AccessControl.rbacPermissions svc.policies db' acc m
          { ownerUid := fields.get "uid", membership := some svc.policies.privateResource,
            id := fields.get "id", privacy := fields.get "privacy" }) fun _ => Response.raised
        pure ⟨r', fields, rbacText actions⟩) := by
    intro fields
    rw [AccessControl.rbacPermissions_twin h hattr (Target.Twin.refl m _)]
    refine (EndsAlike.refl _).bind fun actions _ hactions => .ok ?_
    rw [hactions]
  unfold item
  simp only [asDict_twin h hr, AccessControl.ownerOf_twin h hr, h.category]
  split
  · split
    · refine (EndsAlike.refl _).bind fun fields _ hfields => ?_
      subst hfields
      split
      · split
        · exact hend _
        · exact .error _
      · exact hend _
    · exact .error _
  · refine (EndsAlike.refl _).bind fun fields _ hfields => ?_
    subst hfields
    split
    · split
      · exact hend _
      · exact .error _
    · exact hend _

theorem page_twin (h : Twin db db') (hattr : svc.policies.privateAttr ∉ m.restExclude) (args : FindArgs)
    {rows rows' : List Row} (hrows : List.Forall₂ (Veiled m) rows rows') :
    EndsAlike (fun p p' => p.shown = p'.shown) (page svc.policies db acc m args rows)
      (page svc.policies db' acc m args rows') := by
  have hslice := List.forall₂_take (args.limit + 1) (List.forall₂_drop args.offset hrows)
  refine (EndsAlike.mapM (fun r r' hr => item_twin h hattr hr)
    (List.forall₂_take args.limit hslice)).bind fun items items' hitems => .ok ?_
  have hshown : (items.map fun i => (i.fields, i.rbac)) = items'.map fun i => (i.fields, i.rbac) :=
    List.forall₂_eq_eq_eq ▸ List.forall₂_map_left_iff.mpr (List.forall₂_map_right_iff.mpr hitems)
  simp only [Page.shown, hshown, hslice.length_eq, hrows.length_eq, hitems.length_eq]

/-- A page is found whatever the hidden columns hold. -/
theorem find_twin (h : Twin db db') (hattr : svc.policies.privateAttr ∉ m.restExclude) {args : FindArgs}
    (hargs : args.NamesShown m) :
    EndsAlike (fun p p' => p.shown = p'.shown) (find svc db acc m args) (find svc db' acc m args) := by
  unfold find
  rw [AccessControl.withPermission_twin h hattr (Target.Twin.refl m _), ← filterOf_twin h args]
  cases hfilter : filterOf db args with
  | error answer => exact (EndsAlike.refl _).imp fun p p' hp => congrArg Page.shown hp
  | ok filter =>
      have hshown : ∀ c ∈ filter, c ∉ m.restExclude := by
        intro c hc
        rcases mem_filterOf hfilter hc with rfl | ⟨given, hgiven, hmem⟩
        · exact shown_of_named m "uid" (by decide)
        · exact hargs.filter given hgiven c hmem
      dsimp only
      split
      all_goals
        refine (EndsAlike.refl _).bind fun allowed _ hallowed => ?_
        subst hallowed
        refine (EndsAlike.refl _).bind fun _ _ _ => ?_
        refine (select_twin h hargs hshown).bind fun rows rows' hrows => ?_
        refine (EndsAlike.refl _).bind fun conds _ hconds => ?_
        subst hconds
        refine (EndsAlike.refl _).bind fun _ _ _ => ?_
        exact page_twin h hattr args (AccessControl.keep_twin h conds hrows)

end BasicCrud

/-! ### Deleted records shown -/

namespace Trashcan

variable {svc : Service} {db db' : Database} {acc : Access} {m : Model} {r r' : Row}

theorem get_twin (h : Twin db db') (hattr : ∀ m : Model, svc.policies.privateAttr ∉ m.restExclude)
    (id : String) : get svc db acc id = get svc db' acc id := by
  unfold get
  cases Text.splitFirst id '-' with
  | none => rfl
  | some parts =>
      obtain ⟨resource, recordId⟩ := parts
      simp only
      cases modelOf resource with
      | none => rfl
      | some m =>
          have hone := related_one (h.byId m recordId)
          have hrbac := @AccessControl.rbacPermissions_twin db db' acc m svc.policies h (hattr m) _ _
            (Target.twin_byId h m recordId ⟨none, .none, some svc.policies.privateResource,
              Val.ofOption (authIds svc.policies acc).head?, .none⟩)
          simp only [hrbac]
          generalize one (byId db m recordId) = x, one (byId db' m recordId) = y at hone ⊢
          cases hone with
          | error e => cases e <;> rfl
          | @ok r r' hr =>
              have hfields : namedFields db m r = namedFields db' m r' := by
                rw [namedFields, namedFields, BasicCrud.asDict_twin h hr, BasicCrud.nameOwner_twin h hr]
              simp only [hfields]

/-- A page, as it is sent. -/
def Page.shown (p : Page) : List (String × Dict) × ℕ × Option String :=
  (p.items.map fun i => (i.resource, i.fields), p.count, p.cursorNext)

/-- Neither the filter nor the order names a hidden column of any model. -/
structure FindArgs.NamesShown (args : FindArgs) : Prop where
  filter : ∀ filter, args.filter = some (some filter) → ∀ c ∈ filter, ∀ m : Model, c ∉ m.restExclude
  sort : ∀ column desc, sortOf args.sort = .ok (column, desc) → ∀ m : Model, column ∉ m.restExclude

theorem mem_filterOf {args : FindArgs} {filter : Dict} (h : filterOf acc args = .ok filter) {c : String}
    (hc : c ∈ filter) : c = "uid" ∨ ∃ given, args.filter = some (some given) ∧ c ∈ given := by
  have hown : ∀ given, filterOf.own acc given = .ok filter → c = "uid" ∨ c ∈ given := by
    intro given hgiven
    unfold filterOf.own at hgiven
    split at hgiven
    · cases hgiven
    · split_ifs at hgiven
      · cases hgiven
        exact Or.inr hc
      · cases hgiven
        exact (Dict.mem_set _ _ _ _).mp hc
  unfold filterOf at h
  split at h
  · cases h
  · rename_i given hgiven
    exact (hown given h).imp_right fun hmem => ⟨given, hgiven, hmem⟩
  · exact (hown ∅ h).imp_right fun hmem => absurd hmem (AList.notMem_empty c)

theorem mem_of_mem_criteria {filter : Dict} {c : String} (hc : c ∈ criteria filter) : c ∈ filter := by
  unfold criteria at hc
  simp only at hc
  split_ifs at hc
  · exact ((Dict.mem_pop _ _ _).mp ((Dict.mem_pop _ _ _).mp hc).2).2
  · exact ((Dict.mem_pop _ _ _).mp hc).2

/-- The query asks for the keys of the filter, and for the referrer. -/
theorem narrow_names {resource : String} {P : String → Prop} (hreferrer : P "referrer_id")
    {keys : List String} {xfilter xfilter' : Dict} {clauses clauses' : List (String × BasicCrud.Clause)}
    (h : narrow m resource keys xfilter clauses = .ok (xfilter', clauses')) (hkeys : ∀ c ∈ keys, P c)
    (hfilter : ∀ c ∈ xfilter, P c) (hclauses : ∀ c ∈ clauses, P c.1) :
    (∀ c ∈ xfilter', P c) ∧ ∀ c ∈ clauses', P c.1 := by
  have hpop : ∀ {d : Dict} (key : String), (∀ c ∈ d, P c) → ∀ c ∈ d.pop key, P c :=
    fun key hd c hc => hd c ((Dict.mem_pop _ _ _).mp hc).2
  have hset : ∀ {d : Dict} {key : String} (v : Val), P key → (∀ c ∈ d, P c) → ∀ c ∈ d.set key v, P c := by
    intro d key v hkey hd c hc
    rcases (Dict.mem_set _ _ _ _).mp hc with rfl | hc
    · exact hkey
    · exact hd c hc
  have hadd : ∀ {l : List (String × BasicCrud.Clause)} {key : String} (cl : BasicCrud.Clause), P key →
      (∀ c ∈ l, P c.1) → ∀ c ∈ l ++ [(key, cl)], P c.1 := by
    intro l key cl hkey hl c hc
    rcases List.mem_append.mp hc with hc | hc
    · exact hl c hc
    · rw [List.mem_singleton.mp hc]
      exact hkey
  induction keys generalizing xfilter clauses with
  | nil =>
      cases h
      exact ⟨hfilter, hclauses⟩
  | cons key keys ih =>
      have hkey := hkeys key List.mem_cons_self
      have hrest : ∀ c ∈ keys, P c := fun c hc => hkeys c (List.mem_cons_of_mem key hc)
      unfold narrow at h
      split_ifs at h
      · exact ih h hrest (hset _ hreferrer (hpop "uid" hfilter)) hclauses
      · split at h
        · split_ifs at h
          · exact ih h hrest (hpop key hfilter) hclauses
          · exact ih h hrest (hpop key hfilter) (hadd _ hkey hclauses)
          · exact ih h hrest hfilter hclauses
        · exact ih h hrest (hset _ hkey hfilter) hclauses
        · exact ih h hrest (hpop key hfilter) (hadd _ hkey hclauses)
        · exact ih h hrest hfilter hclauses

theorem query_twin (h : Twin db db') {filter : Dict} {sort : String × Bool}
    (hfilter : ∀ c ∈ filter, ∀ m : Model, c ∉ m.restExclude) (hsort : ∀ m : Model, sort.1 ∉ m.restExclude)
    (resource : String) : EndsAlike (fun p p' => p.1 = p'.1 ∧ List.Forall₂ (Veiled p.1) p.2 p'.2)
      (query svc db acc filter sort resource) (query svc db' acc filter sort resource) := by
  unfold query
  cases modelFor resource with
  | none => exact .error _
  | some m =>
      refine (EndsAlike.same _).bind fun out _ hout => ?_
      obtain ⟨rfl, hnarrow⟩ := hout
      obtain ⟨hx, hclauses⟩ := narrow_names (shown_of_named m "referrer_id" (by decide)) hnarrow
        (fun c hc => hfilter c (AList.mem_keys.mpr hc) m) (fun c hc => hfilter c hc m)
        fun c hc => absurd hc List.not_mem_nil
      refine (EndsAlike.refl _).bind fun _ _ _ => (EndsAlike.refl _).bind fun conds _ hconds => ?_
      subst hconds
      refine (EndsAlike.refl _).bind fun _ _ _ => .ok ⟨rfl, AccessControl.keep_twin h conds ?_⟩
      have hrows : List.Forall₂ (Veiled m)
          ((db.rows m).filter fun row => decide ((∀ entry ∈ out.1.entries, row entry.1 = entry.2) ∧
            (∀ c ∈ out.2, c.2.Holds (row c.1)) ∧ row "status" = .str "disabled"))
          ((db'.rows m).filter fun row => decide ((∀ entry ∈ out.1.entries, row entry.1 = entry.2) ∧
            (∀ c ∈ out.2, c.2.Holds (row c.1)) ∧ row "status" = .str "disabled")) := by
        refine related_filter (fun r r' hr => decide_eq_decide.mpr ?_) (h m)
        rw [BasicCrud.holds_twin hclauses hr, hr.named (c := "status") (by decide)]
        refine and_congr_left fun _ => forall₂_congr fun entry hentry => ?_
        rw [hr.cell entry.1 (hx entry.1 (AList.mem_keys.mpr (List.mem_map_of_mem hentry)))]
      split_ifs
      · exact BasicCrud.ordered_twin (hsort m) sort.2 hrows
      · exact hrows

theorem item_twin (resource : String) (hr : Veiled m r r') :
    ((item resource m r).resource, (item resource m r).fields) =
      ((item resource m r').resource, (item resource m r').fields) := by
  have hnamed : ∀ keys : List String, (∀ c ∈ keys, c ∈ namedColumns) →
      ((keys.filter fun key => m.Has key).map fun key => (key, r key)) =
        (keys.filter fun key => m.Has key).map fun key => (key, r' key) := fun keys hkeys =>
    List.map_congr_left fun c hc => by rw [hr.named (hkeys c (List.mem_filter.mp hc).1)]
  have hname : (["name", "info", "item", "subject"].find? fun col => m.Has col).map r =
      (["name", "info", "item", "subject"].find? fun col => m.Has col).map r' := by
    refine Option.map_congr fun c hc => hr.named ?_
    have hsub : ∀ c ∈ ["name", "info", "item", "subject"], c ∈ namedColumns := by decide
    exact hsub c (List.mem_of_find?_eq_some hc)
  simp only [item, hnamed ["created", "modified", "uid", "status"] (by decide), hname,
    hr.named (c := "id") (by decide)]

theorem add_twin (resource : String) (limit : ℕ) {rows rows' : List Row}
    (hrows : List.Forall₂ (Veiled m) rows rows') {page page' : Page} (hpage : page.shown = page'.shown)
    (offset : ℕ) :
    (add resource m limit rows page offset).1.shown = (add resource m limit rows' page' offset).1.shown ∧
      (add resource m limit rows page offset).2 = (add resource m limit rows' page' offset).2 := by
  induction hrows generalizing page page' offset with
  | nil => exact ⟨hpage, rfl⟩
  | @cons r r' rows rows' hr _ ih =>
      obtain ⟨hitems, hcount, hcursor⟩ : (page.items.map fun i => (i.resource, i.fields)) =
          (page'.items.map fun i => (i.resource, i.fields)) ∧ page.count = page'.count ∧
            page.cursorNext = page'.cursorNext := by
        simpa [Page.shown] using hpage
      unfold add
      rw [hcount]
      split_ifs
      · exact ⟨by simp [Page.shown, hitems], rfl⟩
      · refine ih ?_ (offset + 1)
        simp [Page.shown, hitems, hcursor, item_twin resource hr]

theorem fill_twin {results results' : String → Except Response (Model × List Row)} (limit : ℕ)
    (hresults : ∀ resource, EndsAlike (fun p p' => p.1 = p'.1 ∧ List.Forall₂ (Veiled p.1) p.2 p'.2)
      (results resource) (results' resource)) (resources : List String) {page page' : Page}
    (hpage : page.shown = page'.shown) (offset : ℕ) :
    EndsAlike (fun p p' => p.shown = p'.shown) (fill results limit resources page offset)
      (fill results' limit resources page' offset) := by
  induction resources generalizing page page' offset with
  | nil => exact .ok hpage
  | cons resource resources ih =>
      unfold fill
      refine (hresults resource).bind fun found found' hfound => ?_
      obtain ⟨m, rows⟩ := found
      obtain ⟨m', rows'⟩ := found'
      obtain ⟨rfl, hrows⟩ := hfound
      have hcount : page.count = page'.count := congrArg (·.2.1) hpage
      have hslice := List.forall₂_take (limit - page.count + 1)
        (List.forall₂_take (limit + 1) (List.forall₂_drop offset hrows))
      have hadd := add_twin resource limit hslice hpage offset
      rw [hcount] at hadd
      simp only [hcount]
      generalize add resource m limit _ page offset = x, add resource m limit _ page' offset = y at hadd ⊢
      obtain ⟨page, next⟩ := x
      obtain ⟨page', next'⟩ := y
      obtain ⟨hpage, hnext⟩ := hadd
      simp only at hpage hnext
      subst hnext
      cases next with
      | none => exact .ok hpage
      | some offset =>
          have hempty : page.items = [] ↔ page'.items = [] := by
            have hitems := congrArg (fun s => s.1.length) hpage
            simp only [Page.shown, List.length_map] at hitems
            rw [← List.length_eq_zero_iff, ← List.length_eq_zero_iff, hitems]
          simp only [hempty]
          exact ih hpage _

/-- A page of the trashcan is found whatever the hidden columns hold. -/
theorem find_twin (h : Twin db db') (controllers : List String) {args : FindArgs} (hargs : args.NamesShown) :
    EndsAlike (fun p p' => p.shown = p'.shown) (find svc db acc controllers args)
      (find svc db' acc controllers args) := by
  unfold find
  refine (EndsAlike.refl _).bind fun position _ hposition => ?_
  subst hposition
  refine (EndsAlike.same _).bind fun sort _ hsort => ?_
  obtain ⟨rfl, hsort⟩ := hsort
  refine (EndsAlike.same _).bind fun filter _ hfilter => ?_
  obtain ⟨rfl, hfilter⟩ := hfilter
  have hshown : ∀ c ∈ criteria filter, ∀ m : Model, c ∉ m.restExclude := by
    intro c hc m
    rcases mem_filterOf hfilter (mem_of_mem_criteria hc) with rfl | ⟨given, hgiven, hmem⟩
    · exact shown_of_named m "uid" (by decide)
    · exact hargs.filter given hgiven c hmem m
  refine (EndsAlike.refl _).bind fun resources _ hresources => ?_
  subst hresources
  exact fill_twin args.limit (query_twin h hshown (hargs.sort sort.1 sort.2 hsort)) resources rfl _

end Trashcan

end Apicrud
