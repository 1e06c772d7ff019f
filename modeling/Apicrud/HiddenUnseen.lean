import Apicrud.Creates
import Apicrud.HiddenColumns

/-! # What is never shown is never told

The writes keep two databases the same but for the hidden columns, and answer the same: no check and no
constraint reads what is hidden.  Together with the records and pages that `HiddenColumns` compares, the
endpoints for records tell nothing of it along any run (`hidden_unseen`). -/

namespace Apicrud

open Relational Checks

/-- Two results that differ in hidden columns of the database alone. -/
def PairTwin {α : Type} (p q : Database × α) : Prop := Twin p.1 q.1 ∧ p.2 = q.2

/-- The result of a write: committed in both databases, or refused in both. -/
theorem store_twin {db db' : Db Model} (h : Alike Veiled db db') :
    EndsAlike Twin (schema.store db) (schema.store db') :=
  blind.store h

theorem hasId_twin {m : Model} (id : String) (r r' : Row) (hr : Veiled m r r') : hasId id r = hasId id r' := by
  rw [hasId, hasId, hr.named (c := "id") (by decide)]

/-- A row that is written alike stays alike. -/
theorem Veiled.change {m : Model} {r r' q q' : Row} (h : Veiled m r r')
    (hq : ∀ c, (q c = r c ∧ q' c = r' c) ∨ q c = q' c) : Veiled m q q' where
  cell c hc := by
    rcases hq c with ⟨hkept, hkept'⟩ | hnew
    · rw [hkept, hkept', h.cell c hc]
    · exact hnew
  totp hm := by
    rcases hq "totp_secret" with ⟨hkept, hkept'⟩ | hnew
    · rw [hkept, hkept', h.totp hm]
    · rw [hnew]
  isCell c hc := by
    rcases hq c with ⟨hkept, hkept'⟩ | hnew
    · rw [hkept, hkept', h.isCell c hc]
    · rw [hnew]
  null c hc := by
    rcases hq c with ⟨hkept, hkept'⟩ | hnew
    · rw [hkept, hkept', h.null c hc]
    · rw [hnew]

theorem Veiled.write {m : Model} {r r' : Row} (h : Veiled m r r') (d : Dict) :
    Veiled m (r.write d) (r'.write d) :=
  h.change fun c => by
    by_cases hc : c ∈ d
    · exact Or.inr (by rw [Row.write, Row.write, if_pos hc, if_pos hc])
    · exact Or.inl ⟨by rw [Row.write, if_neg hc], by rw [Row.write, if_neg hc]⟩

theorem Veiled.update {m : Model} {r r' : Row} (h : Veiled m r r') (c : String) (v : Val) :
    Veiled m (Function.update r c v) (Function.update r' c v) :=
  h.change fun c' => by
    by_cases hc : c' = c
    · subst hc
      exact Or.inr (by rw [Function.update_self, Function.update_self])
    · exact Or.inl ⟨Function.update_of_ne hc _ _, Function.update_of_ne hc _ _⟩

/-! ### Create -/

namespace BasicCrud

variable {svc : Service} {db db' : Database} {acc : Access} {m : Model} {amb : Ambient} {now : ℕ}

/-- A permission that does not look at a record. -/
theorem withPermission_same (h : Twin db db') (hattr : svc.policies.privateAttr ∉ m.restExclude)
    (access : Char) (t : Target) :
    AccessControl.withPermission svc.policies db acc m access t =
      AccessControl.withPermission svc.policies db' acc m access t :=
  AccessControl.withPermission_twin h hattr (Target.Twin.refl m t) access

theorem preCheck_twin (h : Twin db db') (body : Dict) :
    preCheck svc db acc m body = preCheck svc db' acc m body := by
  have hrank : ∀ body, withRank db body = withRank db' body := fun body => by
    rw [withRank, withRank, h.contact]
  unfold preCheck createContact
  simp only [hrank]

theorem checkQuota_twin (h : Twin db db') (uid : Val) :
    checkQuota svc db amb m uid = checkQuota svc db' amb m uid := by
  have hcount := (related_filter (p := fun r => decide (r "uid" = uid)) (q := fun r => decide (r "uid" = uid))
    (fun r r' hr => by rw [hr.named (c := "uid") (by decide)]) (h m)).length_eq
  unfold checkQuota
  rw [Store.rows, Store.rows, hcount]

theorem prepare_twin (h : Twin db db') (hattr : svc.policies.privateAttr ∉ m.restExclude) (body : Dict)
    (pre : String) (limits : List (String × Val)) :
    prepare svc db acc amb now m body pre limits = prepare svc db' acc amb now m body pre limits := by
  unfold prepare
  simp only [preCheck_twin h, withPermission_same h hattr, checkQuota_twin h]

theorem rewriteAssoc_twin (h : Twin db db') {rel : Related} (hrel : rel ∈ m.restRelated) (id : String)
    (ids : List String) : Alike Veiled (rewriteAssoc db rel id ids) (rewriteAssoc db' rel id ids) := by
  unfold rewriteAssoc
  rw [currentRelated_twin h hrel, h.assoc hrel]
  exact Alike.update h (List.forall₂_same.mpr fun r _ => Veiled.refl rel.assoc r)

theorem updateRelated_twin (h : Twin db db') {rel : Related} (hrel : rel ∈ m.restRelated) (id : String)
    (value : Val) : EndsAlike Twin (updateRelated db m id rel value) (updateRelated db' m id rel value) := by
  unfold updateRelated
  refine (EndsAlike.ensure (not_congr (h.byId_eq_nil m id)) _).bind fun _ _ _ => ?_
  cases value.items with
  | none => exact .error _
  | some ids =>
      refine (EndsAlike.ensure (forall₂_congr fun x _ => ?_) _).bind fun _ _ _ => ?_
      · rw [currentRelated_twin h hrel, Ne, Ne, h.byId_eq_nil]
      · have hstore := store_twin (rewriteAssoc_twin h hrel id ids)
        generalize schema.store (rewriteAssoc db rel id ids) = x,
          schema.store (rewriteAssoc db' rel id ids) = y at hstore ⊢
        cases hstore with
        | ok hdb => exact .ok hdb
        | error e => cases e <;> exact .error _

theorem createRelated_twin (id : String) (answer : Response) {rels : List (Related × Val)}
    (hrels : ∀ rel ∈ rels, rel.1 ∈ m.restRelated) (h : Twin db db') :
    PairTwin (createRelated m id answer db rels) (createRelated m id answer db' rels) := by
  induction rels generalizing db db' with
  | nil => exact ⟨h, rfl⟩
  | cons rel rels ih =>
      have hfirst := updateRelated_twin h (hrels rel List.mem_cons_self) id rel.2
      unfold createRelated
      generalize updateRelated db m id rel.1 rel.2 = x, updateRelated db' m id rel.1 rel.2 = y at hfirst ⊢
      cases hfirst with
      | ok hdb => exact ih (fun rel' hmem => hrels rel' (List.mem_cons_of_mem rel hmem)) hdb
      | error e => cases e <;> exact ⟨h, rfl⟩

theorem relatedOf_mem {body : Dict} : ∀ rel ∈ relatedOf m body, rel.1 ∈ m.restRelated := by
  intro rel hrel
  obtain ⟨rel', hmem, hsome⟩ := List.mem_filterMap.mp hrel
  split_ifs at hsome
  cases hsome
  exact hmem

theorem create_twin (h : Twin db db') (hattr : svc.policies.privateAttr ∉ m.restExclude) (body : Dict)
    (pre : String) (limits : List (String × Val)) :
    PairTwin (create svc db acc amb now m body pre limits) (create svc db' acc amb now m body pre limits) := by
  unfold create
  rw [prepare_twin h hattr]
  cases hprepared : prepare svc db' acc amb now m body pre limits with
  | error answer => exact ⟨h, rfl⟩
  | ok p =>
      have hstore := store_twin (Alike.insert h (Veiled.refl m (newRow m p.body)))
      simp only
      generalize schema.store (db.1.insert m (newRow m p.body)) = x,
        schema.store (db'.1.insert m (newRow m p.body)) = y at hstore ⊢
      cases hstore with
      | error e => exact ⟨h, rfl⟩
      | ok hdb => exact createRelated_twin _ _ ((prepare_related hprepared) ▸ relatedOf_mem) hdb

/-! ### Update -/

theorem updateRelateds_twin (id : String) (limits : List (String × Val)) {rels : List Related}
    (hrels : ∀ rel ∈ rels, rel ∈ m.restRelated) (h : Twin db db') (body : Dict) :
    PairTwin (updateRelateds m id limits db rels body) (updateRelateds m id limits db' rels body) := by
  induction rels generalizing db db' body with
  | nil => exact ⟨h, rfl⟩
  | cons rel rels ih =>
      have hrest : ∀ rel' ∈ rels, rel' ∈ m.restRelated := fun rel' hmem =>
        hrels rel' (List.mem_cons_of_mem rel hmem)
      have hfirst := updateRelated_twin h (hrels rel List.mem_cons_self) id (body.get rel.attr)
      unfold updateRelateds
      split
      · simp only
        split
        · exact ⟨h, rfl⟩
        · split
          · exact ⟨h, rfl⟩
          · generalize updateRelated db m id rel (body.get rel.attr) = x,
              updateRelated db' m id rel (body.get rel.attr) = y at hfirst ⊢
            cases hfirst with
            | ok hdb => exact ih hrest hdb _
            | error e => exact ⟨h, rfl⟩
      · exact ih hrest h body

theorem writeRow_twin (h : Twin db db') (hattr : svc.policies.privateAttr ∉ m.restExclude) (id : String)
    (body : Dict) (access : Char) :
    EndsAlike Twin (writeRow svc db acc m id body access) (writeRow svc db' acc m id body access) := by
  unfold writeRow
  rw [AccessControl.withPermission_twin h hattr (Target.twin_byId h m id {}) access]
  refine (EndsAlike.refl _).bind fun allowed _ hallowed => ?_
  subst hallowed
  refine (EndsAlike.refl _).bind fun _ _ _ => ?_
  refine (EndsAlike.ensure (not_congr (h.byId_eq_nil m id)) _).bind fun _ _ _ => ?_
  refine (EndsAlike.refl _).bind fun _ _ _ => ?_
  exact (store_twin (Alike.modify h (hasId_twin id) fun _ _ hr => hr.write body)).orElse _

theorem update_twin (h : Twin db db') (hattr : svc.policies.privateAttr ∉ m.restExclude) (id : String)
    (body : Dict) (access : Char) (limits : List (String × Val)) :
    PairTwin (update svc db acc now m id body access limits)
      (update svc db' acc now m id body access limits) := by
  unfold update
  cases updateBody svc now id body with
  | error answer => exact ⟨h, rfl⟩
  | ok body =>
      have hrelated : PairTwin (updateRelateds m id limits db m.restRelated body)
          (updateRelateds m id limits db' m.restRelated body) :=
        updateRelateds_twin id limits (fun rel hrel => hrel) h body
      simp only
      generalize updateRelateds m id limits db m.restRelated body = x,
        updateRelateds m id limits db' m.restRelated body = y at hrelated ⊢
      obtain ⟨db₁, body₁⟩ := x
      obtain ⟨db₁', body₁'⟩ := y
      obtain ⟨hdb, hbody⟩ := hrelated
      simp only at hdb hbody
      subst hbody
      cases body₁ with
      | error answer => exact ⟨hdb, rfl⟩
      | ok body =>
          have hwrite := @writeRow_twin svc db₁ db₁' acc m hdb hattr id body access
          simp only
          generalize writeRow svc db₁ acc m id body access = x,
            writeRow svc db₁' acc m id body access = y at hwrite ⊢
          cases hwrite with
          | error answer => exact ⟨hdb, rfl⟩
          | ok hdb => exact ⟨hdb, rfl⟩

theorem byId_contact (h : Twin db db') (id : String) : byId db .contact id = byId db' .contact id := by
  rw [byId, byId, h.contact]

theorem updateContact_twin (h : Twin db db') (hattr : svc.policies.privateAttr ∉ Model.contact.restExclude)
    (id : String) (body : Dict) :
    EndsAlike Twin (updateContact svc db acc now id body) (updateContact svc db' acc now id body) := by
  unfold updateContact
  rw [byId_contact h]
  simp only [withPermission_same h hattr]
  refine (EndsAlike.refl _).bind fun body _ hbody => ?_
  subst hbody
  refine (EndsAlike.refl _).bind fun _ _ _ => ?_
  refine (EndsAlike.refl _).bind fun allowed _ hallowed => ?_
  subst hallowed
  refine (EndsAlike.refl _).bind fun _ _ _ => ?_
  refine (EndsAlike.refl _).bind fun contact _ hcontact => ?_
  subst hcontact
  refine (EndsAlike.refl _).bind fun _ _ _ => ?_
  refine ((store_twin (Alike.modify h (hasId_twin id) fun _ _ hr => hr.write _)).orElse _).bind
    fun db₁ db₁' hdb => ?_
  by_cases hidentity : IsIdentity db₁ (contact "info")
  · rw [if_pos hidentity, if_pos ((AccessControl.isIdentity_twin hdb _).mp hidentity)]
    refine (store_twin (Alike.modify hdb (fun r r' hr => ?_) fun r r' hr => hr.update _ _)).orElse _
    rw [hr.cell "identity" List.not_mem_nil]
  · rw [if_neg hidentity, if_neg (mt (AccessControl.isIdentity_twin hdb _).mpr hidentity)]
    exact .ok hdb

/-! ### Delete -/

theorem deleteRows_twin (h : Twin db db') (m : Model) (id : String) :
    EndsAlike Twin (deleteRows db m id) (deleteRows db' m id) :=
  store_twin (blind.cascade (Alike.remove h (hasId_twin id)))

theorem setStatus_twin (h : Twin db db') (m : Model) (id : String) (status : Val) :
    EndsAlike Twin (setStatus db m id status) (setStatus db' m id status) :=
  store_twin (Alike.modify h (hasId_twin id) fun _ _ hr => hr.update "status" status)

theorem deleteOne_twin (hattr : svc.policies.privateAttr ∉ m.restExclude) (force : Bool) (label id : String)
    {st st' : Database × ℕ} (h : PairTwin st st') :
    EndsAlike PairTwin (deleteOne svc acc m force label id st) (deleteOne svc acc m force label id st') := by
  obtain ⟨db, n⟩ := st
  obtain ⟨db', n'⟩ := st'
  obtain ⟨h, hn⟩ := h
  simp only at h hn
  subst hn
  unfold deleteOne
  simp only
  rw [AccessControl.withPermission_twin h hattr (Target.twin_byId h m id {}) 'd']
  refine (EndsAlike.refl _).bind fun allowed _ hallowed => ?_
  subst hallowed
  refine (EndsAlike.refl _).bind fun _ _ _ => ?_
  split
  · refine ((deleteRows_twin h m id).orElse _).bind fun db₁ db₁' hdb => .ok ⟨hdb, ?_⟩
    simp only [h.byId_eq_nil m id]
  · refine (EndsAlike.refl _).bind fun _ _ _ => ?_
    exact ((setStatus_twin h m id _).orElse _).bind fun db₁ db₁' hdb => .ok ⟨hdb, rfl⟩

theorem delete_twin (h : Twin db db') (hattr : svc.policies.privateAttr ∉ m.restExclude) (ids : List String)
    (force : Bool) : PairTwin (delete svc db acc m ids force) (delete svc db' acc m ids force) := by
  have hall := EndsAlike.foldlM (fun st st' id hst => @deleteOne_twin svc acc m hattr force id id st st' hst)
    ids (a := (db, 0)) (b := (db', 0)) ⟨h, rfl⟩
  unfold delete
  generalize ids.foldlM (fun st id => deleteOne svc acc m force id id st) (db, 0) = x,
    ids.foldlM (fun st id => deleteOne svc acc m force id id st) (db', 0) = y at hall ⊢
  cases hall with
  | error answer => exact ⟨h, rfl⟩
  | ok hst => exact ⟨hst.1, congrArg noContent hst.2⟩

end BasicCrud

/-! ### The trashcan -/

namespace Trashcan

variable {svc : Service} {db db' : Database} {acc : Access}

theorem update_twin (h : Twin db db') (hattr : ∀ m : Model, svc.policies.privateAttr ∉ m.restExclude)
    (id : String) (body : Dict) :
    PairTwin (update svc db acc id body) (update svc db' acc id body) := by
  unfold update
  cases Text.splitFirst id '-' with
  | none => exact ⟨h, rfl⟩
  | some parts =>
      obtain ⟨resource, recordId⟩ := parts
      simp only
      cases modelOf resource with
      | none => exact ⟨h, rfl⟩
      | some m =>
          simp only [h.byId_eq_nil m recordId,
            AccessControl.withPermission_twin h (hattr m) (Target.twin_byId h m recordId {}) 'd']
          have hstatus := BasicCrud.setStatus_twin h m recordId (body.get "status")
          generalize AccessControl.withPermission svc.policies db' acc m 'd' _ = allowed
          cases allowed with
          | error e => exact ⟨h, rfl⟩
          | ok allowed =>
              cases allowed with
              | false => exact ⟨h, rfl⟩
              | true =>
                  simp only
                  split
                  · exact ⟨h, rfl⟩
                  · generalize BasicCrud.setStatus db m recordId (body.get "status") = x,
                      BasicCrud.setStatus db' m recordId (body.get "status") = y at hstatus ⊢
                    cases hstatus with
                    | error e => exact ⟨h, rfl⟩
                    | ok hdb =>
                        simp only
                        split
                        · exact ⟨hdb, rfl⟩
                        · exact ⟨hdb, rfl⟩

theorem deleteOne_twin (hattr : ∀ m : Model, svc.policies.privateAttr ∉ m.restExclude)
    {st st' : Database × ℕ} (h : PairTwin st st') (id : String) :
    EndsAlike PairTwin (deleteOne svc acc st id) (deleteOne svc acc st' id) := by
  unfold deleteOne
  cases Text.splitFirst id '-' with
  | none => exact .error _
  | some parts =>
      obtain ⟨resource, recordId⟩ := parts
      simp only
      split
      · exact .error _
      · exact BasicCrud.deleteOne_twin (hattr _) true id recordId h

theorem delete_twin (h : Twin db db') (hattr : ∀ m : Model, svc.policies.privateAttr ∉ m.restExclude)
    (ids : List String) : PairTwin (delete svc db acc ids) (delete svc db' acc ids) := by
  have hall := EndsAlike.foldlM (fun st st' id hst => @deleteOne_twin svc acc hattr st st' hst id) ids
    (a := (db, 0)) (b := (db', 0)) ⟨h, rfl⟩
  unfold delete
  generalize ids.foldlM (deleteOne svc acc) (db, 0) = x, ids.foldlM (deleteOne svc acc) (db', 0) = y
    at hall ⊢
  cases hall with
  | error answer => exact ⟨h, rfl⟩
  | ok hst => exact ⟨hst.1, congrArg BasicCrud.noContent hst.2⟩

end Trashcan

/-! ### The states of the service -/

/-- Two states of the service that differ in hidden columns alone. -/
structure TwinWorld (w w' : World) : Prop where
  db : Twin w.db w'.db
  rest : w' = { w with db := w'.db }

/-- Two answers are the same, and leave states that differ in hidden columns alone. -/
def Served {α : Type} (p q : World × α) : Prop := TwinWorld p.1 q.1 ∧ p.2 = q.2

variable {svc : Service} {w w' : World} {req : Request}

theorem TwinWorld.of_db {db' : Database} (h : Twin w.db db') : TwinWorld w { w with db := db' } := ⟨h, rfl⟩

theorem access_twin {db' : Database} : req.access svc { w with db := db' } = req.access svc w := rfl

theorem TwinWorld.access (h : TwinWorld w w') : req.access svc w = req.access svc w' := by
  rw [h.rest]
  rfl

/-- What a write to the database answers. -/
theorem written_twin {p q : Database × Response} (h : PairTwin p q) :
    Served ({ w with db := p.1 }, p.2) ({ w with db := q.1 }, q.2) :=
  ⟨⟨h.1, rfl⟩, h.2⟩

theorem TwinWorld.written (h : TwinWorld w w') {p q : Database × Response} (hpq : PairTwin p q) :
    Served ({ w with db := p.1 }, p.2) ({ w' with db := q.1 }, q.2) := by
  rw [h.rest]
  exact written_twin hpq

theorem request_twin (h : TwinWorld w w') (amb : Ambient) (id : String) :
    Served (Confirmation.request svc w amb id) (Confirmation.request svc w' amb id) := by
  have hissue : Confirmation.issue svc w.db w.now amb id = Confirmation.issue svc w'.db w.now amb id := by
    rw [Confirmation.issue, Confirmation.issue, BasicCrud.byId_contact h.db]
  rw [h.rest]
  unfold Confirmation.request
  simp only [hissue]
  cases Confirmation.issue svc w'.db w.now amb id with
  | none => exact ⟨.of_db h.db, rfl⟩
  | some i => exact ⟨⟨h.db, rfl⟩, rfl⟩

/-- A row of its own that a controller adds. -/
theorem insert_twin (h : TwinWorld w w') (m : Model) (row : Row) (ok refused : Response) :
    Served (match schema.store (w.db.1.insert m row) with
        | .ok db => ({ w with db := db }, ok)
        | .error _ => (w, refused))
      (match schema.store (w'.db.1.insert m row) with
        | .ok db => ({ w' with db := db }, ok)
        | .error _ => (w', refused)) := by
  have hstore := store_twin (Alike.insert h.db (Veiled.refl m row))
  generalize schema.store (w.db.1.insert m row) = x, schema.store (w'.db.1.insert m row) = y at hstore ⊢
  cases hstore with
  | ok hdb => exact h.written (p := (_, ok)) (q := (_, ok)) ⟨hdb, rfl⟩
  | error e => exact ⟨h, rfl⟩

namespace Controllers

theorem confirmed_twin (h : TwinWorld w w') (amb : Ambient) (id : String) (answer : Response) :
    Served (confirmed svc w amb id answer) (confirmed svc w' amb id answer) := by
  have hrequest := @request_twin svc w w' h amb id
  unfold confirmed
  generalize Confirmation.request svc w amb id = x, Confirmation.request svc w' amb id = y at hrequest ⊢
  obtain ⟨w₁, sent⟩ := x
  obtain ⟨w₁', sent'⟩ := y
  obtain ⟨hw, hsent⟩ := hrequest
  simp only at hw hsent
  subst hsent
  cases sent with
  | none => exact ⟨hw, rfl⟩
  | some sent => exact ⟨hw, rfl⟩

theorem afterCreate_twin (h : TwinWorld w w') (amb : Ambient) (m : Model) (body : Dict) (answer : Response) :
    Served (afterCreate svc w amb m body answer) (afterCreate svc w' amb m body answer) := by
  unfold afterCreate
  cases m with
  | contact => exact confirmed_twin h amb _ answer
  | message =>
      simp only
      split
      · exact insert_twin h .listMessage _ answer .raised
      · exact ⟨h, rfl⟩
  | person => exact insert_twin h .contact _ _ _
  | _ => exact ⟨h, rfl⟩

end Controllers

/-! ### Registration -/

theorem lookup_twin {db db' : Database} (h : Twin db db') (m : Model) (conds : List (String × Val))
    (hconds : ∀ c ∈ conds, c.1 ∈ namedColumns) :
    EndsAlike (Veiled m) (lookup db m conds) (lookup db' m conds) := by
  refine related_one (related_filter (fun r r' hr => ?_) (h m))
  rw [Bool.eq_iff_iff, List.all_eq_true, List.all_eq_true]
  exact forall₂_congr fun c hc => by rw [hr.named (hconds c hc)]

theorem lookup_same {db db' : Database} (h : Twin db db') {m : Model} (hm : m.restExclude = [])
    (conds : List (String × Val)) : lookup db m conds = lookup db' m conds := by
  rw [lookup, lookup, h.rows_eq hm]

namespace SessionAuth

variable {db db' : Database}

theorem addPerson_twin (h : Twin db db') (uid cid : String) (identity name : Val) :
    Alike Veiled (addPerson db uid cid identity name) (addPerson db' uid cid identity name) :=
  Alike.insert (Alike.insert h (Veiled.refl .person _)) (Veiled.refl .contact _)

theorem registrant_twin (h : Twin db db') (amb : Ambient) (identity username name : Val) :
    EndsAlike PairTwin (registrant svc db amb identity username name)
      (registrant svc db' amb identity username name) := by
  unfold registrant
  refine (EndsAlike.refl _).bind fun _ _ _ => ?_
  simp only [lookup_same h (m := .person) rfl, lookup_same h (m := .contact) rfl]
  have hnamed := lookup_twin h .account [("name", username)] (by simp [namedColumns])
  generalize lookup db .account [("name", username)] = x, lookup db' .account [("name", username)] = y
    at hnamed ⊢
  cases hnamed with
  | ok _ => exact .error _
  | error e =>
      cases e with
      | multipleResultsFound => exact .error _
      | noResultFound =>
          simp only
          cases lookup db' .person [("identity", svc.lib.identityNormalize identity)] with
          | ok existing =>
              have howned := lookup_twin h .account [("uid", existing "id")] (by simp [namedColumns])
              simp only
              generalize lookup db .account [("uid", existing "id")] = x,
                lookup db' .account [("uid", existing "id")] = y at howned ⊢
              cases howned with
              | ok _ => exact .error _
              | error e =>
                  cases e with
                  | multipleResultsFound => exact .error _
                  | noResultFound =>
                      simp only
                      split
                      · exact .ok ⟨h, rfl⟩
                      · exact .error _
          | error e =>
              cases e with
              | multipleResultsFound => exact .error _
              | noResultFound =>
                  have hstore := store_twin (addPerson_twin h (amb.genIdWith "u-" .person)
                    (amb.genIdWith "x-" .contact) (svc.lib.identityNormalize identity) name)
                  simp only
                  generalize schema.store (addPerson db _ _ _ _) = x,
                    schema.store (addPerson db' _ _ _ _) = y at hstore ⊢
                  cases hstore with
                  | ok hdb => exact .ok ⟨hdb, rfl⟩
                  | error e => exact .error _

theorem addProfile_twin (h : Twin db db') (id : String) (uid : Val) (item : String) (value : Val) :
    Twin (addProfile db id uid item value) (addProfile db' id uid item value) := by
  have hstore := store_twin (Alike.insert h (Veiled.refl .profile (record .profile [("id", .str id),
    ("uid", uid), ("item", .str item), ("value", value), ("status", .str "active")])))
  unfold addProfile
  generalize schema.store (db.1.insert _ _) = x, schema.store (db'.1.insert _ _) = y at hstore ⊢
  cases hstore with
  | ok hdb => exact hdb
  | error e => exact h

theorem addProfiles_twin (h : Twin db db') (amb : Ambient) (uid picture : Val) :
    Twin (addProfiles db amb uid picture) (addProfiles db' amb uid picture) := by
  have hlang : defaultLang db = defaultLang db' := by
    rw [defaultLang, defaultLang, lookup_same h rfl]
  have hpicture : ∀ {db db' : Database}, Twin db db' →
      Twin (if picture.truthy then addProfile db (amb.genIdWith "x-" .picture) uid "picture" picture else db)
        (if picture.truthy then addProfile db' (amb.genIdWith "x-" .picture) uid "picture" picture
          else db') := by
    intro db db' h
    split
    · exact addProfile_twin h _ _ _ _
    · exact h
  unfold addProfiles
  rw [hlang]
  refine hpicture ?_
  split
  · split
    · exact addProfile_twin h _ _ _ _
    · exact h
  · exact h

theorem register_twin (h : TwinWorld w w') (amb : Ambient) (identity username name : Val) :
    Served (register svc w amb identity username name true .none)
      (register svc w' amb identity username name true .none) := by
  have hregistrant := @registrant_twin svc w.db w'.db h.db amb identity username name
  unfold register
  generalize registrant svc w.db amb identity username name = x,
    registrant svc w'.db amb identity username name = y at hregistrant ⊢
  cases hregistrant with
  | error answer => exact ⟨h, rfl⟩
  | @ok a b hab =>
      obtain ⟨db, uid, cid⟩ := a
      obtain ⟨db', uid', cid'⟩ := b
      obtain ⟨hdb, hids⟩ := hab
      cases hids
      have hrequest := @request_twin svc { w with db := addProfiles db amb uid .none }
        { w' with db := addProfiles db' amb uid .none }
        ⟨addProfiles_twin hdb amb uid .none, by rw [h.rest]⟩ amb cid
      simp only
      generalize Confirmation.request svc { w with db := addProfiles db amb uid .none } amb cid = x,
        Confirmation.request svc { w' with db := addProfiles db' amb uid .none } amb cid = y at hrequest ⊢
      obtain ⟨w₁, sent⟩ := x
      obtain ⟨w₁', sent'⟩ := y
      obtain ⟨hw, hsent⟩ := hrequest
      simp only at hw hsent
      subst hsent
      cases sent with
      | none => exact ⟨hw, rfl⟩
      | some sent => exact ⟨hw, rfl⟩

theorem accountAdd_twin (h : TwinWorld w w') (amb : Ambient) (username uid : Val) :
    Served (accountAdd w amb username uid) (accountAdd w' amb username uid) := by
  unfold accountAdd
  rw [lookup_same h.db (m := .settings) rfl]
  split
  · exact ⟨h, rfl⟩
  · exact insert_twin h .account _ _ dbAbort

end SessionAuth

theorem forgotten_twin {db db' : Database} (h : Twin db db') (identity username : Val) :
    List.Forall₂ (Veiled .account) (LocalUser.forgotten db identity username)
      (LocalUser.forgotten db' identity username) := by
  refine related_filter (fun r r' hr => ?_) (h .account)
  simp only [AccessControl.ownerOf_twin h hr, hr.named (c := "name") (by decide),
    hr.named (c := "status") (by decide), hr.cell "is_admin" (by decide)]

theorem forgotPassword_twin (h : TwinWorld w w') (amb : Ambient) (identity username : Val) :
    Served (LocalUser.forgotPassword svc w amb identity username)
      (LocalUser.forgotPassword svc w' amb identity username) := by
  have haccount := related_one (forgotten_twin h.db (svc.lib.identityNormalize identity) username)
  unfold LocalUser.forgotPassword
  generalize one (LocalUser.forgotten w.db (svc.lib.identityNormalize identity) username) = x,
    one (LocalUser.forgotten w'.db (svc.lib.identityNormalize identity) username) = y at haccount ⊢
  cases haccount with
  | error e => cases e <;> exact ⟨h, rfl⟩
  | @ok account account' hr =>
      have hcontact : SessionAuth.primaryContact w.db account = SessionAuth.primaryContact w'.db account' := by
        rw [SessionAuth.primaryContact, SessionAuth.primaryContact, AccessControl.ownerOf_twin h.db hr]
        simp only [lookup_same h.db (m := .contact) rfl]
      simp only [hcontact]
      cases SessionAuth.primaryContact w'.db account' with
      | error e => cases e <;> exact ⟨h, rfl⟩
      | ok contact =>
          have hrequest := @request_twin svc w w' h amb (contact "id").text
          simp only
          generalize Confirmation.request svc w amb (contact "id").text = x,
            Confirmation.request svc w' amb (contact "id").text = y at hrequest ⊢
          obtain ⟨w₁, sent⟩ := x
          obtain ⟨w₁', sent'⟩ := y
          obtain ⟨hw, hsent⟩ := hrequest
          simp only at hw hsent
          subst hsent
          cases sent with
          | none => exact ⟨hw, rfl⟩
          | some sent => exact ⟨hw, rfl⟩

namespace Controllers

theorem register_twin (h : TwinWorld w w') (req : Request) (body : Dict) :
    Served (register svc w req body) (register svc w' req body) := by
  unfold register
  split
  · exact forgotPassword_twin h req.amb _ _
  · have hregistered := @SessionAuth.register_twin svc w w' h req.amb (body.get "identity")
      (body.get "username") (body.get "name")
    generalize SessionAuth.register svc w req.amb _ _ _ _ _ = x,
      SessionAuth.register svc w' req.amb _ _ _ _ _ = y at hregistered ⊢
    obtain ⟨w₁, answer⟩ := x
    obtain ⟨w₁', answer'⟩ := y
    obtain ⟨hw, hanswer⟩ := hregistered
    simp only at hw hanswer
    subst hanswer
    simp only
    split
    · exact ⟨hw, rfl⟩
    · exact SessionAuth.accountAdd_twin hw req.amb _ _

theorem post_twin (h : TwinWorld w w') (hattr : ∀ m : Model, svc.policies.privateAttr ∉ m.restExclude)
    (req : Request) (m : Model) (body : Dict) :
    Served (post svc w req m body) (post svc w' req m body) := by
  unfold post
  split
  · exact register_twin h req body
  · split
    · exact ⟨h, rfl⟩
    · split
      · exact ⟨h, rfl⟩
      · have hcreated : PairTwin (created svc w req m body) (created svc w' req m body) := by
          unfold created
          rw [← h.access, h.rest]
          exact BasicCrud.create_twin h.db (hattr m) _ _ _
        generalize created svc w req m body = x, created svc w' req m body = y at hcreated ⊢
        obtain ⟨db, answer⟩ := x
        obtain ⟨db', answer'⟩ := y
        have hanswer : answer = answer' := hcreated.2
        subst hanswer
        have hw := h.written hcreated
        simp only
        split
        · exact afterCreate_twin hw.1 req.amb m body answer
        · exact ⟨hw.1, rfl⟩

theorem put_twin (h : TwinWorld w w') (hattr : ∀ m : Model, svc.policies.privateAttr ∉ m.restExclude)
    (req : Request) (m : Model) (id : String) (body : Dict) :
    Served (put svc w req m id body) (put svc w' req m id body) := by
  obtain ⟨hdb, hw⟩ := h
  rw [hw]
  generalize w'.db = db' at hdb
  unfold put
  simp only [@access_twin svc w req db']
  split
  · exact ⟨.of_db hdb, rfl⟩
  · split
    · have hupdated := @BasicCrud.updateContact_twin svc w.db db' (req.access svc w) w.now hdb
        (hattr .contact) id body
      generalize BasicCrud.updateContact svc w.db _ _ _ _ = x,
        BasicCrud.updateContact svc db' _ _ _ _ = y at hupdated ⊢
      cases hupdated with
      | error answer => exact ⟨.of_db hdb, rfl⟩
      | ok hdb => exact confirmed_twin ⟨hdb, rfl⟩ req.amb id _
    · split
      · exact written_twin (BasicCrud.create_twin hdb (hattr .grant) _ _ _)
      · exact written_twin (BasicCrud.update_twin hdb (hattr m) _ _ _ _)

theorem delete_twin (h : TwinWorld w w') (hattr : ∀ m : Model, svc.policies.privateAttr ∉ m.restExclude)
    (req : Request) (m : Model) (ids : List String) (force : Bool) :
    Served (delete svc w req m ids force) (delete svc w' req m ids force) := by
  unfold delete
  simp only [h.access]
  split
  · exact ⟨h, rfl⟩
  · exact h.written (BasicCrud.delete_twin h.db (hattr m) ids force)

end Controllers

/-! ### The endpoints -/

theorem activate_twin {db db' : Database} (h : Twin db db') (id : String) (uid : Val) :
    Alike Veiled (Confirmation.activate db id uid) (Confirmation.activate db' id uid) :=
  Alike.modify (Alike.modify h (hasId_twin id) fun _ _ hr => hr.update "status" _)
    (fun r r' hr => by rw [hr.named (c := "id") (by decide)]) fun _ _ hr => hr.update "referrer_id" _

theorem confirm_twin (h : TwinWorld w w') (amb : Ambient) (token : String) :
    Served (Confirmation.confirm svc w amb token false) (Confirmation.confirm svc w' amb token false) := by
  obtain ⟨hdb, hw⟩ := h
  rw [hw]
  generalize w'.db = db' at hdb
  have hcheck : Confirmation.check svc { w with db := db' } token = Confirmation.check svc w token := by
    unfold Confirmation.check
    simp only [BasicCrud.byId_contact hdb]
  unfold Confirmation.confirm
  rw [hcheck]
  cases Confirmation.check svc w token with
  | error answer => exact ⟨.of_db hdb, rfl⟩
  | ok parts =>
      obtain ⟨id, info, nonce, contact⟩ := parts
      have hstore := store_twin (activate_twin hdb id (contact "uid"))
      simp only
      generalize schema.store (Confirmation.activate w.db id _) = x,
        schema.store (Confirmation.activate db' id _) = y at hstore ⊢
      cases hstore with
      | error e => exact ⟨.of_db hdb, rfl⟩
      | @ok db₁ db₁' hdb₁ =>
          have howner : ownerOf db₁ contact = ownerOf db₁' contact :=
            AccessControl.ownerOf_twin hdb₁ (Veiled.refl .contact contact)
          simp only [howner, World.createSession]
          split
          · exact ⟨⟨hdb₁, rfl⟩, rfl⟩
          · exact ⟨⟨hdb₁, rfl⟩, rfl⟩

/-- The endpoints that neither compare a secret nor set one up. -/
def Call.LeavesSecrets : Call → Prop
  | .authBasic _ _ | .logout | .post _ _ | .put _ _ _ | .delete _ _ _ | .trashUpdate _ _ | .trashDelete _
  | .confirmationGet _ | .confirm _ => True
  | .authApikey _ _ _ | .login _ _ _ _ | .callback _ | .totpGenerate | .totpRegister _
  | .changePassword _ _ => False

theorem handle_twin (h : TwinWorld w w') (hattr : ∀ m : Model, svc.policies.privateAttr ∉ m.restExclude)
    (req : Request) {call : Call} (hcall : call.LeavesSecrets) :
    Served (handle svc w req call) (handle svc w' req call) := by
  cases call with
  | authApikey | login | callback | totpGenerate | totpRegister | changePassword => exact hcall.elim
  | post m body => exact Controllers.post_twin h hattr req m body
  | put m id body => exact Controllers.put_twin h hattr req m id body
  | delete m ids force => exact Controllers.delete_twin h hattr req m ids force
  | confirm token => exact confirm_twin h req.amb token
  | trashUpdate id body =>
      rw [handle, handle, h.access]
      exact h.written (Trashcan.update_twin h.db hattr id body)
  | trashDelete ids =>
      rw [handle, handle, h.access]
      exact h.written (Trashcan.delete_twin h.db hattr ids)
  | confirmationGet id =>
      have hrequest := @request_twin svc w w' h req.amb id
      rw [handle, handle]
      generalize Confirmation.request svc w req.amb id = x, Confirmation.request svc w' req.amb id = y
        at hrequest ⊢
      obtain ⟨w₁, sent⟩ := x
      obtain ⟨w₁', sent'⟩ := y
      obtain ⟨hw, hsent⟩ := hrequest
      simp only at hw hsent
      subst hsent
      cases sent with
      | none => exact ⟨hw, rfl⟩
      | some sent => exact ⟨hw, rfl⟩
  | authBasic username password =>
      obtain ⟨hdb, hw⟩ := h
      rw [hw]
      simp only [handle, basic]
      split
      · exact ⟨.of_db hdb, rfl⟩
      · split
        · exact ⟨.of_db hdb, rfl⟩
        · exact ⟨⟨hdb, rfl⟩, rfl⟩
  | logout =>
      obtain ⟨hdb, hw⟩ := h
      rw [hw]
      simp only [handle]
      split
      · exact ⟨⟨hdb, rfl⟩, rfl⟩
      · exact ⟨.of_db hdb, rfl⟩

/-- A request to one of the endpoints, those that read among them.  Grants have controllers of their own
for reading. -/
inductive Visit where
  | call (call : Call)
  | get (m : Model) (id : String)
  | find (m : Model) (args : BasicCrud.FindArgs)
  | getPassword (uid : String)
  | trashGet (id : String)
  | trashFind (args : Trashcan.FindArgs)

/-- What is sent back. -/
inductive Answer where
  | response (answer : Response)
  | page (shown : List (Dict × String) × ℕ × Option ℕ)
  | trash (shown : List (String × Dict) × ℕ × Option String)

namespace Controllers

/-- The records of `LocationController.find`. -/
def located (lib : Lib) (acc : Access) (m : Model) (fields : Dict) : Dict :=
  if m = .location ∧ "geolat" ∈ fields then
    BasicCrud.withPrivacy lib acc fields (decide (fields.get "privacy" = .str "public"))
  else fields

/-- `GET /<resource>` -/
def find (svc : Service) (w : World) (req : Request) (m : Model) (args : BasicCrud.FindArgs) : Answer :=
  if m ∉ routed ∨ m = .grant then .response notFound
  else
    match BasicCrud.find svc w.db (req.access svc w) m args with
    | .ok page =>
        .page (page.shown.1.map fun i => (located svc.lib (req.access svc w) m i.1, i.2), page.shown.2)
    | .error answer => .response answer

/-- `GET /<resource>/{id}` -/
def get (svc : Service) (w : World) (req : Request) (m : Model) (id : String) : Response :=
  if m ∉ routed ∨ m = .grant then notFound else BasicCrud.get svc w.db (req.access svc w) m id

/-- `AccountController.get_password` -/
def getPassword (db : Database) (uid : String) : Response :=
  match lookup db .account [("uid", .str uid), ("status", .str "active")] with
  | .ok account => ⟨Dict.ofList [("id", .str uid), ("username", account "name")], 200⟩
  | .error .noResultFound =>
      ⟨Dict.ofList [("id", .str uid), ("message", .str "account not found")], 404⟩
  | .error .multipleResultsFound => .raised

end Controllers

variable (svc) in
/-- A request is answered. -/
def visited (w : World) (req : Request) : Visit → World × Answer
  | .call call => ((handle svc w req call).1, .response (handle svc w req call).2)
  | .get m id => (w, .response (Controllers.get svc w req m id))
  | .find m args => (w, Controllers.find svc w req m args)
  | .getPassword uid => (w, .response (Controllers.getPassword w.db uid))
  | .trashGet id => (w, .response (Trashcan.get svc w.db (req.access svc w) id))
  | .trashFind args =>
      match Trashcan.find svc w.db (req.access svc w) Trashcan.registered args with
      | .ok page => (w, .trash page.shown)
      | .error answer => (w, .response answer)

/-- A request with the time that passed before it. -/
structure Visiting where
  elapsed : ℕ
  req : Request
  visit : Visit

variable (svc) in
/-- The service with the endpoints that read. -/
def site : Machine World Visiting Answer where
  step w e := visited svc { w with now := w.now + e.elapsed } e.req e.visit

/-- The request names no hidden column, and neither compares a secret nor sets one up. -/
def Visit.Blind : Visit → Prop
  | .call c => c.LeavesSecrets
  | .find m args => args.NamesShown m
  | .trashFind args => args.NamesShown
  | .get _ _ | .getPassword _ | .trashGet _ => True

theorem getPassword_twin {db db' : Database} (h : Twin db db') (uid : String) :
    Controllers.getPassword db uid = Controllers.getPassword db' uid := by
  have haccount := lookup_twin h .account [("uid", .str uid), ("status", .str "active")]
    (by simp [namedColumns])
  unfold Controllers.getPassword
  generalize lookup db .account _ = x, lookup db' .account _ = y at haccount ⊢
  cases haccount with
  | error e => rfl
  | ok hr => simp only [hr.named (c := "name") (by decide)]

theorem visited_twin (h : TwinWorld w w') (hattr : ∀ m : Model, svc.policies.privateAttr ∉ m.restExclude)
    (req : Request) {visit : Visit} (hvisit : visit.Blind) :
    Served (visited svc w req visit) (visited svc w' req visit) := by
  cases visit with
  | call call =>
      have hserved := handle_twin h hattr req hvisit
      exact ⟨hserved.1, congrArg Answer.response hserved.2⟩
  | get m id =>
      refine ⟨h, congrArg Answer.response ?_⟩
      rw [Controllers.get, Controllers.get, h.access, BasicCrud.get_twin h.db (hattr m)]
  | find m args =>
      refine ⟨h, ?_⟩
      have hfound := @BasicCrud.find_twin svc w.db w'.db (req.access svc w') m h.db (hattr m) args hvisit
      simp only [visited, Controllers.find, h.access]
      split
      · rfl
      · generalize BasicCrud.find svc w.db _ m args = x, BasicCrud.find svc w'.db _ m args = y at hfound ⊢
        cases hfound with
        | ok hpage => simp only [hpage]
        | error answer => rfl
  | getPassword uid => exact ⟨h, congrArg Answer.response (getPassword_twin h.db uid)⟩
  | trashGet id =>
      refine ⟨h, congrArg Answer.response ?_⟩
      rw [h.access, Trashcan.get_twin h.db hattr]
  | trashFind args =>
      have hfound := @Trashcan.find_twin svc w.db w'.db (req.access svc w') h.db Trashcan.registered args hvisit
      simp only [visited, h.access]
      generalize Trashcan.find svc w.db _ _ args = x, Trashcan.find svc w'.db _ _ args = y at hfound ⊢
      cases hfound with
      | ok hpage => exact ⟨h, congrArg Answer.trash hpage⟩
      | error answer => exact ⟨h, rfl⟩

theorem site_twin (h : TwinWorld w w') (hattr : ∀ m : Model, svc.policies.privateAttr ∉ m.restExclude)
    {e : Visiting} (he : e.visit.Blind) :
    TwinWorld ((site svc).next w e) ((site svc).next w' e) ∧ (site svc).out w e = (site svc).out w' e := by
  have hlater : TwinWorld { w with now := w.now + e.elapsed } { w' with now := w'.now + e.elapsed } :=
    ⟨h.db, by rw [h.rest]⟩
  exact visited_twin hlater hattr e.req he

/-- The seeded users with other passwords. -/
def rehashed : Database :=
  ⟨Seed.shared.1.modify .account (fun _ => true) fun row => Function.update row "password" (.str "$5$other"),
    by decide +kernel⟩

theorem rehashed_shown (m : Model) : List.Forall₂ (SameShown m) (Seed.shared.rows m) (rehashed.rows m) := by
  have hrows : rehashed.rows m = Seed.shared.1.modify .account (fun _ => true)
      (fun row => Function.update row "password" (.str "$5$other")) m := rfl
  rw [hrows]
  by_cases hm : m = .account
  · subst hm
    rw [Db.modify, Function.update_self, List.forall₂_map_right_iff]
    refine List.forall₂_same.mpr fun r _ => ⟨fun c hc => ?_, fun _ => ?_⟩
    · have hne : c ≠ "password" := by
        rintro rfl
        exact hc (by decide)
      rw [if_pos rfl, Function.update_of_ne hne]
    · rw [if_pos rfl, Function.update_of_ne (by decide)]
  · rw [Db.modify_ne _ _ _ hm]
    exact List.forall₂_same.mpr fun r _ => (Veiled.refl m r).toSameShown

/-- Requests of a client without a session. -/
def browsing : List Visiting :=
  [⟨1, Seed.request {} "a", .find .account { sort := some ("name", true) }⟩,
    ⟨2, Seed.request {} "b", .get .account "x-54320001"⟩,
    ⟨3, Seed.request {} "c", .call (.post .account (Dict.ofList [("forgot_password", .bool true),
      ("username", .str "second")]))⟩,
    ⟨4, Seed.request {} "d", .trashFind {}⟩]

theorem browsing_blind : ∀ e ∈ browsing, e.visit.Blind := by
  intro e he
  simp only [browsing, List.mem_cons, List.not_mem_nil, or_false] at he
  rcases he with rfl | rfl | rfl | rfl
  · refine ⟨fun filter hfilter => (nomatch hfilter), fun column desc hsort => ?_⟩
    cases hsort
    exact shown_of_named .account "name" (by decide)
  · trivial
  · trivial
  · refine ⟨fun filter hfilter => (nomatch hfilter), fun column desc hsort => ?_⟩
    have hcolumn : Trashcan.sortOf "name" = .ok ("name", false) := by decide +kernel
    rw [hcolumn] at hsort
    cases hsort
    exact fun m => shown_of_named m "name" (by decide)

end Apicrud
