import Apicrud.Owners

/-! # Ids of records

The id of a record is drawn when it is made, and no request writes it: after a request every record has the id
of one that was there before, or one that the request drew (`handle_idsFrom`).  So what was purged is gone for
good, unless its id is drawn once more (`purged_gone`). -/

namespace Apicrud

open Relational

/-- The models whose records are made for their own endpoints, or for a new person. -/
def recordModels : List Model :=
  [.apikey, .category, .contact, .credential, .grant, .list, .location, .message, .person, .scope, .settings, .tz]

/-- An id that `gen_id` may give in the request. -/
def Request.Draws (req : Request) (id : Val) : Prop :=
  ∃ pre ∈ ["u-", "x-"], ∃ draw, id = .str (req.amb.genIdWith pre draw)

/-- Every record has the id of one that was there, or one that is drawn. -/
def IdsFrom (req : Request) (db db' : Db Model) : Prop :=
  ∀ t ∈ recordModels, ∀ record ∈ db' t, req.Draws (record "id") ∨ ∃ old ∈ db t, old "id" = record "id"

/-- A forced delete, or a purge, names the record. -/
def Call.Purges (m : Model) (id : String) : Call → Prop
  | .delete m' ids force => m' = m ∧ id ∈ ids ∧ force = true
  | .trashDelete ids => ∃ name ∈ ids, Trashcan.named name = some (m, id)
  | _ => False

variable {svc : Service} {w : World} {req : Request} {call : Call} {db db' db₁ : Database}
  {m t : Model} {id : String} {body : Dict}

theorem record_routed (ht : t ∈ recordModels) : t ∈ Controllers.routed := by
  revert ht
  cases t <;> decide

/-! ### Writes -/

section writes

variable {db db' db₁ : Db Model}

theorem idsFrom_of_rows (h : ∀ t ∈ recordModels, db' t ⊆ db t) : IdsFrom req db db' :=
  fun t ht record hrecord => Or.inr ⟨record, h t ht hrecord, rfl⟩

theorem IdsFrom.refl (db : Db Model) : IdsFrom req db db :=
  idsFrom_of_rows fun _ _ => List.Subset.refl _

theorem IdsFrom.trans (h : IdsFrom req db db₁) (h' : IdsFrom req db₁ db') : IdsFrom req db db' := by
  intro t ht record hrecord
  rcases h' t ht record hrecord with hdrawn | ⟨mid, hmid, hid⟩
  · exact Or.inl hdrawn
  · rw [← hid]
    exact h t ht mid hmid

/-- A write that leaves the ids. -/
theorem idsFrom_modify {p : Row → Bool} {f : Row → Row} (hf : ∀ row, p row = true → f row "id" = row "id") :
    IdsFrom req db (db.modify m p f) := by
  intro t _ record hrecord
  by_cases htm : t = m
  · subst htm
    obtain ⟨old, hold, rfl⟩ := Db.mem_modify.mp hrecord
    refine Or.inr ⟨old, hold, ?_⟩
    split_ifs with hp
    · exact (hf old hp).symm
    · rfl
  · rw [Db.modify_ne _ _ _ htm] at hrecord
    exact Or.inr ⟨record, hrecord, rfl⟩

/-- A column that is set is not that of the ids. -/
theorem idsFrom_set {p : Row → Bool} {c : String} {v : Val} (hc : c ≠ "id") :
    IdsFrom req db (db.modify m p fun row => Function.update row c v) :=
  idsFrom_modify fun _ _ => Function.update_of_ne hc.symm _ _

/-- A record that is added has an id that is drawn, or is of another kind. -/
theorem idsFrom_insert {row : Row} (hrow : m ∈ recordModels → req.Draws (row "id")) :
    IdsFrom req db (db.insert m row) := by
  intro t ht record hrecord
  by_cases htm : t = m
  · subst htm
    rcases Db.mem_insert.mp hrecord with hold | rfl
    · exact Or.inr ⟨record, hold, rfl⟩
    · exact Or.inl (hrow ht)
  · rw [Db.insert_ne _ _ htm] at hrecord
    exact Or.inr ⟨record, hrecord, rfl⟩

end writes

theorem setStatus_idsFrom {status : Val} (h : BasicCrud.setStatus db m id status = .ok db') :
    IdsFrom req db.1 db'.1 := by
  rw [store_ok h]
  exact idsFrom_set (by decide)

/-! ### Requests -/

/-- A new record has the id that is drawn for it. -/
theorem newRow_draws {pre : String} {limits : List (String × Val)} {p : BasicCrud.Prepared} {acc : Access}
    {now : ℕ}
    (hpre : pre ∈ ["u-", "x-"])
    (hp : BasicCrud.prepare svc db acc req.amb now m body pre limits = .ok p) :
    req.Draws (BasicCrud.newRow m p.body "id") := by
  rw [newRow_id hp]
  exact ⟨pre, hpre, .record, rfl⟩

theorem create_idsFrom {pre : String} {limits : List (String × Val)} {acc : Access} {now : ℕ}
    (hpre : pre ∈ ["u-", "x-"]) :
    IdsFrom req db.1 (BasicCrud.create svc db acc req.amb now m body pre limits).1.1 := by
  intro t ht record hrecord
  rcases create_rows svc db acc req.amb now m body pre limits (record_routed ht) with
    hsame | ⟨rfl, p, db₁, hinserts, hrows⟩
  · rw [Store.rows] at hsame
    rw [hsame] at hrecord
    exact Or.inr ⟨record, hrecord, rfl⟩
  · rw [Store.rows] at hrows
    rw [hrows] at hrecord
    rcases List.mem_append.mp hrecord with hold | hmade
    · exact Or.inr ⟨record, hold, rfl⟩
    · rw [List.mem_singleton.mp hmade]
      exact Or.inl (newRow_draws hpre hinserts.1)

theorem idPrefix_mem (m : Model) : Controllers.idPrefix m ∈ ["u-", "x-"] := by
  unfold Controllers.idPrefix
  split_ifs <;> decide

/-- Commits other than those of updates. -/
theorem commit_idsFrom (hcall : ∀ m id body, call ≠ .put m id body) (h : Commit svc w req call db db') :
    IdsFrom req db.1 db'.1 := by
  cases h with
  | @created m body p pre limits _ _ hbody hpre hp hdb =>
      rw [hdb]
      exact idsFrom_insert fun _ => newRow_draws (hpre ▸ idPrefix_mem m) hp
  | @related m rel rows _ _ hrel hdb =>
      refine idsFrom_of_rows fun t ht => ?_
      have hne : t ≠ rel.assoc := fun heq => assoc_not_routed hrel (heq ▸ record_routed ht)
      rw [hdb, Function.update_of_ne hne]
      exact List.Subset.refl _
  | messageListed hdb =>
      rw [hdb]
      exact idsFrom_insert fun hm => absurd hm (by decide)
  | personContact _ hdb =>
      rw [hdb]
      exact idsFrom_insert fun _ => ⟨"x-", by decide, .contact, rfl⟩
  | written hput => exact absurd hput (hcall _ _ _)
  | contactWritten hput => exact absurd hput (hcall _ _ _)
  | disabled hok => exact setStatus_idsFrom hok
  | restored _ _ _ _ _ hok => exact setStatus_idsFrom hok
  | deleted _ hok => exact idsFrom_of_rows fun t _ => (turnWrite_sublist hok).subset
  | confirmed _ _ hdb =>
      rw [hdb]
      exact (idsFrom_set (by decide)).trans (idsFrom_set (by decide))
  | activated _ hok => exact setStatus_idsFrom hok
  | stamped _ hf hdb =>
      rw [hdb]
      exact idsFrom_modify fun row _ => hf row "id" (by decide)
  | registered _ hdb =>
      rw [hdb]
      exact (idsFrom_insert fun _ => ⟨"u-", by decide, .person, rfl⟩).trans
        (idsFrom_insert fun _ => ⟨"x-", by decide, .contact, rfl⟩)
  | accountAdded hdb =>
      rw [hdb]
      exact idsFrom_insert fun hm => absurd hm (by decide)
  | profiled hdb =>
      rw [hdb]
      exact idsFrom_insert fun hm => absurd hm (by decide)

theorem put_idsFrom : IdsFrom req w.db.1 (Controllers.put svc w req m id body).1.db.1 := by
  by_cases hcontact : m = .contact
  · subst hcontact
    cases hok : BasicCrud.updateContact svc w.db (req.access svc w) w.now id body with
    | error answer =>
        rw [put_contact_error hok]
        exact IdsFrom.refl _
    | ok db' =>
        obtain ⟨checked, contact, db₁, hupdated⟩ := BasicCrud.updateContact_ok hok
        rw [put_contact_ok hok]
        have hfirst : IdsFrom req w.db.1 db₁.1 := by
          rw [hupdated.written]
          refine idsFrom_modify fun row hid => ?_
          have hrowid : row "id" = .str id := of_decide_eq_true hid
          rw [hrowid]
          exact hupdated.write_id hrowid
        rcases hupdated.moved with ⟨-, hdb⟩ | ⟨-, rfl⟩
        · rw [hdb]
          exact hfirst.trans (idsFrom_set (by decide))
        · exact hfirst
  by_cases hrouted : m ∉ Controllers.routed
  · unfold Controllers.put
    rw [if_pos hrouted]
    exact IdsFrom.refl _
  by_cases hybrid : m = .grant ∧ Text.Contains id ":"
  · unfold Controllers.put
    rw [if_neg hrouted, if_neg hcontact, if_pos hybrid]
    exact create_idsFrom (by decide)
  have hput : (Controllers.put svc w req m id body).1.db = (BasicCrud.update svc w.db (req.access svc w) w.now m
      id (Controllers.updateBody req.amb m body) 'u' (Controllers.limits svc req.amb m)).1 := by
    unfold Controllers.put
    rw [if_neg hrouted, if_neg hcontact, if_neg hybrid]
  rw [hput]
  rcases update_rows w.now with ⟨-, hrows⟩ | ⟨checked, db₁, b, hchecked, hrelated, -, hrows⟩
  · refine idsFrom_of_rows fun t ht => ?_
    have hafter := hrows t (record_routed ht)
    rw [Store.rows] at hafter
    rw [hafter]
    exact List.Subset.refl _
  · have hrest : Dict.AgreeOff touchedKeys checked b :=
      (updateRelateds_agree hrelated).mono (restRelated_touched m)
    intro t ht record hrecord
    have hafter := hrows t (record_routed ht)
    rw [Store.rows] at hafter
    rw [hafter] at hrecord
    by_cases htm : t = m
    · subst htm
      rw [if_pos rfl] at hrecord
      obtain ⟨old, hold, rfl⟩ := List.mem_map.mp hrecord
      refine Or.inr ⟨old, hold, ?_⟩
      split_ifs with hid
      · rw [← BasicCrud.write_id hchecked hid]
        exact (write_congr old (hrest "id" (by decide))).symm
      · rfl
    · rw [if_neg htm] at hrecord
      exact Or.inr ⟨record, hrecord, rfl⟩

/-- A request leaves the ids of the records, and those of new ones are drawn. -/
theorem handle_idsFrom (svc : Service) (w : World) (req : Request) (call : Call) :
    IdsFrom req w.db.1 (handle svc w req call).1.db.1 := by
  by_cases hput : ∃ m id body, call = .put m id body
  · obtain ⟨m, id, body, rfl⟩ := hput
    exact put_idsFrom
  · refine (handle_commits svc w req call).relation (R := fun db db' => IdsFrom req db.1 db'.1)
      (fun db => IdsFrom.refl db.1) (fun _ _ _ => IdsFrom.trans) fun _ _ =>
        commit_idsFrom fun m id body h => hput ⟨m, id, body, h⟩

/-! ### Runs -/

/-- A purge that is carried out leaves no record with the id. -/
theorem purges_absent (hm : m ∈ recordModels) (hpurge : call.Purges m id)
    (hdone : (handle svc w req call).2.status = 204 ∨ (handle svc w req call).2.status = 404) :
    byId (handle svc w req call).1.db m id = [] := by
  cases call with
  | delete m' ids force =>
      obtain ⟨rfl, hid, rfl⟩ := hpurge
      have hrouted : ¬ m' ∉ Controllers.routed := not_not.mpr (record_routed hm)
      simp only [handle, Controllers.delete, if_neg hrouted] at hdone ⊢
      obtain ⟨names, hnames, -, hgone⟩ := (delete_allOrNothing m' ids true).taken hdone
      refine hgone.1 (m', id) ?_
      have hmem : some (m', id) ∈ names.map some := hnames ▸ List.mem_map_of_mem (f := fun id => some (m', id)) hid
      simpa using hmem
  | trashDelete ids =>
      obtain ⟨name, hname, hnamed⟩ := hpurge
      obtain ⟨names, hnames, -, hgone⟩ := (trashDelete_allOrNothing ids).taken hdone
      refine hgone.1 (m, id) ?_
      have hmem : some (m, id) ∈ names.map some := hnames ▸ hnamed ▸ List.mem_map_of_mem hname
      simpa using hmem
  | _ => exact hpurge.elim

/-- What is not there does not come as long as its id is not drawn. -/
theorem absent_stays {es : List Event} (hm : m ∈ recordModels) (habsent : byId w.db m id = [])
    (hfresh : (machine svc).Along (fun _ e => ¬ e.req.Draws (.str id)) w es) :
    byId ((machine svc).run w es).db m id = [] := by
  refine Machine.invariant (I := fun w => byId w.db m id = []) (fun w e habsent hnew => ?_) hfresh habsent
  refine List.filter_eq_nil_iff.mpr fun record hrecord hid => ?_
  have hrecordId : record "id" = .str id := of_decide_eq_true hid
  rcases handle_idsFrom svc (w.at e) e.req e.call m hm record hrecord with hdrawn | ⟨old, hold, hsame⟩
  · exact hnew (hrecordId ▸ hdrawn)
  · have hkept : old ∈ byId w.db m id :=
      List.mem_filter.mpr ⟨hold, decide_eq_true (hsame.trans hrecordId)⟩
    rw [habsent] at hkept
    cases hkept

/-- What was purged is gone, whatever is requested later, as long as its id is not drawn once more. -/
theorem purged_gone {e : Event} {es : List Event} (hm : m ∈ recordModels) (hpurge : e.call.Purges m id)
    (hdone : ((machine svc).out w e).status = 204 ∨ ((machine svc).out w e).status = 404)
    (hfresh : (machine svc).Along (fun _ e => ¬ e.req.Draws (.str id)) ((machine svc).next w e) es) :
    byId ((machine svc).run w (e :: es)).db m id = [] :=
  absent_stays (w := (machine svc).next w e) hm (purges_absent (w := w.at e) hm hpurge hdone) hfresh

/-- The second contact of the other user is deleted for good, and a third one made. -/
theorem secondContact_gone :
    byId ((machine Seed.service).run ((machine Seed.service).next quotaWorld
      (ofSecond "q1" (.post .contact (secondContact "second@example.org" [])))) [
        ofSecond "q2" (.delete .contact ["x-q1"] true),
        ofSecond "q3" (.post .contact (secondContact "second@example.org" []))]).db .contact "x-q1" = [] := by
  refine purged_gone (by decide) ⟨rfl, by decide, rfl⟩ (Or.inl (by decide +kernel)) ⟨?_, trivial⟩
  rintro ⟨pre, hpre, draw, hid⟩
  revert hpre hid
  simp only [List.mem_cons, List.not_mem_nil, or_false]
  rintro (rfl | rfl) <;> cases draw <;> decide

/-- An id that is drawn once more brings another record under it. -/
example : byId ((machine Seed.service).run quotaWorld [
    ofSecond "q1" (.post .contact (secondContact "second@example.org" [])),
    ofSecond "q2" (.delete .contact ["x-q1"] true),
    ofSecond "q1" (.post .contact (secondContact "third@example.org" []))]).db .contact "x-q1" ≠ [] := by
  decide +kernel

end Apicrud
