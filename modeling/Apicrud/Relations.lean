import Apicrud.Creates

/-! # Related records

`_update_related` adds to an association what is missing, takes away what is not asked for, and commits
once.  A call that is answered with 200 leaves exactly the records that were asked for, and asking again
changes nothing; any other call leaves what was committed (`related_exact`).  `updateRelateds_cons` places
the call in `update`. -/

namespace Apicrud

open Relational

variable {db db' : Database} {m : Model} {id : String} {rel : Related} {ids : List String}
  {limit : Option ℕ}

namespace BasicCrud

/-- `_update_related` -/
def updateRelatedWithin (db : Database) (m : Model) (id : String) (rel : Related) (ids : List String)
    (limit : Option ℕ) : Database × Except Exc Response :=
  if limit.getD 0 ≠ 0 ∧ limit.getD 0 < ids.length then
    (db, .ok ⟨Dict.ofList [("message", .str "Limit exceeded"), ("allowed", .int (limit.getD 0))], 405⟩)
  else
    match updateRelated db m id rel (.list ids) with
    | .ok db => (db, .ok ⟨Dict.ofList [("id", .str id), ("status", .str "ok"),
        ("items", .int ids.length)], 200⟩)
    | .error e => (db, .error e)

/-- This is the call that `update` makes for each attribute that the body names. -/
theorem updateRelateds_cons {limits : List (String × Val)} {rels : List Related} {body : Dict}
    (hbody : body.get rel.attr = .list ids) (hlimit : (limits.lookup rel.attr).getD .none =
      (limit.map fun n : ℕ => Val.int n).getD .none) :
    updateRelateds m id limits db (rel :: rels) body =
      let r := updateRelatedWithin db m id rel ids limit
      match r.2 with
      | .ok answer =>
          if answer.status = 200 then updateRelateds m id limits r.1 rels (body.pop rel.attr)
          else (r.1, .error answer)
      | .error _ => (r.1, .error .raised) := by
  have hmem : rel.attr ∈ body := Dict.mem_of_get (by rw [hbody]; nofun)
  have hitems : (Val.list ids).items = some ids := rfl
  rw [updateRelateds, if_pos hmem, hbody, hlimit, hitems]
  unfold updateRelatedWithin
  cases limit with
  | none =>
      cases updateRelated db m id rel (.list ids) <;> simp
  | some n =>
      have htruthy : (Val.int n).truthy = decide (n ≠ 0) := by cases n <;> rfl
      by_cases hexceeds : n ≠ 0 ∧ n < ids.length
      · simp [exceeds, htruthy, hexceeds.1, hexceeds.2]
      · cases updateRelated db m id rel (.list ids) <;> simp [exceeds, htruthy, hexceeds]

end BasicCrud

/-! ### The rows of the association -/

/-- The rows of an association table are named by the two records. -/
theorem assoc_key (hrel : rel ∈ m.restRelated) :
    (∃ key ∈ schema.unique rel.assoc, ∀ c ∈ key, c = rel.here ∨ c = rel.there) ∧
      rel.here ∈ schema.notNull rel.assoc ∧ rel.there ∈ schema.notNull rel.assoc := by
  cases m
  case apikey | list | person =>
    obtain rfl := List.mem_singleton.mp hrel
    decide
  all_goals cases hrel

/-- No record is related twice. -/
theorem currentRelated_nodup (hrel : rel ∈ m.restRelated) (db : Database) (id : String) :
    (BasicCrud.currentRelated db rel id).Nodup := by
  obtain ⟨⟨key, hkey, hcolumns⟩, hhere, hthere⟩ := assoc_key hrel
  unfold BasicCrud.currentRelated
  rw [List.Nodup, List.pairwise_map]
  refine ((db.pairwise_key hkey).filter _).imp_of_mem fun {r r'} hr hr' hne heq => hne ⟨?_, ?_⟩
  all_goals
    obtain ⟨hr, hid⟩ := List.mem_filter.mp hr
    obtain ⟨hr', hid'⟩ := List.mem_filter.mp hr'
    intro c hc
    rcases hcolumns c hc with rfl | rfl
  · exact db.ne_none hr hhere
  · exact db.ne_none hr hthere
  · exact (of_decide_eq_true hid).trans (of_decide_eq_true hid').symm
  · exact heq

/-- The association is what was asked for, and no other has changed. -/
structure Related.Becomes (rel : Related) (db : Database) (id : String) (ids : List String)
    (db' : Database) : Prop where
  asked : ∀ v, v ∈ BasicCrud.currentRelated db' rel id ↔ v ∈ ids.map Val.str
  once : (BasicCrud.currentRelated db' rel id).Nodup
  others : (db'.rows rel.assoc).filter (fun r => decide (r rel.here ≠ .str id)) =
    (db.rows rel.assoc).filter fun r => decide (r rel.here ≠ .str id)
  tables : ∀ t ≠ rel.assoc, db'.rows t = db.rows t

theorem rows_rewriteAssoc (h : db'.1 = BasicCrud.rewriteAssoc db rel id ids) : db'.rows rel.assoc =
    (db.rows rel.assoc).filter (fun r => decide (r rel.here = .str id → r rel.there ∈ ids.map Val.str)) ++
      (ids.dedup.filter fun x => decide (Val.str x ∉ BasicCrud.currentRelated db rel id)).map
        (linkRow rel id) := by
  rw [Store.rows, h]
  exact Function.update_self _ _ _

theorem becomes_of_rewrite (hrel : rel ∈ m.restRelated)
    (h : db'.1 = BasicCrud.rewriteAssoc db rel id ids) : rel.Becomes db id ids db' := by
  have hrows := rows_rewriteAssoc h
  refine ⟨fun v => ⟨fun hv => ?_, fun hv => ?_⟩, currentRelated_nodup hrel db' id, ?_, fun t ht => ?_⟩
  · obtain ⟨r, hr, rfl⟩ := List.mem_map.mp hv
    obtain ⟨hr, hid⟩ := List.mem_filter.mp hr
    rw [hrows] at hr
    rcases List.mem_append.mp hr with hkept | hadded
    · exact of_decide_eq_true (List.mem_filter.mp hkept).2 (of_decide_eq_true hid)
    · obtain ⟨x, hx, rfl⟩ := List.mem_map.mp hadded
      rw [linkRow_there hrel]
      exact List.mem_map_of_mem (List.mem_dedup.mp (List.mem_of_mem_filter hx))
  · obtain ⟨x, hx, rfl⟩ := List.mem_map.mp hv
    unfold BasicCrud.currentRelated
    rw [hrows]
    by_cases hcurrent : Val.str x ∈ BasicCrud.currentRelated db rel id
    · obtain ⟨r, hr, hthere⟩ := List.mem_map.mp hcurrent
      obtain ⟨hr, hid⟩ := List.mem_filter.mp hr
      have hkept : decide (r rel.here = .str id → r rel.there ∈ ids.map Val.str) = true :=
        decide_eq_true fun _ => hthere ▸ hv
      refine List.mem_map.mpr ⟨r, List.mem_filter.mpr ⟨?_, hid⟩, hthere⟩
      exact List.mem_append_left _ (List.mem_filter.mpr ⟨hr, hkept⟩)
    · refine List.mem_map.mpr ⟨linkRow rel id x, List.mem_filter.mpr ⟨?_, ?_⟩, linkRow_there hrel⟩
      · refine List.mem_append_right _ (List.mem_map_of_mem (List.mem_filter.mpr ⟨?_, ?_⟩))
        · exact List.mem_dedup.mpr hx
        · exact decide_eq_true hcurrent
      · exact decide_eq_true linkRow_here
  · have hkept : ∀ r : Row, (decide (r rel.here ≠ .str id) &&
        decide (r rel.here = .str id → r rel.there ∈ ids.map Val.str)) =
          decide (r rel.here ≠ .str id) := by
      intro r
      by_cases hid : r rel.here = .str id <;> simp [hid]
    have hadded : ∀ links : List String, (links.map (linkRow rel id)).filter (fun r =>
        decide (r rel.here ≠ .str id)) = [] := by
      intro links
      refine List.filter_eq_nil_iff.mpr fun r hr => ?_
      obtain ⟨x, -, rfl⟩ := List.mem_map.mp hr
      simp [linkRow_here]
    rw [hrows, List.filter_append, List.filter_filter, hadded, List.append_nil]
    simp only [hkept]
  · rw [Store.rows, h]
    exact Function.update_of_ne ht _ _

/-- An association that is what was asked for is rewritten to itself. -/
theorem Related.Becomes.rewrite (h : rel.Becomes db id ids db') :
    BasicCrud.rewriteAssoc db' rel id ids = db'.1 := by
  have hkept : (db'.rows rel.assoc).filter (fun r =>
      decide (r rel.here = .str id → r rel.there ∈ ids.map Val.str)) = db'.rows rel.assoc := by
    refine List.filter_eq_self.mpr fun r hr => decide_eq_true fun hid => (h.asked _).mp ?_
    exact List.mem_map.mpr ⟨r, List.mem_filter.mpr ⟨hr, decide_eq_true hid⟩, rfl⟩
  have hadded : ids.dedup.filter (fun x => decide (Val.str x ∉ BasicCrud.currentRelated db' rel id)) =
      [] := by
    refine List.filter_eq_nil_iff.mpr fun x hx hnew => of_decide_eq_true hnew ((h.asked _).mpr ?_)
    exact List.mem_map_of_mem (List.mem_dedup.mp hx)
  unfold BasicCrud.rewriteAssoc
  simp only [hkept, hadded, List.map_nil, List.append_nil]
  exact Function.update_eq_self _ _

/-- No more than what was asked for is there. -/
theorem Related.Becomes.length_le (h : rel.Becomes db id ids db') :
    (BasicCrud.currentRelated db' rel id).length ≤ ids.length := by
  have hsubset : BasicCrud.currentRelated db' rel id ⊆ ids.map Val.str := fun v => (h.asked v).mp
  calc (BasicCrud.currentRelated db' rel id).length
      ≤ (ids.map Val.str).length := (h.once.subperm hsubset).length_le
    _ = ids.length := List.length_map _

/-! ### The call -/

/-- What the call asks for can be had. -/
structure Related.Granted (rel : Related) (db : Database) (m : Model) (id : String) (ids : List String)
    (limit : Option ℕ) : Prop where
  within : ¬ (limit.getD 0 ≠ 0 ∧ limit.getD 0 < ids.length)
  record : byId db m id ≠ []
  exist : ∀ x ∈ ids, Val.str x ∉ BasicCrud.currentRelated db rel id → byId db rel.target x ≠ []

/-- The answer is 200. -/
def Succeeds (r : Database × Except Exc Response) : Prop :=
  r.2.toOption.map Response.status = some 200

instance (r : Database × Except Exc Response) : Decidable (Succeeds r) :=
  inferInstanceAs (Decidable (_ = _))

theorem updateRelated_eq_ok (hrel : rel ∈ m.restRelated) :
    BasicCrud.updateRelated db m id rel (.list ids) = .ok db' ↔ (byId db m id ≠ [] ∧
      ∀ x ∈ ids, Val.str x ∉ BasicCrud.currentRelated db rel id → byId db rel.target x ≠ []) ∧
      db'.1 = BasicCrud.rewriteAssoc db rel id ids := by
  constructor
  · intro h
    obtain ⟨ids', hitems, hrow, hids, hdb⟩ := updateRelated_ok h
    cases hitems
    exact ⟨⟨hrow, hids⟩, hdb⟩
  · rintro ⟨⟨hrow, hids⟩, hdb⟩
    refine Checks.bind_eq_ok.mpr ⟨(), Checks.ensure_eq_ok.mpr hrow, ?_⟩
    refine Checks.bind_eq_ok.mpr ⟨(), Checks.ensure_eq_ok.mpr hids, ?_⟩
    rw [schema.store_of_valid (valid_rewrite hrel hrow hids)]
    exact congrArg Except.ok (Subtype.ext hdb.symm)

/-- What is asked for and can be had is made so; nothing else happens to the database. -/
theorem updateRelatedWithin_cases (hrel : rel ∈ m.restRelated) (db : Database) (id : String)
    (ids : List String) (limit : Option ℕ) :
    (rel.Granted db m id ids limit ∧ ∃ db', rel.Becomes db id ids db' ∧
      BasicCrud.updateRelatedWithin db m id rel ids limit = (db', .ok ⟨Dict.ofList
        [("id", .str id), ("status", .str "ok"), ("items", .int ids.length)], 200⟩)) ∨
    (¬ rel.Granted db m id ids limit ∧ (BasicCrud.updateRelatedWithin db m id rel ids limit).1 = db ∧
      ¬ Succeeds (BasicCrud.updateRelatedWithin db m id rel ids limit)) := by
  unfold BasicCrud.updateRelatedWithin
  by_cases hexceeds : limit.getD 0 ≠ 0 ∧ limit.getD 0 < ids.length
  · rw [if_pos hexceeds]
    refine Or.inr ⟨fun hgranted => hgranted.within hexceeds, rfl, ?_⟩
    simp [Succeeds, Except.toOption]
  · rw [if_neg hexceeds]
    cases hup : BasicCrud.updateRelated db m id rel (.list ids) with
    | ok db₁ =>
        obtain ⟨⟨hrow, hids⟩, hdb⟩ := (updateRelated_eq_ok hrel).mp hup
        exact Or.inl ⟨⟨hexceeds, hrow, hids⟩, db₁, becomes_of_rewrite hrel hdb, rfl⟩
    | error e =>
        refine Or.inr ⟨fun hgranted => ?_, rfl, by simp [Succeeds, Except.toOption]⟩
        have hvalid := valid_rewrite hrel hgranted.record hgranted.exist
        have hok : BasicCrud.updateRelated db m id rel (.list ids) = .ok ⟨_, hvalid⟩ :=
          (updateRelated_eq_ok hrel).mpr ⟨⟨hgranted.record, hgranted.exist⟩, rfl⟩
        rw [hok] at hup
        cases hup

/-- The record is still there when its association was rewritten, and all that was asked for is related. -/
theorem Related.Becomes.granted (hrel : rel ∈ m.restRelated) (h : rel.Becomes db id ids db')
    (hgranted : rel.Granted db m id ids limit) : rel.Granted db' m id ids limit where
  within := hgranted.within
  record := by
    unfold byId
    rw [h.tables m (related_proper hrel).assoc_ne.symm]
    exact hgranted.record
  exist x hx hnew := absurd ((h.asked _).mpr (List.mem_map_of_mem hx)) hnew

/-- `_update_related` is answered with 200 just when what is asked for can be had.  The association is then
what was asked for and no larger than the limit; else the database is as it was.  A second call with the
same list ends as the first did. -/
theorem related_exact (m : Model) (rel : Related) (hrel : rel ∈ m.restRelated) (db : Database)
    (id : String) (ids : List String) (limit : Option ℕ) (hlimit : ∀ n ∈ limit, 1 ≤ n) :
    let r := BasicCrud.updateRelatedWithin db m id rel ids limit
    (Succeeds r ↔ rel.Granted db m id ids limit) ∧
      (Succeeds r → rel.Becomes db id ids r.1 ∧
        ∀ n ∈ limit, (BasicCrud.currentRelated r.1 rel id).length ≤ n) ∧
      (¬ Succeeds r → r.1 = db) ∧
      BasicCrud.updateRelatedWithin r.1 m id rel ids limit = r := by
  intro r
  rcases updateRelatedWithin_cases hrel db id ids limit with
    ⟨hgranted, db₁, hbecomes, hr⟩ | ⟨hrefused, hdb, hr⟩
  · have hsucceeds : Succeeds r := by
      show Succeeds (BasicCrud.updateRelatedWithin db m id rel ids limit)
      rw [hr]
      rfl
    have hr₁ : r.1 = db₁ := congrArg Prod.fst hr
    refine ⟨iff_of_true hsucceeds hgranted, fun _ => ?_, fun h => absurd hsucceeds h, ?_⟩
    · rw [hr₁]
      refine ⟨hbecomes, fun n hn => ?_⟩
      obtain rfl : limit = some n := hn
      have hn := hlimit n rfl
      have hwithin : ¬ (n ≠ 0 ∧ n < ids.length) := hgranted.within
      have hlength := hbecomes.length_le
      omega
    · rcases updateRelatedWithin_cases hrel db₁ id ids limit with
        ⟨_, db₂, _, hr₂⟩ | ⟨hrefused, _⟩
      · have hok := (updateRelated_eq_ok hrel).mpr ⟨⟨(hbecomes.granted hrel hgranted).record,
          (hbecomes.granted hrel hgranted).exist⟩, hbecomes.rewrite.symm⟩
        rw [hr₁]
        show BasicCrud.updateRelatedWithin db₁ m id rel ids limit =
          BasicCrud.updateRelatedWithin db m id rel ids limit
        rw [hr]
        unfold BasicCrud.updateRelatedWithin
        rw [if_neg hgranted.within, hok]
      · exact absurd (hbecomes.granted hrel hgranted) hrefused
  · refine ⟨iff_of_false hr hrefused, fun h => absurd h hr, fun _ => hdb, ?_⟩
    show BasicCrud.updateRelatedWithin (BasicCrud.updateRelatedWithin db m id rel ids limit).1 m id rel
      ids limit = BasicCrud.updateRelatedWithin db m id rel ids limit
    rw [hdb]

/-- A list with one member. -/
def teamRows : List (Model × Row) :=
  [(.list, Seed.row .list [("id", .str "x-team"), ("name", .str "team"), ("uid", .str "x-23450001"),
      ("category_id", .str "x-3423ceaf"), ("privacy", .str "member"), ("status", .str "active")]),
    (.listMember, Seed.row .listMember [("uid", .str "u-0002"), ("list_id", .str "x-team")])]

/-- The seeded database with the list. -/
def team : Database := ⟨Seed.tables (Seed.records ++ Seed.member ++ teamRows), by decide +kernel⟩

/-- The members of a list. -/
def members : Related := ⟨"members", .person, .listMember, "list_id", "uid"⟩

/-- The member is exchanged for another, who is named twice. -/
theorem team_exchanged :
    let ids := ["x-23450001", "x-23450001"]
    let r := BasicCrud.updateRelatedWithin team .list "x-team" members ids (some 2)
    BasicCrud.currentRelated team members "x-team" = [.str "u-0002"] ∧
      (∀ v, v ∈ BasicCrud.currentRelated r.1 members "x-team" ↔ v ∈ ids.map Val.str) ∧
      BasicCrud.updateRelatedWithin r.1 .list "x-team" members ids (some 2) = r := by
  intro ids r
  have hsucceeds : Succeeds r := by decide +kernel
  have h := related_exact .list members (List.mem_singleton_self _) team "x-team" ids (some 2)
    (fun n hn => by cases hn; decide)
  exact ⟨by decide +kernel, (h.2.1 hsucceeds).1.asked, h.2.2.2⟩

end Apicrud
