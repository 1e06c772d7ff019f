import Apicrud.Commits
import Apicrud.Seed

/-! # What a create request leaves

`create` checks, inserts the record and commits, and only then sees to the related records, each association
table with a commit of its own; the contact of a new person comes after that.  `create_cases` says how far
a request gets, `updateRelated_iff` when the links of a new record can be made, and
`creates_allOrNothing_iff` when a request leaves either all that it asked for or nothing. -/

namespace Apicrud

open Relational Dict

/-! ### Refusals -/

/-- An answer by which a request is refused. -/
def Response.Refuses (answer : Response) : Prop :=
  answer.status = 403 ∨ answer.status = 405 ∨ answer.status = 500

variable {svc : Service} {db db' : Database} {acc : Access} {amb : Ambient} {now : ℕ} {m : Model}
  {body body' : Dict} {pre : String} {limits : List (String × Val)} {p : BasicCrud.Prepared}
  {answer : Response} {rel : Related} {id : String} {value : Val}

theorem raised_refuses : Response.Refuses .raised := Or.inr (Or.inr rfl)

theorem Response.Refuses.ne_created (h : answer.Refuses) : answer.status ≠ 201 := by
  unfold Response.Refuses at h
  omega

theorem contactInfo_refuses (h : BasicCrud.contactInfo svc body = .error answer) : answer.Refuses := by
  unfold BasicCrud.contactInfo at h
  split_ifs at h
  · cases h
    exact Or.inr (Or.inl rfl)
  · cases hinfo : body.get "info" with
    | str info =>
        rw [hinfo] at h
        simp only at h
        split_ifs at h
        cases h
        exact Or.inr (Or.inl rfl)
    | none | bool _ | int _ | time _ | list _ =>
        rw [hinfo] at h
        cases h
        exact raised_refuses
  · cases hinfo : body.get "info" with
    | str info =>
        rw [hinfo] at h
        simp only at h
        cases hnormal : svc.lib.identityNormalize (.str (Text.strip info)) with
        | str info' =>
            rw [hnormal] at h
            simp only at h
            split_ifs at h
            cases h
            exact Or.inr (Or.inl rfl)
        | none | bool _ | int _ | time _ | list _ =>
            rw [hnormal] at h
            cases h
            exact raised_refuses
    | none | bool _ | int _ | time _ | list _ =>
        rw [hinfo] at h
        cases h
        exact raised_refuses

theorem createContact_refuses (h : BasicCrud.createContact svc db acc body = .error answer) :
    answer.Refuses := by
  rcases Checks.bind_eq_error.mp h with h | ⟨body₁, -, h⟩
  · exact contactInfo_refuses h
  rcases Checks.bind_eq_error.mp h with h | ⟨_, -, h⟩
  · obtain ⟨-, rfl⟩ := Checks.ensure_eq_error.mp h
    exact Or.inr (Or.inl rfl)
  rcases Checks.bind_eq_error.mp h with h | ⟨_, -, h⟩
  · unfold BasicCrud.ownContact at h
    split_ifs at h
    rcases Checks.bind_eq_error.mp h with h | ⟨_, -, h⟩
    · obtain ⟨-, rfl⟩ := Checks.ensure_eq_error.mp h
      exact raised_refuses
    · obtain ⟨-, rfl⟩ := Checks.ensure_eq_error.mp h
      exact Or.inl rfl
  · cases h

theorem convertExpires_status (h : BasicCrud.convertExpires svc body = .error answer) :
    answer.status = 405 := by
  unfold BasicCrud.convertExpires at h
  split_ifs at h
  cases hvalue : body.get "expires" with
  | str date =>
      rw [hvalue] at h
      simp only at h
      cases hdate : svc.lib.fromdate date with
      | some t =>
          rw [hdate] at h
          cases h
      | none =>
          rw [hdate] at h
          cases h
          rfl
  | none | bool _ | int _ | time _ | list _ =>
      rw [hvalue] at h
      cases h
      rfl

theorem defaultCategory_refuses (h : BasicCrud.defaultCategory acc amb m body = .error answer) :
    answer.Refuses := by
  unfold BasicCrud.defaultCategory at h
  split_ifs at h
  · cases hcategory : amb.categoryId with
    | some category =>
        rw [hcategory] at h
        cases h
    | none =>
        rw [hcategory] at h
        cases h
        exact raised_refuses
  · cases h
    exact raised_refuses
  · cases h
    exact Or.inl rfl

theorem checkQuota_refuses {uid : Val} (h : BasicCrud.checkQuota svc db amb m uid = .error answer) :
    answer.Refuses := by
  unfold BasicCrud.checkQuota at h
  split_ifs at h
  · simp only at h
    revert h
    generalize exceeds _ (amb.grants (BasicCrud.grantName m.resource)) = exceeded
    intro h
    match exceeded with
    | some false => cases h
    | some true =>
        cases h
        exact Or.inr (Or.inl rfl)
    | none =>
        cases h
        exact raised_refuses
  · cases h
    exact raised_refuses

theorem checkLimits_refuses {rels : List Related}
    (h : BasicCrud.checkLimits limits body rels = .error answer) : answer.Refuses := by
  induction rels with
  | nil => cases h
  | cons rel rels ih =>
      rw [BasicCrud.checkLimits] at h
      cases hlimit : limits.lookup rel.attr with
      | none =>
          rw [hlimit] at h
          exact ih h
      | some limit =>
          rw [hlimit] at h
          simp only at h
          split_ifs at h
          · cases hitems : (body.get rel.attr).items with
            | none =>
                rw [hitems] at h
                cases h
                exact raised_refuses
            | some ids =>
                rw [hitems] at h
                revert h
                simp only
                match exceeds ids.length limit with
                | none =>
                    intro h
                    cases h
                    exact raised_refuses
                | some true =>
                    intro h
                    cases h
                    exact Or.inr (Or.inl rfl)
                | some false => exact ih
          · exact ih h

/-- A request that does not pass the checks is refused. -/
theorem prepare_refuses (h : BasicCrud.prepare svc db acc amb now m body pre limits = .error answer) :
    answer.Refuses := by
  rcases Checks.bind_eq_error.mp h with h | ⟨body₁, -, h⟩
  · unfold BasicCrud.preCheck at h
    split_ifs at h
    exact createContact_refuses h
  rcases Checks.bind_eq_error.mp h with h | ⟨_, -, h⟩
  · obtain ⟨-, rfl⟩ := Checks.ensure_eq_error.mp h
    exact Or.inr (Or.inl rfl)
  rcases Checks.bind_eq_error.mp h with h | ⟨body₂, -, h⟩
  · exact Or.inr (Or.inl (convertExpires_status h))
  rcases Checks.bind_eq_error.mp h with h | ⟨allowed, -, h⟩
  · cases hrbac : AccessControl.withPermission svc.policies db acc m 'c'
        { ownerUid := (BasicCrud.withOwner acc m body₂).get "uid"
          membership := some svc.policies.privateResource
          id := (BasicCrud.withOwner acc m body₂).get "event_id" } with
    | ok allowed =>
        rw [hrbac] at h
        cases h
    | error e =>
        rw [hrbac] at h
        cases h
        exact raised_refuses
  rcases Checks.bind_eq_error.mp h with h | ⟨_, -, h⟩
  · obtain ⟨-, rfl⟩ := Checks.ensure_eq_error.mp h
    exact Or.inl rfl
  rcases Checks.bind_eq_error.mp h with h | ⟨body₃, -, h⟩
  · exact defaultCategory_refuses h
  rcases Checks.bind_eq_error.mp h with h | ⟨_, -, h⟩
  · exact checkQuota_refuses h
  rcases Checks.bind_eq_error.mp h with h | ⟨_, -, h⟩
  · exact checkLimits_refuses h
  rcases Checks.bind_eq_error.mp h with h | ⟨drawn, -, h⟩
  · unfold BasicCrud.drawKey at h
    split_ifs at h
    cases h
    exact raised_refuses
  rcases Checks.bind_eq_error.mp h with h | ⟨_, -, h⟩
  · obtain ⟨-, rfl⟩ := Checks.ensure_eq_error.mp h
    exact Or.inr (Or.inl rfl)
  · cases h

/-! ### New rows -/

theorem newRow_of_ne {c : String} (h : body.get c ≠ .none) : BasicCrud.newRow m body c = body.get c :=
  schema.fill_of_ne h

theorem record_cell {cells : List (String × Val)} {c : String} {v : Val}
    (h : (Dict.ofList cells).get c = v) (hv : v ≠ .none) : record m cells c = v :=
  (newRow_of_ne (by rwa [h])).trans h

theorem default_isCell (m : Model) (c : String) :
    (((schema.defaults m).lookup c).getD .none).IsCell := by
  have hall : ∀ e ∈ schema.defaults m, e.2.IsCell := by cases m <;> decide
  cases hdefault : (schema.defaults m).lookup c with
  | none => trivial
  | some v =>
      obtain ⟨before, after, hsplit, -⟩ := List.lookup_eq_some_iff.mp hdefault
      refine hall (c, v) ?_
      rw [hsplit]
      exact List.mem_append_right _ List.mem_cons_self

/-- A row takes its cells from the body, and the others from the defaults. -/
theorem newRow_isCell (h : ∀ c, (body.get c).IsCell) (c : String) :
    (BasicCrud.newRow m body c).IsCell := by
  unfold BasicCrud.newRow Schema.fill
  split_ifs
  · exact default_isCell m c
  · exact h c

/-- A column is filled by the body or by its default. -/
theorem newRow_ne_none {c : String}
    (h : body.get c ≠ .none ∨ ((schema.defaults m).lookup c).getD .none ≠ .none) :
    BasicCrud.newRow m body c ≠ .none := by
  unfold BasicCrud.newRow Schema.fill
  split_ifs with hnone
  · exact h.resolve_left fun hne => hne hnone
  · exact hnone

/-! ### How far a request gets -/

/-- The record of a request is committed: the checks pass, and the database takes the row. -/
def Inserts (svc : Service) (db : Database) (acc : Access) (amb : Ambient) (now : ℕ) (m : Model)
    (body : Dict) (pre : String) (limits : List (String × Val)) (p : BasicCrud.Prepared)
    (db₁ : Database) : Prop :=
  BasicCrud.prepare svc db acc amb now m body pre limits = .ok p ∧
    schema.store (db.1.insert m (BasicCrud.newRow m p.body)) = .ok db₁

/-- The answer to a request that gets through. -/
def BasicCrud.Prepared.answered (p : BasicCrud.Prepared) (id : String) : Response :=
  ⟨Dict.ofList (("id", .str id) :: p.answer), 201⟩

theorem conflict_refuses (error : StoreError) : (conflict error).Refuses := by
  cases error with
  | integrity => exact Or.inr (Or.inl rfl)
  | statement => exact Or.inr (Or.inr rfl)

/-- A request is refused with nothing written, or goes on to the related records. -/
theorem create_cases (svc : Service) (db : Database) (acc : Access) (amb : Ambient) (now : ℕ)
    (m : Model) (body : Dict) (pre : String) (limits : List (String × Val)) :
    ((∀ p db₁, ¬ Inserts svc db acc amb now m body pre limits p db₁) ∧
      ∃ answer, BasicCrud.create svc db acc amb now m body pre limits = (db, answer) ∧
        answer.Refuses) ∨
    ∃ p db₁, Inserts svc db acc amb now m body pre limits p db₁ ∧
      BasicCrud.create svc db acc amb now m body pre limits =
        BasicCrud.createRelated m (amb.genIdWith pre .record)
          (p.answered (amb.genIdWith pre .record)) db₁ p.related := by
  unfold BasicCrud.create Inserts
  cases hp : BasicCrud.prepare svc db acc amb now m body pre limits with
  | error answer =>
      refine Or.inl ⟨fun p db₁ h => ?_, answer, rfl, prepare_refuses hp⟩
      cases h.1
  | ok p =>
      simp only
      cases hstore : schema.store (db.1.insert m (BasicCrud.newRow m p.body)) with
      | error error =>
          refine Or.inl ⟨fun p' db₁ h => ?_, conflict error, rfl, conflict_refuses error⟩
          obtain ⟨hp', hstore'⟩ := h
          cases hp'
          rw [hstore] at hstore'
          cases hstore'
      | ok db₁ => exact Or.inr ⟨p, db₁, ⟨rfl, hstore⟩, rfl⟩

/-! ### Related records -/

theorem relatedOf_congr {keys : List String} (h : AgreeOff keys body body')
    (hkeys : ∀ rel ∈ m.restRelated, rel.attr ∉ keys) :
    BasicCrud.relatedOf m body' = BasicCrud.relatedOf m body := by
  refine List.filterMap_congr fun rel hrel => ?_
  obtain ⟨hmem, hget⟩ := h rel.attr (hkeys rel hrel)
  simp only [hmem, hget]

/-- What is to be related comes from the request as it was sent. -/
theorem prepare_related (h : BasicCrud.prepare svc db acc amb now m body pre limits = .ok p) :
    p.related = BasicCrud.relatedOf m body := by
  obtain ⟨body₁, h₁, h⟩ := Checks.bind_eq_ok.mp h
  obtain ⟨_, _, h⟩ := Checks.bind_eq_ok.mp h
  obtain ⟨body₂, h₂, h⟩ := Checks.bind_eq_ok.mp h
  obtain ⟨_, _, h⟩ := Checks.bind_eq_ok.mp h
  obtain ⟨_, _, h⟩ := Checks.bind_eq_ok.mp h
  obtain ⟨body₃, h₃, h⟩ := Checks.bind_eq_ok.mp h
  obtain ⟨_, _, h⟩ := Checks.bind_eq_ok.mp h
  obtain ⟨_, _, h⟩ := Checks.bind_eq_ok.mp h
  obtain ⟨_, _, h⟩ := Checks.bind_eq_ok.mp h
  obtain ⟨_, _, h⟩ := Checks.bind_eq_ok.mp h
  rw [Checks.pure_eq_ok] at h
  subst h
  have hpre : AgreeOff ["info", "rank", "status"] body body₁ := by
    unfold BasicCrud.preCheck at h₁
    split_ifs at h₁
    · exact (createContact_ok h₁).1
    · cases h₁
      exact AgreeOff.refl _ _
  have hall := ((((hpre.trans (withId_agree (amb.genIdWith pre .record) now body₁)).trans
    (convertExpires_agree h₂)).trans (withOwner_agree acc m body₂)).trans
    (defaultCategory_agree h₃)).trans (withStatus_agree m body₃)
  refine relatedOf_congr hall ?_
  cases m <;> decide

/-- A resource has one kind of related records at most. -/
theorem relatedOf_cases (m : Model) (body : Dict) : BasicCrud.relatedOf m body = [] ∨
    ∃ rel ∈ m.restRelated, BasicCrud.relatedOf m body = [(rel, body.get rel.attr)] := by
  have hone : m.restRelated = [] ∨ ∃ rel, m.restRelated = [rel] := by
    cases m
    all_goals first | exact Or.inl rfl | exact Or.inr ⟨_, rfl⟩
  unfold BasicCrud.relatedOf
  rcases hone with hnone | ⟨rel, hrel⟩
  · rw [hnone]
    exact Or.inl rfl
  · rw [hrel]
    by_cases hmem : rel.attr ∈ body
    · exact Or.inr ⟨rel, List.mem_singleton_self rel, by simp [hmem]⟩
    · exact Or.inl (by simp [hmem])

/-- What the schema says of an association table: its rows are references to the two records and named by
both. -/
structure Related.Proper (m : Model) (rel : Related) : Prop where
  assoc_ne : rel.assoc ≠ m
  target_ne : rel.target ≠ m
  id_key : ["id"] ∈ schema.unique m
  columns_ne : rel.there ≠ rel.here
  here : ⟨rel.here, m, true⟩ ∈ schema.foreign rel.assoc
  foreign : ∀ fk ∈ schema.foreign rel.assoc, fk = ⟨rel.here, m, true⟩ ∨ fk = ⟨rel.there, rel.target, true⟩
  keys : ∀ key ∈ schema.unique rel.assoc, rel.here ∈ key ∧ rel.there ∈ key
  untargeted : ∀ t, ∀ fk ∈ schema.foreign t, fk.target ≠ rel.assoc
  enums : schema.enums rel.assoc = []
  /-- a column that is not to be empty has a default -/
  filled : ∀ c ∈ schema.notNull rel.assoc, c = rel.here ∨ c = rel.there ∨
    ((schema.defaults rel.assoc).lookup c).getD .none ≠ .none

theorem related_proper (h : rel ∈ m.restRelated) : rel.Proper m := by
  cases m
  case apikey | list | person =>
    obtain rfl := List.mem_singleton.mp h
    refine ⟨by decide, by decide, by decide, by decide, ?_, ?_, by decide, ?_, rfl, by decide⟩
    · simp [schema, Model.foreign, Model.ownedBy]
    · simp [schema, Model.foreign, Model.ownedBy]
    · intro t fk hfk
      cases t <;> revert hfk fk <;> simp [schema, Model.foreign, Model.ownedBy]
  all_goals cases h

/-- A row of the association table. -/
def linkRow (rel : Related) (id x : String) : Row :=
  record rel.assoc [(rel.here, .str id), (rel.there, .str x)]

/-- The links of a record to the records with the given ids. -/
def linkRows (rel : Related) (id : String) (ids : List String) : List Row :=
  ids.dedup.map (linkRow rel id)

/-- All records that are to be related exist. -/
def Exist (db : Database) (rel : Related) (value : Val) : Prop :=
  ∃ ids, value.items = some ids ∧ ∀ x ∈ ids, byId db rel.target x ≠ []

section links

variable {ids : List String} {x : String}

theorem linkRow_here : linkRow rel id x rel.here = .str id :=
  record_cell (by simp) nofun

theorem currentRelated_unlinked (hnew : ∀ r ∈ db.rows rel.assoc, r rel.here ≠ .str id) :
    BasicCrud.currentRelated db rel id = [] := by
  unfold BasicCrud.currentRelated
  rw [List.filter_eq_nil_iff.mpr fun r hr => by simpa using hnew r hr]
  rfl

/-- The first links of a record come after the rows that are there. -/
theorem rewriteAssoc_unlinked (hnew : ∀ r ∈ db.rows rel.assoc, r rel.here ≠ .str id) :
    BasicCrud.rewriteAssoc db rel id ids =
      Function.update db.1 rel.assoc (db.1 rel.assoc ++ linkRows rel id ids) := by
  have hkept : (db.rows rel.assoc).filter (fun r =>
      decide (r rel.here = .str id → r rel.there ∈ ids.map Val.str)) = db.1 rel.assoc :=
    List.filter_eq_self.mpr fun r hr => decide_eq_true fun hid => absurd hid (hnew r hr)
  have hall : ids.dedup.filter (fun x => decide (Val.str x ∉ BasicCrud.currentRelated db rel id)) =
      ids.dedup :=
    List.filter_eq_self.mpr fun x _ => by simp [currentRelated_unlinked hnew]
  unfold BasicCrud.rewriteAssoc
  simp only [hkept, hall]
  rfl

/-- Records that are related to a new record exist. -/
theorem exist_of_updateRelated (hnew : ∀ r ∈ db.rows rel.assoc, r rel.here ≠ .str id)
    (h : BasicCrud.updateRelated db m id rel value = .ok db') : Exist db rel value := by
  obtain ⟨_, _, h⟩ := Checks.bind_eq_ok.mp h
  cases hitems : value.items with
  | none =>
      rw [hitems] at h
      cases h
  | some ids =>
      rw [hitems] at h
      obtain ⟨_, hids, _⟩ := Checks.bind_eq_ok.mp h
      rw [Checks.ensure_eq_ok, currentRelated_unlinked hnew] at hids
      exact ⟨ids, hitems, fun x hx => hids x hx List.not_mem_nil⟩

variable (hrel : rel ∈ m.restRelated)
include hrel

theorem linkRow_there : linkRow rel id x rel.there = .str x :=
  record_cell (by simp [(related_proper hrel).columns_ne]) nofun

theorem linkRow_cells : schema.CellsOk rel.assoc (linkRow rel id x) := by
  refine ⟨fun c _ => newRow_isCell (fun c => ?_) c, fun e he => ?_⟩
  · simp only [Dict.ofList_cons, Dict.ofList_nil, Dict.get_set, Dict.get_empty]
    split_ifs <;> trivial
  · rw [(related_proper hrel).enums] at he
    cases he

theorem linkRow_notNull {c : String} (hc : c ∈ schema.notNull rel.assoc) : linkRow rel id x c ≠ .none := by
  rcases (related_proper hrel).filled c hc with rfl | rfl | hdefault
  · rw [linkRow_here]
    nofun
  · rw [linkRow_there hrel]
    nofun
  · exact newRow_ne_none (Or.inr hdefault)

/-- A record that does not exist is linked to nothing. -/
theorem unlinked (hnone : byId db m id = []) : ∀ r ∈ db.rows rel.assoc, r rel.here ≠ .str id := by
  intro r hr hid
  rcases db.refers hr (related_proper hrel).here with hnull | ⟨target, htarget, hsame⟩
  · rw [hid] at hnull
    cases hnull
  · have hfound : target ∈ byId db m id :=
      List.mem_filter.mpr ⟨htarget, by simpa [hasId] using hsame.trans hid⟩
    rw [hnone] at hfound
    cases hfound

/-- Any links of a record to records that exist are accepted. -/
theorem valid_rewrite (hrow : byId db m id ≠ [])
    (hexist : ∀ x ∈ ids, Val.str x ∉ BasicCrud.currentRelated db rel id → byId db rel.target x ≠ []) :
    schema.Valid (BasicCrud.rewriteAssoc db rel id ids) := by
  have hproper := related_proper hrel
  have hfound : ∀ {t : Model} {x : String}, byId db t x ≠ [] → ∃ p ∈ db.1 t, p "id" = .str x := by
    intro t x hne
    obtain ⟨p, hp⟩ := List.exists_mem_of_ne_nil _ hne
    obtain ⟨hmem, hid⟩ := List.mem_filter.mp hp
    exact ⟨p, hmem, by simpa [hasId] using hid⟩
  refine Schema.valid_replace db.2 hproper.untargeted ?_ ?_ (fun key hkey => ?_) ?_
  · intro r hr
    obtain hr | ⟨x, -, rfl⟩ := (List.mem_append.mp hr).imp_right List.mem_map.mp
    · exact db.2.1 _ (schema.complete _) r (List.mem_of_mem_filter hr)
    · exact linkRow_cells hrel
  · intro r hr c hc
    obtain hr | ⟨x, -, rfl⟩ := (List.mem_append.mp hr).imp_right List.mem_map.mp
    · exact db.ne_none (List.mem_of_mem_filter hr) hc
    · exact linkRow_notNull hrel hc
  · refine List.pairwise_append.mpr ⟨(db.pairwise_key hkey).filter _, List.pairwise_map.mpr ?_, ?_⟩
    · refine ((List.nodup_dedup ids).filter _).imp fun {x y} hne hclash => hne ?_
      have hsame := hclash.2 rel.there (hproper.keys key hkey).2
      exact Val.str.inj (((linkRow_there hrel).symm.trans hsame).trans (linkRow_there hrel))
    · intro r hr r' hr' hclash
      obtain ⟨x, hx, rfl⟩ := List.mem_map.mp hr'
      have hhere := (hclash.2 rel.here (hproper.keys key hkey).1).trans linkRow_here
      have hthere := (hclash.2 rel.there (hproper.keys key hkey).2).trans (linkRow_there hrel)
      refine of_decide_eq_true (List.mem_filter.mp hx).2 (List.mem_map.mpr ⟨r, ?_, hthere⟩)
      exact List.mem_filter.mpr ⟨List.mem_of_mem_filter hr, decide_eq_true hhere⟩
  · intro r hr fk hfk
    obtain hr | ⟨x, hx, rfl⟩ := (List.mem_append.mp hr).imp_right List.mem_map.mp
    · exact db.refers (List.mem_of_mem_filter hr) hfk
    obtain ⟨hx, hnew⟩ := List.mem_filter.mp hx
    rcases hproper.foreign fk hfk with rfl | rfl
    · obtain ⟨p, hp, hid⟩ := hfound hrow
      exact Or.inr ⟨p, hp, hid.trans (linkRow_here).symm⟩
    · obtain ⟨p, hp, hid⟩ := hfound (hexist x (List.mem_dedup.mp hx) (of_decide_eq_true hnew))
      exact Or.inr ⟨p, hp, hid.trans (linkRow_there hrel).symm⟩

/-- The related records of a new record are taken when all of them exist. -/
theorem updateRelated_of_exist (hnew : ∀ r ∈ db.rows rel.assoc, r rel.here ≠ .str id)
    (hrow : byId db m id ≠ []) (hexist : Exist db rel value) :
    ∃ db', BasicCrud.updateRelated db m id rel value = .ok db' ∧
      db'.1 = Function.update db.1 rel.assoc
        (db.1 rel.assoc ++ linkRows rel id (value.items.getD [])) := by
  obtain ⟨ids, hitems, hids⟩ := hexist
  have hvalid := valid_rewrite hrel hrow fun x hx _ => hids x hx
  refine ⟨⟨_, hvalid⟩, ?_, by rw [hitems]; exact rewriteAssoc_unlinked hnew⟩
  refine Checks.bind_eq_ok.mpr ⟨(), Checks.ensure_eq_ok.mpr hrow, ?_⟩
  rw [hitems]
  refine Checks.bind_eq_ok.mpr ⟨(), Checks.ensure_eq_ok.mpr fun x hx _ => hids x hx, ?_⟩
  rw [schema.store_of_valid hvalid]

end links

/-! ### All or nothing -/

/-- The rows of a new record: the record, then the links to the related ones. -/
def withLinks (db : Db Model) (m : Model) (row : Row) (id : String) (related : List (Related × Val)) :
    Db Model :=
  related.foldl (fun db r => Function.update db r.1.assoc
    (db r.1.assoc ++ linkRows r.1 id (r.2.items.getD []))) (db.insert m row)

/-- A create request has left all that it asked for, the record with its links and what comes after these,
or nothing. -/
structure WholeOrNothing (svc : Service) (db : Database) (acc : Access) (amb : Ambient) (now : ℕ)
    (m : Model) (body : Dict) (pre : String) (limits : List (String × Val))
    (after : Db Model → Db Model) (r : Database × Response) : Prop where
  created : r.2.status = 201 → ∃ p, BasicCrud.prepare svc db acc amb now m body pre limits = .ok p ∧
    r.1.1 = after (withLinks db.1 m (BasicCrud.newRow m p.body) (amb.genIdWith pre .record)
      (BasicCrud.relatedOf m body))
  refused : r.2.status ≠ 201 → r.1 = db

theorem newRow_id (hp : BasicCrud.prepare svc db acc amb now m body pre limits = .ok p) :
    BasicCrud.newRow m p.body "id" = .str (amb.genIdWith pre .record) := by
  have hid : p.body.get "id" = .str (amb.genIdWith pre .record) := (prepare_ok hp).id_eq
  exact (newRow_of_ne (by rw [hid]; nofun)).trans hid

/-- A committed record is there. -/
theorem Inserts.found {db₁ : Database} (h : Inserts svc db acc amb now m body pre limits p db₁) :
    byId db₁ m (amb.genIdWith pre .record) ≠ [] := by
  obtain ⟨hp, hstore⟩ := h
  refine List.ne_nil_of_mem (a := BasicCrud.newRow m p.body) (List.mem_filter.mpr ⟨?_, ?_⟩)
  · rw [Store.rows, store_ok hstore, Db.mem_insert]
    exact Or.inr rfl
  · simpa [hasId] using newRow_id hp

/-- Its id was not taken. -/
theorem Inserts.fresh {db₁ : Database} (hkey : ["id"] ∈ schema.unique m)
    (h : Inserts svc db acc amb now m body pre limits p db₁) :
    byId db m (amb.genIdWith pre .record) = [] := by
  obtain ⟨hp, hstore⟩ := h
  refine List.filter_eq_nil_iff.mpr fun row hrow hid => ?_
  have hid : row "id" = .str (amb.genIdWith pre .record) := by simpa [hasId] using hid
  refine db₁.fresh_of_insert (store_ok hstore) hkey hrow ⟨fun c hc => ?_, fun c hc => ?_⟩
  · obtain rfl := List.mem_singleton.mp hc
    rw [hid]
    intro hnone
    cases hnone
  · obtain rfl := List.mem_singleton.mp hc
    rw [hid, newRow_id hp]

/-- A database that has got a record is another one. -/
theorem ne_of_rows {row : Row} (h : db'.1 m = db.1 m ++ [row]) : db' ≠ db := by
  rintro rfl
  have hlength := congrArg List.length h
  simp at hlength

theorem Inserts.ne {db₁ : Database} (h : Inserts svc db acc amb now m body pre limits p db₁) : db₁ ≠ db := by
  have hrows : db₁.1 m = db.1 m ++ [BasicCrud.newRow m p.body] := by
    rw [store_ok h.2, Db.insert, Function.update_self]
  exact ne_of_rows hrows

/-- How the related records of a committed record come out. -/
theorem createRelated_cases {db₁ : Database} (answer : Response)
    (h : Inserts svc db acc amb now m body pre limits p db₁) :
    ((∀ r ∈ BasicCrud.relatedOf m body, Exist db r.1 r.2) ∧
      ∃ db₂, BasicCrud.createRelated m (amb.genIdWith pre .record) answer db₁ p.related = (db₂, answer) ∧
        db₂.1 = withLinks db.1 m (BasicCrud.newRow m p.body) (amb.genIdWith pre .record)
          (BasicCrud.relatedOf m body)) ∨
    ((¬ ∀ r ∈ BasicCrud.relatedOf m body, Exist db r.1 r.2) ∧
      ∃ refusal : Response, refusal.Refuses ∧
        BasicCrud.createRelated m (amb.genIdWith pre .record) answer db₁ p.related = (db₁, refusal)) := by
  rw [prepare_related h.1]
  rcases relatedOf_cases m body with hnone | ⟨rel, hrel, hone⟩
  · rw [hnone]
    exact Or.inl ⟨fun r hr => absurd hr List.not_mem_nil, db₁, rfl, store_ok h.2⟩
  · rw [hone]
    have hproper := related_proper hrel
    have hdb : db₁.1 = db.1.insert m (BasicCrud.newRow m p.body) := store_ok h.2
    have hsame : ∀ {t : Model}, t ≠ m → db₁.1 t = db.1 t := fun ht => by
      rw [hdb, Db.insert_ne _ _ ht]
    have hnew : ∀ r ∈ db₁.rows rel.assoc, r rel.here ≠ .str (amb.genIdWith pre .record) := by
      rw [Store.rows, hsame hproper.assoc_ne]
      exact unlinked hrel (h.fresh hproper.id_key)
    have hexist : Exist db₁ rel (body.get rel.attr) ↔ Exist db rel (body.get rel.attr) := by
      unfold Exist byId Store.rows
      rw [hsame hproper.target_ne]
    simp only [List.forall_mem_singleton, ← hexist, BasicCrud.createRelated]
    by_cases hall : Exist db₁ rel (body.get rel.attr)
    · obtain ⟨db₂, hok, hdb₂⟩ := updateRelated_of_exist hrel hnew h.found hall
      refine Or.inl ⟨hall, db₂, ?_, ?_⟩
      · rw [hok]
      · rw [hdb₂, hdb]
        rfl
    · refine Or.inr ⟨hall, ?_⟩
      cases hup : BasicCrud.updateRelated db₁ m (amb.genIdWith pre .record) rel (body.get rel.attr) with
      | ok db₂ => exact absurd (exist_of_updateRelated hnew hup) hall
      | error e =>
          cases e with
          | integrityError => exact ⟨_, conflict_refuses .integrity, rfl⟩
          | noResultFound | other => exact ⟨_, conflict_refuses .statement, rfl⟩

theorem withLinks_other {rows : Db Model} {row : Row} {related : List (Related × Val)} {t : Model}
    (hm : t ≠ m) (h : ∀ r ∈ related, t ≠ r.1.assoc) : withLinks rows m row id related t = rows t := by
  unfold withLinks
  rw [← Db.insert_ne rows row hm]
  generalize rows.insert m row = rows
  induction related generalizing rows with
  | nil => rfl
  | cons r related ih =>
      rw [List.foldl_cons, ih (fun r hr => h r (List.mem_cons_of_mem _ hr))]
      exact Function.update_of_ne (h r List.mem_cons_self) _ _

theorem withLinks_self {rows : Db Model} {row : Row} {related : List (Related × Val)}
    (h : ∀ r ∈ related, m ≠ r.1.assoc) : withLinks rows m row id related m = rows m ++ [row] := by
  have hself : rows.insert m row m = rows m ++ [row] := by simp [Db.insert]
  unfold withLinks
  rw [← hself]
  generalize rows.insert m row = rows
  induction related generalizing rows with
  | nil => rfl
  | cons r related ih =>
      rw [List.foldl_cons, ih (fun r hr => h r (List.mem_cons_of_mem _ hr))]
      exact Function.update_of_ne (h r List.mem_cons_self) _ _

/-- `BasicCRUD.create` is all or nothing just when the records to be related to a committed one exist. -/
theorem create_wholeOrNothing_iff :
    WholeOrNothing svc db acc amb now m body pre limits (fun rows => rows)
        (BasicCrud.create svc db acc amb now m body pre limits) ↔
      ∀ p db₁, Inserts svc db acc amb now m body pre limits p db₁ →
        ∀ r ∈ BasicCrud.relatedOf m body, Exist db r.1 r.2 := by
  constructor
  · intro h p db₁ hinserts
    by_contra hmissing
    rcases create_cases svc db acc amb now m body pre limits with ⟨hnone, -⟩ | ⟨p', db₁', hins, hcreate⟩
    · exact hnone p db₁ hinserts
    · rcases createRelated_cases (p'.answered (amb.genIdWith pre .record)) hins with ⟨hall, -⟩ | ⟨-, refusal, hrefuses, hrelated⟩
      · exact hmissing hall
      · have hrefused := h.refused
        rw [hcreate, hrelated] at hrefused
        exact hins.ne (hrefused hrefuses.ne_created)
  · intro h
    rcases create_cases svc db acc amb now m body pre limits with
      ⟨-, answer, hcreate, hrefuses⟩ | ⟨p, db₁, hinserts, hcreate⟩
    · rw [hcreate]
      exact ⟨fun hcreated => absurd hcreated hrefuses.ne_created, fun _ => rfl⟩
    · rcases createRelated_cases (p.answered (amb.genIdWith pre .record)) hinserts with
        ⟨-, db₂, hrelated, hdb₂⟩ | ⟨hmissing, -⟩
      · rw [hcreate, hrelated]
        exact ⟨fun _ => ⟨p, hinserts.1, hdb₂⟩, fun hother => absurd rfl hother⟩
      · exact absurd (h p db₁ hinserts) hmissing

/-! ### The contact of a new person -/

/-- No contact stands in the way of that of a new person. -/
def ContactFree (db : Database) (amb : Ambient) (identity : Val) : Prop :=
  ∀ r ∈ db.rows .contact, r "id" ≠ .str (amb.genIdWith "x-" .contact) ∧
    ¬ (r "info" = identity ∧ r "type" = .str "email")

/-- The cells of the contact of a new person. -/
theorem personContact_cells (amb : Ambient) (uid : String) {identity : Val} (hne : identity ≠ .none) :
    Controllers.personContact amb uid identity "id" = .str (amb.genIdWith "x-" .contact) ∧
    Controllers.personContact amb uid identity "uid" = .str uid ∧
    Controllers.personContact amb uid identity "type" = .str "email" ∧
    Controllers.personContact amb uid identity "info" = identity ∧
    Controllers.personContact amb uid identity "status" = .str "unconfirmed" := by
  refine ⟨record_cell ?_ nofun, record_cell ?_ nofun, record_cell ?_ nofun, record_cell ?_ hne,
    record_cell ?_ nofun⟩
  all_goals simp

/-- The contact of a new person is taken when none stands in its way. -/
theorem contact_accepted_iff {uid : String} {identity : Val} (hperson : byId db .person uid ≠ [])
    (hcell : identity.IsCell) (hne : identity ≠ .none) :
    (∃ db', schema.store (db.1.insert .contact (Controllers.personContact amb uid identity)) = .ok db') ↔
      ContactFree db amb identity := by
  obtain ⟨hid, huid, htype, hinfo, hstatus⟩ := personContact_cells amb uid hne
  constructor
  · rintro ⟨db', hstore⟩ r hr
    have hkeyId : ["id"] ∈ schema.unique .contact := by decide
    have hkeyInfo : ["info", "type"] ∈ schema.unique .contact := by decide
    refine ⟨fun hsame => ?_, fun hsame => ?_⟩
    · refine db'.fresh_of_insert (store_ok hstore) hkeyId hr ⟨?_, ?_⟩
      · simp [hsame]
      · simp [hsame, hid]
    · refine db'.fresh_of_insert (store_ok hstore) hkeyInfo hr ⟨?_, ?_⟩
      · simp [hsame, hne]
      · simp [hsame, hinfo, htype]
  · intro hfree
    have hvalid : schema.Valid (db.1.insert .contact (Controllers.personContact amb uid identity)) := by
      refine Schema.valid_append db.2 (schema.complete _) ?_ ?_ ?_ ?_ ?_ ?_
      · intro t fk hfk
        cases t <;> revert hfk fk <;> simp [schema, Model.foreign, Model.ownedBy]
      · intro r hr
        obtain rfl := List.mem_singleton.mp hr
        refine ⟨fun c _ => newRow_isCell (fun c => ?_) c, fun e he => ?_⟩
        · simp only [Dict.ofList_cons, Dict.ofList_nil, Dict.get_set, Dict.get_empty]
          split_ifs
          all_goals first | exact hcell | trivial
        · obtain rfl := List.mem_singleton.mp he
          rw [hstatus]
          decide
      · intro r hr c hc
        obtain rfl := List.mem_singleton.mp hr
        refine newRow_ne_none ?_
        have hfilled : c = "id" ∨ c = "uid" ∨ ((schema.defaults .contact).lookup c).getD .none ≠ .none := by
          revert c
          decide
        rcases hfilled with rfl | rfl | hdefault
        · exact Or.inl (by simp)
        · exact Or.inl (by simp)
        · exact Or.inr hdefault
      · exact fun key _ => List.pairwise_singleton _ _
      · intro key hkey r hr r' hr' hclash
        obtain rfl := List.mem_singleton.mp hr'
        have hkeys : key = ["id"] ∨ key = ["info", "type"] := by
          simpa [schema, Model.unique] using hkey
        rcases hkeys with rfl | rfl
        · exact (hfree r hr).1 ((hclash.2 "id" (by decide)).trans hid)
        · exact (hfree r hr).2 ⟨(hclash.2 "info" (by decide)).trans hinfo,
            (hclash.2 "type" (by decide)).trans htype⟩
      · intro r hr fk hfk
        obtain rfl := List.mem_singleton.mp hr
        obtain rfl := List.mem_singleton.mp hfk
        obtain ⟨person, hmem⟩ := List.exists_mem_of_ne_nil _ hperson
        obtain ⟨hmem, hsame⟩ := List.mem_filter.mp hmem
        refine Or.inr ⟨person, hmem, Eq.trans ?_ huid.symm⟩
        simpa [hasId] using hsame
    exact ⟨⟨_, hvalid⟩, schema.store_of_valid hvalid⟩

/-- The controllers go on from `BasicCRUD.create` when it gets through. -/
theorem post_eq {w : World} {req : Request} (haccount : m ≠ .account)
    (hpath : ¬ (m ∉ Controllers.routed ∨ m = .settings))
    (hdaily : ¬ (m = .message ∧ req.amb.withinDailyTotal = false)) :
    Controllers.post svc w req m body =
      if (Controllers.created svc w req m body).2.status = 201 then
        Controllers.afterCreate svc { w with db := (Controllers.created svc w req m body).1 } req.amb m
          body (Controllers.created svc w req m body).2
      else ({ w with db := (Controllers.created svc w req m body).1 },
        (Controllers.created svc w req m body).2) := by
  unfold Controllers.post
  rw [if_neg haccount, if_neg hpath, if_neg hdaily]

/-- The contact that a new person gets, once the person and its links are committed. -/
theorem afterCreate_person (svc : Service) (w : World) {req : Request} {uid : String}
    (answer : Response) (huid : uid = req.amb.genIdWith (Controllers.idPrefix .person) .record)
    (hperson : byId w.db .person uid ≠ []) (hcell : (body.get "identity").IsCell)
    (hne : body.get "identity" ≠ .none) :
    (ContactFree w.db req.amb (body.get "identity") ∧
      ∃ db', (Controllers.afterCreate svc w req.amb .person body answer).1.db = db' ∧
        (Controllers.afterCreate svc w req.amb .person body answer).2.status = 201 ∧
        db'.1 = w.db.1.insert .contact (Controllers.personContact req.amb uid (body.get "identity"))) ∨
    (¬ ContactFree w.db req.amb (body.get "identity") ∧
      (Controllers.afterCreate svc w req.amb .person body answer).1.db = w.db ∧
      (Controllers.afterCreate svc w req.amb .person body answer).2.status = 405) := by
  subst huid
  rw [← contact_accepted_iff hperson hcell hne]
  unfold Controllers.afterCreate
  cases hstore : schema.store (w.db.1.insert .contact (Controllers.personContact req.amb
      (req.amb.genIdWith (Controllers.idPrefix .person) .record) (body.get "identity"))) with
  | ok db' =>
      refine Or.inl ⟨⟨db', rfl⟩, db', ?_, ?_, store_ok hstore⟩
      all_goals simp only [hstore]
  | error e =>
      refine Or.inr ⟨?_, ?_, ?_⟩
      · rintro ⟨db', h⟩
        cases h
      · simp only [hstore]
      · simp only [hstore]
        rfl

/-- A person that was committed has an identity. -/
theorem Inserts.identity {db₁ : Database}
    (h : Inserts svc db acc amb now .person body pre limits p db₁) :
    (body.get "identity").IsCell ∧ body.get "identity" ≠ .none := by
  have hmem : BasicCrud.newRow .person p.body ∈ db₁.rows .person := by
    rw [Store.rows, store_ok h.2, Db.mem_insert]
    exact Or.inr rfl
  have hnull := db₁.ne_none (c := "identity") hmem (by decide)
  have hsame : p.body.get "identity" = body.get "identity" :=
    ((prepare_ok h.1).agree "identity" (by decide)).2
  have hne : p.body.get "identity" ≠ .none := by
    intro hnone
    refine hnull ?_
    unfold BasicCrud.newRow Schema.fill
    rw [Row.ofDict_apply, if_pos hnone]
    rfl
  have hcell := (db₁.2.1 .person (schema.complete _) _ hmem).1 "identity" (by decide)
  rw [newRow_of_ne hne, hsame] at hcell
  exact ⟨hcell, hsame ▸ hne⟩

theorem person_wholeOrNothing_iff (w : World) (req : Request) (body : Dict) :
    WholeOrNothing svc w.db (req.access svc w) req.amb w.now .person
        (Controllers.createBody req.amb (req.access svc w) .person body) (Controllers.idPrefix .person)
        (Controllers.limits svc req.amb .person)
        (fun rows => rows.insert .contact (Controllers.personContact req.amb
          (req.amb.genIdWith (Controllers.idPrefix .person) .record) (body.get "identity")))
        ((Controllers.post svc w req .person body).1.db, (Controllers.post svc w req .person body).2) ↔
      ∀ p db₁, Inserts svc w.db (req.access svc w) req.amb w.now .person
          (Controllers.createBody req.amb (req.access svc w) .person body)
          (Controllers.idPrefix .person) (Controllers.limits svc req.amb .person) p db₁ →
        (∀ r ∈ BasicCrud.relatedOf .person
            (Controllers.createBody req.amb (req.access svc w) .person body), Exist w.db r.1 r.2) ∧
          ContactFree w.db req.amb (body.get "identity") := by
  have hidentity : (Controllers.createBody req.amb (req.access svc w) .person body).get "identity" =
      body.get "identity" := by
    simp [Controllers.createBody]
  obtain ⟨sent, hsent⟩ : ∃ sent, sent = Controllers.createBody req.amb (req.access svc w) .person body :=
    ⟨_, rfl⟩
  have hcreated : Controllers.created svc w req .person body = BasicCrud.create svc w.db
      (req.access svc w) req.amb w.now .person sent (Controllers.idPrefix .person)
      (Controllers.limits svc req.amb .person) := by
    rw [hsent]
    rfl
  rw [post_eq (by decide) (by decide) (fun h => absurd h.1 (by decide)), hcreated]
  rw [← hsent] at hidentity ⊢
  rcases create_cases svc w.db (req.access svc w) req.amb w.now .person sent
      (Controllers.idPrefix .person) (Controllers.limits svc req.amb .person) with
    ⟨hnone, answer, hcreate, hrefuses⟩ | ⟨p, db₁, hinserts, hcreate⟩
  · rw [hcreate, if_neg hrefuses.ne_created]
    exact ⟨fun _ p db₁ hinserts => absurd hinserts (hnone p db₁), fun _ =>
      ⟨fun hcreated => absurd hcreated hrefuses.ne_created, fun _ => rfl⟩⟩
  · rcases createRelated_cases (p.answered (req.amb.genIdWith
        (Controllers.idPrefix .person) .record)) hinserts with
      ⟨hall, db₂, hrelated, hdb₂⟩ | ⟨hmissing, refusal, hrefuses, hrelated⟩
    · have hanswered : (p.answered (req.amb.genIdWith (Controllers.idPrefix .person)
          .record)).status = 201 := rfl
      rw [hcreate, hrelated, if_pos hanswered]
      obtain ⟨hcell, hne⟩ := hinserts.identity
      rw [hidentity] at hcell hne
      have hperson : db₂.1 .person = w.db.1 .person ++ [BasicCrud.newRow .person p.body] := by
        rw [hdb₂]
        exact withLinks_self fun r hr => ((related_proper (mem_relatedOf hr)).assoc_ne).symm
      have hcontacts : db₂.rows .contact = w.db.rows .contact := by
        rw [Store.rows, hdb₂]
        refine withLinks_other (by decide) fun r hr => ?_
        have hrel : r.1 ∈ Model.person.restRelated := mem_relatedOf hr
        obtain hrel := List.mem_singleton.mp hrel
        rw [hrel]
        decide
      have hfound : byId db₂ .person (req.amb.genIdWith (Controllers.idPrefix .person) .record) ≠ [] := by
        refine List.ne_nil_of_mem (a := BasicCrud.newRow .person p.body) (List.mem_filter.mpr ⟨?_, ?_⟩)
        · rw [Store.rows, hperson]
          exact List.mem_append_right _ (List.mem_singleton_self _)
        · simpa [hasId] using newRow_id hinserts.1
      have hfree : ContactFree db₂ req.amb (body.get "identity") ↔
          ContactFree w.db req.amb (body.get "identity") := by
        unfold ContactFree
        rw [hcontacts]
      rcases afterCreate_person svc { w with db := db₂ }
          (p.answered (req.amb.genIdWith (Controllers.idPrefix .person) .record)) rfl hfound hcell
          hne with ⟨hok, db₃, hdb, hstatus, hdb₃⟩ | ⟨hno, hdb, hstatus⟩
      · constructor
        · intro _ _ _ _
          exact ⟨hall, hfree.mp hok⟩
        · intro _
          refine ⟨fun _ => ⟨p, hinserts.1, ?_⟩, fun hother => absurd hstatus hother⟩
          rw [← hdb₂, ← hdb₃]
          exact congrArg Subtype.val hdb
      · constructor
        · intro h
          have hsame : db₂ = w.db := hdb.symm.trans (h.refused (by rw [hstatus]; decide))
          exact absurd hsame (ne_of_rows hperson)
        · intro h
          exact absurd (hfree.mpr (h p db₁ hinserts).2) hno
    · rw [hcreate, hrelated, if_neg hrefuses.ne_created]
      constructor
      · intro h
        exact absurd (h.refused hrefuses.ne_created) hinserts.ne
      · intro h
        exact absurd (h p db₁ hinserts).1 hmissing

/-- `BasicCRUD.create` and `PersonController.create` are all or nothing exactly when a record that gets
committed has only related records that exist, and a person an address that no contact has. -/
theorem creates_wholeOrNothing_iff (svc : Service) :
    (∀ (db : Database) (acc : Access) (amb : Ambient) (now : ℕ) (m : Model) (body : Dict)
        (pre : String) (limits : List (String × Val)),
      WholeOrNothing svc db acc amb now m body pre limits (fun rows => rows)
          (BasicCrud.create svc db acc amb now m body pre limits) ↔
        ∀ p db₁, Inserts svc db acc amb now m body pre limits p db₁ →
          ∀ r ∈ BasicCrud.relatedOf m body, Exist db r.1 r.2) ∧
    ∀ (w : World) (req : Request) (body : Dict),
      WholeOrNothing svc w.db (req.access svc w) req.amb w.now .person
          (Controllers.createBody req.amb (req.access svc w) .person body)
          (Controllers.idPrefix .person) (Controllers.limits svc req.amb .person)
          (fun rows => rows.insert .contact (Controllers.personContact req.amb
            (req.amb.genIdWith (Controllers.idPrefix .person) .record) (body.get "identity")))
          ((Controllers.post svc w req .person body).1.db,
            (Controllers.post svc w req .person body).2) ↔
        ∀ p db₁, Inserts svc w.db (req.access svc w) req.amb w.now .person
            (Controllers.createBody req.amb (req.access svc w) .person body)
            (Controllers.idPrefix .person) (Controllers.limits svc req.amb .person) p db₁ →
          (∀ r ∈ BasicCrud.relatedOf .person
              (Controllers.createBody req.amb (req.access svc w) .person body), Exist w.db r.1 r.2) ∧
            ContactFree w.db req.amb (body.get "identity") :=
  ⟨fun _ _ _ _ _ _ _ _ => create_wholeOrNothing_iff, person_wholeOrNothing_iff⟩

/-- A session of the other user. -/
def teamOwner : Access :=
  { auth := some ["user"], uid := some "u-0002", accountId := .str "x-a0002" }

/-- A list with a member that does not exist. -/
def strangeList : Dict := Dict.ofList [("name", .str "Team"), ("members", .list ["u-0002", "u-9999"])]

/-- The list stays, without members. -/
theorem strangeList_stays : ¬ WholeOrNothing Seed.service Seed.shared teamOwner (Seed.ambient "l1") 100
    .list strangeList "x-" [("members", .int 10)] (fun rows => rows)
    (BasicCrud.create Seed.service Seed.shared teamOwner (Seed.ambient "l1") 100 .list strangeList
      "x-" [("members", .int 10)]) := by
  intro h
  have hsame := h.refused (by decide +kernel)
  have hlists := congrArg (fun db : Database => (db.rows .list).length) hsame
  exact absurd hlists (by decide +kernel)

end Apicrud
