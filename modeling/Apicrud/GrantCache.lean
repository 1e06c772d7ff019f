import Apicrud.Commits
import Apicrud.Grants
import Apicrud.Seed
import Apicrud.TrashFind
import Apicrud.Updates

/-! # The cache of grants and the database

A cached user has the grants that were in force when they were read.  `POST` takes the entry of the owner
out after its write; a `PUT` takes an entry out before it writes, and not always the owner's; `DELETE` and
the trashcan take out none.  In a run whose writes change no grant in force of a user who is cached at that
moment, `Grants.get` gives the value of the grant in force, or the default (`Grants.current_along`). -/

namespace Apicrud

open Relational

namespace Grants

/-! ### The grants of a user -/

/-- The grant counts: it is active and not expired. -/
def InForce (now : ℕ) (rec : Row) : Prop := rec "status" = .str "active" ∧ Unexpired now rec

instance (now : ℕ) (rec : Row) : Decidable (InForce now rec) := inferInstanceAs (Decidable (_ ∧ _))

/-- What a record adds to the grants of a user. -/
def share (now : ℕ) (uid : Val) (rec : Row) : Option (Val × Val) :=
  if rec "uid" = uid ∧ InForce now rec then some (rec "name", rec "value") else none

/-- The `dict` of a list of pairs. -/
def collect (pairs : List (Val × Val)) : Limits :=
  pairs.foldl (fun grants p => Function.update grants p.1 (some p.2)) fun _ => none

/-- What the records of the database add to the grants of a user, in their order. -/
def shares (now : ℕ) (db : Database) (uid : Val) : List (Val × Val) :=
  (db.rows .grant).filterMap (share now uid)

variable {now now' : ℕ} {db db' : Database} {uid : Val} {name : String} {rec : Row}

theorem share_of_inForce (huid : rec "uid" = uid) (h : InForce now rec) :
    share now uid rec = some (rec "name", rec "value") := if_pos ⟨huid, h⟩

theorem share_of_ne (h : rec "uid" ≠ uid) : share now uid rec = none := if_neg fun hrec => h hrec.1

theorem share_of_not (h : ¬ InForce now rec) : share now uid rec = none := if_neg fun hrec => h hrec.2

theorem collect_concat (pairs : List (Val × Val)) (p : Val × Val) :
    collect (pairs ++ [p]) = Function.update (collect pairs) p.1 (some p.2) := by
  simp [collect]

theorem collect_none {pairs : List (Val × Val)} {key : Val} (h : ∀ p ∈ pairs, p.1 ≠ key) :
    collect pairs key = none := by
  induction pairs using List.reverseRecOn with
  | nil => rfl
  | append_singleton pairs p ih =>
      have hp : key ≠ p.1 := (h p (by simp)).symm
      rw [collect_concat, Function.update_of_ne hp]
      exact ih fun q hq => h q (by simp [hq])

theorem collect_some {pairs : List (Val × Val)} {key value : Val} (hmem : (key, value) ∈ pairs)
    (hone : ∀ p ∈ pairs, p.1 = key → p.2 = value) : collect pairs key = some value := by
  induction pairs using List.reverseRecOn with
  | nil => cases hmem
  | append_singleton pairs p ih =>
      rw [collect_concat]
      by_cases hp : p.1 = key
      · subst hp
        rw [Function.update_self, hone p (by simp) rfl]
      · have hrest : (key, value) ∈ pairs := by
          rcases List.mem_append.mp hmem with hmem | hmem
          · exact hmem
          · exact absurd (congrArg Prod.fst (List.mem_singleton.mp hmem)).symm hp
        rw [Function.update_of_ne (Ne.symm hp)]
        exact ih hrest fun q hq => hone q (by simp [hq])

/-- The loop of `get` collects the shares of the records. -/
theorem ofUser_eq : ofUser now db uid = collect (shares now db uid) := by
  unfold ofUser collect shares
  generalize (fun _ : Val => (none : Option Val)) = grants
  induction db.rows .grant generalizing grants with
  | nil => rfl
  | cons rec rows ih =>
      by_cases hrec : rec "uid" = uid ∧ rec "status" = .str "active"
      · rw [List.filter_cons_of_pos (by simpa using hrec), List.foldl_cons, ih]
        by_cases hexp : Unexpired now rec
        · rw [if_pos hexp, List.filterMap_cons_some (share_of_inForce hrec.1 ⟨hrec.2, hexp⟩),
            List.foldl_cons]
        · rw [if_neg hexp, List.filterMap_cons_none (share_of_not fun h => hexp h.2)]
      · have hshare : share now uid rec = none := if_neg fun h => hrec ⟨h.1, h.2.1⟩
        rw [List.filter_cons_of_neg (by simpa using hrec), ih, List.filterMap_cons_none hshare]

theorem ofUser_congr (h : shares now' db' uid = shares now db uid) :
    ofUser now' db' uid = ofUser now db uid := by
  rw [ofUser_eq, ofUser_eq, h]

/-- The grant of a user by name that is in force. -/
def inForce (now : ℕ) (db : Database) (uid : Val) (name : String) : Option Row :=
  (db.rows .grant).find? fun rec =>
    decide (rec "uid" = uid ∧ rec "name" = .str name ∧ InForce now rec)

/-- A user has one grant by a name. -/
theorem grant_unique {rec' : Row} (hrec : rec ∈ db.rows .grant) (hrec' : rec' ∈ db.rows .grant)
    (hname : rec "name" = rec' "name") (huid : rec "uid" = rec' "uid") : rec = rec' := by
  have hkey : ["name", "uid"] ∈ schema.unique .grant := by decide
  refine db.eq_of_key hkey hrec hrec' (fun c hc => db.ne_none hrec (by revert c; decide)) fun c hc => ?_
  rcases List.mem_pair.mp hc with rfl | rfl
  · exact hname
  · exact huid

/-- The value that is read is the value of the grant in force. -/
theorem ofUser_apply :
    ofUser now db uid (.str name) = (inForce now db uid name).map fun rec => rec "value" := by
  rw [ofUser_eq]
  cases hfound : inForce now db uid name with
  | none =>
      have hnone := List.find?_eq_none.mp hfound
      refine collect_none fun p hp hname => ?_
      obtain ⟨rec, hrec, hshare⟩ := List.mem_filterMap.mp hp
      unfold share at hshare
      split_ifs at hshare with hcond
      cases hshare
      exact hnone rec hrec (decide_eq_true ⟨hcond.1, hname, hcond.2⟩)
  | some rec =>
      have hrec : rec ∈ db.rows .grant := List.mem_of_find?_eq_some hfound
      have hcond : rec "uid" = uid ∧ rec "name" = .str name ∧ InForce now rec := by
        simpa using List.find?_some hfound
      refine collect_some (List.mem_filterMap.mpr ⟨rec, hrec, ?_⟩) fun p hp hname => ?_
      · rw [share_of_inForce hcond.1 hcond.2.2, hcond.2.1]
      · obtain ⟨rec', hrec', hshare⟩ := List.mem_filterMap.mp hp
        unfold share at hshare
        split_ifs at hshare with hcond'
        cases hshare
        rw [grant_unique hrec' hrec (hname.trans hcond.2.1.symm) (hcond'.1.trans hcond.1.symm)]

variable (g : Setting)

/-- What `get` is for: the value of the grant in force, or the default when there is none. -/
def current (now : ℕ) (db : Database) (uid : Val) (name : String) : Val :=
  ((inForce now db uid name).map fun rec => rec "value").getD ((g.limits (.str name)).getD .none)

/-- What the cache holds a copy of. -/
def source (now : ℕ) (db : Database) (uid : Val) : Limits :=
  if uid = defaultsKey then g.limits else ofUser now db uid

theorem source_defaults (now : ℕ) (db : Database) : source g now db defaultsKey = g.limits := if_pos rfl

theorem source_congr (h : shares now' db' uid = shares now db uid) :
    source g now' db' uid = source g now db uid := by
  rw [source, source, ofUser_congr h]

/-! ### Reading -/

variable {g} {t : Turnover} {c : Cache} {w : World} {acc : Access}

theorem construct_eq (now : ℕ) (db : Database) :
    construct g t c = (c.fetch (t.displaced defaultsKey) (source g now db) defaultsKey).1 := by
  unfold construct
  rw [ReadThrough.fetch_congr (g := source g now db) fun _ => (source_defaults g now db).symm]

theorem construct_coherent (h : c.Coherent (source g now db)) :
    (construct g t c).Coherent (source g now db) := by
  rw [construct_eq now db]
  exact h.fetch _ _

/-- After `Grants()` the defaults are there. -/
theorem construct_defaults (h : c.Coherent (source g now db)) :
    construct g t c defaultsKey = some g.limits := by
  rw [construct_eq now db, ReadThrough.fetch_self, h.fetch_value, source_defaults]

/-- The entry that `get` reads, as one read through the cache. -/
theorem get_eq (h : c.Coherent (source g w.now w.db)) (uid : Val) :
    get g t w acc c name uid =
      (((construct g t c).fetch (t.displaced (userOf acc uid)) (source g w.now w.db) (userOf acc uid)).1,
        valueOf g ((construct g t c).fetch (t.displaced (userOf acc uid)) (source g w.now w.db)
          (userOf acc uid)).1 (source g w.now w.db (userOf acc uid)) name) := by
  have hsource : construct g t c (userOf acc uid) = none →
      ofUser w.now w.db (userOf acc uid) = source g w.now w.db (userOf acc uid) := by
    intro hnone
    rw [source, if_neg]
    intro hdefaults
    rw [hdefaults, construct_defaults h] at hnone
    cases hnone
  unfold get
  simp only [ReadThrough.fetch_congr hsource, (construct_coherent h).fetch_value]

theorem get_coherent (h : c.Coherent (source g w.now w.db)) (name : String) (uid : Val) :
    (get g t w acc c name uid).1.Coherent (source g w.now w.db) := by
  rw [get_eq h]
  exact (construct_coherent h).fetch _ _

/-- Nothing comes between a reader and the defaults: the entry of the user is there, or leaves the defaults
where they are, or has the name; and no user has the id under which the cache keeps the defaults and a
grant by that name. -/
def ReadsDefaults (g : Setting) (t : Turnover) (w : World) (acc : Access) (c : Cache) (name : String)
    (uid : Val) : Prop :=
  (construct g t c (userOf acc uid) ≠ none ∨ defaultsKey ∉ t.displaced (userOf acc uid) ∨
    inForce w.now w.db (userOf acc uid) name ≠ none) ∧
  (userOf acc uid = defaultsKey → inForce w.now w.db (userOf acc uid) name = none)

/-- A coherent cache gives the value of the grant in force, or the default. -/
theorem get_value (h : c.Coherent (source g w.now w.db)) {uid : Val}
    (hreads : ReadsDefaults g t w acc c name uid) :
    (get g t w acc c name uid).2 = .ok (g.number (current g w.now w.db (userOf acc uid) name)) := by
  obtain ⟨hstays, hname⟩ := hreads
  rw [get_eq h]
  simp only [valueOf]
  by_cases hdefaults : userOf acc uid = defaultsKey
  · have hfetch : (construct g t c).fetch (t.displaced (userOf acc uid)) (source g w.now w.db)
        (userOf acc uid) = (construct g t c, g.limits) := by
      rw [hdefaults]
      exact ReadThrough.fetch_of_some (construct_defaults h)
    have hcurrent : current g w.now w.db (userOf acc uid) name =
        (g.limits (.str name)).getD .none := by
      rw [current, hname hdefaults]
      rfl
    rw [hfetch, hcurrent, source, if_pos hdefaults]
    cases hlimit : g.limits (.str name) with
    | some value => rfl
    | none =>
        simp only [construct_defaults h, hlimit]
  · rw [source, if_neg hdefaults, ofUser_apply, current]
    cases hfound : inForce w.now w.db (userOf acc uid) name with
    | some rec => rfl
    | none =>
        have hroom : construct g t c (userOf acc uid) ≠ none ∨
            defaultsKey ∉ t.displaced (userOf acc uid) :=
          hstays.imp_right fun h => Or.resolve_right h (not_not_intro hfound)
        have hthere := ReadThrough.fetch_stays (f := source g w.now w.db) (construct_defaults h) hroom
        simp only [hthere, Option.map_none, Option.getD_none]

/-! ### What a write leaves of the shares -/

/-- The record of a user whose grants are cached may change where it adds the same to them. -/
def Kept (now : ℕ) (c : Cache) (rec row : Row) : Prop :=
  c (rec "uid") = none ∨ share now (rec "uid") row = share now (rec "uid") rec

theorem rows_insert {row : Row} (h : schema.store (db.1.insert .grant row) = .ok db') :
    db'.rows .grant = db.rows .grant ++ [row] := by
  rw [Store.rows, store_ok h]
  exact Function.update_self _ _ _

theorem rows_modify {p : Row → Bool} {f : Row → Row}
    (h : db'.1 = db.1.modify .grant p f) :
    db'.rows .grant = (db.rows .grant).map fun rec => if p rec then f rec else rec := by
  rw [Store.rows, h]
  exact Function.update_self _ _ _

theorem shares_insert {row : Row} (h : schema.store (db.1.insert .grant row) = .ok db')
    (hrow : share now uid row = none) : shares now db' uid = shares now db uid := by
  rw [shares, shares, rows_insert h, List.filterMap_append, List.filterMap_cons_none hrow,
    List.filterMap_nil, List.append_nil]

theorem shares_modify {p : Row → Bool} {f : Row → Row} (h : db'.1 = db.1.modify .grant p f)
    (hf : ∀ rec ∈ db.rows .grant, p rec = true → share now uid (f rec) = share now uid rec) :
    shares now db' uid = shares now db uid := by
  rw [shares, shares, rows_modify h, List.filterMap_map]
  refine List.filterMap_congr fun rec hrec => ?_
  rw [Function.comp_apply]
  split_ifs with hp
  · exact hf rec hrec hp
  · rfl

/-- A record that is kept, and that no cached user takes over, adds the same to the grants of each cached
user. -/
theorem share_of_kept {row : Row} (hkept : Kept now c rec row) (huid : c uid ≠ none)
    (hnew : row "uid" = rec "uid" ∨ c (row "uid") = none) :
    share now uid row = share now uid rec := by
  by_cases howner : rec "uid" = uid
  · subst howner
    exact hkept.resolve_left huid
  · have hother : row "uid" ≠ uid := by
      rcases hnew with hsame | hnone
      · rwa [hsame]
      · rintro rfl
        exact huid hnone
    rw [share_of_ne howner, share_of_ne hother]

end Grants

namespace BasicCrud

variable {svc : Service} {db : Database} {acc : Access} {amb : Ambient} {now : ℕ} {body : Dict}

/-! ### The writes of the controller -/

/-- A grant is created, or nothing is written. -/
theorem create_grant_cases (svc : Service) (db : Database) (acc : Access) (amb : Ambient) (now : ℕ)
    (body : Dict) : (create svc db acc amb now .grant body "x-" []).1 = db ∨
      ∃ p, prepare svc db acc amb now .grant body "x-" [] = .ok p ∧
        schema.store (db.1.insert .grant (newRow .grant p.body)) =
          .ok (create svc db acc amb now .grant body "x-" []).1 ∧
        (create svc db acc amb now .grant body "x-" []).2 ≠ .raised := by
  unfold create
  cases hp : prepare svc db acc amb now .grant body "x-" [] with
  | error answer => exact Or.inl rfl
  | ok p =>
      simp only
      cases hstore : schema.store (db.1.insert .grant (newRow .grant p.body)) with
      | error e => exact Or.inl rfl
      | ok db' =>
          have hrelated : p.related = [] :=
            List.eq_nil_iff_forall_not_mem.mpr fun r hr => by cases (prepare_ok hp).related r hr
          refine Or.inr ⟨p, rfl, ?_⟩
          simp only [hrelated, createRelated]
          refine ⟨hstore, fun hraised => ?_⟩
          exact absurd (congrArg Response.status hraised) (by decide : (201 : ℕ) ≠ 500)

end BasicCrud

namespace GrantController

open Grants

variable {g : Setting} {t : Turnover} {w : World} {req : Request} {c : Cache} {id : String} {body : Dict}

theorem quota_coherent (h : c.Coherent (source g w.now w.db)) (t : Turnover) (req : Request)
    (body : Dict) :
    (quota g t w req c body).1.Coherent (source g w.now w.db) := by
  unfold quota
  cases BasicCrud.beforeQuota g.svc w.db (req.access g.svc w) req.amb w.now .grant body "x-" with
  | error answer => exact h
  | ok r => exact get_coherent h _ r.1

variable (g t w req c body) in
/-- The request creates a grant. -/
def Creates (p : BasicCrud.Prepared) (db' : Database) : Prop :=
  ∃ limit, (quota g t w req c body).2 = .ok limit ∧
    BasicCrud.prepare g.svc w.db (req.access g.svc w) (granted req.amb limit) w.now .grant body "x-" [] =
      .ok p ∧
    schema.store (w.db.1.insert .grant (BasicCrud.newRow .grant p.body)) = .ok db'

/-- The cache is filled before the write; a grant is created, or nothing is written. -/
theorem insert_cases (h : c.Coherent (source g w.now w.db)) (t : Turnover) (req : Request)
    (body : Dict) :
    (insert g t w req c body).1.Coherent (source g w.now w.db) ∧
      ((insert g t w req c body).2.1 = w.db ∨
        ∃ p, Creates g t w req c body p (insert g t w req c body).2.1 ∧
          (insert g t w req c body).2.2 ≠ .raised) := by
  have hquota := quota_coherent h t req body
  unfold insert Creates
  rcases hread : quota g t w req c body with ⟨c', error | limit⟩
  · rw [hread] at hquota
    exact ⟨hquota, Or.inl rfl⟩
  · rw [hread] at hquota
    refine ⟨hquota, ?_⟩
    rcases BasicCrud.create_grant_cases g.svc w.db (req.access g.svc w) (granted req.amb limit) w.now
      body with hsame | ⟨p, hp, hstore, hanswer⟩
    · exact Or.inl hsame
    · exact Or.inr ⟨p, ⟨limit, rfl, hp, hstore⟩, hanswer⟩

/-- The new grant belongs to the user whose entry is taken out. -/
theorem Creates.uid_eq {p : BasicCrud.Prepared} {db' : Database}
    (h : Creates g t w req c body p db') :
    BasicCrud.newRow .grant p.body "uid" = sentUid g w req body := by
  obtain ⟨limit, -, hp, -⟩ := h
  obtain ⟨body', howned⟩ := BasicCrud.prepare_owned hp
  have howned : BasicCrud.owned g.svc w.db (req.access g.svc w) req.amb w.now .grant body "x-" =
      .ok body' := howned
  rw [BasicCrud.newRow_uid (by decide) hp, sentUid, howned]
  exact (BasicCrud.owned_uid (by decide) howned).symm

theorem uncache_coherent {db : Database} {uid : Val} (h : c.Coherent (source g w.now w.db))
    (heq : ∀ uid' ≠ uid, shares w.now db uid' = shares w.now w.db uid') :
    (uncache g t c uid).Coherent (source g w.now db) :=
  (construct_coherent h).pop fun uid' hne _ => source_congr g (heq uid' hne)

/-- `POST` keeps the cache coherent: the entry of the owner goes after the write. -/
theorem create_coherent (h : c.Coherent (source g w.now w.db)) :
    (create g t w req c body).1.Coherent (source g w.now (create g t w req c body).2.1) := by
  obtain ⟨hcache, hdb⟩ := insert_cases h t req
    (Controllers.createBody req.amb (req.access g.svc w) .grant body)
  unfold create
  rcases hdb with hsame | ⟨p, hp, hanswer⟩
  · simp only [hsame]
    split_ifs
    · exact hcache
    · exact uncache_coherent hcache fun _ _ => rfl
  · simp only [if_neg hanswer]
    refine uncache_coherent hcache fun uid hne => ?_
    have hstore := hp
    obtain ⟨limit, -, -, hstore⟩ := hstore
    exact shares_insert hstore (share_of_ne fun hown => hne (hown.symm.trans hp.uid_eq))

/-! ### PUT -/

variable (g t w req c) in
/-- A hybrid id: a grant that is created is disabled or expired from the beginning. -/
def CreatesNone (id : String) (body : Dict) : Prop :=
  ∀ p db', Creates g t w req (uncache g t c (body.get "uid")) (Controllers.hybridBody req.amb id body)
    p db' → ¬ InForce w.now (BasicCrud.newRow .grant p.body)

variable (g t w req c) in
/-- A database id: a record that is written is kept, after the entry of the user in the body is gone. -/
def UpdateKeeps (id : String) (body : Dict) : Prop :=
  ∀ b, BasicCrud.updateBody g.svc w.now id (Controllers.updateBody req.amb .grant body) = .ok b →
    BasicCrud.RowAccepted g.svc w.db (req.access g.svc w) .grant id b 'u' →
    ∀ rec ∈ w.db.rows .grant, hasId id rec = true →
      Kept w.now (uncache g t c (body.get "uid")) rec (rec.write b)

/-- What the body of a `PUT` says of the owner reaches the record. -/
theorem written_uid {b : Dict} (hbody : BasicCrud.updateBody g.svc w.now id
    (Controllers.updateBody req.amb .grant body) = .ok b) (rec : Row) :
    rec.write b "uid" = rec "uid" ∨ rec.write b "uid" = body.get "uid" := by
  have hagree := ((controllerBody_agree req.amb .grant body).trans (updateBody_agree hbody)) "uid"
    (by decide)
  by_cases huid : "uid" ∈ b
  · exact Or.inr ((Row.write_of_mem rec huid).trans hagree.2)
  · exact Or.inl (Row.write_of_not_mem rec huid)

theorem update_coherent (h : c.Coherent (source g w.now w.db))
    (hsafe : if Text.Contains id ":" then CreatesNone g t w req c id body
      else UpdateKeeps g t w req c id body) :
    (update g t w req c id body).1.Coherent (source g w.now (update g t w req c id body).2.1) := by
  have hpopped : (uncache g t c (body.get "uid")).Coherent (source g w.now w.db) :=
    uncache_coherent h fun _ _ => rfl
  unfold update
  split_ifs at hsafe ⊢ with hybrid
  · obtain ⟨hcache, hdb⟩ := insert_cases hpopped t req (Controllers.hybridBody req.amb id body)
    rcases hdb with hsame | ⟨p, hp, -⟩
    · rw [hsame]
      exact hcache
    · have hnone := hsafe p _ hp
      obtain ⟨limit, -, -, hstore⟩ := hp
      exact hcache.of_eq fun uid _ => source_congr g (shares_insert hstore (share_of_not hnone))
  · simp only
    have hcases := @BasicCrud.update_cases g.svc w.db (req.access g.svc w) w.now .grant id
      (Controllers.updateBody req.amb .grant body) 'u' [] rfl
    rcases hcases with hsame | ⟨b, hbody, hwrite⟩
    · rw [hsame]
      exact hpopped
    · refine hpopped.of_eq fun uid huid => source_congr g (shares_modify (writeRow_ok hwrite).2.2.2 ?_)
      intro rec hrec hid
      refine share_of_kept (hsafe b hbody (BasicCrud.writeRow_isOk.mp ⟨_, hwrite⟩) rec hrec hid) huid ?_
      refine (written_uid hbody rec).imp_right fun hbodyUid => ?_
      rw [hbodyUid]
      exact ReadThrough.pop_self

end GrantController

namespace Grants

variable {svc : Service} {acc : Access} {now : ℕ} {db : Database}

/-! ### DELETE and the trashcan -/

/-- Records that add nothing to the grants of a user go, or are disabled: the grants of the user stay, and
no record of theirs comes into force. -/
def TakesOut (now : ℕ) (p : Row → Bool) (db db' : Database) : Prop :=
  ∀ uid, (∀ rec ∈ db.rows .grant, p rec = true → share now uid rec = none) →
    shares now db' uid = shares now db uid ∧
      ∀ rec ∈ db'.rows .grant, share now uid rec ≠ none → rec ∈ db.rows .grant

theorem takesOut_of_rows {p : Row → Bool} {db' : Database} (h : db'.rows .grant = db.rows .grant) :
    TakesOut now p db db' := by
  intro uid _
  rw [shares, shares, h]
  exact ⟨rfl, fun rec hrec _ => hrec⟩

theorem takesOut_remove {p : Row → Bool} {db' : Database}
    (h : db'.rows .grant = (db.rows .grant).filter fun rec => !p rec) : TakesOut now p db db' := by
  intro uid hnone
  refine ⟨?_, fun rec hrec _ => ?_⟩
  · rw [shares, shares, h, List.filterMap_filter]
    refine List.filterMap_congr fun rec hrec => ?_
    by_cases hp : p rec = true
    · simp [hp, hnone rec hrec hp]
    · simp [hp]
  · rw [h] at hrec
    exact (List.mem_filter.mp hrec).1

theorem share_disabled (uid : Val) (rec : Row) :
    share now uid (Function.update rec "status" (.str "disabled")) = none := by
  refine share_of_not fun hforce => ?_
  have hstatus := hforce.1
  rw [Function.update_self] at hstatus
  exact absurd hstatus (by decide)

theorem takesOut_disable {p : Row → Bool} {db' : Database}
    (h : db'.1 = db.1.modify .grant p fun rec => Function.update rec "status" (.str "disabled")) :
    TakesOut now p db db' := by
  intro uid hnone
  refine ⟨shares_modify h fun rec hrec hp => ?_, fun rec hrec hshare => ?_⟩
  · rw [share_disabled, hnone rec hrec hp]
  · rw [rows_modify h] at hrec
    obtain ⟨rec₀, hrec₀, rfl⟩ := List.mem_map.mp hrec
    split_ifs at hshare ⊢ with hp
    · exact absurd (share_disabled uid rec₀) hshare
    · exact hrec₀

/-- One id of a delete request takes grants out only. -/
theorem deleteOne_takesOut {m : Model} {force : Bool} {label id : String} {st st' : Database × ℕ}
    (h : BasicCrud.deleteOne svc acc m force label id st = .ok st') :
    TakesOut now (fun rec => decide (m = .grant) && hasId id rec) st.1 st'.1 := by
  obtain ⟨_, _, h⟩ := Checks.bind_eq_ok.mp h
  obtain ⟨_, _, h⟩ := Checks.bind_eq_ok.mp h
  cases force with
  | true =>
      obtain ⟨db', hdb', h⟩ := Checks.bind_eq_ok.mp h
      rw [Checks.orElse_eq_ok] at hdb'
      cases h
      have hrows : db'.rows .grant = st.1.1.remove m (hasId id) .grant := by
        rw [Store.rows, store_ok hdb']
        exact schema.cascade_eq_self (by decide)
      by_cases hm : m = .grant
      · subst hm
        exact takesOut_remove (hrows.trans (by simp [Db.remove, Store.rows]))
      · exact takesOut_of_rows (hrows.trans (Db.remove_ne _ _ (Ne.symm hm)))
  | false =>
      obtain ⟨_, _, h⟩ := Checks.bind_eq_ok.mp h
      obtain ⟨db', hdb', h⟩ := Checks.bind_eq_ok.mp h
      rw [Checks.orElse_eq_ok] at hdb'
      cases h
      have hdb := store_ok hdb'
      by_cases hm : m = .grant
      · subst hm
        exact takesOut_disable (hdb.trans (by simp))
      · refine takesOut_of_rows ?_
        rw [Store.rows, hdb]
        exact Db.modify_ne _ _ _ (Ne.symm hm)

/-- A delete request that names no grant in force of a user leaves their grants. -/
theorem shares_foldlM {f : Database × ℕ → String → Except Response (Database × ℕ)}
    {named : String → Row → Bool} (hf : ∀ st id st', f st id = .ok st' → TakesOut now (named id) st.1 st'.1)
    {uid : Val} {ids : List String} {st st' : Database × ℕ} (h : ids.foldlM f st = .ok st')
    (hnone : ∀ rec ∈ st.1.rows .grant, (∃ id ∈ ids, named id rec = true) → share now uid rec = none) :
    shares now st'.1 uid = shares now st.1 uid := by
  induction ids generalizing st with
  | nil =>
      cases h
      rfl
  | cons id ids ih =>
      rw [List.foldlM_cons] at h
      obtain ⟨mid, hmid, h⟩ := Checks.bind_eq_ok.mp h
      obtain ⟨hsame, hforce⟩ := hf st id mid hmid uid fun rec hrec hid =>
        hnone rec hrec ⟨id, List.mem_cons_self, hid⟩
      refine (ih h fun rec hrec hids => ?_).trans hsame
      obtain ⟨id', hid', hnamed⟩ := hids
      by_contra hshare
      exact hshare (hnone rec (hforce rec hrec hshare) ⟨id', List.mem_cons_of_mem id hid', hnamed⟩)

/-- A composite id of the trashcan names the grant. -/
def trashNames (id : String) (rec : Row) : Bool :=
  match Text.splitFirst id '-' with
  | some (resource, recordId) => decide (Trashcan.modelFor resource = some .grant) && hasId recordId rec
  | none => false

theorem trashDeleteOne_takesOut {id : String} {st st' : Database × ℕ}
    (h : Trashcan.deleteOne svc acc st id = .ok st') : TakesOut now (trashNames id) st.1 st'.1 := by
  unfold Trashcan.deleteOne at h
  unfold trashNames
  cases hid : Text.splitFirst id '-' with
  | none =>
      rw [hid] at h
      cases h
  | some parts =>
      obtain ⟨resource, recordId⟩ := parts
      rw [hid] at h
      simp only at h ⊢
      cases hm : Trashcan.modelFor resource with
      | none =>
          rw [show (if resource = "apikey" then some Model.apikey else Trashcan.modelOf resource) = none
            from hm] at h
          cases h
      | some m =>
          rw [show (if resource = "apikey" then some Model.apikey else Trashcan.modelOf resource) = some m
            from hm] at h
          simpa only [Option.some.injEq] using deleteOne_takesOut h

variable (g : Setting) (w : World) (req : Request) (c : Cache)

/-- A `DELETE` that goes through names no grant in force of a cached user. -/
def DeleteSpares (ids : List String) (force : Bool) : Prop :=
  ∀ st, ids.foldlM (fun st id =>
      BasicCrud.deleteOne g.svc (req.access g.svc w) .grant force id id st) (w.db, 0) = .ok st →
    ∀ rec ∈ w.db.rows .grant, (∃ id ∈ ids, hasId id rec = true) → InForce w.now rec →
      c (rec "uid") = none

/-- A purge that goes through names no grant in force of a cached user. -/
def PurgeSpares (ids : List String) : Prop :=
  ∀ st, ids.foldlM (Trashcan.deleteOne g.svc (req.access g.svc w)) (w.db, 0) = .ok st →
    ∀ rec ∈ w.db.rows .grant, (∃ id ∈ ids, trashNames id rec = true) → InForce w.now rec →
      c (rec "uid") = none

/-- A grant whose status the trashcan sets is kept. -/
def RestoreKeeps (id : String) (body : Dict) : Prop :=
  ∀ resource recordId db', Text.splitFirst id '-' = some (resource, recordId) →
    Trashcan.modelOf resource = some .grant →
    AccessControl.withPermission g.svc.policies w.db (req.access g.svc w) .grant 'd'
      { query := some (byId w.db .grant recordId) } = .ok true →
    BasicCrud.setStatus w.db .grant recordId (body.get "status") = .ok db' →
    ∀ rec ∈ w.db.rows .grant, hasId recordId rec = true →
      Kept w.now c rec (Function.update rec "status" (body.get "status"))

variable {g w req c}

/-- The named grants add nothing to the grants of a cached user. -/
theorem share_of_spared {named : Row → Prop} {uid : Val} (huid : c uid ≠ none)
    (hspares : ∀ rec ∈ w.db.rows .grant, named rec → InForce w.now rec → c (rec "uid") = none) :
    ∀ rec ∈ w.db.rows .grant, named rec → share w.now uid rec = none := by
  intro rec hrec hnamed
  by_contra hshare
  unfold share at hshare
  split_ifs at hshare with hforce
  · exact huid (hforce.1 ▸ hspares rec hrec hnamed hforce.2)
  · exact hshare rfl

theorem delete_coherent {ids : List String} {force : Bool} (h : c.Coherent (source g w.now w.db))
    (hsafe : DeleteSpares g w req c ids force) :
    c.Coherent (source g w.now
      (BasicCrud.delete g.svc w.db (req.access g.svc w) .grant ids force).1) := by
  unfold BasicCrud.delete
  cases hfold : ids.foldlM (fun st id =>
      BasicCrud.deleteOne g.svc (req.access g.svc w) .grant force id id st) (w.db, 0) with
  | error answer => exact h
  | ok st =>
      have hone : ∀ st id st', BasicCrud.deleteOne g.svc (req.access g.svc w) .grant force id id st =
          .ok st' → TakesOut w.now (hasId id) st.1 st'.1 := by
        intro st id st' hone
        simpa only [decide_true, Bool.true_and] using deleteOne_takesOut hone
      exact h.of_eq fun uid huid => source_congr g (shares_foldlM hone hfold
        (share_of_spared huid (hsafe st hfold)))

theorem purge_coherent {ids : List String} (h : c.Coherent (source g w.now w.db))
    (hsafe : PurgeSpares g w req c ids) :
    c.Coherent (source g w.now (Trashcan.delete g.svc w.db (req.access g.svc w) ids).1) := by
  unfold Trashcan.delete
  cases hfold : ids.foldlM (Trashcan.deleteOne g.svc (req.access g.svc w)) (w.db, 0) with
  | error answer => exact h
  | ok st =>
      exact h.of_eq fun uid huid => source_congr g (shares_foldlM
        (fun _ _ _ hone => trashDeleteOne_takesOut hone) hfold (share_of_spared huid (hsafe st hfold)))

theorem restore_coherent {id : String} {body : Dict} (h : c.Coherent (source g w.now w.db))
    (hsafe : RestoreKeeps g w req c id body) :
    c.Coherent (source g w.now (Trashcan.update g.svc w.db (req.access g.svc w) id body).1) := by
  rcases trashUpdate_cases g.svc w.db (req.access g.svc w) id body with
    hsame | ⟨resource, recordId, m, hid, hm, hallowed, hstatus⟩
  · rw [hsame]
    exact h
  · have hdb := store_ok hstatus
    refine h.of_eq fun uid huid => source_congr g ?_
    by_cases hgrant : m = .grant
    · subst hgrant
      refine shares_modify hdb fun rec hrec hrecId => share_of_kept ?_ huid (Or.inl ?_)
      · exact hsafe resource recordId _ hid hm hallowed hstatus rec hrec hrecId
      · exact Function.update_of_ne (by decide) _ _
    · have hrows : (Trashcan.update g.svc w.db (req.access g.svc w) id body).1.rows .grant =
          w.db.rows .grant := by
        rw [Store.rows, hdb]
        exact Db.modify_ne _ _ _ (Ne.symm hgrant)
      rw [shares, shares, hrows]

namespace Process

/-! ### Runs -/

/-- The cache holds what the database gives. -/
def Coherent (g : Setting) (s : Process) : Prop := s.cache.Coherent (source g s.world.now s.world.db)

/-- No grant expires in the time before the event. -/
def NoneExpires (s : Process) (e : Event) : Prop :=
  ∀ rec ∈ s.world.db.rows .grant, InForce s.world.now rec → InForce (s.worldAt e).now rec

instance (s : Process) (e : Event) : Decidable (NoneExpires s e) :=
  inferInstanceAs (Decidable (∀ rec ∈ _, _))

/-- A call of `get` finds the defaults, and a write changes no grant in force of a cached user. -/
def Safe (g : Setting) (s : Process) (e : Event) : Prop :=
  match e.call with
  | .get name uid =>
      ReadsDefaults g e.turnover (s.worldAt e) (e.req.access g.svc (s.worldAt e)) (s.cacheAt e) name uid
  | .create _ => True
  | .update id body =>
      if Text.Contains id ":" then
        GrantController.CreatesNone g e.turnover (s.worldAt e) e.req (s.cacheAt e) id body
      else GrantController.UpdateKeeps g e.turnover (s.worldAt e) e.req (s.cacheAt e) id body
  | .delete ids force => DeleteSpares g (s.worldAt e) e.req (s.cacheAt e) ids force
  | .restore id body => RestoreKeeps g (s.worldAt e) e.req (s.cacheAt e) id body
  | .purge ids => PurgeSpares g (s.worldAt e) e.req (s.cacheAt e) ids

/-- A call of `get` gives the value of the grant in force, or the default. -/
def Current (g : Setting) (s : Process) (e : Event) : Prop :=
  ∀ name uid, e.call = .get name uid → (machine g).out s e = .value (.ok (g.number
    (current g (s.worldAt e).now s.world.db (userOf (e.req.access g.svc (s.worldAt e)) uid) name)))

variable {s : Process} {e : Event}

theorem later_of_le {now now' : ℕ} {v : Val} (h : later now' v = true) (hle : now ≤ now') :
    later now v = true := by
  cases v with
  | time t =>
      have hlt : now' < t := of_decide_eq_true h
      exact decide_eq_true (by omega)
  | _ => cases h

/-- Time changes no grant where none expires. -/
theorem shares_at (hexpires : NoneExpires s e) (uid : Val) :
    shares (s.worldAt e).now s.world.db uid = shares s.world.now s.world.db uid := by
  refine List.filterMap_congr fun rec hrec => ?_
  have hforce : InForce (s.worldAt e).now rec ↔ InForce s.world.now rec :=
    ⟨fun h => ⟨h.1, h.2.imp_right fun hlate => later_of_le hlate (Nat.le_add_right _ _)⟩,
      hexpires rec hrec⟩
  unfold share
  simp only [hforce]

theorem Coherent.at (h : Coherent g s) (hexpires : NoneExpires s e) :
    (s.cacheAt e).Coherent (source g (s.worldAt e).now (s.worldAt e).db) :=
  (ReadThrough.Coherent.drop h _).of_eq fun uid _ => source_congr g (shares_at hexpires uid)

/-- Every safe step keeps the cache coherent. -/
theorem Coherent.next (h : Coherent g s) (hexpires : NoneExpires s e) (hsafe : Safe g s e) :
    Coherent g ((machine g).next s e) := by
  have hat := h.at hexpires
  obtain ⟨elapsed, req, turnover, call⟩ := e
  cases call with
  | get name uid => exact get_coherent hat name uid
  | create body => exact GrantController.create_coherent hat
  | update id body => exact GrantController.update_coherent hat hsafe
  | delete ids force => exact delete_coherent hat hsafe
  | restore id body => exact restore_coherent hat hsafe
  | purge ids => exact purge_coherent hat hsafe

theorem Coherent.current (h : Coherent g s) (hexpires : NoneExpires s e) (hsafe : Safe g s e) :
    Current g s e := by
  intro name uid hcall
  have hat := h.at hexpires
  obtain ⟨elapsed, req, turnover, call⟩ := e
  cases hcall
  exact congrArg Answer.value (get_value hat hsafe)

end Process

/-! ### The configured defaults -/

/-- `int(text, 0)` of a decimal number. -/
def decimal (text : String) : Option ℤ :=
  if text = "" ∨ (text.toList.head? = some '0' ∧ ¬ text.toList.all (· == '0')) then none
  else (Seed.readNat text).map Int.ofNat

/-- The seeded service with the shipped `default_grants`. -/
def shipped : Setting where
  svc := Seed.service
  defaults := [("albums", .int 10), ("album_size", .int 64), ("apikeys", .int 2), ("contacts", .int 8),
    ("email_daily_total", .int 200), ("email_monthly_total", .int 1000), ("lists", .int 12),
    ("list_size", .int 250), ("media_size_max", .int 16777216), ("message_daily_total", .int 200),
    ("photo_res_max", .int 1080), ("photo_daily_total", .int 200), ("ratelimit", .int 500),
    ("sms_daily_total", .int 100), ("sms_monthly_total", .int 1000), ("video_duration_max", .int 60),
    ("video_daily_total", .int 50)]
  names := rfl
  int0 := decimal

/-- The administrator is logged in, and no grant was asked for yet. -/
def begun : Process where
  world := ((Seed.world Seed.shared).createSession Seed.service (some "x-23450001") ["admin", "user"] none
    "t1" 7200 []).1
  cache := ReadThrough.empty

/-- A call by the administrator. -/
def byAdmin (call : Call) : Event where
  elapsed := 1
  req := Seed.request { authorization := some ("x-23450001", "t1") } "g1"
  turnover := ⟨[], fun _ => []⟩
  call := call

/-- Somebody asks how many lists the other user may have. -/
def asked : Event := byAdmin (.get "lists" (.str "u-0002"))

/-- A grant of so many lists to the other user. -/
def lists (value : String) : Dict :=
  Dict.ofList [("name", .str "lists"), ("value", .str value), ("uid", .str "u-0002")]

/-- In a run from an empty cache in which no grant expires and every write spares the grants of the cached
users, every call of `get` gives the value of the grant in force, or the default. -/
theorem current_along (g : Setting) (w : World) (es : List Event)
    (h : (Process.machine g).Along (fun s e => Process.NoneExpires s e ∧ Process.Safe g s e)
      ⟨w, ReadThrough.empty⟩ es) :
    (Process.machine g).Along (Process.Current g) ⟨w, ReadThrough.empty⟩ es :=
  h.of_invariant (I := Process.Coherent g) (fun _ _ hcoherent he => hcoherent.next he.1 he.2)
    (fun _ _ hcoherent he => hcoherent.current he.1 he.2) (ReadThrough.Coherent.empty _)

/-- A grant is made, asked for, changed with its owner in the body, and deleted while it is not cached. -/
theorem ownerNamed_current : (Process.machine shipped).Along (Process.Current shipped) begun
    [byAdmin (.create (lists "5")), asked, byAdmin (.update "x-g1" (lists "7")),
      byAdmin (.delete ["x-g1"] false), asked] := by
  refine current_along shipped begun.world _ ⟨⟨by decide +kernel, trivial⟩, ⟨by decide +kernel, ?_⟩,
    ⟨by decide +kernel, ?_⟩, ⟨by decide +kernel, ?_⟩, ⟨by decide +kernel, ?_⟩, trivial⟩
  · exact ⟨Or.inr (Or.inl List.not_mem_nil), fun h => absurd h (by decide +kernel)⟩
  · intro b _ _ rec hrec _
    refine Or.inl (Option.isNone_iff_eq_none.mp ?_)
    revert rec
    decide +kernel
  · intro st _ rec hrec _ _
    refine Option.isNone_iff_eq_none.mp ?_
    revert rec
    decide +kernel
  · exact ⟨Or.inr (Or.inl List.not_mem_nil), fun h => absurd h (by decide +kernel)⟩

/-- A `PUT` with a hybrid id creates the grant behind the back of the cache: the quota check of the same
request has cached that the user has none. -/
theorem hybrid_stale : (Process.machine shipped).Along Process.NoneExpires begun
      [byAdmin (.update "u-0002:lists" (lists "5")), asked] ∧
    ¬ (Process.machine shipped).Along (Process.Current shipped) begun
      [byAdmin (.update "u-0002:lists" (lists "5")), asked] := by
  refine ⟨⟨by decide +kernel, by decide +kernel, trivial⟩, fun h => ?_⟩
  have hvalue := h.2.1 "lists" (.str "u-0002") rfl
  exact absurd hvalue (by decide +kernel)

end Grants

end Apicrud
