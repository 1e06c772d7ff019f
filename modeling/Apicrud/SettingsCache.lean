import Apicrud.AccountSettings
import Apicrud.Commits
import Apicrud.Seed
import Apicrud.Updates

/-! # The cache of settings and the database

The settings are cached by account and written by record, and `update` takes the entry of one account out.
A write that leaves no other account of the record in the cache keeps every entry what the database gives
for its account; in such runs `AccountSettings` shows the values of the record of the account
(`AccountSettings.shows_along`). -/

namespace Apicrud

open Relational

namespace AccountSettings

open Grants (Turnover)

variable {g : Setting} {t : Turnover} {db db' : Database} {s s' : Singleton} {k accountId uid : Val}
  {record account : Row} {d : Dict}

/-! ### What a record shows -/

/-- The settings show the values of a record, with the names of its administrator and time zone. -/
structure Shows (db : Database) (record : Row) (d : Dict) : Prop where
  columns : ∀ c ∈ Model.columns .settings, d.get c = record c
  sender : ∃ person ∈ db.rows .person, person "id" = record "administrator_id" ∧
    d.get "sender_name" = person "name" ∧ d.get "sender_email" = person "identity"
  tz : ∃ zone ∈ db.rows .tz, zone "id" = record "tz_id" ∧ d.get "tz" = zone "name"

theorem related_some {m : Model} {id : Val} {row : Row} (h : related db m id = some row) :
    row ∈ db.rows m ∧ row "id" = id := by
  unfold related at h
  exact ⟨List.mem_of_find?_eq_some h, by simpa using List.find?_some h⟩

/-- The record that a foreign key names is there. -/
theorem related_isSome {m : Model} {id : Val} (h : ∃ row ∈ db.rows m, row "id" = id) :
    ∃ row, related db m id = some row := by
  obtain ⟨row, hrow, hid⟩ := h
  cases hfound : related db m id with
  | some row' => exact ⟨row', rfl⟩
  | none => exact absurd (decide_eq_true hid) (List.find?_eq_none.mp hfound row hrow)

theorem related_eq {m : Model} {row : Row} (hkey : ["id"] ∈ schema.unique m)
    (hnull : "id" ∈ schema.notNull m) (hrow : row ∈ db.rows m) : related db m (row "id") = some row := by
  obtain ⟨row', hfound⟩ := related_isSome ⟨row, hrow, rfl⟩
  obtain ⟨hrow', hid⟩ := related_some hfound
  rw [hfound, db.eq_of_column hkey hnull hrow' hrow hid]

theorem get_ofList_map {columns : List String} {c : String} (record : Row) (hc : c ∈ columns) :
    (Dict.ofList (columns.map fun c => (c, record c))).get c = record c := by
  induction columns with
  | nil => cases hc
  | cons c' columns ih =>
      rw [List.map_cons, Dict.ofList_cons, Dict.get_set]
      split_ifs with heq
      · rw [heq]
      · exact ih ((List.mem_cons.mp hc).resolve_left heq)

theorem asDict_settings (db : Database) (record : Row) {c : String}
    (hc : c ∈ Model.columns .settings) : (BasicCrud.asDict db .settings record).get c = record c := by
  have hall : (Model.columns .settings).filter (fun c => c ∉ Model.restExclude .settings) =
      Model.columns .settings := by decide
  have hdict : BasicCrud.asDict db .settings record =
      Dict.ofList ((Model.columns .settings).map fun c => (c, record c)) := by
    unfold BasicCrud.asDict
    rw [hall]
    simp [Model.restRelated, Model.restHybrid]
  rw [hdict]
  exact get_ofList_map record hc

theorem settingsOf_shows (h : settingsOf db uid record = .ok d) : Shows db record d := by
  obtain ⟨category, -, h⟩ := Checks.bind_eq_ok.mp h
  cases hadministrator : related db .person (record "administrator_id") with
  | none =>
      rw [hadministrator] at h
      cases h
  | some administrator =>
      cases htz : related db .tz (record "tz_id") with
      | none =>
          rw [hadministrator, htz] at h
          cases h
      | some tz =>
          rw [hadministrator, htz] at h
          cases h
          obtain ⟨hperson, hpersonId⟩ := related_some hadministrator
          obtain ⟨hzone, hzoneId⟩ := related_some htz
          refine ⟨fun c hc => ?_, ⟨administrator, hperson, hpersonId, by simp, by simp⟩,
            ⟨tz, hzone, hzoneId, by simp⟩⟩
          have hother : c ≠ "tz" ∧ c ≠ "sender_email" ∧ c ≠ "sender_name" ∧ c ≠ "category_id" := by
            revert c
            decide
          simp only [Dict.get_set, if_neg hother.1, if_neg hother.2.1, if_neg hother.2.2.1,
            if_neg hother.2.2.2]
          exact asDict_settings db record hc

theorem Shows.with_senders (h : Shows db record d) (senders : Val) :
    Shows db record (d.set "approved_senders" senders) where
  columns c hc := by
    have hother : c ≠ "approved_senders" := by
      revert c
      decide
    rw [Dict.get_set, if_neg hother]
    exact h.columns c hc
  sender := by
    obtain ⟨person, hperson, hid, hname, hemail⟩ := h.sender
    exact ⟨person, hperson, hid, by simpa using hname, by simpa using hemail⟩
  tz := by
    obtain ⟨zone, hzone, hid, hname⟩ := h.tz
    exact ⟨zone, hzone, hid, by simpa using hname⟩

/-! ### The entry of an account -/

variable (g db) in
/-- What the database gives for an account with a record. -/
def entryOf (account record : Row) : Except Exc Entry := do
  let settings ← settingsOf db (account "uid") record
  let senders ← approvedSenders g db record
  pure ⟨account "uid", settings.set "approved_senders" senders⟩

variable (g db) in
/-- The entry is what the database gives for the account with that id and its record. -/
def Gives (k : Val) (e : Entry) : Prop :=
  ∃ account ∈ db.rows .account, account "id" = k ∧
    ∃ record ∈ db.rows .settings, record "id" = account "settings_id" ∧
      entryOf g db account record = .ok e

theorem settings_isSome (haccount : account ∈ db.rows .account) :
    ∃ record ∈ db.rows .settings, record "id" = account "settings_id" := by
  have hforeign : (⟨"settings_id", .settings, false⟩ : ForeignKey Model) ∈ schema.foreign .account := by
    simp [schema, Model.foreign]
  exact (db.refers haccount hforeign).resolve_left (db.ne_none haccount (by decide))

theorem categoryId_isOk (db : Database) (uid : Val) (record : Row) :
    ∃ v, categoryId db uid record = .ok v := by
  have hone : one (filterBy [("uid", uid), ("name", .str "default")] (db.rows .category)) ≠
      .error .multipleResultsFound := by
    have hkey : ["name", "uid"] ∈ schema.unique .category := by decide
    refine db.one_filterBy_ne hkey (by decide) ?_
    simp
  unfold categoryId
  cases hfound : one (filterBy [("uid", uid), ("name", .str "default")] (db.rows .category)) with
  | ok category => exact ⟨category "id", rfl⟩
  | error e =>
      cases e with
      | noResultFound => exact ⟨record "default_cat_id", rfl⟩
      | multipleResultsFound => exact absurd hfound hone

theorem approvedSenders_isOk (g : Setting) (db : Database) (record : Row) :
    ∃ v, approvedSenders g db record = .ok v := by
  have hone : one (filterBy [("name", .str g.approvedSenders), ("uid", record "administrator_id")]
      (db.rows .list)) ≠ .error .multipleResultsFound := by
    have hkey : ["name", "uid"] ∈ schema.unique .list := by decide
    refine db.one_filterBy_ne hkey (by decide) ?_
    simp
  unfold approvedSenders
  cases hfound : one (filterBy [("name", .str g.approvedSenders), ("uid", record "administrator_id")]
      (db.rows .list)) with
  | ok senders => exact ⟨_, rfl⟩
  | error e =>
      cases e with
      | noResultFound => exact ⟨_, rfl⟩
      | multipleResultsFound => exact absurd hfound hone

theorem settingsOf_isOk (hrecord : record ∈ db.rows .settings) (uid : Val) :
    ∃ d, settingsOf db uid record = .ok d := by
  have hadministrator : (⟨"administrator_id", .person, false⟩ : ForeignKey Model) ∈
      schema.foreign .settings := by simp [schema, Model.foreign]
  have htz : (⟨"tz_id", .tz, false⟩ : ForeignKey Model) ∈ schema.foreign .settings := by
    simp [schema, Model.foreign]
  obtain ⟨category, hcategory⟩ := categoryId_isOk db uid record
  obtain ⟨administrator, hperson⟩ : ∃ row, related db .person (record "administrator_id") = some row :=
    related_isSome ((db.refers hrecord hadministrator).resolve_left (db.ne_none hrecord (by decide)))
  obtain ⟨tz, hzone⟩ : ∃ row, related db .tz (record "tz_id") = some row :=
    related_isSome ((db.refers hrecord htz).resolve_left (db.ne_none hrecord (by decide)))
  unfold settingsOf
  rw [hcategory, hperson, hzone]
  exact ⟨_, rfl⟩

theorem entryOf_isOk (g : Setting) (hrecord : record ∈ db.rows .settings) (account : Row) :
    ∃ e, entryOf g db account record = .ok e := by
  obtain ⟨settings, hsettings⟩ := settingsOf_isOk hrecord (account "uid")
  obtain ⟨senders, hsenders⟩ := approvedSenders_isOk g db record
  refine ⟨⟨account "uid", settings.set "approved_senders" senders⟩, ?_⟩
  unfold entryOf
  rw [hsettings, hsenders]
  rfl

theorem entryOf_shows {e : Entry} (h : entryOf g db account record = .ok e) :
    Shows db record e.settings := by
  obtain ⟨settings, hsettings, h⟩ := Checks.bind_eq_ok.mp h
  obtain ⟨senders, -, h⟩ := Checks.bind_eq_ok.mp h
  cases h
  exact (settingsOf_shows hsettings).with_senders senders

/-- An entry that the database gives shows the record of the account. -/
theorem Gives.shows {e : Entry} (h : Gives g db (account "id") e) (haccount : account ∈ db.rows .account)
    (hrecord : record ∈ db.rows .settings) (hid : record "id" = account "settings_id") :
    Shows db record e.settings := by
  obtain ⟨account', haccount', hk, record', hrecord', hid', hentry⟩ := h
  obtain rfl := db.eq_of_column (by decide) (by decide) haccount' haccount hk
  obtain rfl := db.eq_of_column (by decide) (by decide) hrecord' hrecord (hid'.trans hid.symm)
  exact entryOf_shows hentry

/-! ### A construction -/

variable {session : Option Database}

/-- Every entry is what the database gives. -/
def Singleton.Holds (g : Setting) (db : Database) (s : Singleton) : Prop := s.cache.Holds (Gives g db)

theorem attach_of_some {e : Entry} (h : s.cache k = some e) :
    attach s k = ({ s with attributes := some ⟨e.settings, k, e.uid⟩ }, .ok ()) := by
  unfold attach
  rw [h]

theorem attach_cache (s : Singleton) (k : Val) : (attach s k).1.cache = s.cache := by
  unfold attach
  cases s.cache k <;> rfl

theorem accountOf_ok (h : accountOf db accountId uid = .ok account) :
    account ∈ db.rows .account ∧
      if accountId.truthy then account "id" = accountId else account "uid" = uid := by
  unfold accountOf at h
  split_ifs at h ⊢
  · obtain ⟨haccount, hconds⟩ := of_one_filterBy h
    exact ⟨haccount, hconds ("id", accountId) (List.mem_singleton_self _)⟩
  · obtain ⟨haccount, hconds⟩ := of_one_filterBy h
    exact ⟨haccount, hconds ("uid", uid) (List.mem_singleton_self _)⟩

theorem accountOf_id (haccount : account ∈ db.rows .account) (hid : account "id" = accountId)
    (htruthy : accountId.truthy = true) (uid : Val) : accountOf db accountId uid = .ok account := by
  unfold accountOf
  rw [if_pos htruthy]
  exact db.one_filterBy_column (by decide) (by decide) haccount hid

theorem globalOf_ok (h : globalOf db = .ok (record, account)) :
    record ∈ db.rows .settings ∧ account ∈ db.rows .account ∧
      account "uid" = record "administrator_id" := by
  obtain ⟨record', hrecord, h⟩ := Checks.bind_eq_ok.mp h
  obtain ⟨account', haccount, h⟩ := Checks.bind_eq_ok.mp h
  cases h
  obtain ⟨haccount, hconds⟩ := of_one_filterBy haccount
  exact ⟨(of_one_filterBy hrecord).1, haccount,
    hconds ("uid", record "administrator_id") (List.mem_singleton_self _)⟩

/-- A record of an account that is loaded is cached and shown. -/
theorem load_eq (haccount : account ∈ db.rows .account) (hrecord : record ∈ db.rows .settings)
    (hid : record "id" = account "settings_id") (g : Setting) (t : Turnover) (s : Singleton) :
    ∃ e, Gives g db (account "id") e ∧ load g t db s (account "id") (account "uid") record =
      (⟨(s.cache.drop (t.displaced (account "id"))).put (account "id") e, s.adminId,
        some ⟨e.settings, account "id", e.uid⟩⟩, .ok ()) := by
  obtain ⟨e, hentry⟩ := entryOf_isOk g hrecord account
  refine ⟨e, ⟨account, haccount, rfl, record, hrecord, hid, hentry⟩, ?_⟩
  obtain ⟨settings, hsettings, hentry⟩ := Checks.bind_eq_ok.mp hentry
  obtain ⟨senders, hsenders, hentry⟩ := Checks.bind_eq_ok.mp hentry
  cases hentry
  have hput : ∀ (c : Cache) (k : Val) (e e' : Entry), (c.put k e).put k e' = c.put k e' :=
    fun c k e e' => Function.update_idem _ _ _
  have hself : ∀ (c : Cache) (k : Val) (e : Entry), (c.put k e) k = some e :=
    fun c k e => Function.update_self _ _ _
  unfold load
  rw [hsettings, hsenders]
  simp only [hput]
  unfold attach
  simp only [hself]

theorem load_holds (h : s.Holds g db) (haccount : account ∈ db.rows .account)
    (hrecord : record ∈ db.rows .settings) (hid : record "id" = account "settings_id") :
    (load g t db s (account "id") (account "uid") record).1.Holds g db := by
  obtain ⟨e, hgives, hload⟩ := load_eq haccount hrecord hid g t s
  rw [hload]
  exact (h.drop _).put hgives

/-- The settings that an unknown account falls back on are those of the administrator's account. -/
def GlobalIsOwn (db : Database) : Prop :=
  ∀ record account, globalOf db = .ok (record, account) → account "settings_id" = record "id"

/-- An unknown account is asked for before the account of the administrator is known. -/
def FallsBack (db : Database) (s : Singleton) (accountId uid : Val) : Prop :=
  s.cache accountId = none ∧ accountOf db accountId uid = .error .noResultFound ∧
    s.adminId.truthy = false

theorem initWith_cached {again : Singleton → Singleton × Except Exc Unit}
    (h : s.cache accountId ≠ none) :
    initWith g t again session s accountId uid = attach s accountId := by
  unfold initWith
  rw [if_pos (Option.isSome_iff_ne_none.mpr h)]

theorem initWith_missing {again : Singleton → Singleton × Except Exc Unit}
    (h : s.cache accountId = none) :
    initWith g t again none s accountId uid = (s, .error .other) := by
  unfold initWith
  rw [h]
  rfl

/-- An account that is found is loaded with its record. -/
theorem initWith_found (g : Setting) (t : Turnover) (again : Singleton → Singleton × Except Exc Unit)
    (h : s.cache accountId = none) (haccount : accountOf db accountId uid = .ok account) :
    ∃ record ∈ db.rows .settings, record "id" = account "settings_id" ∧
      initWith g t again (some db) s accountId uid =
        load g t db s (account "id") (account "uid") record := by
  obtain ⟨hmem, hnamed⟩ := accountOf_ok haccount
  obtain ⟨record, hrecord⟩ := related_isSome (settings_isSome hmem)
  obtain ⟨hrow, hid⟩ := related_some hrecord
  refine ⟨record, hrow, hid, ?_⟩
  unfold initWith
  rw [h]
  simp only [haccount, hrecord]
  by_cases htruthy : accountId.truthy = true
  · rw [if_pos htruthy] at hnamed ⊢
    rw [hnamed]
    rfl
  · rw [if_neg htruthy] at hnamed ⊢
    rw [hnamed]
    rfl

theorem initWith_holds {again : Singleton → Singleton × Except Exc Unit} (h : s.Holds g db)
    (hsession : ∀ db', session = some db' → db' = db)
    (hglobal : session = some db → FallsBack db s accountId uid → GlobalIsOwn db)
    (hagain : s.adminId.truthy = true → (again s).1.Holds g db) :
    (initWith g t again session s accountId uid).1.Holds g db := by
  by_cases hnone : s.cache accountId = none
  · cases session with
    | none =>
        rw [initWith_missing hnone]
        exact h
    | some db' =>
        obtain rfl := hsession db' rfl
        cases haccount : accountOf db' accountId uid with
        | ok account =>
            obtain ⟨record, hrow, hid, hload⟩ := initWith_found g t again hnone haccount
            rw [hload]
            exact load_holds h (accountOf_ok haccount).1 hrow hid
        | error e =>
            unfold initWith
            rw [hnone]
            simp only [haccount]
            cases e with
            | multipleResultsFound => exact h
            | noResultFound =>
                by_cases hadmin : s.adminId.truthy = true
                · simp only [hadmin]
                  exact hagain hadmin
                · have hown := hglobal rfl ⟨hnone, haccount, by simpa using hadmin⟩
                  simp only [hadmin]
                  cases hfound : globalOf db' with
                  | error e => exact h
                  | ok found =>
                      obtain ⟨record, account⟩ := found
                      obtain ⟨hrecord, hmem, huid⟩ := globalOf_ok hfound
                      have hload := load_holds (t := t) (s := { s with adminId := account "id" }) h hmem
                        hrecord (hown record account hfound).symm
                      rw [huid] at hload
                      exact hload
  · rw [initWith_cached hnone]
    unfold Singleton.Holds
    rw [attach_cache]
    exact h

/-- A construction keeps every entry what the database gives. -/
theorem init_holds (h : s.Holds g db) (hsession : ∀ db', session = some db' → db' = db)
    (hglobal : session = some db → FallsBack db s accountId uid → GlobalIsOwn db) :
    (init g t session s accountId uid).1.Holds g db := by
  refine initWith_holds h hsession hglobal fun hadmin => ?_
  refine initWith_holds h hsession (fun _ hfalls => ?_) fun _ => h
  exact absurd (hfalls.2.2.symm.trans hadmin) (by decide)

theorem get_holds (h : s.Holds g db) (hsession : ∀ db', session = some db' → db' = db)
    (hglobal : session = some db → FallsBack db s accountId uid → GlobalIsOwn db) :
    (get g t session s accountId uid).1.Holds g db := by
  have hinit := init_holds (t := t) h hsession hglobal
  unfold get
  cases hresult : init g t session s accountId uid with
  | mk s' result =>
      rw [hresult] at hinit
      cases result with
      | error e => exact hinit
      | ok =>
          simp only
          cases s'.attributes with
          | none => exact hinit
          | some attributes => exact hinit

/-- An account that has an entry, or is asked for with a database session, is shown its own entry. -/
theorem get_value (h : s.Holds g db) (haccount : account ∈ db.rows .account)
    (hid : account "id" = accountId)
    (hfound : s.cache accountId ≠ none ∨ session = some db ∧ accountId.truthy = true)
    (t : Turnover) (uid : Val) :
    ∃ e, Gives g db accountId e ∧ (get g t session s accountId uid).2 = .ok e.settings := by
  cases hentry : s.cache accountId with
  | some e =>
      refine ⟨e, h accountId e hentry, ?_⟩
      have hinit : init g t session s accountId uid =
          ({ s with attributes := some ⟨e.settings, accountId, e.uid⟩ }, .ok ()) := by
        unfold init
        rw [initWith_cached (by rw [hentry]; exact Option.some_ne_none e), attach_of_some hentry]
      unfold get
      rw [hinit]
  | none =>
      obtain ⟨rfl, htruthy⟩ := hfound.resolve_left fun hne => hne hentry
      have hof := accountOf_id haccount hid htruthy uid
      subst hid
      obtain ⟨record, hrow, hrecordId, hinit⟩ := initWith_found g t
        (fun s => initWith g t (fun s => (s, .error .other)) (some db) s s.adminId .none) hentry hof
      obtain ⟨e, hgives, hload⟩ := load_eq haccount hrow hrecordId g t s
      refine ⟨e, hgives, ?_⟩
      unfold get init
      rw [hinit, hload]

/-! ### An update -/

theorem settingsOf_congr (h : ∀ m ≠ .settings, db'.rows m = db.rows m) (uid : Val) (record : Row) :
    settingsOf db' uid record = settingsOf db uid record := by
  have hcategory : categoryId db' uid record = categoryId db uid record := by
    unfold categoryId
    rw [h .category (by decide)]
  have hdict : BasicCrud.asDict db' .settings record = BasicCrud.asDict db .settings record := rfl
  unfold settingsOf related
  rw [hcategory, hdict, h .person (by decide), h .tz (by decide)]

theorem approvedSenders_congr (h : ∀ m ≠ .settings, db'.rows m = db.rows m) (g : Setting)
    (record : Row) : approvedSenders g db' record = approvedSenders g db record := by
  have hmembers : ∀ id, BasicCrud.currentRelated db' members id =
      BasicCrud.currentRelated db members id := by
    intro id
    unfold BasicCrud.currentRelated
    rw [h members.assoc (by decide)]
  unfold approvedSenders related
  simp only [hmembers, h .list (by decide), h .person (by decide)]

/-- A write of one record keeps what the database gives for the accounts of the others. -/
theorem Gives.modify {id : String} {b : Dict} {e : Entry} (h : Gives g db k e)
    (hdb : db'.1 = db.1.modify .settings (hasId id) (·.write b))
    (hother : ∀ account ∈ db.rows .account, account "id" = k → account "settings_id" ≠ .str id) :
    Gives g db' k e := by
  obtain ⟨account, haccount, hk, record, hrecord, hid, hentry⟩ := h
  have hrows : ∀ m ≠ .settings, db'.rows m = db.rows m := by
    intro m hm
    rw [Store.rows, hdb]
    exact Db.modify_ne _ _ _ hm
  have hkept : hasId id record = false := by
    refine decide_eq_false fun hrecordId => ?_
    exact hother account haccount hk (hid.symm.trans hrecordId)
  refine ⟨account, ?_, hk, record, ?_, hid, ?_⟩
  · rw [hrows .account (by decide)]
    exact haccount
  · rw [Store.rows, hdb, Db.mem_modify]
    exact ⟨record, hrecord, by rw [hkept]; rfl⟩
  · unfold entryOf at hentry ⊢
    rw [settingsOf_congr hrows, approvedSenders_congr hrows]
    exact hentry

theorem uncache_of_some {e : Entry} (h : s.cache k = some e) (g : Setting) (t : Turnover) :
    uncache g t s k = (⟨s.cache.pop k, s.adminId, some ⟨e.settings, k, e.uid⟩⟩, .ok ()) := by
  have hinit : init g t none s k .none =
      ({ s with attributes := some ⟨e.settings, k, e.uid⟩ }, .ok ()) := by
    unfold init
    rw [initWith_cached (by rw [h]; exact Option.some_ne_none e), attach_of_some h]
  unfold uncache
  rw [hinit]

theorem uncache_of_none (h : s.cache k = none) (g : Setting) (t : Turnover) :
    uncache g t s k = (s, .error .other) := by
  unfold uncache init
  rw [initWith_missing h]

theorem uncache_holds (h : s.Holds g db) (t : Turnover) (k : Val) :
    (uncache g t s k).1.Holds g db := by
  cases hentry : s.cache k with
  | none =>
      rw [uncache_of_none hentry]
      exact h
  | some e =>
      rw [uncache_of_some hentry]
      exact h.pop fun _ _ _ _ hgives => hgives

theorem uncache_none (h : s.cache k = none) (t : Turnover) (k' : Val) :
    (uncache g t s k').1.cache k = none := by
  cases hentry : s.cache k' with
  | none =>
      rw [uncache_of_none hentry]
      exact h
  | some e =>
      rw [uncache_of_some hentry]
      by_cases hk : k = k'
      · rw [hk]
        exact ReadThrough.pop_self
      · exact (ReadThrough.pop_of_ne hk).trans h

end AccountSettings

namespace SettingsController

open AccountSettings
open Grants (Turnover)

variable {g : Setting} {w : World} {req : Request} {s : Singleton} {id : String} {body : Dict}
  {db : Database} {account : Row}

theorem adminAccount_eq (haccount : account ∈ db.rows .account) (hname : account "name" = .str "admin") :
    adminAccount db = .ok (account "id") := by
  have hone : one (filterBy [("name", .str "admin")] (db.rows .account)) = .ok account :=
    db.one_filterBy_column (by decide) (by decide) haccount hname
  unfold adminAccount
  rw [hone]

variable (g w req s) in
/-- A write that goes through finds no account of the record in the cache, other than `admin`. -/
def Spares (id : String) (body : Dict) : Prop :=
  ∀ b, BasicCrud.updateBody g.svc w.now id body = .ok b →
    BasicCrud.RowAccepted g.svc w.db (req.access g.svc w) .settings id b 'u' →
    ∀ account ∈ w.db.rows .account, account "settings_id" = .str id → account "name" ≠ .str "admin" →
      s.cache (account "id") = none

/-- The record is written, and then one entry at most is taken out. -/
theorem update_cases (g : Setting) (t : Turnover) (w : World) (req : Request) (s : Singleton)
    (id : String) (body : Dict) :
    (update g t w req s id body).2.1 =
        (BasicCrud.update g.svc w.db (req.access g.svc w) w.now .settings id body 'u' []).1 ∧
      ((update g t w req s id body).1 = s ∨
        ∃ k, (update g t w req s id body).1 = (uncache g t s k).1) := by
  unfold update
  simp only
  split_ifs
  · cases hadmin : adminAccount (BasicCrud.update g.svc w.db (req.access g.svc w) w.now .settings id body
        'u' []).1 with
    | error e => exact ⟨rfl, Or.inl rfl⟩
    | ok k =>
        simp only
        cases huncache : uncache g t s k with
        | mk s' result =>
            have hsame : s' = (uncache g t s k).1 := by rw [huncache]
            cases result with
            | error e => exact ⟨rfl, Or.inr ⟨k, hsame⟩⟩
            | ok => exact ⟨rfl, Or.inr ⟨k, hsame⟩⟩
  · exact ⟨rfl, Or.inl rfl⟩

/-- The account `admin` loses its entry after a write. -/
theorem update_uncaches {b : Dict} {db' : Database}
    (hbody : BasicCrud.updateBody g.svc w.now id body = .ok b)
    (hwrite : BasicCrud.writeRow g.svc w.db (req.access g.svc w) .settings id b 'u' = .ok db')
    (haccount : account ∈ db'.rows .account) (hname : account "name" = .str "admin") (t : Turnover) :
    (update g t w req s id body).1.cache (account "id") = none := by
  have hupdate : BasicCrud.update g.svc w.db (req.access g.svc w) w.now .settings id body 'u' [] =
      (db', .messageId "updated" id 200) := BasicCrud.update_written rfl hbody hwrite
  unfold update
  rw [hupdate]
  simp only [Response.messageId_status, if_true, adminAccount_eq haccount hname]
  cases hentry : s.cache (account "id") with
  | none =>
      rw [uncache_of_none hentry]
      exact hentry
  | some e =>
      rw [uncache_of_some hentry]
      exact ReadThrough.pop_self

/-- An update that spares the entries keeps every entry what the database gives. -/
theorem update_holds (h : s.Holds g w.db) (hspares : Spares g w req s id body) (t : Turnover) :
    (update g t w req s id body).1.Holds g (update g t w req s id body).2.1 := by
  obtain ⟨hwritten, htaken⟩ := update_cases g t w req s id body
  have hkept : (update g t w req s id body).1.Holds g w.db := by
    obtain hsame | ⟨k, hsame⟩ := htaken
    · rw [hsame]
      exact h
    · rw [hsame]
      exact uncache_holds h t k
  have hfewer : ∀ k, s.cache k = none → (update g t w req s id body).1.cache k = none := by
    intro k hnone
    obtain hsame | ⟨k', hsame⟩ := htaken
    · rw [hsame]
      exact hnone
    · rw [hsame]
      exact uncache_none hnone t k'
  have hcases := @BasicCrud.update_cases g.svc w.db (req.access g.svc w) w.now .settings id body 'u' [] rfl
  rw [← hwritten] at hcases
  obtain hsame | ⟨b, hbody, hwrite⟩ := hcases
  · rw [hsame]
    exact hkept
  · have hdb := (writeRow_ok hwrite).2.2.2
    intro k e hentry
    refine (hkept k e hentry).modify hdb fun account haccount hk hid => ?_
    subst hk
    have hnone : (update g t w req s id body).1.cache (account "id") = none := by
      by_cases hname : account "name" = .str "admin"
      · refine update_uncaches hbody hwrite ?_ hname t
        rw [Store.rows, hdb, Db.modify_ne _ _ _ (by decide)]
        exact haccount
      · exact hfewer _ (hspares b hbody (BasicCrud.writeRow_isOk.mp ⟨_, hwrite⟩) account haccount hid hname)
    rw [hnone] at hentry
    cases hentry

end SettingsController

namespace AccountSettings

namespace Process

/-! ### Runs -/

variable (g : Setting)

/-- A construction for an account finds its entry, or is given its id and a database session; an unknown
account falls back on settings that are its administrator's own; and a write spares the entries. -/
def Safe (s : Process) (e : Event) : Prop :=
  match e.call with
  | .construct accountId session uid =>
      (∀ account ∈ s.world.db.rows .account, account "id" = accountId →
        (s.singletonAt e).cache accountId ≠ none ∨ session = true ∧ accountId.truthy = true) ∧
      (session = true → FallsBack s.world.db (s.singletonAt e) accountId uid → GlobalIsOwn s.world.db)
  | .update id body => SettingsController.Spares g (s.worldAt e) e.req (s.singletonAt e) id body

/-- A construction for an account shows the values that its record has now. -/
def ShowsRecord (s : Process) (e : Event) : Prop :=
  ∀ accountId session uid, e.call = .construct accountId session uid →
    ∀ account ∈ s.world.db.rows .account, account "id" = accountId →
      ∀ record ∈ s.world.db.rows .settings, record "id" = account "settings_id" →
        ∃ d, (machine g).out s e = .settings (.ok d) ∧ Shows s.world.db record d

/-- Every entry is what the database gives. -/
def Holds (s : Process) : Prop := s.singleton.Holds g s.world.db

variable {g} {s : Process} {e : Event} {session : Bool} {id : String} {body : Dict}

theorem Holds.at (h : Holds g s) (e : Event) : (s.singletonAt e).Holds g (s.worldAt e).db :=
  ReadThrough.Holds.drop h _

theorem next_construct (he : e.call = .construct accountId session uid) : (machine g).next s e =
    ⟨s.worldAt e, (get g e.turnover (if session then some (s.worldAt e).db else none) (s.singletonAt e)
      accountId uid).1⟩ := by
  unfold Machine.next machine step
  simp only [he]

theorem out_construct (he : e.call = .construct accountId session uid) : (machine g).out s e =
    .settings (get g e.turnover (if session then some (s.worldAt e).db else none) (s.singletonAt e)
      accountId uid).2 := by
  unfold Machine.out machine step
  simp only [he]

theorem next_update (he : e.call = .update id body) : (machine g).next s e =
    ⟨{ s.worldAt e with
        db := (SettingsController.update g e.turnover (s.worldAt e) e.req (s.singletonAt e) id body).2.1 },
      (SettingsController.update g e.turnover (s.worldAt e) e.req (s.singletonAt e) id body).1⟩ := by
  unfold Machine.next machine step
  simp only [he]

theorem Holds.next (h : Holds g s) (hsafe : Safe g s e) : Holds g ((machine g).next s e) := by
  have hat := h.at e
  unfold Safe at hsafe
  unfold Holds
  cases he : e.call with
  | construct accountId session uid =>
      rw [he] at hsafe
      rw [next_construct he]
      refine get_holds hat (fun db' hsession => ?_) fun hsession hfalls => ?_
      · cases session with
        | true => exact (Option.some.inj hsession).symm
        | false => cases hsession
      · cases session with
        | true => exact hsafe.2 rfl hfalls
        | false => cases hsession
  | update id body =>
      rw [he] at hsafe
      rw [next_update he]
      exact SettingsController.update_holds hat hsafe e.turnover

theorem Holds.shows (h : Holds g s) (hsafe : Safe g s e) : ShowsRecord g s e := by
  intro accountId session uid he account haccount hid record hrecord hrecordId
  have hat := h.at e
  unfold Safe at hsafe
  rw [he] at hsafe
  have hfound : (s.singletonAt e).cache accountId ≠ none ∨
      (if session then some (s.worldAt e).db else none) = some (s.worldAt e).db ∧
        accountId.truthy = true :=
    (hsafe.1 account haccount hid).imp_right fun hgiven => ⟨if_pos hgiven.1, hgiven.2⟩
  obtain ⟨entry, hgives, hvalue⟩ := get_value hat haccount hid hfound e.turnover uid
  subst hid
  refine ⟨entry.settings, ?_, hgives.shows haccount hrecord hrecordId⟩
  rw [out_construct he]
  exact congrArg Answer.settings hvalue

end Process

/-! ### Two accounts with one record -/

/-- The seeded service, with the shipped name of the list. -/
def shipped : Setting := ⟨Seed.service, "approved_senders"⟩

/-- The administrator is logged in, and no settings were asked for yet. -/
def begun : Process where
  world := ((Seed.world Seed.shared).createSession Seed.service (some "x-23450001") ["admin", "user"] none
    "t1" 7200 []).1
  singleton := Singleton.fresh

/-- A call in a request by the administrator. -/
def byAdmin (call : Call) : Event where
  elapsed := 1
  req := Seed.request { authorization := some ("x-23450001", "t1") } "g1"
  turnover := ⟨[], fun _ => []⟩
  call := call

/-- The settings of an account are asked for. -/
def asked (accountId : String) : Event := byAdmin (.construct (.str accountId) true .none)

/-- Another language for the record of both accounts. -/
def french : Event := byAdmin (.update "x-75023275" (Dict.ofList [("lang", .str "fr_FR")]))

/-- What a column is shown as. -/
def Answer.shown (c : String) : Answer → Option Val
  | .settings (.ok d) => some (d.get c)
  | _ => none

/-- The status of a response. -/
def Answer.status : Answer → Option ℕ
  | .response r => some r.status
  | .settings _ => none

end AccountSettings

end Apicrud
