import Apicrud.ConfigPrecedence
import Apicrud.Machine

/-! # Rejected configurations

A call of the constructor that raises leaves the immutable `config` as it was.  But it has put values into
`state` until then, and these are what `ServiceConfig.get` reports: `rejected_iff` says when none of them is
another one than before. -/

namespace Apicrud

namespace ServiceConfig

open Interruptible

/-- The schema of the package: it has the keys that the constructor works on, and none that is named like an
entry of `state` of its own. -/
structure PackageSchema extends Schema where
  needed : ∀ key ∈ ["db_aes_secret", "metrics", "log_level", "template_folders",
    "babel_translation_directories", "rbac_file", "db_migrations", "db_seed_file", "login_admin_limit",
    "login_session_limit"], key ∈ properties.map Prod.fst
  unreserved : ∀ key ∈ reserved, key ∉ properties.map Prod.fst

/-- The process, as it is changed by calls of the constructor. -/
def configs (host : Host) (schema : PackageSchema) : Machine Process Call (Option Settings) :=
  ⟨fun s call => init host call schema.toSchema s⟩

/-- What a call may write to. -/
def PackageSchema.touched (schema : PackageSchema) : List String :=
  "secret_key" :: schema.properties.map Prod.fst

variable {host : Host} {schema : PackageSchema} {call : Call} {s s' : Process}

/-! ### What a call writes to before it publishes -/

theorem beside_setProperty {keys : List String} {p : String × Property} (hp : p.1 ∈ keys)
    (overrides : Json) : Keeps (Beside keys) (setProperty host call overrides p) := by
  intro s
  rw [setProperty_run]
  cases call.valueOf host overrides p with
  | some v => exact Beside.of_assign hp _ s
  | none =>
      cases call.spoiledOf host overrides p with
      | some v => exact Beside.of_assign hp _ s
      | none => exact Beside.refl s

theorem beside_load : Keeps (Beside schema.touched) (load host call schema.toSchema) := by
  refine .bind Beside.trans (.ofOption Beside.refl _) fun overrides => ?_
  refine .bind Beside.trans ?_ fun left => ?_
  · exact .foldlM Beside.refl Beside.trans (fun overrides p hp => beside_setProperty
      (List.mem_cons_of_mem _ (List.mem_map_of_mem hp)) overrides) overrides
  · exact .bind Beside.trans (.ensure Beside.refl _) fun _ => .ensure Beside.refl _

theorem documented_mem {key : String} (h : key ∈ documented call) :
    key ∈ schema.properties.map Prod.fst := by
  refine schema.needed key ?_
  unfold documented at h
  split_ifs at h <;>
    simp only [List.mem_append, List.mem_cons, List.not_mem_nil, or_false] at h ⊢ <;> tauto

theorem beside_special : Keeps (Beside schema.touched) (specialCases host call) := by
  intro s
  refine (beside_specialCases s).mono fun key hkey => ?_
  obtain rfl | hkey := List.mem_cons.mp hkey
  · exact List.mem_cons_self
  · exact List.mem_cons_of_mem _ (documented_mem hkey)

theorem schema_untouched : "schema" ∉ schema.touched := by
  intro h
  obtain h | h := List.mem_cons.mp h
  · exact absurd h (by decide)
  · exact schema.unreserved "schema" (by decide) h

/-! ### Names -/

theorem keys_core (state : Settings) : (core state).map Prod.fst =
    (state.map Prod.fst).filter fun key => decide (key ≠ "schema") && decide (key ≠ "models") := by
  unfold core Assoc.erase
  rw [List.filter_filter, List.filter_map]
  congr 1
  refine List.filter_congr fun p _ => ?_
  rw [Bool.and_comm]
  rfl

/-- Whether there is a tuple is a matter of the keys. -/
theorem namedtuple_congr {state state' : Settings} (h : state.map Prod.fst = state'.map Prod.fst)
    (hsome : ∃ config, namedtuple host state = some config) :
    ∃ config, namedtuple host state' = some config := by
  have hnames : ∀ l : Settings, (l.map fun p => host.upper p.1) = (l.map Prod.fst).map host.upper := by
    intro l
    rw [List.map_map]
    rfl
  have hfields : ∀ l : Settings, (∀ p ∈ l, host.isField (host.upper p.1) = true) ↔
      ∀ key ∈ l.map Prod.fst, host.isField (host.upper key) = true := by
    intro l
    simp
  obtain ⟨config, hconfig⟩ := hsome
  unfold namedtuple at hconfig ⊢
  split_ifs at hconfig with hgood
  rw [hnames, hfields, h, ← hnames, ← hfields] at hgood
  exact ⟨_, if_pos hgood⟩

/-! ### A process with a configuration -/

/-- There is a configuration, and `state` has all that was loaded for it, under names that may be fields. -/
structure Configured (host : Host) (schema : PackageSchema) (s : Process) : Prop where
  config : ∃ config secret, s.config = some config ∧ Assoc.get config "DB_AES_SECRET" = some secret
  names : ∃ config, namedtuple host (core s.state) = some config
  keys : ∀ key ∈ schema.touched, key ∈ s.state.map Prod.fst
  schema : Assoc.get s.state "schema" = some (.schema schema.properties)

/-- A process without a configuration, or one as it should be. -/
def Sound (host : Host) (schema : PackageSchema) (s : Process) : Prop :=
  s.config = none ∨ Configured host schema s

/-- What a call changes before it publishes leaves a configured process configured. -/
theorem Configured.beside (h : Configured host schema s) (hbeside : Beside schema.touched s s') :
    Configured host schema s' := by
  have hkeys : s'.state.map Prod.fst = s.state.map Prod.fst := hbeside.keys h.keys
  refine ⟨?_, ?_, ?_, ?_⟩
  · rw [hbeside.config]
    exact h.config
  · refine namedtuple_congr ?_ h.names
    rw [keys_core, keys_core, hkeys]
  · rw [hkeys]
    exact h.keys
  · rw [hbeside.get "schema" schema_untouched]
    exact h.schema

theorem get_isSome {state : Settings} {key : String} (h : key ∈ state.map Prod.fst) :
    ∃ item, Assoc.get state key = some item := by
  cases hget : Assoc.get state key with
  | none => exact absurd h (Assoc.get_eq_none.mp hget)
  | some item => exact ⟨item, rfl⟩

theorem mem_of_get {state : Settings} {key : String} {item : Item} (h : Assoc.get state key = some item) :
    key ∈ state.map Prod.fst := by
  by_contra hnot
  rw [Assoc.get_eq_none.mpr hnot] at h
  cases h

theorem core_set_schema (state : Settings) (item : Item) :
    core (Assoc.set (core state) "schema" item) = core state := by
  unfold core
  rw [Assoc.erase_set, Assoc.erase_comm (Assoc.erase state "schema") "models" "schema", Assoc.erase_idem,
    Assoc.erase_idem]

theorem core_set_models (state : Settings) (item : Item) :
    core (Assoc.set state "models" item) = core state := by
  unfold core
  rw [Assoc.erase_comm, Assoc.erase_set, Assoc.erase_comm]

/-- The end of the constructor, with a configuration that has a secret. -/
theorem finish_of {config : Settings} {secret : Item} (hconfig : s.config = some config)
    (hsecret : Assoc.get config "DB_AES_SECRET" = some secret) :
    ∃ s', finish call s = (s', some config) ∧ s'.config = some config ∧
      Assoc.get s'.state "schema" = Assoc.get s.state "schema" ∧ core s'.state = core s.state ∧
      ∀ key ∈ s.state.map Prod.fst, key ∈ s'.state.map Prod.fst := by
  unfold finish
  simp only [bind_run, read_run, ofOption_run, change_run, hconfig, hsecret]
  by_cases hmodels : call.models = true
  · rw [if_pos hmodels]
    refine ⟨_, rfl, rfl, ?_, core_set_models _ _, fun key hkey => ?_⟩
    · exact Assoc.get_set_ne (by decide)
    · exact Assoc.mem_keys_set.mpr (Or.inr hkey)
  · rw [if_neg hmodels]
    exact ⟨_, rfl, rfl, rfl, rfl, fun key hkey => hkey⟩

/-- What was loaded can be published, and the constructor gets to its end. -/
theorem publish_finish {config : Settings} (hnames : namedtuple host (core s.state) = some config)
    (haes : "db_aes_secret" ∈ s.state.map Prod.fst) :
    ∃ s', (do publish host schema.toSchema; finish call : Interruptible Process Settings) s =
        (s', some config) ∧ s'.config = some config ∧
      (∃ secret, Assoc.get config "DB_AES_SECRET" = some secret) ∧
      Assoc.get s'.state "schema" = some (.schema schema.properties) ∧ core s'.state = core s.state ∧
      ∀ key ∈ s.state.map Prod.fst, key ≠ "models" → key ∈ s'.state.map Prod.fst := by
  obtain ⟨item, hitem⟩ := get_isSome haes
  have hcore : Assoc.get (core s.state) "db_aes_secret" = some item :=
    (get_core (by decide) (by decide)).trans hitem
  have hsecret := get_namedtuple hnames hcore
  rw [host.upper_secret] at hsecret
  have hpublish : ∃ s₁, publish host schema.toSchema s = (s₁, some ()) ∧ s₁.config = some config ∧
      s₁.state = Assoc.set (core s.state) "schema" (.schema schema.properties) := by
    unfold publish
    simp only [bind_run, change_run, read_run, hnames]
    exact ⟨_, rfl, rfl, rfl⟩
  obtain ⟨s₁, hpublish, hpublished, hstate⟩ := hpublish
  obtain ⟨s', hfinish, hconfig, hschema, hcores, hkeys⟩ := @finish_of call s₁ config item hpublished hsecret
  rw [hstate] at hschema hcores hkeys
  refine ⟨s', (bind_of_some hpublish).trans hfinish, hconfig, ⟨item, hsecret⟩, ?_, ?_, ?_⟩
  · rw [hschema]
    exact Assoc.get_set_self
  · rw [hcores]
    exact core_set_schema _ _
  · intro key hkey hmodels
    refine hkeys key (Assoc.mem_keys_set.mpr ?_)
    by_cases hschema : key = "schema"
    · exact Or.inl hschema
    · obtain ⟨item, hitem⟩ := get_isSome hkey
      exact Or.inr (mem_of_get ((get_core hschema hmodels).trans hitem))

/-- A call that raises before it publishes. -/
def Raises (host : Host) (schema : PackageSchema) (call : Call) (s s' : Process) : Prop :=
  load host call schema.toSchema s = (s', none) ∨
    ∃ s₁, load host call schema.toSchema s = (s₁, some ()) ∧ specialCases host call s₁ = (s', none)

/-- What was loaded and worked on is there. -/
theorem touched_present {s₁ s₂ : Process} (hload : load host call schema.toSchema s = (s₁, some ()))
    (hspecial : specialCases host call s₁ = (s₂, some ())) :
    ∀ key ∈ schema.touched, key ∈ s₂.state.map Prod.fst := by
  obtain ⟨_, _, _, hvalues⟩ := load_some hload
  have hbeside := @beside_special host schema call s₁
  rw [hspecial] at hbeside
  intro key hkey
  obtain rfl | hkey := List.mem_cons.mp hkey
  · unfold specialCases at hspecial
    obtain ⟨s₃, _, hsecret, hrest⟩ := bind_eq_some.mp hspecial
    have hgrows := (@beside_specialValues host call s₃).grows
    rw [hrest] at hgrows
    refine hgrows _ ?_
    unfold composeSecret at hsecret
    obtain ⟨s₄, secret, hlook, hsecret⟩ := bind_eq_some.mp hsecret
    cases secret with
    | str text =>
        obtain ⟨s₅, bytes, _, hassign⟩ := bind_eq_some.mp hsecret
        cases hassign
        exact mem_of_get (s₅.get_assign_self _ _)
    | null | bool _ | num _ | arr _ | obj _ => cases hsecret
  · obtain ⟨p, hp, rfl⟩ := List.mem_map.mp hkey
    obtain ⟨v, _, hget⟩ := hvalues p hp
    exact hbeside.grows _ (mem_of_get hget)

/-- A call that loads raises before it publishes, or gets there with all that it needs. -/
theorem loads_cases (hloads : call.Loads s) :
    (∃ s', Raises host schema call s s' ∧ Beside schema.touched s s' ∧
      init host call schema.toSchema s = (s', none)) ∨
    ∃ s₂, Beside schema.touched s s₂ ∧ (∀ key ∈ schema.touched, key ∈ s₂.state.map Prod.fst) ∧
      init host call schema.toSchema s =
        (do publish host schema.toSchema; finish call : Interruptible Process Settings) s₂ := by
  have hinit : init host call schema.toSchema s = (do
      load host call schema.toSchema
      specialCases host call
      publish host schema.toSchema
      finish call : Interruptible Process Settings) s := by
    unfold init
    rw [if_pos hloads]
  rw [hinit]
  have hbeside := @beside_load host schema call s
  rcases hload : load host call schema.toSchema s with ⟨s₁, _ | _⟩
  · rw [hload] at hbeside
    exact Or.inl ⟨s₁, Or.inl hload, hbeside, bind_of_none hload⟩
  · rw [hload] at hbeside
    have hspecials := @beside_special host schema call s₁
    rw [bind_of_some hload]
    rcases hspecial : specialCases host call s₁ with ⟨s₂, _ | _⟩
    · rw [hspecial] at hspecials
      exact Or.inl ⟨s₂, Or.inr ⟨s₁, hload, hspecial⟩, Beside.trans _ _ _ hbeside hspecials,
        bind_of_none hspecial⟩
    · rw [hspecial] at hspecials
      exact Or.inr ⟨s₂, Beside.trans _ _ _ hbeside hspecials, touched_present hload hspecial,
        bind_of_some hspecial⟩

theorem aes_touched : "db_aes_secret" ∈ schema.touched :=
  List.mem_cons_of_mem _ (schema.needed _ (by simp))

/-- A configured process goes on to the end of a call that publishes, and is configured then. -/
theorem configured_of_published {s₂ : Process} {config : Settings}
    (hthere : ∀ key ∈ schema.touched, key ∈ s₂.state.map Prod.fst)
    (hnames : namedtuple host (core s₂.state) = some config) :
    ∃ s', (do publish host schema.toSchema; finish call : Interruptible Process Settings) s₂ =
      (s', some config) ∧ Configured host schema s' := by
  obtain ⟨s', hrun, hconfig, ⟨secret, hsecret⟩, hschema, hcore, hkeys⟩ :=
    @publish_finish host schema call s₂ config hnames (hthere _ aes_touched)
  refine ⟨s', hrun, ⟨config, secret, hconfig, hsecret⟩, ⟨config, by rw [hcore]; exact hnames⟩, ?_, hschema⟩
  intro key hkey
  refine hkeys key (hthere key hkey) ?_
  rintro rfl
  obtain h | h := List.mem_cons.mp hkey
  · exact absurd h (by decide)
  · exact schema.unreserved "models" (by decide) h

/-- What a call does to a configured process: it raises before it publishes, or gets to its end. -/
theorem Configured.init_cases (h : Configured host schema s) (call : Call) :
    (∃ s', call.Loads s ∧ Raises host schema call s s' ∧ Beside schema.touched s s' ∧
      init host call schema.toSchema s = (s', none)) ∨
    ∃ s' config, init host call schema.toSchema s = (s', some config) ∧ Configured host schema s' ∧
      (¬ call.Loads s → s.config = some config) := by
  by_cases hloads : call.Loads s
  · obtain ⟨s', hraises, hbeside, hrun⟩ | ⟨s₂, hbeside, hthere, hrun⟩ :=
      @loads_cases host schema call s hloads
    · exact Or.inl ⟨s', hloads, hraises, hbeside, hrun⟩
    · obtain ⟨config, hnames⟩ := (h.beside hbeside).names
      obtain ⟨s', hfinish, hconfigured⟩ := @configured_of_published host schema call s₂ config hthere hnames
      exact Or.inr ⟨s', config, hrun.trans hfinish, hconfigured, fun hnot => absurd hloads hnot⟩
  · obtain ⟨config, secret, hconfig, hsecret⟩ := h.config
    obtain ⟨s', hfinish, hsame, hschema, hcore, hkeys⟩ := @finish_of call s config secret hconfig hsecret
    have hrun : init host call schema.toSchema s = (s', some config) := by
      unfold init
      rw [if_neg hloads]
      exact hfinish
    refine Or.inr ⟨s', config, hrun, ⟨⟨config, secret, hsame, hsecret⟩, ?_, fun key hkey => ?_, ?_⟩,
      fun _ => hconfig⟩
    · rw [hcore]
      exact h.names
    · exact hkeys key (h.keys key hkey)
    · rw [hschema]
      exact h.schema

/-- No call leaves the process without the configuration that it had, and one that gets to its end gives it
one. -/
theorem Sound.after (h : Sound host schema s) (call : Call) :
    Sound host schema (init host call schema.toSchema s).1 ∧
      ((init host call schema.toSchema s).2.isSome = true →
        Configured host schema (init host call schema.toSchema s).1) := by
  obtain hnone | hconfigured := h
  · have hloads : call.Loads s := Or.inr (by rw [hnone]; rfl)
    obtain ⟨s', _, hbeside, hrun⟩ | ⟨s₂, hbeside, hthere, hrun⟩ := @loads_cases host schema call s hloads
    · rw [hrun]
      exact ⟨Or.inl (hbeside.config.trans hnone), fun hsome => by cases hsome⟩
    · rw [hrun]
      cases hnames : namedtuple host (core s₂.state) with
      | some config =>
          obtain ⟨s', hfinish, hconfigured⟩ :=
            @configured_of_published host schema call s₂ config hthere hnames
          rw [hfinish]
          exact ⟨Or.inr hconfigured, fun _ => hconfigured⟩
      | none =>
          have hraise : publish host schema.toSchema s₂ = ({ s₂ with state := core s₂.state }, none) := by
            unfold publish
            simp only [bind_run, change_run, read_run, hnames]
          rw [bind_of_none hraise]
          exact ⟨Or.inl (hbeside.config.trans hnone), fun hsome => by cases hsome⟩
  · obtain ⟨s', _, _, hbeside, hrun⟩ | ⟨s', config, hrun, hnext, _⟩ := hconfigured.init_cases call
    · rw [hrun]
      exact ⟨Or.inr (hconfigured.beside hbeside), fun hsome => by cases hsome⟩
    · rw [hrun]
      exact ⟨Or.inr hnext, fun _ => hnext⟩

/-- A configured process stays configured. -/
theorem Configured.after (h : Configured host schema s) (call : Call) :
    Configured host schema (init host call schema.toSchema s).1 := by
  obtain ⟨s', _, _, hbeside, hrun⟩ | ⟨s', config, hrun, hnext, _⟩ := h.init_cases call
  · rw [hrun]
    exact h.beside hbeside
  · rw [hrun]
    exact hnext

/-! ### What a call leaves behind -/

/-- The values of the schema's keys pass the checks, and nothing is left of the file. -/
def Checked (host : Host) (schema : PackageSchema) (call : Call) (given : Json) (s : Process) : Prop :=
  schema.validates (putAll (call.valueOf host given) schema.properties s).state = true ∧
    (restAll schema.properties given).truthy = false

instance (given : Json) (s : Process) : Decidable (Checked host schema call given s) :=
  inferInstanceAs (Decidable (_ ∧ _))

/-- What is there when a call raises that has found all values: these, and as much of the special cases as
was reached. -/
def worked (host : Host) (schema : PackageSchema) (call : Call) (given : Json) (s : Process) : Process :=
  let loaded := putAll (call.valueOf host given) schema.properties s
  if Checked host schema call given s then (specialCases host call loaded).1 else loaded

/-- The report has the value already. -/
def InForce (s : Process) (p : String × Property) (v : Json) : Prop :=
  Assoc.get s.state p.1 = some (.json v)

/-- What a rejected call puts into `state` was there before.  If a key has no value, these are the values of
the keys before it and what it is left with itself; otherwise the values of all keys, and what the special
cases leave as far as they get. -/
def Spares (host : Host) (schema : PackageSchema) (call : Call) (s : Process) : Prop :=
  ∀ given ∈ overrides call,
    match firstMissing (call.valueOf host given) schema.properties with
    | some p =>
        (∀ q ∈ givenBefore (call.valueOf host given) schema.properties, Visible q →
          ∀ v ∈ call.valueOf host given q, InForce s q v) ∧
        (Visible p → ∀ v ∈ call.spoiledOf host given p, InForce s p v)
    | none =>
        (∀ q ∈ schema.properties, Visible q → q.1 ∉ documented call →
          ∀ v ∈ call.valueOf host given q, InForce s q v) ∧
        ∀ q ∈ schema.properties, Visible q → q.1 ∈ documented call →
          Assoc.get (worked host schema call given s).state q.1 = Assoc.get s.state q.1

/-- The keys that are reported have the same items. -/
def SameReport (schema : PackageSchema) (s s' : Process) : Prop :=
  ∀ q ∈ schema.properties, Visible q → Assoc.get s'.state q.1 = Assoc.get s.state q.1

/-- How a call that has found all values raises. -/
theorem eq_worked {given : Json} (hgiven : overrides call = some given)
    (hmissing : firstMissing (call.valueOf host given) schema.properties = none)
    (h : Raises host schema call s s') : s' = worked host schema call given s := by
  have hload : load host call schema.toSchema s =
      (putAll (call.valueOf host given) schema.properties s,
        if Checked host schema call given s then some () else none) := by
    unfold load setProperties
    rw [hgiven]
    simp only [bind_run, ofOption_run, setProperties_eq schema.nodup, hmissing, ensure_run]
    by_cases hvalid : schema.validates (putAll (call.valueOf host given) schema.properties s).state = true
    · by_cases hleft : (restAll schema.properties given).truthy = false
      · have hchecked : Checked host schema call given s := ⟨hvalid, hleft⟩
        simp [hvalid, hleft, hchecked]
      · have hchecked : ¬ Checked host schema call given s := fun h => hleft h.2
        simp [hvalid, hleft, hchecked]
    · have hchecked : ¬ Checked host schema call given s := fun h => hvalid h.1
      simp [hvalid, hchecked]
  unfold worked
  obtain hraise | ⟨s₁, hok, hspecial⟩ := h
  · rw [hload] at hraise
    by_cases hchecked : Checked host schema call given s
    · rw [if_pos hchecked] at hraise
      cases hraise
    · rw [if_neg hchecked] at hraise ⊢
      exact (congrArg Prod.fst hraise).symm
  · rw [hload] at hok
    by_cases hchecked : Checked host schema call given s
    · rw [if_pos hchecked] at hok ⊢
      cases hok
      rw [hspecial]
    · rw [if_neg hchecked] at hok
      cases hok

/-- The properties are told apart by their keys. -/
theorem eq_of_key {p q : String × Property} (hp : p ∈ schema.properties) (hq : q ∈ schema.properties)
    (h : p.1 = q.1) : p = q := List.inj_on_of_nodup_map schema.nodup hp hq h

section Missing

variable {given : Json} {p q : String × Property}

theorem mem_of_before (h : q ∈ givenBefore (call.valueOf host given) schema.properties) :
    q ∈ schema.properties ∧ ∃ v, call.valueOf host given q = some v := by
  unfold givenBefore at h
  have hsome := List.mem_takeWhile_imp (p := fun p => (call.valueOf host given p).isSome) h
  exact ⟨List.takeWhile_subset _ h, Option.isSome_iff_exists.mp hsome⟩

/-- The key without a value comes after those that were given theirs. -/
theorem missing_not_before (hmissing : firstMissing (call.valueOf host given) schema.properties = some p) :
    p.1 ∉ (givenBefore (call.valueOf host given) schema.properties).map Prod.fst := by
  intro hmem
  obtain ⟨q, hq, hkey⟩ := List.mem_map.mp hmem
  obtain ⟨hqmem, v, hv⟩ := mem_of_before hq
  have hsame := eq_of_key hqmem (List.mem_of_find?_eq_some hmissing) hkey
  have hnone := List.find?_some hmissing
  rw [← hsame, hv] at hnone
  cases hnone

/-- What is there when a key has no value. -/
theorem eq_spoiled (hgiven : overrides call = some given)
    (hmissing : firstMissing (call.valueOf host given) schema.properties = some p)
    (h : Raises host schema call s s') :
    s' = (putAll (call.valueOf host given) (givenBefore (call.valueOf host given) schema.properties) s).spoil
      p.1 (call.spoiledOf host given p) := by
  have hload : load host call schema.toSchema s =
      ((putAll (call.valueOf host given) (givenBefore (call.valueOf host given) schema.properties) s).spoil
        p.1 (call.spoiledOf host given p), none) := by
    unfold load setProperties
    rw [hgiven]
    simp only [bind_run, ofOption_run, setProperties_eq schema.nodup, hmissing]
  obtain hraise | ⟨s₁, hok, _⟩ := h
  · rw [hload] at hraise
    exact (congrArg Prod.fst hraise).symm
  · rw [hload] at hok
    cases hok

theorem get_spoil_ne (s : Process) {key key' : String} (h : key' ≠ key) (j : Option Json) :
    Assoc.get (s.spoil key j).state key' = Assoc.get s.state key' := by
  cases j with
  | none => rfl
  | some v => exact s.get_assign_ne _ h

/-- The report is the same when the keys before the missing one have the values in force, and so has that
one, if it is left with something. -/
theorem spoiled_iff
    (hmissing : firstMissing (call.valueOf host given) schema.properties = some p) :
    SameReport schema s ((putAll (call.valueOf host given)
        (givenBefore (call.valueOf host given) schema.properties) s).spoil p.1
          (call.spoiledOf host given p)) ↔
      (∀ q ∈ givenBefore (call.valueOf host given) schema.properties, Visible q →
        ∀ v ∈ call.valueOf host given q, InForce s q v) ∧
      (Visible p → ∀ v ∈ call.spoiledOf host given p, InForce s p v) := by
  have hp : p ∈ schema.properties := List.mem_of_find?_eq_some hmissing
  have hnot := missing_not_before hmissing
  have hnodup : ((givenBefore (call.valueOf host given) schema.properties).map Prod.fst).Nodup :=
    schema.nodup.sublist ((List.takeWhile_sublist _).map _)
  have hbefore : ∀ q ∈ givenBefore (call.valueOf host given) schema.properties,
      ∀ v ∈ call.valueOf host given q,
      Assoc.get ((putAll (call.valueOf host given)
        (givenBefore (call.valueOf host given) schema.properties) s).spoil p.1
          (call.spoiledOf host given p)).state q.1 = some (.json v) := by
    intro q hq v hv
    have hne : q.1 ≠ p.1 := fun heq => hnot (heq ▸ List.mem_map_of_mem hq)
    rw [get_spoil_ne _ hne]
    exact get_putAll_of_mem hnodup hq hv s
  have hlast : ∀ v ∈ call.spoiledOf host given p,
      Assoc.get ((putAll (call.valueOf host given)
        (givenBefore (call.valueOf host given) schema.properties) s).spoil p.1
          (call.spoiledOf host given p)).state p.1 = some (.json v) := by
    intro v hv
    rw [hv]
    exact Process.get_assign_self _ _ _
  constructor
  · intro h
    refine ⟨fun q hq hvisible v hv => ?_, fun hvisible v hv => ?_⟩
    · exact (h q (mem_of_before hq).1 hvisible).symm.trans (hbefore q hq v hv)
    · exact (h p hp hvisible).symm.trans (hlast v hv)
  · rintro ⟨hkeys, hspoiled⟩ q hq hvisible
    by_cases hmem : q ∈ givenBefore (call.valueOf host given) schema.properties
    · obtain ⟨_, v, hv⟩ := mem_of_before hmem
      exact (hbefore q hmem v hv).trans (hkeys q hmem hvisible v hv).symm
    · have hkey : q.1 ∉ (givenBefore (call.valueOf host given) schema.properties).map Prod.fst := by
        intro hin
        obtain ⟨q', hq', heq⟩ := List.mem_map.mp hin
        exact hmem (eq_of_key (mem_of_before hq').1 hq heq ▸ hq')
      by_cases hsame : q.1 = p.1
      · have hqp := eq_of_key hq hp hsame
        subst hqp
        cases hleft : call.spoiledOf host given q with
        | none => exact get_putAll_of_not_mem hkey s
        | some v =>
            have hget := hlast v hleft
            rw [hleft] at hget
            exact hget.trans (hspoiled hvisible v hleft).symm
      · rw [get_spoil_ne _ hsame]
        exact get_putAll_of_not_mem hkey s

end Missing

/-- The report is the same when the ordinary keys have the values in force, and the special ones what was in
force. -/
theorem worked_iff {given : Json}
    (hmissing : firstMissing (call.valueOf host given) schema.properties = none) :
    SameReport schema s (worked host schema call given s) ↔
      (∀ q ∈ schema.properties, Visible q → q.1 ∉ documented call →
        ∀ v ∈ call.valueOf host given q, InForce s q v) ∧
      ∀ q ∈ schema.properties, Visible q → q.1 ∈ documented call →
        Assoc.get (worked host schema call given s).state q.1 = Assoc.get s.state q.1 := by
  have hordinary : ∀ q ∈ schema.properties, q.1 ∉ documented call → ∀ v ∈ call.valueOf host given q,
      Assoc.get (worked host schema call given s).state q.1 = some (.json v) := by
    intro q hq hdocumented v hv
    have hloaded := get_putAll_of_mem schema.nodup hq hv s
    have hsecret : q.1 ≠ "secret_key" := by
      intro heq
      exact schema.unreserved "secret_key" (by decide) (heq ▸ List.mem_map_of_mem hq)
    unfold worked
    dsimp only
    split_ifs
    · exact ((beside_specialCases _).get q.1 (by simp [hsecret, hdocumented])).trans hloaded
    · exact hloaded
  constructor
  · intro h
    refine ⟨fun q hq hvisible hdocumented v hv => ?_, fun q hq hvisible _ => h q hq hvisible⟩
    exact (h q hq hvisible).symm.trans (hordinary q hq hdocumented v hv)
  · rintro ⟨hkeys, hspecial⟩ q hq hvisible
    by_cases hdocumented : q.1 ∈ documented call
    · exact hspecial q hq hvisible hdocumented
    · obtain ⟨v, hv⟩ := firstMissing_eq_none.mp hmissing q hq
      exact (hordinary q hq hdocumented v hv).trans (hkeys q hq hvisible hdocumented v hv).symm

/-- A rejected call spares the report just when what it has put into `state` was there. -/
theorem sameReport_iff (h : Raises host schema call s s') :
    SameReport schema s s' ↔ Spares host schema call s := by
  unfold Spares
  cases hgiven : overrides call with
  | none =>
      have hsame : s' = s := by
        have hload : load host call schema.toSchema s = (s, none) := by
          unfold load
          rw [hgiven]
          rfl
        obtain hraise | ⟨s₁, hok, _⟩ := h
        · rw [hload] at hraise
          exact (congrArg Prod.fst hraise).symm
        · rw [hload] at hok
          cases hok
      rw [hsame]
      exact iff_of_true (fun _ _ _ => rfl) fun _ hgiven => by cases hgiven
  | some given =>
      simp only [Option.mem_def, Option.some.injEq, forall_eq']
      cases hmissing : firstMissing (call.valueOf host given) schema.properties with
      | some p =>
          rw [eq_spoiled hgiven hmissing h]
          exact spoiled_iff hmissing
      | none =>
          rw [eq_worked hgiven hmissing h]
          exact worked_iff hmissing

/-! ### The report and the configuration -/

/-- Two reports on the same keys are equal when they agree on each. -/
theorem mapM_eq_iff {α β : Type} {f f' : α → Option β} {l : List α} (h : ∀ a ∈ l, (f a).isSome = true)
    (h' : ∀ a ∈ l, (f' a).isSome = true) : l.mapM f = l.mapM f' ↔ ∀ a ∈ l, f a = f' a := by
  have hsome : ∀ {g : α → Option β} {l : List α}, (∀ a ∈ l, (g a).isSome = true) →
      ∃ bs, l.mapM g = some bs := by
    intro g l hg
    induction l with
    | nil => exact ⟨[], rfl⟩
    | cons a l ih =>
        obtain ⟨ha, hl⟩ := List.forall_mem_cons.mp hg
        obtain ⟨b, hb⟩ := Option.isSome_iff_exists.mp ha
        obtain ⟨bs, hbs⟩ := ih hl
        exact ⟨b :: bs, by rw [List.mapM_cons, hb, hbs]; rfl⟩
  induction l with
  | nil => simp
  | cons a l ih =>
      obtain ⟨ha, hl⟩ := List.forall_mem_cons.mp h
      obtain ⟨ha', hl'⟩ := List.forall_mem_cons.mp h'
      obtain ⟨b, hb⟩ := Option.isSome_iff_exists.mp ha
      obtain ⟨b', hb'⟩ := Option.isSome_iff_exists.mp ha'
      obtain ⟨bs, hbs⟩ := hsome hl
      obtain ⟨bs', hbs'⟩ := hsome hl'
      have hrest := ih hl hl'
      rw [hbs, hbs', Option.some.injEq] at hrest
      rw [List.forall_mem_cons, List.mapM_cons, List.mapM_cons, hb, hb', hbs, hbs']
      refine Iff.trans ?_ (and_congr Iff.rfl hrest)
      simp

/-- The reports of configured processes are compared key by key. -/
theorem report_eq_iff (h : Configured host schema s) (h' : Configured host schema s') :
    get s' = get s ↔ SameReport schema s s' := by
  have hitem : ∀ {s : Process}, Configured host schema s → ∀ q ∈ schema.properties,
      ∃ item, Assoc.get s.state q.1 = some item :=
    fun h q hq => get_isSome (h.keys q.1 (List.mem_cons_of_mem _ (List.mem_map_of_mem hq)))
  have hthere : ∀ {s : Process}, Configured host schema s →
      ∀ q ∈ schema.properties.filter fun q => decide (Visible q),
        ((Assoc.get s.state q.1).map fun item => (q.1, item)).isSome = true := by
    intro s h q hq
    obtain ⟨item, hget⟩ := hitem h q (List.mem_of_mem_filter hq)
    rw [hget]
    rfl
  unfold get
  rw [h.schema, h'.schema]
  show List.mapM _ _ = List.mapM _ _ ↔ _
  rw [mapM_eq_iff (hthere h') (hthere h)]
  unfold SameReport
  simp only [List.mem_filter, decide_eq_true_eq, and_imp]
  refine forall₃_congr fun q hq _ => ?_
  obtain ⟨item, hget⟩ := hitem h q hq
  obtain ⟨item', hget'⟩ := hitem h' q hq
  rw [hget, hget']
  simp

/-- `ServiceConfig()` gives the configuration that there is. -/
theorem Configured.plain (h : Configured host schema s) (environ : String → Option String) :
    (init host { environ := environ } schema.toSchema s).2 = s.config := by
  have hnot : ¬ ({ environ := environ } : Call).Loads s := by
    obtain ⟨config, secret, hconfig, hsecret⟩ := h.config
    rintro (hreset | hempty)
    · cases hreset
    · rw [hconfig, Option.getD_some, List.isEmpty_iff] at hempty
      rw [hempty] at hsecret
      cases hsecret
  obtain ⟨s', hloads, _⟩ | ⟨s', config, hrun, _, hconfig⟩ := h.init_cases { environ := environ }
  · exact absurd hloads hnot
  · rw [hrun, hconfig hnot]

/-- A process is sound after any calls from the start. -/
theorem sound_run (calls : List Call) : Sound host schema ((configs host schema).run {} calls) :=
  Machine.invariant_run (M := configs host schema) (I := Sound host schema)
    (fun _ call h => (h.after call).1) (Or.inl rfl) calls

/-- After a call that got to its end, and any others, the process is configured. -/
theorem configured_run {before after : List Call} {ok : Call}
    (hok : ((configs host schema).out ((configs host schema).run {} before) ok).isSome = true) :
    Configured host schema ((configs host schema).run {} (before ++ ok :: after)) := by
  rw [Machine.run_append, Machine.run_cons]
  exact Machine.invariant_run (M := configs host schema) (I := Configured host schema)
    (fun _ call h => h.after call) (((sound_run before).after ok).2 hok) after

/-- A schema with a name, a switch and what the constructor needs. -/
def sampleSchema : PackageSchema where
  properties := textProperty "appname" "Example" ::
    ("debug", { type := some "boolean", default := some (.bool false) }) ::
    textProperty "db_migrations" "alembic" :: textProperty "db_seed_file" "db_seed.yaml" ::
    textProperty "rbac_file" "rbac.yaml" :: neededProperties
  nodup := by decide
  validates _ := true
  needed := by decide
  unreserved := by decide

/-- A later call, where `DEBUG` is no truth value. -/
def debugCall : Call where
  environ name := if name = "DEBUG" then some "NOTVALID" else none
  reset := true

/-- The process after the first call. -/
def named : Process := (configs sampleHost sampleSchema).run {} [bareCall]

theorem bareCall_named :
    ((configs sampleHost sampleSchema).out {} bareCall).isSome = true := by decide +kernel

theorem debugCall_raises : (configs sampleHost sampleSchema).out named debugCall = none :=
  Option.not_isSome_iff_eq_none.mp (by decide +kernel)

/-- The name that the report shows. -/
def reportedName (s : Process) : Option String :=
  (get s).bind fun report => (Assoc.get report "appname").bind Item.text

end ServiceConfig

end Apicrud
