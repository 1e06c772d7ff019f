import Apicrud.Loop

/-! # Waiting for a migration of the schema

A process that does not migrate the database itself waits until another one has, in steps of five seconds
and for `schema_maxtime` at most.  The wait ends when what is left of that time is zero, and it is not when
the time is no multiple of five: `waits_within_iff`.  The process that migrates waits for its connection in
steps of ten, and ends when nothing is left (`connecting_ends`). -/

namespace Apicrud

namespace Migration

/-- What a process sees while it runs. -/
structure Outside where
  /-- `script.get_heads()[0]`, at one call after another -/
  heads : ℕ → String
  /-- `db_engine.connect()` does not raise, at one attempt after another -/
  connects : ℕ → Bool

/-- The arguments of `alembic_migrate`. -/
structure Args where
  version : Option String
  migrate : Bool := false
  schema : String := "apicrud"
  schemaMaxtime : ℤ := 0
  /-- `seed_func` is given -/
  seeds : Bool := false

/-- How `alembic_migrate` comes to its end. -/
inductive Ending where
  | current
  | migrated
  /-- `sys.exit(1)` -/
  | timeout
  /-- the wait is over, after so many rounds -/
  | waited (rounds : ℕ)
deriving DecidableEq, Repr

/-- What a call leaves. -/
structure Result where
  ending : Ending
  seeded : Bool
deriving DecidableEq, Repr

/-- `while schema_maxtime > 0`, until there is a connection. -/
def connecting (out : Outside) : ℕ → ℤ → Bool := fun i left => decide (0 < left) && !out.connects i

/-- `while version != script.get_heads()[0] and wait_time` -/
def waiting (out : Outside) (version : Option String) : ℕ → ℤ → Bool := fun i left =>
  decide (version ≠ some (out.heads (i + 1))) && decide (left ≠ 0)

/-- `alembic_migrate`; `none` where the fuel does not reach to its end. -/
def alembicMigrate (schemas : List String) (out : Outside) (a : Args) (fuel : ℕ) : Option Result :=
  let seeded := decide (a.version = none ∧ a.seeds = true ∧ schemas.getLast? = some a.schema)
  if a.version = some (out.heads 0) then some ⟨.current, seeded⟩
  else if a.migrate then
    (Loop.run (connecting out) (· - 10) fuel 0 a.schemaMaxtime).map fun r =>
      if 0 < r.2 then ⟨.migrated, seeded⟩ else ⟨.timeout, false⟩
  else
    (Loop.run (waiting out a.version) (· - 5) fuel 0 a.schemaMaxtime).map fun r =>
      ⟨.waited r.1, seeded⟩

/-- `schema_update`: every schema in turn, unless the time is zero. -/
def schemaUpdate (schemas : List String) (migrate : Bool) (maxtime : ℤ)
    (versions : String → Option String) (outs : String → Outside) (fuel : ℕ) :
    Option (List (Option Result)) :=
  schemas.mapM fun schema =>
    if maxtime = 0 then some none
    else (alembicMigrate schemas (outs schema)
      { version := versions schema, migrate := migrate, schema := schema,
        schemaMaxtime := maxtime, seeds := true } fuel).map some

/-! ### What is left of the time -/

theorem iterate_sub (step left : ℤ) (n : ℕ) : (· - step)^[n] left = left - n * step := by
  induction n with
  | zero => simp
  | succ n ih =>
      rw [Function.iterate_succ_apply', ih]
      push_cast
      ring

/-- The wait for the connection ends, whatever the time. -/
theorem connecting_ends (out : Outside) (maxtime : ℤ) :
    ∃ fuel r, Loop.run (connecting out) (· - 10) fuel 0 maxtime = some r := by
  have hlast : connecting out maxtime.toNat ((· - 10)^[maxtime.toNat] maxtime) = false := by
    have hdone : ¬ 0 < maxtime - maxtime.toNat * 10 := by omega
    rw [iterate_sub, connecting, decide_eq_false hdone, Bool.false_and]
  obtain ⟨fuel, n, -, hrun⟩ := Loop.exists_run_of_le hlast
  exact ⟨fuel, _, hrun⟩

/-- A process that migrates ends. -/
theorem migrating_ends (schemas : List String) (out : Outside) (a : Args) (hmigrate : a.migrate = true) :
    ∃ fuel r, alembicMigrate schemas out a fuel = some r := by
  by_cases hcurrent : a.version = some (out.heads 0)
  · exact ⟨0, _, if_pos hcurrent⟩
  · obtain ⟨fuel, r, hrun⟩ := connecting_ends out a.schemaMaxtime
    have hsome : (alembicMigrate schemas out a fuel).isSome = true := by
      simp [alembicMigrate, hcurrent, hmigrate, hrun]
    obtain ⟨result, hresult⟩ := Option.isSome_iff_exists.mp hsome
    exact ⟨fuel, result, hresult⟩

theorem alembicMigrate_mono {schemas : List String} {out : Outside} {a : Args} {fuel fuel' : ℕ}
    {r : Result} (hle : fuel ≤ fuel') (h : alembicMigrate schemas out a fuel = some r) :
    alembicMigrate schemas out a fuel' = some r := by
  unfold alembicMigrate at h ⊢
  simp only at h ⊢
  split_ifs at h ⊢
  · exact h
  · obtain ⟨r', hrun, rfl⟩ := Option.map_eq_some_iff.mp h
    rw [Loop.run_mono hle hrun, Option.map_some]
  · obtain ⟨r', hrun, rfl⟩ := Option.map_eq_some_iff.mp h
    rw [Loop.run_mono hle hrun, Option.map_some]

/-! ### The wait for another process -/

/-- The rounds of the wait of a call. -/
def Result.rounds (r : Result) : ℕ :=
  match r.ending with
  | .waited rounds => rounds
  | _ => 0

/-- The call ends, and its wait took at most `schema_maxtime / 5 + 1` rounds. -/
def WaitsWithin (schemas : List String) (out : Outside) (a : Args) : Prop :=
  ∃ fuel r, alembicMigrate schemas out a fuel = some r ∧ (r.rounds : ℚ) ≤ a.schemaMaxtime / 5 + 1

/-- The version is seen at the start, or before one of the first rounds. -/
def Seen (out : Outside) (a : Args) : Prop :=
  a.version = some (out.heads 0) ∨
    ∃ i : ℕ, (i : ℚ) ≤ a.schemaMaxtime / 5 + 1 ∧ a.version = some (out.heads (i + 1))

theorem waiting_eq_false {out : Outside} {version : Option String} {maxtime : ℤ} {n : ℕ} :
    waiting out version n ((· - 5)^[n] maxtime) = false ↔
      version = some (out.heads (n + 1)) ∨ maxtime = n * 5 := by
  rw [iterate_sub, waiting, Bool.and_eq_false_iff, decide_eq_false_iff_not, not_not,
    decide_eq_false_iff_not, not_not, sub_eq_zero]

theorem alembicMigrate_wait (schemas : List String) {out : Outside} {a : Args}
    (hmigrate : a.migrate = false) (hcurrent : a.version ≠ some (out.heads 0)) (fuel : ℕ) :
    ∃ seeded, alembicMigrate schemas out a fuel =
      (Loop.run (waiting out a.version) (· - 5) fuel 0 a.schemaMaxtime).map fun r =>
        ⟨.waited r.1, seeded⟩ := by
  refine ⟨decide (a.version = none ∧ a.seeds = true ∧ schemas.getLast? = some a.schema), ?_⟩
  simp only [alembicMigrate]
  rw [if_neg hcurrent, hmigrate, if_neg Bool.false_ne_true]

/-- A wait whose test fails at some round is over by then. -/
theorem waitsWithin_of_le (schemas : List String) {out : Outside} {a : Args} {k : ℕ}
    (hmigrate : a.migrate = false) (hcurrent : a.version ≠ some (out.heads 0))
    (hlast : waiting out a.version k ((· - 5)^[k] a.schemaMaxtime) = false)
    (hk : (k : ℚ) ≤ a.schemaMaxtime / 5 + 1) : WaitsWithin schemas out a := by
  obtain ⟨fuel, n, hn, hrun⟩ := Loop.exists_run_of_le hlast
  obtain ⟨seeded, hwait⟩ := alembicMigrate_wait schemas hmigrate hcurrent fuel
  rw [hrun, Option.map_some] at hwait
  refine ⟨fuel, _, hwait, ?_⟩
  have hle : (n : ℚ) ≤ k := by exact_mod_cast hn
  exact hle.trans hk

/-- A process that does not migrate waits no longer than it may just when its time is a multiple of five,
or the version turns up in that time. -/
theorem waits_within_iff (schemas : List String) (out : Outside) (a : Args) (hmigrate : a.migrate = false)
    (htime : 0 ≤ a.schemaMaxtime) :
    WaitsWithin schemas out a ↔ 5 ∣ a.schemaMaxtime ∨ Seen out a := by
  have htime' : (0 : ℚ) ≤ a.schemaMaxtime := by exact_mod_cast htime
  by_cases hcurrent : a.version = some (out.heads 0)
  · refine iff_of_true ⟨0, _, if_pos hcurrent, ?_⟩ (Or.inr (Or.inl hcurrent))
    rw [Result.rounds, Nat.cast_zero]
    positivity
  constructor
  · rintro ⟨fuel, r, hr, hrounds⟩
    obtain ⟨seeded, hwait⟩ := alembicMigrate_wait schemas hmigrate hcurrent fuel
    rw [hwait] at hr
    obtain ⟨⟨n, left⟩, hrun, rfl⟩ := Option.map_eq_some_iff.mp hr
    rcases waiting_eq_false.mp (Loop.run_left hrun).2 with hseen | htimes
    · exact Or.inr (Or.inr ⟨n, hrounds, hseen⟩)
    · exact Or.inl ⟨n, by omega⟩
  · rintro (⟨k, hk⟩ | hnow | ⟨i, hi, hseen⟩)
    · have hnat : a.schemaMaxtime = k.toNat * 5 := by omega
      refine waitsWithin_of_le schemas hmigrate hcurrent (waiting_eq_false.mpr (Or.inr hnat)) ?_
      rw [hnat]
      push_cast
      rw [mul_div_assoc, div_self (by norm_num), mul_one]
      linarith
    · exact absurd hnow hcurrent
    · exact waitsWithin_of_le schemas hmigrate hcurrent (waiting_eq_false.mpr (Or.inl hseen)) hi

/-- Where every schema comes to its end, the update does. -/
theorem schemaUpdate_ends {schemas : List String} {migrate : Bool} {maxtime : ℤ}
    {versions : String → Option String} {outs : String → Outside}
    (h : ∀ schema ∈ schemas, ∃ fuel r, alembicMigrate schemas (outs schema)
      { version := versions schema, migrate := migrate, schema := schema,
        schemaMaxtime := maxtime, seeds := true } fuel = some r) :
    ∃ fuel r, schemaUpdate schemas migrate maxtime versions outs fuel = some r := by
  refine Loop.exists_mapM (fun fuel fuel' schema r hle hr => ?_) fun schema hschema => ?_
  · by_cases hzero : maxtime = 0
    · rwa [if_pos hzero] at hr ⊢
    · rw [if_neg hzero] at hr ⊢
      obtain ⟨r', hresult, rfl⟩ := Option.map_eq_some_iff.mp hr
      rw [alembicMigrate_mono hle hresult, Option.map_some]
  · by_cases hzero : maxtime = 0
    · exact ⟨0, none, if_pos hzero⟩
    · obtain ⟨fuel, r, hr⟩ := h schema hschema
      refine ⟨fuel, some r, ?_⟩
      rw [if_neg hzero, hr, Option.map_some]

/-- A minute is enough for a version that turns up after four rounds. -/
theorem minute_waited : WaitsWithin ["apicrud"] ⟨fun i => if i < 5 then "a1" else "b2", fun _ => true⟩
    { version := some "b2", schemaMaxtime := 60 } :=
  (waits_within_iff ["apicrud"] ⟨fun i => if i < 5 then "a1" else "b2", fun _ => true⟩
    { version := some "b2", schemaMaxtime := 60 } rfl (by decide)).mpr (Or.inl (by decide))

/-- With seven seconds and a version that never turns up, the wait does not end at all. -/
theorem seven_seconds_unending :
    (∀ fuel, alembicMigrate ["apicrud"] ⟨fun _ => "a1", fun _ => true⟩
      { version := some "b2", schemaMaxtime := 7 } fuel = none) ∧
    ¬ WaitsWithin ["apicrud"] ⟨fun _ => "a1", fun _ => true⟩
      { version := some "b2", schemaMaxtime := 7 } := by
  have hnone : ∀ fuel, alembicMigrate ["apicrud"] ⟨fun _ => "a1", fun _ => true⟩
      { version := some "b2", schemaMaxtime := 7 } fuel = none := by
    intro fuel
    obtain ⟨seeded, hwait⟩ := alembicMigrate_wait ["apicrud"]
      (rfl : Args.migrate { version := some "b2", schemaMaxtime := 7 } = false)
      (by decide : some "b2" ≠ some (Outside.heads ⟨fun _ => "a1", fun _ => true⟩ 0)) fuel
    rw [hwait, Option.map_eq_none_iff, Option.eq_none_iff_forall_ne_some]
    rintro ⟨n, left⟩ hrun
    rcases waiting_eq_false.mp (Loop.run_left hrun).2 with hseen | htimes
    · simp at hseen
    · have hseven : (7 : ℤ) = n * 5 := htimes
      omega
  refine ⟨hnone, ?_⟩
  rintro ⟨fuel, r, hr, -⟩
  rw [hnone] at hr
  cases hr

end Migration

end Apicrud
