import Mathlib

/-! # Loops that watch something outside

`while test: body`, where the test may read something that changes from round to round.  `run` counts the
rounds and gives up when its fuel is used up; `run_eq_some` says after how many rounds the loop is left,
and `exists_run_of_le` that a loop whose test fails at some round is left by then. -/

namespace Loop

variable {σ : Type*} (test : ℕ → σ → Bool) (body : σ → σ)

/-- The number of rounds when the loop is left, and the state then; the round numbered `i` comes first. -/
def run : ℕ → ℕ → σ → Option (ℕ × σ)
  | 0, _, _ => none
  | fuel + 1, i, s => if test i s then run fuel (i + 1) (body s) else some (i, s)

variable {test body}

/-- The loop is left before the first round whose test fails, the induction being on the fuel. -/
theorem run_eq_some {fuel i n : ℕ} {s s' : σ} :
    run test body fuel i s = some (n, s') ↔ ∃ k, n = i + k ∧ k < fuel ∧ s' = body^[k] s ∧
      test n s' = false ∧ ∀ j < k, test (i + j) (body^[j] s) = true := by
  induction fuel generalizing i s with
  | zero =>
      constructor
      · intro h
        cases h
      · rintro ⟨k, -, hk, -⟩
        omega
  | succ fuel ih =>
      by_cases htest : test i s = true
      · rw [run, if_pos htest, ih]
        constructor
        · rintro ⟨k, rfl, hk, rfl, hlast, hbefore⟩
          refine ⟨k + 1, by omega, by omega, rfl, hlast, fun j hj => ?_⟩
          cases j with
          | zero => exact htest
          | succ j =>
              have h := hbefore j (by omega)
              rwa [Nat.add_right_comm] at h
        · rintro ⟨k, rfl, hk, rfl, hlast, hbefore⟩
          cases k with
          | zero =>
              rw [Nat.add_zero, Function.iterate_zero_apply, htest] at hlast
              cases hlast
          | succ k =>
              refine ⟨k, by omega, by omega, rfl, hlast, fun j hj => ?_⟩
              have h := hbefore (j + 1) (by omega)
              rwa [← Nat.add_assoc, Nat.add_right_comm] at h
      · rw [run, if_neg htest, Option.some.injEq, Prod.mk.injEq]
        rw [Bool.not_eq_true] at htest
        constructor
        · rintro ⟨rfl, rfl⟩
          exact ⟨0, rfl, Nat.succ_pos fuel, rfl, htest, fun j hj => absurd hj (Nat.not_lt_zero j)⟩
        · rintro ⟨k, rfl, -, rfl, -, hbefore⟩
          cases k with
          | zero => exact ⟨rfl, rfl⟩
          | succ k =>
              have h := hbefore 0 (Nat.succ_pos k)
              rw [Nat.add_zero, Function.iterate_zero_apply, htest] at h
              cases h

/-- More fuel changes nothing. -/
theorem run_mono {fuel fuel' i : ℕ} {s : σ} {r : ℕ × σ} (hle : fuel ≤ fuel')
    (h : run test body fuel i s = some r) : run test body fuel' i s = some r := by
  obtain ⟨n, s'⟩ := r
  obtain ⟨k, hn, hk, hrest⟩ := run_eq_some.mp h
  exact run_eq_some.mpr ⟨k, hn, by omega, hrest⟩

/-- A loop whose test fails at some round is left, no later than that. -/
theorem exists_run_of_le {k : ℕ} {s : σ} (h : test k (body^[k] s) = false) :
    ∃ fuel n, n ≤ k ∧ run test body fuel 0 s = some (n, body^[n] s) := by
  classical
  have hexists : ∃ k, test k (body^[k] s) = false := ⟨k, h⟩
  refine ⟨Nat.find hexists + 1, Nat.find hexists, Nat.find_min' hexists h, ?_⟩
  refine run_eq_some.mpr ⟨Nat.find hexists, by omega, by omega, rfl, Nat.find_spec hexists, ?_⟩
  intro j hj
  rw [Nat.zero_add]
  exact Bool.not_eq_false _ ▸ Nat.find_min hexists hj

/-- A loop that is left has a round whose test fails. -/
theorem run_left {fuel n : ℕ} {s s' : σ} (h : run test body fuel 0 s = some (n, s')) :
    s' = body^[n] s ∧ test n (body^[n] s) = false := by
  obtain ⟨k, hk, -, hstate, hlast, -⟩ := run_eq_some.mp h
  rw [Nat.zero_add] at hk
  subst hk
  exact ⟨hstate, hstate ▸ hlast⟩

/-- Steps that each end with some fuel end with one fuel for all. -/
theorem exists_mapM {α β : Type*} {f : ℕ → α → Option β}
    (hmono : ∀ fuel fuel' x r, fuel ≤ fuel' → f fuel x = some r → f fuel' x = some r) {l : List α}
    (h : ∀ x ∈ l, ∃ fuel r, f fuel x = some r) : ∃ fuel rs, l.mapM (f fuel) = some rs := by
  have hmono' : ∀ (l : List α) fuel fuel' rs, fuel ≤ fuel' → l.mapM (f fuel) = some rs →
      l.mapM (f fuel') = some rs := by
    intro l
    induction l with
    | nil => exact fun _ _ _ _ hl => hl
    | cons x l ih =>
        intro fuel fuel' rs hle hl
        rw [List.mapM_cons] at hl ⊢
        obtain ⟨r, hr, hl⟩ := Option.bind_eq_some_iff.mp hl
        obtain ⟨rs', hrs, hl⟩ := Option.bind_eq_some_iff.mp hl
        rw [hmono _ _ _ _ hle hr, ih _ _ _ hle hrs]
        exact hl
  induction l with
  | nil => exact ⟨0, [], rfl⟩
  | cons x l ih =>
      obtain ⟨fuel, r, hr⟩ := h x List.mem_cons_self
      obtain ⟨fuel', rs, hrs⟩ := ih fun y hy => h y (List.mem_cons_of_mem x hy)
      refine ⟨max fuel fuel', r :: rs, ?_⟩
      rw [List.mapM_cons, hmono _ _ _ _ (le_max_left fuel fuel') hr,
        hmono' l _ _ _ (le_max_right fuel fuel') hrs]
      rfl

end Loop
