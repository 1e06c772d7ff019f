import Mathlib

/-! # A key-value store whose entries expire

The store every session lives in: `SET key value EX ttl`, the same with `NX`, `GET` and
`DEL`.  An entry holds its value and the first instant at which it is gone; nothing is
removed by the passing of time, it is only no longer found (`get_eq_some`). -/

/-- Keys with a value and the instant from which the entry is gone. -/
abbrev Expiring (κ ν : Type*) := κ → Option (ν × ℕ)

namespace Expiring

variable {κ ν : Type*} [DecidableEq κ]

/-- The empty store. -/
def empty : Expiring κ ν := fun _ => none

/-- `GET` at the instant `now`. -/
def get (m : Expiring κ ν) (now : ℕ) (k : κ) : Option ν :=
  match m k with
  | some (v, d) => if now < d then some v else none
  | none => none

/-- `SET k v EX (d - now)`: the entry is gone from the instant `d`. -/
def set (m : Expiring κ ν) (k : κ) (v : ν) (d : ℕ) : Expiring κ ν :=
  Function.update m k (some (v, d))

/-- `SET k v EX ttl NX`: `none` when a live entry is in the way. -/
def setNX (m : Expiring κ ν) (now : ℕ) (k : κ) (v : ν) (ttl : ℕ) : Option (Expiring κ ν) :=
  if (m.get now k).isSome then none else some (m.set k v (now + ttl))

/-- `DEL k`. -/
def del (m : Expiring κ ν) (k : κ) : Expiring κ ν := Function.update m k none

omit [DecidableEq κ] in
theorem get_eq_some {m : Expiring κ ν} {now : ℕ} {k : κ} {v : ν} :
    m.get now k = some v ↔ ∃ d, m k = some (v, d) ∧ now < d := by
  unfold get
  cases hk : m k with
  | none => simp
  | some p =>
      obtain ⟨w, d⟩ := p
      by_cases hd : now < d
      · simp only [hd, if_true, Option.some.injEq, Prod.mk.injEq]
        exact ⟨fun h => ⟨d, ⟨h, rfl⟩, hd⟩, fun ⟨_, h, _⟩ => h.1⟩
      · simp only [hd, if_false, Option.some.injEq, Prod.mk.injEq, reduceCtorEq, false_iff]
        rintro ⟨d', ⟨_, rfl⟩, h⟩
        exact hd h

omit [DecidableEq κ] in
/-- What is there later was there before. -/
theorem get_of_le {m : Expiring κ ν} {now now' : ℕ} {k : κ} {v : ν} (h : m.get now' k = some v)
    (hle : now ≤ now') : m.get now k = some v := by
  obtain ⟨d, hk, hd⟩ := get_eq_some.mp h
  exact get_eq_some.mpr ⟨d, hk, hle.trans_lt hd⟩

omit [DecidableEq κ] in
theorem get_congr {m m' : Expiring κ ν} {k : κ} (h : m k = m' k) (now : ℕ) :
    m.get now k = m'.get now k := by
  rw [get, get, h]

theorem set_apply (m : Expiring κ ν) (k k' : κ) (v : ν) (d : ℕ) :
    m.set k v d k' = if k' = k then some (v, d) else m k' := by
  simp [set, Function.update_apply]

theorem del_apply (m : Expiring κ ν) (k k' : κ) :
    m.del k k' = if k' = k then none else m k' := by
  simp [del, Function.update_apply]

/-- An accepted `NX` write found no live entry and is an ordinary write. -/
theorem setNX_eq_some {m m' : Expiring κ ν} {now : ℕ} {k : κ} {v : ν} {ttl : ℕ} :
    m.setNX now k v ttl = some m' ↔ m.get now k = none ∧ m' = m.set k v (now + ttl) := by
  unfold setNX
  cases m.get now k <;> simp [eq_comm]

theorem setNX_of_none {m : Expiring κ ν} {now : ℕ} {k : κ} (h : m.get now k = none) (v : ν)
    (ttl : ℕ) : m.setNX now k v ttl = some (m.set k v (now + ttl)) :=
  setNX_eq_some.mpr ⟨h, rfl⟩

/-- Every entry after an accepted write is the one written or was there before. -/
theorem set_cases {m : Expiring κ ν} {k k' : κ} {v w : ν} {d d' : ℕ}
    (h : m.set k v d k' = some (w, d')) : (k' = k ∧ w = v ∧ d' = d) ∨ m k' = some (w, d') := by
  rw [set_apply] at h
  split_ifs at h with hk
  · simp only [Option.some.injEq, Prod.mk.injEq] at h
    exact Or.inl ⟨hk, h.1.symm, h.2.symm⟩
  · exact Or.inr h

theorem del_some {m : Expiring κ ν} {k k' : κ} {p : ν × ℕ} (h : m.del k k' = some p) :
    m k' = some p := by
  rw [del_apply] at h
  split_ifs at h
  exact h

end Expiring
