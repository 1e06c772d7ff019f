import Mathlib

/-! # A key-value store where a key may be kept for good

`SET`, `GET` and `INCRBY` of a store in which a key holds a value and, when it was given a time to
live, the first instant at which it is gone.  Counting on a key keeps the time it has; counting on a
key that is gone makes one that stays (`incrBy_none`). -/

/-- A value, with the instant from which it is gone where it has one. -/
structure Held (ν : Type*) where
  value : ν
  expires : Option ℕ

/-- The value is there at the instant `now`. -/
def Held.Live {ν : Type*} (h : Held ν) (now : ℕ) : Prop := ∀ d ∈ h.expires, now < d

instance {ν : Type*} (h : Held ν) (now : ℕ) : Decidable (h.Live now) :=
  inferInstanceAs (Decidable (∀ d ∈ h.expires, now < d))

/-- Keys with what they hold. -/
abbrev Keyspace (κ ν : Type*) := κ → Option (Held ν)

namespace Keyspace

variable {κ ν : Type*} [DecidableEq κ]

/-- The empty store. -/
def empty : Keyspace κ ν := fun _ => none

/-- What the key holds at the instant `now`. -/
def find (m : Keyspace κ ν) (now : ℕ) (k : κ) : Option (Held ν) :=
  (m k).filter fun h => decide (h.Live now)

/-- `GET` at the instant `now`. -/
def get (m : Keyspace κ ν) (now : ℕ) (k : κ) : Option ν := (m.find now k).map Held.value

/-- `SET k v EX ..`, or without a time to live. -/
def set (m : Keyspace κ ν) (k : κ) (v : ν) (expires : Option ℕ) : Keyspace κ ν :=
  Function.update m k (some ⟨v, expires⟩)

/-- `INCRBY k n` -/
def incrBy (m : Keyspace κ ℤ) (now : ℕ) (k : κ) (n : ℤ) : Keyspace κ ℤ :=
  match m.find now k with
  | some h => m.set k (h.value + n) h.expires
  | none => m.set k n none

omit [DecidableEq κ] in
theorem find_eq_some {m : Keyspace κ ν} {now : ℕ} {k : κ} {h : Held ν} :
    m.find now k = some h ↔ m k = some h ∧ h.Live now := by
  rw [find, Option.filter_eq_some_iff, decide_eq_true_iff]

omit [DecidableEq κ] in
theorem get_eq_some {m : Keyspace κ ν} {now : ℕ} {k : κ} {v : ν} :
    m.get now k = some v ↔ ∃ expires, m k = some ⟨v, expires⟩ ∧ ∀ d ∈ expires, now < d := by
  rw [get, Option.map_eq_some_iff]
  constructor
  · rintro ⟨⟨w, expires⟩, hfind, rfl⟩
    exact ⟨expires, find_eq_some.mp hfind⟩
  · rintro ⟨expires, hk, hlive⟩
    exact ⟨⟨v, expires⟩, find_eq_some.mpr ⟨hk, hlive⟩, rfl⟩

omit [DecidableEq κ] in
theorem get_congr {m m' : Keyspace κ ν} {k : κ} (h : m k = m' k) (now : ℕ) :
    m.get now k = m'.get now k := by
  rw [get, get, find, find, h]

omit [DecidableEq κ] in
/-- What is there later was there before. -/
theorem get_of_le {m : Keyspace κ ν} {now now' : ℕ} {k : κ} {v : ν} (h : m.get now' k = some v)
    (hle : now ≤ now') : m.get now k = some v := by
  obtain ⟨expires, hk, hlive⟩ := get_eq_some.mp h
  exact get_eq_some.mpr ⟨expires, hk, fun d hd => hle.trans_lt (hlive d hd)⟩

theorem set_apply (m : Keyspace κ ν) (k k' : κ) (v : ν) (expires : Option ℕ) :
    m.set k v expires k' = if k' = k then some ⟨v, expires⟩ else m k' := by
  simp [set, Function.update_apply]

@[simp] theorem set_self (m : Keyspace κ ν) (k : κ) (v : ν) (expires : Option ℕ) :
    m.set k v expires k = some ⟨v, expires⟩ := by
  simp [set]

/-- Counting on a live key changes its value only. -/
theorem incrBy_some {m : Keyspace κ ℤ} {now : ℕ} {k : κ} {v : ℤ} (h : m.get now k = some v)
    (n : ℤ) : ∃ expires, m k = some ⟨v, expires⟩ ∧ m.incrBy now k n = m.set k (v + n) expires := by
  obtain ⟨expires, hk, hlive⟩ := get_eq_some.mp h
  refine ⟨expires, hk, ?_⟩
  have hfind : m.find now k = some ⟨v, expires⟩ := find_eq_some.mpr ⟨hk, hlive⟩
  rw [incrBy, hfind]

/-- Counting on a key that is gone makes one that stays. -/
theorem incrBy_none {m : Keyspace κ ℤ} {now : ℕ} {k : κ} (h : m.get now k = none) (n : ℤ) :
    m.incrBy now k n = m.set k n none := by
  have hfind : m.find now k = none := Option.map_eq_none_iff.mp h
  rw [incrBy, hfind]

theorem incrBy_of_ne (m : Keyspace κ ℤ) (now : ℕ) {k k' : κ} (h : k' ≠ k) (n : ℤ) :
    m.incrBy now k n k' = m k' := by
  unfold incrBy
  cases m.find now k with
  | some held => exact (set_apply ..).trans (if_neg h)
  | none => exact (set_apply ..).trans (if_neg h)

/-- Every key that a write changes is the one written. -/
theorem set_cases {m : Keyspace κ ν} {k k' : κ} {v : ν} {expires : Option ℕ} {h : Held ν}
    (hk : m.set k v expires k' = some h) : (k' = k ∧ h = ⟨v, expires⟩) ∨ m k' = some h := by
  rw [set_apply] at hk
  split_ifs at hk with heq
  · exact Or.inl ⟨heq, (Option.some.inj hk).symm⟩
  · exact Or.inr hk

end Keyspace
