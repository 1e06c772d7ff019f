import Mathlib

/-! # A cache that is filled by its readers

A cache holds copies of what a source gives for some keys.  The first reader of a key fills it in
(`fetch`); entries may go at any time, since they have lapsed or since others take their place (`drop`);
and an entry is taken out by hand where the source changes (`pop`).

`Coherent c f` says that every copy is what the source `f` gives now.  It survives reading, losing and
popping, and a change of the source at keys that are not cached (`Coherent.of_eq`).  A coherent cache
answers as the source does (`Coherent.fetch_value`).

Where the source may fail, `Holds c R` says of every copy that it stands in a relation to its key, such as
being what the source gave; it is kept in the same ways. -/

/-- The copies. -/
abbrev ReadThrough (κ α : Type*) := κ → Option α

namespace ReadThrough

variable {κ α : Type*} [DecidableEq κ]

/-- A cache without entries. -/
def empty : ReadThrough κ α := fun _ => none

/-- The cache after it lost some entries. -/
def drop (c : ReadThrough κ α) (keys : List κ) : ReadThrough κ α :=
  fun k => if k ∈ keys then none else c k

/-- `cache[k] = a` -/
def put (c : ReadThrough κ α) (k : κ) (a : α) : ReadThrough κ α := Function.update c k (some a)

/-- `cache.pop(k, None)` -/
def pop (c : ReadThrough κ α) (k : κ) : ReadThrough κ α := Function.update c k none

/-- The entry of a key, made from the source when there is none.  Making it pushes out others. -/
def fetch (c : ReadThrough κ α) (displaced : List κ) (f : κ → α) (k : κ) : ReadThrough κ α × α :=
  match c k with
  | some a => (c, a)
  | none => ((c.drop displaced).put k (f k), f k)

/-- Every copy is what the source gives. -/
def Coherent (c : ReadThrough κ α) (f : κ → α) : Prop := ∀ k a, c k = some a → a = f k

variable {c : ReadThrough κ α} {f g : κ → α} {k k' : κ} {a : α} {keys : List κ}

@[simp] theorem pop_self : c.pop k k = none := by simp [pop]

theorem pop_of_ne (h : k' ≠ k) : c.pop k k' = c k' := by simp [pop, h]

theorem drop_of_not_mem (h : k ∉ keys) : c.drop keys k = c k := if_neg h

theorem fetch_of_some (h : c k = some a) : c.fetch keys f k = (c, a) := by
  rw [fetch, h]

theorem fetch_of_none (h : c k = none) : c.fetch keys f k = ((c.drop keys).put k (f k), f k) := by
  rw [fetch, h]

/-- The source is asked for the key only where it is not cached. -/
theorem fetch_congr (h : c k = none → f k = g k) : c.fetch keys f k = c.fetch keys g k := by
  cases hk : c k with
  | some a => rw [fetch_of_some hk, fetch_of_some hk]
  | none => rw [fetch_of_none hk, fetch_of_none hk, h hk]

/-- What was read is cached. -/
theorem fetch_self : (c.fetch keys f k).1 k = some (c.fetch keys f k).2 := by
  cases hk : c k with
  | some a =>
      rw [fetch_of_some hk]
      exact hk
  | none =>
      rw [fetch_of_none hk]
      exact Function.update_self k _ _

/-- An entry stays unless a new one pushes it out. -/
theorem fetch_stays (hk' : c k' = some a) (hstays : c k ≠ none ∨ k' ∉ keys) :
    (c.fetch keys f k).1 k' = some a := by
  cases hk : c k with
  | some b =>
      rw [fetch_of_some hk]
      exact hk'
  | none =>
      have hne : k' ≠ k := by
        rintro rfl
        rw [hk] at hk'
        cases hk'
      have hlost : k' ∉ keys := hstays.resolve_left fun hsome => hsome hk
      rw [fetch_of_none hk]
      change Function.update (c.drop keys) k _ k' = some a
      rw [Function.update_of_ne hne, drop_of_not_mem hlost, hk']

namespace Coherent

omit [DecidableEq κ] in
theorem empty (f : κ → α) : Coherent ReadThrough.empty f := fun _ _ h => nomatch h

theorem drop (h : Coherent c f) (keys : List κ) : Coherent (c.drop keys) f := by
  intro k a hk
  unfold ReadThrough.drop at hk
  split_ifs at hk
  exact h k a hk

theorem put (h : Coherent c f) (k : κ) : Coherent (c.put k (f k)) f := by
  intro k' a hk'
  by_cases hkey : k' = k
  · subst hkey
    rw [ReadThrough.put, Function.update_self] at hk'
    exact (Option.some.inj hk').symm
  · rw [ReadThrough.put, Function.update_of_ne hkey] at hk'
    exact h k' a hk'

theorem fetch (h : Coherent c f) (keys : List κ) (k : κ) : Coherent (c.fetch keys f k).1 f := by
  cases hk : c k with
  | some a =>
      rw [fetch_of_some hk]
      exact h
  | none =>
      rw [fetch_of_none hk]
      exact (h.drop keys).put k

/-- A coherent cache answers as the source does. -/
theorem fetch_value (h : Coherent c f) (keys : List κ) (k : κ) : (c.fetch keys f k).2 = f k := by
  cases hk : c k with
  | some a =>
      rw [fetch_of_some hk]
      exact h k a hk
  | none => rw [fetch_of_none hk]

omit [DecidableEq κ] in
/-- The source may change at keys that are not cached. -/
theorem of_eq (h : Coherent c f) (heq : ∀ k, c k ≠ none → g k = f k) : Coherent c g := by
  intro k a hk
  rw [heq k (by rw [hk]; exact Option.some_ne_none a)]
  exact h k a hk

/-- The source may change at a key whose entry is taken out. -/
theorem pop (h : Coherent c f) (heq : ∀ k' ≠ k, c k' ≠ none → g k' = f k') :
    Coherent (c.pop k) g := by
  intro k' a hk'
  by_cases hkey : k' = k
  · subst hkey
    rw [pop_self] at hk'
    cases hk'
  · rw [pop_of_ne hkey] at hk'
    rw [heq k' hkey (by rw [hk']; exact Option.some_ne_none a)]
    exact h k' a hk'

end Coherent

/-! ### A relation between keys and copies -/

/-- Every copy stands in the relation to its key. -/
def Holds (c : ReadThrough κ α) (R : κ → α → Prop) : Prop := ∀ k a, c k = some a → R k a

namespace Holds

variable {R R' : κ → α → Prop}

omit [DecidableEq κ] in
theorem empty (R : κ → α → Prop) : Holds ReadThrough.empty R := by
  intro k a hk
  cases hk

theorem drop (h : Holds c R) (keys : List κ) : Holds (c.drop keys) R := by
  intro k a hk
  unfold ReadThrough.drop at hk
  split_ifs at hk
  exact h k a hk

theorem put (h : Holds c R) (hR : R k a) : Holds (c.put k a) R := by
  intro k' a' hk'
  by_cases hkey : k' = k
  · subst hkey
    rw [ReadThrough.put, Function.update_self] at hk'
    exact Option.some.inj hk' ▸ hR
  · rw [ReadThrough.put, Function.update_of_ne hkey] at hk'
    exact h k' a' hk'

/-- The relation may change at a key whose copy is taken out. -/
theorem pop (h : Holds c R) (himp : ∀ k' ≠ k, ∀ a, c k' = some a → R k' a → R' k' a) :
    Holds (c.pop k) R' := by
  intro k' a' hk'
  by_cases hkey : k' = k
  · subst hkey
    rw [pop_self] at hk'
    cases hk'
  · rw [pop_of_ne hkey] at hk'
    exact himp k' hkey a' hk' (h k' a' hk')

end Holds

end ReadThrough
