import Apicrud.GrantCache
import Apicrud.TtlCache

/-! # The accesses of `Grants.get` to its cache

`get` asks whether the grants of the user are cached, stores them if they are not, and then reads them, and
perhaps the defaults, by index.  Time passes between these accesses, and storing the grants may cost the
cache another entry.  `Grants()` stores the defaults when they are gone, but only then.

A call gets an answer when the entry of the user lasts until it was read for the last time and, where the
defaults are needed, they are there at the end and were not the entry that made room (`answered_iff`). -/

namespace Apicrud

open Relational

namespace Grants

/-- A call of `get`, what the query finds, and the time that passes before each access to the cache. -/
structure Lookup (τ : Type*) where
  acc : Access
  name : String
  uid : Val
  /-- the database that is queried -/
  db : Database
  /-- `utcnow()` -/
  now : ℕ
  /-- before `uid not in self._cache` -/
  untilTest : τ
  /-- before `self._cache[uid] = grants` -/
  untilStore : τ
  /-- before `name in self._cache[uid]` -/
  untilMember : τ
  /-- before `self._cache[uid].get(name)`, or `name not in self._cache['defaults']` -/
  untilValue : τ
  /-- before `self._cache['defaults'].get(name)` -/
  untilDefault : τ

/-- A use of the class. -/
inductive Use (τ : Type*) where
  /-- `Grants()`, with the time that passes before the test for the defaults and before they are stored -/
  | construct (untilTest untilStore : τ)
  | get (l : Lookup τ)

/-- The cache, and the time. -/
structure Clocked (σ τ : Type*) where
  cache : σ
  time : τ

namespace Lookup

variable {τ : Type*} [Add τ] (l : Lookup τ) (start : τ)

/-- The user whose grants are asked for. -/
def user : Val := userOf l.acc l.uid

/-- The grants of the user that the query finds. -/
def found : Limits := ofUser l.now l.db l.user

def test : τ := start + l.untilTest

def store : τ := l.test start + l.untilStore

def member : τ := l.store start + l.untilMember

def value : τ := l.member start + l.untilValue

def default : τ := l.value start + l.untilDefault

end Lookup

section Code

variable {σ τ : Type*} [LinearOrder τ] [Add τ] (C : TtlCache σ Val Limits τ) (g : Setting)

/-- `Grants()`: the defaults are stored when they are gone. -/
def constructTimed (c : σ) (test store : τ) : σ :=
  if C.contains c test defaultsKey then c else C.insert c store defaultsKey g.limits

/-- `get` up to the place where the grants of the user are cached. -/
def fill (c : σ) (start : τ) (l : Lookup τ) : σ :=
  if C.contains c (l.test start) l.user then c else C.insert c (l.store start) l.user l.found

/-- The number that is stored for a name, or `None`. -/
def numberIn (limits : Limits) (name : String) : Val := g.number ((limits (.str name)).getD .none)

/-- The defaults are asked for the name, first whether they have it and then for its value. -/
def getDefault (c : σ) (start : τ) (l : Lookup τ) : σ × Option Val :=
  match C.index c (l.value start) defaultsKey with
  | (none, c) => (c, none)
  | (some _, c) =>
      let (defaults, c) := C.index c (l.default start) defaultsKey
      (c, defaults.map fun defaults => numberIn g defaults l.name)

/-- `get`, with no answer where an access raises `KeyError`. -/
def getTimed (c : σ) (start : τ) (l : Lookup τ) : σ × Option Val :=
  match C.index (fill C c start l) (l.member start) l.user with
  | (none, c) => (c, none)
  | (some grants, c) =>
      if (grants (.str l.name)).isSome then
        let (grants, c) := C.index c (l.value start) l.user
        (c, grants.map fun grants => numberIn g grants l.name)
      else getDefault C g c start l

/-- The class is used once; a construction answers `None`. -/
def use (s : Clocked σ τ) : Use τ → Clocked σ τ × Option Val
  | .construct untilTest untilStore =>
      let test := s.time + untilTest
      (⟨constructTimed C g s.cache test (test + untilStore), test + untilStore⟩, some .none)
  | .get l =>
      let (c, answer) := getTimed C g s.cache s.time l
      (⟨c, l.default s.time⟩, answer)

/-- The class as a machine. -/
def uses : Machine (Clocked σ τ) (Use τ) (Option Val) := ⟨use C g⟩

end Code

/-! ### When a call is answered -/

section Answered

variable {σ τ : Type*} [LinearOrder τ] [Add τ] (C : TtlCache σ Val Limits τ)

/-- The grants that the call works with: those that are cached when it asks, or those that it reads. -/
def grantsFor (c : σ) (start : τ) (l : Lookup τ) : Limits :=
  if C.contains c (l.test start) l.user then ((C.entry c l.user).map CacheEntry.value).getD l.found
  else l.found

/-- The name is among them. -/
def Granted (c : σ) (start : τ) (l : Lookup τ) : Prop :=
  (grantsFor C c start l (.str l.name)).isSome = true

instance (c : σ) (start : τ) (l : Lookup τ) : Decidable (Granted C c start l) :=
  inferInstanceAs (Decidable (_ = true))

/-- The entry of the user stays until it is read for the last time: one that is there when the call asks, or
one that it stores. -/
def UserLasts (c : σ) (start : τ) (l : Lookup τ) : Prop :=
  let last := if Granted C c start l then l.value start else l.member start
  if C.contains c (l.test start) l.user then C.Lasts c l.user last else last < l.store start + C.ttl

/-- The defaults stay until they are read for the last time, and they do not make room for the grants of the
user when the call stores these. -/
def DefaultsLast (c : σ) (start : τ) (l : Lookup τ) : Prop :=
  if C.contains c (l.test start) l.user then C.Lasts c defaultsKey (l.default start)
  else if l.user = defaultsKey then l.default start < l.store start + C.ttl
  else C.Lasts c defaultsKey (l.default start) ∧ ¬ C.NextOut c (l.store start) defaultsKey

instance (c : σ) (start : τ) (l : Lookup τ) : Decidable (UserLasts C c start l) :=
  inferInstanceAs (Decidable (if C.contains c (l.test start) l.user then
    C.Lasts c l.user (if Granted C c start l then l.value start else l.member start)
    else (if Granted C c start l then l.value start else l.member start) < l.store start + C.ttl))

instance (c : σ) (start : τ) (l : Lookup τ) : Decidable (DefaultsLast C c start l) :=
  inferInstanceAs (Decidable (if C.contains c (l.test start) l.user then
      C.Lasts c defaultsKey (l.default start)
    else if l.user = defaultsKey then l.default start < l.store start + C.ttl
    else C.Lasts c defaultsKey (l.default start) ∧ ¬ C.NextOut c (l.store start) defaultsKey))

/-- What a call reads is there when it reads it. -/
def Serves (s : Clocked σ τ) : Use τ → Prop
  | .construct _ _ => True
  | .get l => UserLasts C s.cache s.time l ∧
      (Granted C s.cache s.time l ∨ DefaultsLast C s.cache s.time l)

/-- No access raises `KeyError`. -/
def Answered (g : Setting) (s : Clocked σ τ) (e : Use τ) : Prop := ((uses C g).out s e).isSome = true

instance (g : Setting) (s : Clocked σ τ) (e : Use τ) : Decidable (Answered C g s e) :=
  inferInstanceAs (Decidable (_ = true))

variable {C} {g : Setting} {c : σ} {start : τ} {l : Lookup τ}

theorem getDefault_isSome : (getDefault C g c start l).2.isSome = true ↔
    C.Lasts c defaultsKey (l.value start) ∧ C.Lasts c defaultsKey (l.default start) := by
  unfold getDefault
  by_cases hlasts : C.Lasts c defaultsKey (l.value start)
  · obtain ⟨e, he, _⟩ := id hlasts
    have hread : C.index c (l.value start) defaultsKey =
        (some e.value, (C.index c (l.value start) defaultsKey).2) :=
      Prod.ext (TtlCache.index_of_lasts he hlasts) rfl
    rw [hread]
    show (Option.map _ _).isSome = true ↔ _
    rw [Option.isSome_map, TtlCache.index_isSome, TtlCache.lasts_index]
    exact (and_iff_right hlasts).symm
  · have hread : C.index c (l.value start) defaultsKey =
        (none, (C.index c (l.value start) defaultsKey).2) :=
      Prod.ext (TtlCache.index_of_not_lasts hlasts) rfl
    rw [hread]
    exact iff_of_false (by simp) fun h => hlasts h.1

/-- A call is answered when its reads find what they look for, in the cache with the grants of the user. -/
theorem getTimed_isSome {e : CacheEntry Val Limits τ} (he : C.entry (fill C c start l) l.user = some e) :
    (getTimed C g c start l).2.isSome = true ↔
      C.Lasts (fill C c start l) l.user (l.member start) ∧
        if (e.value (.str l.name)).isSome then C.Lasts (fill C c start l) l.user (l.value start)
        else C.Lasts (fill C c start l) defaultsKey (l.value start) ∧
          C.Lasts (fill C c start l) defaultsKey (l.default start) := by
  unfold getTimed
  generalize fill C c start l = c at he ⊢
  by_cases hlasts : C.Lasts c l.user (l.member start)
  · have hread : C.index c (l.member start) l.user =
        (some e.value, (C.index c (l.member start) l.user).2) :=
      Prod.ext (TtlCache.index_of_lasts he hlasts) rfl
    rw [hread, and_iff_right hlasts]
    show (if (e.value (.str l.name)).isSome = true then _ else _ : σ × Option Val).2.isSome = true ↔ _
    split_ifs with hname
    · show (Option.map _ _).isSome = true ↔ _
      rw [Option.isSome_map, TtlCache.index_isSome, TtlCache.lasts_index]
    · rw [getDefault_isSome, TtlCache.lasts_index, TtlCache.lasts_index]
  · have hread : C.index c (l.member start) l.user = (none, (C.index c (l.member start) l.user).2) :=
      Prod.ext (TtlCache.index_of_not_lasts hlasts) rfl
    rw [hread]
    exact iff_of_false (by simp) fun h => hlasts h.1

/-- What a call that finds the grants of the user cached reads. -/
theorem filled_of_contains (h : C.contains c (l.test start) l.user = true) : fill C c start l = c :=
  if_pos h

theorem filled_of_not (h : ¬ C.contains c (l.test start) l.user = true) :
    fill C c start l = C.insert c (l.store start) l.user l.found := if_neg h

variable [CanonicallyOrderedAdd τ]

theorem Lookup.test_le : l.test start ≤ l.store start := le_self_add

theorem Lookup.store_le : l.store start ≤ l.member start := le_self_add

theorem Lookup.member_le : l.member start ≤ l.value start := le_self_add

theorem Lookup.value_le : l.value start ≤ l.default start := le_self_add

/-- The defaults after the grants of the user were stored. -/
theorem defaults_filled (hnot : ¬ C.contains c (l.test start) l.user = true) {t : τ}
    (ht : l.store start ≤ t) : C.Lasts (fill C c start l) defaultsKey t ↔
      if l.user = defaultsKey then t < l.store start + C.ttl
      else C.Lasts c defaultsKey t ∧ ¬ C.NextOut c (l.store start) defaultsKey := by
  rw [filled_of_not hnot]
  split_ifs with huser
  · rw [huser]
    exact TtlCache.lasts_insert_self
  · have hnew : ¬ C.Lasts c l.user (l.store start) :=
      fun h => hnot (TtlCache.contains_iff.mpr (h.mono Lookup.test_le))
    exact TtlCache.lasts_insert_ne hnew (Ne.symm huser) ht

/-- The defaults that last until their value is read were there when they were asked for it. -/
theorem defaults_twice :
    (C.Lasts c defaultsKey (l.value start) ∧ C.Lasts c defaultsKey (l.default start)) ↔
      C.Lasts c defaultsKey (l.default start) :=
  and_iff_right_of_imp fun h => h.mono Lookup.value_le

/-- A call is answered just when what it reads is there. -/
theorem getTimed_iff : (getTimed C g c start l).2.isSome = true ↔
    UserLasts C c start l ∧ (Granted C c start l ∨ DefaultsLast C c start l) := by
  by_cases hcached : C.contains c (l.test start) l.user = true
  · obtain ⟨e, he, _⟩ := TtlCache.contains_iff.mp hcached
    have hfill := filled_of_contains hcached
    have hgranted : Granted C c start l ↔ (e.value (.str l.name)).isSome = true := by
      unfold Granted grantsFor
      rw [if_pos hcached, he, Option.map_some, Option.getD_some]
    have hentry : C.entry (fill C c start l) l.user = some e := by
      rw [hfill]
      exact he
    rw [getTimed_isSome hentry, hfill, defaults_twice]
    unfold UserLasts DefaultsLast
    rw [if_pos hcached, if_pos hcached]
    by_cases hname : (e.value (.str l.name)).isSome = true
    · rw [if_pos hname, if_pos (hgranted.mpr hname)]
      have hmember : C.Lasts c l.user (l.value start) → C.Lasts c l.user (l.member start) :=
        fun h => h.mono Lookup.member_le
      exact ⟨fun h => ⟨h.2, Or.inl (hgranted.mpr hname)⟩, fun h => ⟨hmember h.1, h.1⟩⟩
    · rw [if_neg hname, if_neg fun h => hname (hgranted.mp h)]
      exact and_congr_right fun _ => (or_iff_right fun h => hname (hgranted.mp h)).symm
  · have hgranted : Granted C c start l ↔ (l.found (.str l.name)).isSome = true := by
      unfold Granted grantsFor
      rw [if_neg hcached]
    have hentry : C.entry (fill C c start l) l.user = some ⟨l.user, l.found, l.store start + C.ttl⟩ := by
      rw [filled_of_not hcached]
      exact TtlCache.entry_insert_self
    have huser : ∀ t, C.Lasts (fill C c start l) l.user t ↔ t < l.store start + C.ttl := by
      intro t
      rw [filled_of_not hcached]
      exact TtlCache.lasts_insert_self
    have hlate : l.store start ≤ l.default start :=
      calc l.store start ≤ l.member start := Lookup.store_le
        _ ≤ l.value start := Lookup.member_le
        _ ≤ l.default start := Lookup.value_le
    rw [getTimed_isSome hentry, defaults_twice, defaults_filled hcached hlate, huser, huser]
    unfold UserLasts DefaultsLast
    rw [if_neg hcached, if_neg hcached]
    by_cases hname : (l.found (.str l.name)).isSome = true
    · rw [if_pos hname, if_pos (hgranted.mpr hname)]
      have hmember : l.value start < l.store start + C.ttl → l.member start < l.store start + C.ttl :=
        fun h => lt_of_le_of_lt Lookup.member_le h
      exact ⟨fun h => ⟨h.2, Or.inl (hgranted.mpr hname)⟩, fun h => ⟨hmember h.1, h.1⟩⟩
    · rw [if_neg hname, if_neg fun h => hname (hgranted.mp h)]
      exact and_congr_right fun _ => (or_iff_right fun h => hname (hgranted.mp h)).symm

theorem answered_step {s : Clocked σ τ} {e : Use τ} : Answered C g s e ↔ Serves C s e := by
  cases e with
  | construct untilTest untilStore => exact iff_of_true rfl trivial
  | get l =>
      show (getTimed C g s.cache s.time l).2.isSome = true ↔ _
      exact getTimed_iff

end Answered

/-- Along a run every access to the cache finds what it reads just when every call is made in a state, and in
times, that serve it. -/
theorem answered_iff {σ τ : Type*} [LinearOrder τ] [Add τ] [CanonicallyOrderedAdd τ]
    (C : TtlCache σ Val Limits τ) (g : Setting) (s : Clocked σ τ) (es : List (Use τ)) :
    (uses C g).Along (Answered C g) s es ↔ (uses C g).Along (Serves C) s es :=
  ⟨Machine.Along.imp fun _ _ => answered_step.mp, Machine.Along.imp fun _ _ => answered_step.mpr⟩

/-! ### A cache with room for one entry, and one with room for two -/

/-- Somebody asks how many lists the user may have; each access takes one unit of time. -/
def listsOf (uid : String) : Lookup ℕ where
  acc := Access.anonymous
  name := "lists"
  uid := .str uid
  db := Seed.shared
  now := 100
  untilTest := 1
  untilStore := 1
  untilMember := 1
  untilValue := 1
  untilDefault := 1

/-- A cache as it is made. -/
def emptied (maxsize : ℕ) : Clocked (TtlCache.Entries Val Limits ℕ maxsize) ℕ :=
  ⟨TtlCache.Entries.empty maxsize, 0⟩

/-- With room for two entries that last five minutes the defaults are found. -/
theorem two_answered : (uses (TtlCache.recency 2 Nat.two_pos 300) shipped).Along
    (Answered (TtlCache.recency 2 Nat.two_pos 300) shipped) (emptied 2)
    [.construct 0 0, .get (listsOf "u-0002"), .get (listsOf "u-0002")] := by
  refine (answered_iff _ shipped (emptied 2) _).mpr ⟨trivial, ?_, ?_, trivial⟩
  · exact ⟨by decide +kernel, Or.inr (by decide +kernel)⟩
  · exact ⟨by decide +kernel, Or.inr (by decide +kernel)⟩

/-- With room for one entry the grants of the user take the place of the defaults, which are then read. -/
theorem defaults_gone : ¬ (uses (TtlCache.recency 1 Nat.one_pos 300) shipped).Along
    (Answered (TtlCache.recency 1 Nat.one_pos 300) shipped) (emptied 1)
    [.construct 0 0, .get (listsOf "u-0002")] := by
  rintro ⟨-, hget, -⟩
  exact absurd hget (by decide +kernel)

end Grants

end Apicrud
