import Mathlib

/-! # Caches with a bounded size and a time to live

An entry is there until its time has passed, or until a new key is written into a full cache and the entry is
the one that was used longest ago.  Asking whether a key is there does not count as a use, reading it does.

`TtlCache` is what a program may rely on: a view of the states as lists of entries, the one used longest ago
first, and what each operation does to that list.  `TtlCache.recency` is the cache that is nothing more than
its list.

* `entry_index` says that a read moves entries but changes none;
* `entry_insert_self` and `entry_insert_ne` say what is left of the key and of the others by a write. -/

/-- What a cache holds for a key. -/
structure CacheEntry (κ ν τ : Type*) where
  key : κ
  value : ν
  expires : τ

namespace CacheEntry

variable {κ ν τ : Type*} [DecidableEq κ]

/-- The first entry of a key. -/
def find (l : List (CacheEntry κ ν τ)) (k : κ) : Option (CacheEntry κ ν τ) :=
  l.find? fun e => decide (e.key = k)

/-- The entries of the other keys. -/
def without (k : κ) (l : List (CacheEntry κ ν τ)) : List (CacheEntry κ ν τ) :=
  l.filter fun e => decide (e.key ≠ k)

/-- A use of a key puts its entry at the end. -/
def touch (k : κ) (l : List (CacheEntry κ ν τ)) : List (CacheEntry κ ν τ) :=
  without k l ++ (find l k).toList

/-- What a write leaves of the other entries: a new key takes the place of the oldest ones if there are too
many. -/
def makeRoom (maxsize : ℕ) (k : κ) (l : List (CacheEntry κ ν τ)) : List (CacheEntry κ ν τ) :=
  if k ∈ l.map key then without k l else l.drop (l.length + 1 - maxsize)

/-- The key is that of the entry that was used longest ago. -/
def Oldest (l : List (CacheEntry κ ν τ)) (k : κ) : Prop := ∃ e ∈ l.head?, e.key = k

instance (l : List (CacheEntry κ ν τ)) (k : κ) : Decidable (Oldest l k) :=
  decidable_of_iff (l.head?.any (fun e => decide (e.key = k)) = true) (by simp [Oldest, Option.any_eq_true])

variable {k k' : κ} {l : List (CacheEntry κ ν τ)} {e : CacheEntry κ ν τ} {maxsize : ℕ}

theorem key_of_find (h : find l k = some e) : e.key = k := of_decide_eq_true (List.find?_some h :)

theorem mem_of_find (h : find l k = some e) : e ∈ l := List.mem_of_find?_eq_some h

theorem find_eq_none : find l k = none ↔ k ∉ l.map key := by
  simp [find, List.find?_eq_none]

theorem find_of_mem (hnodup : (l.map key).Nodup) (h : e ∈ l) : find l e.key = some e := by
  induction l with
  | nil => cases h
  | cons first l ih =>
      obtain ⟨hfirst, hnodup⟩ := List.nodup_cons.mp hnodup
      unfold find
      by_cases heq : first.key = e.key
      · rcases List.mem_cons.mp h with rfl | h
        · exact List.find?_cons_of_pos (by simp)
        · exact absurd (List.mem_map.mpr ⟨e, h, heq.symm⟩) hfirst
      · rcases List.mem_cons.mp h with rfl | h
        · exact absurd rfl heq
        · rw [List.find?_cons_of_neg (by simpa using heq)]
          exact ih hnodup h

theorem find_append (l l' : List (CacheEntry κ ν τ)) (k : κ) :
    find (l ++ l') k = (find l k).or (find l' k) := List.find?_append

theorem find_without_self : find (without k l) k = none := by
  simp [find_eq_none, without]

theorem find_without_ne (h : k' ≠ k) : find (without k l) k' = find l k' := by
  unfold find without
  rw [List.find?_filter]
  congr 1
  funext e
  by_cases he : e.key = k' <;> simp [he, h]

/-- A use changes no entry. -/
theorem find_touch : find (touch k l) k' = find l k' := by
  unfold touch
  rw [find_append]
  by_cases h : k' = k
  · subst h
    rw [find_without_self, Option.none_or]
    cases hfind : find l k' with
    | none => rfl
    | some e =>
        have hkey := key_of_find hfind
        simp [find, hkey]
  · rw [find_without_ne h]
    have hlast : find (find l k).toList k' = none := by
      cases hfind : find l k with
      | none => rfl
      | some e =>
          have hkey := key_of_find hfind
          simp [find, hkey, Ne.symm h]
    rw [hlast, Option.or_none]

/-- The entries whose time has not passed. -/
def live [LinearOrder τ] (t : τ) (l : List (CacheEntry κ ν τ)) : List (CacheEntry κ ν τ) :=
  l.filter fun e => decide (t < e.expires)

theorem find_live [LinearOrder τ] {t : τ} (hnodup : (l.map key).Nodup) :
    find (live t l) k = some e ↔ find l k = some e ∧ t < e.expires := by
  have hsub : ((live t l).map key).Nodup := hnodup.sublist (List.filter_sublist.map _)
  constructor
  · intro h
    obtain ⟨hmem, hexp⟩ := List.mem_filter.mp (mem_of_find h)
    have hfind := find_of_mem hnodup hmem
    rw [key_of_find h] at hfind
    exact ⟨hfind, of_decide_eq_true hexp⟩
  · rintro ⟨h, hexp⟩
    have hmem : e ∈ live t l := List.mem_filter.mpr ⟨mem_of_find h, decide_eq_true hexp⟩
    have hfind := find_of_mem hsub hmem
    rwa [key_of_find h] at hfind

/-- What room for a new key costs: the entry used longest ago, in a full cache. -/
theorem find_makeRoom (hnodup : (l.map key).Nodup) (hsize : l.length ≤ maxsize) (hnew : k ∉ l.map key) :
    find (makeRoom maxsize k l) k' = some e ↔
      find l k' = some e ∧ ¬ (l.length = maxsize ∧ Oldest l k') := by
  unfold makeRoom
  rw [if_neg hnew]
  cases l with
  | nil => simp [find]
  | cons first l =>
      by_cases hfull : (first :: l).length = maxsize
      · obtain ⟨hfirst, hnodup⟩ := List.nodup_cons.mp hnodup
        have hone : (first :: l).length + 1 - maxsize = 1 := by omega
        rw [hone, List.drop_one, List.tail_cons]
        by_cases hkey : first.key = k'
        · have hold : Oldest (first :: l) k' := ⟨first, rfl, hkey⟩
          subst hkey
          rw [find_eq_none.mpr hfirst]
          exact iff_of_false (by simp) fun h => h.2 ⟨hfull, hold⟩
        · have hold : ¬ Oldest (first :: l) k' := by
            rintro ⟨e, he, hek⟩
            cases he
            exact hkey hek
          have hskip : find (first :: l) k' = find l k' :=
            List.find?_cons_of_neg (by simpa using hkey)
          rw [hskip]
          exact (and_iff_left fun h => hold h.2).symm
      · have hzero : (first :: l).length + 1 - maxsize = 0 := by omega
        rw [hzero, List.drop_zero]
        exact (and_iff_left fun h => hfull h.1).symm

end CacheEntry

/-- A cache with a time to live, and the states that it has. -/
structure TtlCache (σ κ ν τ : Type*) [DecidableEq κ] [LinearOrder τ] [Add τ] where
  maxsize : ℕ
  ttl : τ
  /-- the entries of a state, the one used longest ago first -/
  entries : σ → List (CacheEntry κ ν τ)
  contains : σ → τ → κ → Bool
  index : σ → τ → κ → Option ν × σ
  insert : σ → τ → κ → ν → σ
  nodup : ∀ c, ((entries c).map CacheEntry.key).Nodup
  size : ∀ c, (entries c).length ≤ maxsize
  contains_eq : ∀ c t k,
    contains c t k = (CacheEntry.find (entries c) k).any fun e => decide (t < e.expires)
  index_value : ∀ c t k, (index c t k).1 =
    ((CacheEntry.find (entries c) k).filter fun e => decide (t < e.expires)).map CacheEntry.value
  index_entries : ∀ c t k, entries (index c t k).2 = CacheEntry.touch k (entries c)
  insert_entries : ∀ c t k v, entries (insert c t k v) =
    CacheEntry.makeRoom maxsize k (CacheEntry.live t (entries c)) ++ [⟨k, v, t + ttl⟩]

namespace TtlCache

variable {σ κ ν τ : Type*} [DecidableEq κ] [LinearOrder τ] [Add τ] (C : TtlCache σ κ ν τ)

/-- What is stored under a key. -/
def entry (c : σ) (k : κ) : Option (CacheEntry κ ν τ) := CacheEntry.find (C.entries c) k

/-- What is stored under the key stays until after the time. -/
def Lasts (c : σ) (k : κ) (t : τ) : Prop := ∃ e ∈ C.entry c k, t < e.expires

/-- The entries that are there at a time. -/
def present (c : σ) (t : τ) : List (CacheEntry κ ν τ) := CacheEntry.live t (C.entries c)

/-- A new key would take the place of the one given. -/
def NextOut (c : σ) (t : τ) (k : κ) : Prop :=
  (C.present c t).length = C.maxsize ∧ CacheEntry.Oldest (C.present c t) k

instance (c : σ) (t : τ) (k : κ) : Decidable (C.NextOut c t k) := inferInstanceAs (Decidable (_ ∧ _))

variable {C} {c : σ} {k k' : κ} {t t' : τ} {v : ν}

theorem Lasts.mono (h : C.Lasts c k t) (hle : t' ≤ t) : C.Lasts c k t' := by
  obtain ⟨e, he, hlt⟩ := h
  exact ⟨e, he, hle.trans_lt hlt⟩

theorem contains_iff : C.contains c t k = true ↔ C.Lasts c k t := by
  rw [C.contains_eq, Option.any_eq_true]
  simp [Lasts, entry]

instance : Decidable (C.Lasts c k t) := decidable_of_iff _ contains_iff

/-- A read gives what is stored, as long as it lasts. -/
theorem index_of_lasts {e : CacheEntry κ ν τ} (he : C.entry c k = some e) (h : C.Lasts c k t) :
    (C.index c t k).1 = some e.value := by
  obtain ⟨e', he', hlt⟩ := h
  rw [Option.mem_def, he] at he'
  cases he'
  rw [C.index_value]
  show (Option.filter _ (C.entry c k)).map _ = _
  rw [he, Option.filter_some, if_pos (decide_eq_true hlt), Option.map_some]

theorem index_of_not_lasts (h : ¬ C.Lasts c k t) : (C.index c t k).1 = none := by
  rw [C.index_value]
  show (Option.filter _ (C.entry c k)).map _ = _
  cases he : C.entry c k with
  | none => rfl
  | some e =>
      have hexp : ¬ t < e.expires := fun hlt => h ⟨e, he, hlt⟩
      rw [Option.filter_some, if_neg (by simpa using hexp), Option.map_none]

theorem index_eq_some : (C.index c t k).1 = some v ↔
    ∃ e, C.entry c k = some e ∧ t < e.expires ∧ e.value = v := by
  constructor
  · intro h
    by_cases hlasts : C.Lasts c k t
    · obtain ⟨e, he, hlt⟩ := id hlasts
      rw [index_of_lasts he hlasts, Option.some.injEq] at h
      exact ⟨e, he, hlt, h⟩
    · rw [index_of_not_lasts hlasts] at h
      cases h
  · rintro ⟨e, he, hlt, rfl⟩
    exact index_of_lasts he ⟨e, he, hlt⟩

theorem index_isSome : (C.index c t k).1.isSome = true ↔ C.Lasts c k t := by
  constructor
  · intro h
    by_contra hnot
    rw [index_of_not_lasts hnot] at h
    cases h
  · intro h
    obtain ⟨e, he, _⟩ := id h
    rw [index_of_lasts he h]
    rfl

/-- A read changes no entry. -/
@[simp] theorem entry_index : C.entry (C.index c t k).2 k' = C.entry c k' := by
  unfold entry
  rw [C.index_entries]
  exact CacheEntry.find_touch

@[simp] theorem lasts_index : C.Lasts (C.index c t k).2 k' t' ↔ C.Lasts c k' t' := by
  unfold Lasts
  rw [entry_index]

/-- A write leaves what is written. -/
@[simp] theorem entry_insert_self : C.entry (C.insert c t k v) k = some ⟨k, v, t + C.ttl⟩ := by
  have hnone : k ∉ (CacheEntry.makeRoom C.maxsize k (C.present c t)).map CacheEntry.key := by
    unfold CacheEntry.makeRoom
    split_ifs with hmem
    · exact CacheEntry.find_eq_none.mp CacheEntry.find_without_self
    · exact fun h => hmem ((List.drop_sublist _ _).map _ |>.subset h)
  unfold entry
  rw [C.insert_entries, CacheEntry.find_append]
  show (CacheEntry.find (CacheEntry.makeRoom C.maxsize k (C.present c t)) k).or _ = _
  rw [CacheEntry.find_eq_none.mpr hnone, Option.none_or]
  simp [CacheEntry.find]

theorem lasts_insert_self : C.Lasts (C.insert c t k v) k t' ↔ t' < t + C.ttl := by
  simp [Lasts]

/-- What the write of a new key leaves of another: it is the old entry, unless it was next to go out. -/
theorem entry_insert_ne {e : CacheEntry κ ν τ} (hnew : ¬ C.Lasts c k t) (hne : k' ≠ k) :
    C.entry (C.insert c t k v) k' = some e ↔
      C.entry c k' = some e ∧ t < e.expires ∧ ¬ C.NextOut c t k' := by
  have hnodup : ((C.present c t).map CacheEntry.key).Nodup :=
    (C.nodup c).sublist (List.filter_sublist.map _)
  have hsize : (C.present c t).length ≤ C.maxsize := (List.length_filter_le _ _).trans (C.size c)
  have habsent : k ∉ (C.present c t).map CacheEntry.key := by
    rw [← CacheEntry.find_eq_none, Option.eq_none_iff_forall_not_mem]
    intro e he
    obtain ⟨he, hlt⟩ := (CacheEntry.find_live (C.nodup c)).mp he
    exact hnew ⟨e, he, hlt⟩
  have hlast : CacheEntry.find [(⟨k, v, t + C.ttl⟩ : CacheEntry κ ν τ)] k' = none := by
    simp [CacheEntry.find, Ne.symm hne]
  unfold entry
  rw [C.insert_entries, CacheEntry.find_append, hlast, Option.or_none]
  refine (CacheEntry.find_makeRoom hnodup hsize habsent).trans ?_
  rw [present, CacheEntry.find_live (C.nodup c), and_assoc]
  rfl

/-- What is there after the write of a new key was there before, or is what was written. -/
theorem entry_insert_cases {e : CacheEntry κ ν τ} (hnew : ¬ C.Lasts c k t)
    (h : C.entry (C.insert c t k v) k' = some e) :
    C.entry c k' = some e ∨ k' = k ∧ e = ⟨k, v, t + C.ttl⟩ := by
  by_cases hk : k' = k
  · subst hk
    rw [entry_insert_self, Option.some.injEq] at h
    exact Or.inr ⟨rfl, h.symm⟩
  · exact Or.inl ((entry_insert_ne hnew hk).mp h).1

theorem lasts_insert_ne (hnew : ¬ C.Lasts c k t) (hne : k' ≠ k) (hle : t ≤ t') :
    C.Lasts (C.insert c t k v) k' t' ↔ C.Lasts c k' t' ∧ ¬ C.NextOut c t k' := by
  constructor
  · rintro ⟨e, he, hlt⟩
    obtain ⟨he, _, hstays⟩ := (entry_insert_ne hnew hne).mp he
    exact ⟨⟨e, he, hlt⟩, hstays⟩
  · rintro ⟨⟨e, he, hlt⟩, hstays⟩
    exact ⟨e, (entry_insert_ne hnew hne).mpr ⟨he, hle.trans_lt hlt, hstays⟩, hlt⟩

end TtlCache

/-! ### The cache that is a list -/

namespace TtlCache

variable {κ ν τ : Type*}

/-- The lists of entries of a cache of some size. -/
def Entries (κ ν τ : Type*) (maxsize : ℕ) : Type _ :=
  {l : List (CacheEntry κ ν τ) // (l.map CacheEntry.key).Nodup ∧ l.length ≤ maxsize}

/-- An entry for a key that the list does not have. -/
theorem nodup_concat {l : List (CacheEntry κ ν τ)} {e : CacheEntry κ ν τ}
    (h : (l.map CacheEntry.key).Nodup) (hkey : e.key ∉ l.map CacheEntry.key) :
    ((l ++ [e]).map CacheEntry.key).Nodup := by
  rw [List.map_append, List.nodup_append]
  refine ⟨h, List.nodup_singleton _, ?_⟩
  rintro a ha b hb rfl
  rw [List.map_singleton, List.mem_singleton] at hb
  exact hkey (hb ▸ ha)

variable [DecidableEq κ]

theorem touch_entries {l : List (CacheEntry κ ν τ)} {maxsize : ℕ} (k : κ)
    (h : (l.map CacheEntry.key).Nodup ∧ l.length ≤ maxsize) :
    ((CacheEntry.touch k l).map CacheEntry.key).Nodup ∧ (CacheEntry.touch k l).length ≤ maxsize := by
  have hnodup : ((CacheEntry.without k l).map CacheEntry.key).Nodup :=
    h.1.sublist (List.filter_sublist.map _)
  unfold CacheEntry.touch
  cases hfind : CacheEntry.find l k with
  | none => simpa using ⟨hnodup, (List.length_filter_le _ _).trans h.2⟩
  | some e =>
      have hkey := CacheEntry.key_of_find hfind
      refine ⟨nodup_concat hnodup ?_, ?_⟩
      · rw [hkey]
        exact CacheEntry.find_eq_none.mp CacheEntry.find_without_self
      · have hless : (CacheEntry.without k l).length < l.length :=
          List.length_filter_lt_length_iff_exists.mpr ⟨e, CacheEntry.mem_of_find hfind, by simp [hkey]⟩
        rw [List.length_append, Option.toList_some, List.length_singleton]
        omega

variable [LinearOrder τ]

theorem insert_entries_of {l : List (CacheEntry κ ν τ)} {maxsize : ℕ} (hpos : 0 < maxsize) (t : τ)
    (e : CacheEntry κ ν τ) (h : (l.map CacheEntry.key).Nodup ∧ l.length ≤ maxsize) :
    ((CacheEntry.makeRoom maxsize e.key (CacheEntry.live t l) ++ [e]).map CacheEntry.key).Nodup ∧
      (CacheEntry.makeRoom maxsize e.key (CacheEntry.live t l) ++ [e]).length ≤ maxsize := by
  have hnodup : ((CacheEntry.live t l).map CacheEntry.key).Nodup :=
    h.1.sublist (List.filter_sublist.map _)
  have hsize : (CacheEntry.live t l).length ≤ maxsize := (List.length_filter_le _ _).trans h.2
  unfold CacheEntry.makeRoom
  rw [List.length_append, List.length_singleton]
  split_ifs with hmem
  · obtain ⟨old, hold, hkey⟩ := List.mem_map.mp hmem
    refine ⟨nodup_concat (hnodup.sublist (List.filter_sublist.map _)) ?_, ?_⟩
    · exact CacheEntry.find_eq_none.mp CacheEntry.find_without_self
    · have hless : (CacheEntry.without e.key (CacheEntry.live t l)).length < (CacheEntry.live t l).length :=
        List.length_filter_lt_length_iff_exists.mpr ⟨old, hold, by simp [hkey]⟩
      omega
  · refine ⟨nodup_concat (hnodup.sublist ((List.drop_sublist _ _).map _)) fun hin => hmem ?_, ?_⟩
    · exact ((List.drop_sublist _ _).map _).subset hin
    · rw [List.length_drop]
      omega

/-- The cache whose states are lists of entries. -/
def recency [Add τ] (maxsize : ℕ) (hpos : 0 < maxsize) (ttl : τ) :
    TtlCache (Entries κ ν τ maxsize) κ ν τ where
  maxsize := maxsize
  ttl := ttl
  entries c := c.1
  contains c t k := (CacheEntry.find c.1 k).any fun e => decide (t < e.expires)
  index c t k :=
    (((CacheEntry.find c.1 k).filter fun e => decide (t < e.expires)).map CacheEntry.value,
      ⟨CacheEntry.touch k c.1, touch_entries k c.2⟩)
  insert c t k v := ⟨CacheEntry.makeRoom maxsize k (CacheEntry.live t c.1) ++ [⟨k, v, t + ttl⟩],
    insert_entries_of hpos t ⟨k, v, t + ttl⟩ c.2⟩
  nodup c := c.2.1
  size c := c.2.2
  contains_eq _ _ _ := rfl
  index_value _ _ _ := rfl
  index_entries _ _ _ := rfl
  insert_entries _ _ _ _ := rfl

/-- The cache as it is made. -/
def Entries.empty (maxsize : ℕ) : Entries κ ν τ maxsize := ⟨[], List.nodup_nil, Nat.zero_le maxsize⟩

end TtlCache
