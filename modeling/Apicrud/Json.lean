import Mathlib

/-! # JSON values

The values that a parser of JSON or of YAML gives.  An object is the list of its entries in their order,
`get` and `set` are those of a dictionary that keeps the order of insertion.  `hashKey` tells which values may
be the keys of a dictionary, and which of them are the same key: those of YAML need not be strings. -/

/-- Keys of a dictionary; a truth value is the same key as its number. -/
inductive HashKey where
  | null
  | num (q : ℚ)
  | str (s : String)
deriving DecidableEq

instance : Coe String HashKey := ⟨HashKey.str⟩

/-- A JSON value. -/
inductive Json where
  | null
  | bool (b : Bool)
  | num (q : ℚ)
  | str (s : String)
  | arr (items : List Json)
  | obj (fields : List (HashKey × Json))

/-! ### Dictionaries in the order of insertion -/

namespace Assoc

variable {κ ν : Type*} [DecidableEq κ]

/-- `d.get(key)` -/
def get (d : List (κ × ν)) (key : κ) : Option ν := (d.find? fun p => decide (p.1 = key)).map Prod.snd

/-- `d[key] = value` -/
def set (d : List (κ × ν)) (key : κ) (value : ν) : List (κ × ν) :=
  if key ∈ d.map Prod.fst then d.map fun p => if p.1 = key then (key, value) else p
  else d ++ [(key, value)]

/-- `d.pop(key, None)` -/
def erase (d : List (κ × ν)) (key : κ) : List (κ × ν) := d.filter fun p => decide (p.1 ≠ key)

/-- `d.update(other)` -/
def update (d other : List (κ × ν)) : List (κ × ν) := other.foldl (fun d p => set d p.1 p.2) d

variable {d : List (κ × ν)} {key key' : κ} {value : ν}

theorem get_nil : get ([] : List (κ × ν)) key = none := rfl

theorem get_cons (p : κ × ν) (d : List (κ × ν)) :
    get (p :: d) key = if p.1 = key then some p.2 else get d key := by
  unfold get
  by_cases h : p.1 = key
  · rw [if_pos h, List.find?_cons_of_pos (by simpa using h), Option.map_some]
  · rw [if_neg h, List.find?_cons_of_neg (by simpa using h)]

theorem get_append (d d' : List (κ × ν)) : get (d ++ d') key = (get d key).or (get d' key) := by
  unfold get
  rw [List.find?_append, Option.map_or]

theorem get_eq_none : get d key = none ↔ key ∉ d.map Prod.fst := by
  rw [get, Option.map_eq_none_iff, List.find?_eq_none]
  constructor
  · intro h hmem
    obtain ⟨p, hp, rfl⟩ := List.mem_map.mp hmem
    exact h p hp (by simp)
  · intro h p hp hkey
    exact h (List.mem_map.mpr ⟨p, hp, of_decide_eq_true hkey⟩)

theorem get_map_self (h : key ∈ d.map Prod.fst) :
    get (d.map fun p => if p.1 = key then (key, value) else p) key = some value := by
  induction d with
  | nil => cases h
  | cons p d ih =>
      rw [List.map_cons, get_cons]
      by_cases hp : p.1 = key
      · rw [if_pos hp, if_pos rfl]
      · rw [if_neg hp, if_neg hp]
        rw [List.map_cons, List.mem_cons] at h
        exact ih (h.resolve_left (Ne.symm hp))

theorem get_map_ne (h : key' ≠ key) :
    get (d.map fun p => if p.1 = key then (key, value) else p) key' = get d key' := by
  induction d with
  | nil => rfl
  | cons p d ih =>
      rw [List.map_cons, get_cons, get_cons, ih]
      by_cases hp : p.1 = key
      · have hne : p.1 ≠ key' := fun heq => h (heq.symm.trans hp)
        rw [if_pos hp, if_neg (Ne.symm h), if_neg hne]
      · rw [if_neg hp]

@[simp] theorem get_set_self : get (set d key value) key = some value := by
  unfold set
  split_ifs with h
  · exact get_map_self h
  · rw [get_append, get_eq_none.mpr h, Option.none_or, get_cons, if_pos rfl]

theorem get_set_ne (h : key' ≠ key) : get (set d key value) key' = get d key' := by
  unfold set
  split_ifs with hmem
  · exact get_map_ne h
  · rw [get_append, get_cons, if_neg (Ne.symm h), get_nil, Option.or_none]

theorem get_set : get (set d key value) key' = if key' = key then some value else get d key' := by
  split_ifs with h
  · rw [h, get_set_self]
  · exact get_set_ne h

/-- The keys stay when one of them is set. -/
theorem keys_set (h : key ∈ d.map Prod.fst) : (set d key value).map Prod.fst = d.map Prod.fst := by
  unfold set
  rw [if_pos h, List.map_map]
  refine List.map_congr_left fun p _ => ?_
  by_cases hp : p.1 = key
  · simp [hp]
  · simp [hp]

theorem mem_keys_set : key' ∈ (set d key value).map Prod.fst ↔ key' = key ∨ key' ∈ d.map Prod.fst := by
  rw [← not_iff_not, ← get_eq_none, get_set]
  by_cases h : key' = key
  · simp [h]
  · rw [if_neg h, get_eq_none]
    simp [h]

/-- Only the last value that is set counts. -/
theorem set_set {value' : ν} : set (set d key value) key value' = set d key value' := by
  have hmem : key ∈ (set d key value).map Prod.fst := mem_keys_set.mpr (Or.inl rfl)
  by_cases h : key ∈ d.map Prod.fst
  · unfold set at hmem ⊢
    rw [if_pos h] at hmem ⊢
    rw [if_pos hmem, if_pos h, List.map_map]
    refine List.map_congr_left fun p _ => ?_
    by_cases hp : p.1 = key <;> simp [hp]
  · unfold set at hmem ⊢
    rw [if_neg h] at hmem ⊢
    rw [if_pos hmem, if_neg h, List.map_append]
    congr 1
    · refine (List.map_congr_left fun p hp => ?_).trans (List.map_id d)
      have hne : p.1 ≠ key := fun heq => h (heq ▸ List.mem_map_of_mem hp)
      rw [if_neg hne]
      rfl
    · simp

theorem erase_eq_self (h : key ∉ d.map Prod.fst) : erase d key = d :=
  List.filter_eq_self.mpr fun _ hp =>
    decide_eq_true fun heq => h (heq ▸ List.mem_map_of_mem hp)

theorem erase_comm (d : List (κ × ν)) (key key' : κ) :
    erase (erase d key) key' = erase (erase d key') key := List.filter_comm ..

theorem erase_idem (d : List (κ × ν)) (key : κ) : erase (erase d key) key = erase d key := by
  simp [erase]

/-- What is set is taken out again. -/
theorem erase_set (d : List (κ × ν)) (key : κ) (value : ν) : erase (set d key value) key = erase d key := by
  unfold set
  split_ifs with h
  · clear h
    induction d with
    | nil => rfl
    | cons p d ih =>
        unfold erase at ih ⊢
        rw [List.map_cons, List.filter_cons, List.filter_cons, ih]
        by_cases hp : p.1 = key <;> simp [hp]
  · simp [erase]

@[simp] theorem get_erase_self : get (erase d key) key = none := by
  simp [get_eq_none, erase]

theorem get_erase_ne (h : key' ≠ key) : get (erase d key) key' = get d key' := by
  induction d with
  | nil => rfl
  | cons p d ih =>
      by_cases hp : p.1 = key
      · have hne : p.1 ≠ key' := fun heq => h (heq.symm.trans hp)
        rw [get_cons, if_neg hne, ← ih]
        unfold erase
        rw [List.filter_cons_of_neg (by simpa using hp)]
      · have hskip : erase (p :: d) key = p :: erase d key :=
          List.filter_cons_of_pos (by simpa using hp)
        rw [hskip, get_cons, get_cons, ih]

end Assoc

/-! ### Values -/

namespace Json

/-- The entries of an object. -/
abbrev Fields := List (HashKey × Json)

/-- `if x` -/
def truthy : Json → Bool
  | null => false
  | bool b => b
  | num q => decide (q ≠ 0)
  | str s => decide (s ≠ "")
  | arr items => !items.isEmpty
  | obj fields => !fields.isEmpty

/-- A key as a value. -/
def ofKey : HashKey → Json
  | .null => null
  | .num q => num q
  | .str s => str s

/-- What iterating over the value gives; `none` where that raises. -/
def items : Json → Option (List Json)
  | arr items => some items
  | str s => some (s.toList.map fun c => str (String.ofList [c]))
  | obj fields => some (fields.map fun p => ofKey p.1)
  | _ => none

/-- The key of a dictionary; `none` where the value is not hashable. -/
def hashKey : Json → Option HashKey
  | null => some .null
  | bool b => some (.num (if b then 1 else 0))
  | num q => some (.num q)
  | str s => some (.str s)
  | arr _ => none
  | obj _ => none

/-- `key, value = item`; `none` where that raises, or the key is not hashable. -/
def pair (item : Json) : Option (HashKey × Json) :=
  match item.items with
  | some [key, value] => key.hashKey.map fun k => (k, value)
  | _ => none

/-- `d.update(items)` for a list of pairs: what it has put in before it raises, and whether it does not. -/
def updatePairs (d : Fields) : List Json → Fields × Bool
  | [] => (d, true)
  | item :: items =>
      match item.pair with
      | some p => updatePairs (Assoc.set d p.1 p.2) items
      | none => (d, false)

/-- `d.update(other)`: what it leaves, and whether it does not raise. -/
def update (d : Fields) : Json → Fields × Bool
  | obj other => (Assoc.update d other, true)
  | other =>
      match other.items with
      | some items => updatePairs d items
      | none => (d, false)

end Json
