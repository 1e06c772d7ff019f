import Mathlib

/-! # Rows, tables and the constraints of a relational store

A dynamically typed record store, as seen through an object-relational mapper:

* a value (`Val`) is one cell, or one value of a request body; a body is a dictionary
  (`Dict`) and a record is a total map from column names to cells (`Row`), with
  `Val.none` in the columns that hold nothing;
* a database over the tables `τ` is one list of rows for each table;
* a `Schema` declares, for every table, its columns, defaults and constraints: not null,
  enumerations, unique keys and foreign keys, some of which cascade on delete;
* `Store S` is a database that satisfies the constraints of `S`: an invalid one cannot be
  built, and `Schema.store` is the only way from a database to a store.

The rules the developments on top use: what a row write leaves alone (`Row.write_get`), who is
in a table after an insert, an update or a delete (`mem_insert`, `mem_modify`, `mem_remove`),
that other tables stay (`insert_ne`, `modify_ne`, `remove_ne`), that a unique key names
one row (`Store.eq_of_key`), which writes are accepted (`Takes.valid_modify`, `valid_append`), and
that a cascade takes along only what goes with the rows it was started from (`Reduced.cascade`). -/

namespace Relational

/-- One cell of a row, or one value of a request body. -/
inductive Val where
  | none
  | bool (b : Bool)
  | int (i : ℤ)
  | str (s : String)
  | time (t : ℕ)
  | list (l : List String)
deriving DecidableEq, Repr

namespace Val

/-- Truth of a value where the code writes `if x`. -/
def truthy : Val → Bool
  | none => false
  | bool b => b
  | int i => i != 0
  | str s => s != ""
  | time _ => true
  | list l => !l.isEmpty

/-- What iterating over the value gives; `none` where that raises. -/
def items : Val → Option (List String)
  | list l => some l
  | str s => some (s.toList.map fun c => String.ofList [c])
  | _ => Option.none

/-- A column can hold the value. -/
def IsCell : Val → Prop
  | list _ => False
  | _ => True

instance (v : Val) : Decidable v.IsCell :=
  match v with
  | none | bool _ | int _ | str _ | time _ => isTrue trivial
  | list _ => isFalse not_false

/-- The text of a value where the code formats it into a string. -/
def text : Val → String
  | none => "None"
  | bool true => "True"
  | bool false => "False"
  | int i => toString i
  | str s => s
  | time t => toString t
  | list l => toString l

/-- The value of an optional string. -/
def ofOption : Option String → Val
  | .none => .none
  | some s => .str s

@[simp] theorem truthy_none : truthy none = false := rfl

@[simp] theorem text_str (s : String) : text (str s) = s := rfl

@[simp] theorem ofOption_none : ofOption Option.none = none := rfl

@[simp] theorem ofOption_some (s : String) : ofOption (some s) = str s := rfl

end Val

/-! ### Dictionaries and rows -/

/-- A request body: distinct keys with their values. -/
abbrev Dict := AList (fun _ : String => Val)

namespace Dict

/-- `d.get(k)`: `none` when the key is absent. -/
def get (d : Dict) (k : String) : Val := (d.lookup k).getD .none

/-- `d[k] = v`. -/
def set (d : Dict) (k : String) (v : Val) : Dict := d.insert k v

/-- A dictionary written out; the first entry of a key counts. -/
def ofList : List (String × Val) → Dict
  | [] => ∅
  | (k, v) :: l => (ofList l).set k v

/-- `d.pop(k, None)`, the dictionary that is left. -/
def pop (d : Dict) (k : String) : Dict := d.erase k

theorem get_of_not_mem {d : Dict} {k : String} (h : k ∉ d) : d.get k = .none := by
  rw [get, AList.lookup_eq_none.mpr h]; rfl

theorem mem_of_get {d : Dict} {k : String} (h : d.get k ≠ .none) : k ∈ d := by
  by_contra hk
  exact h (get_of_not_mem hk)

@[simp] theorem get_set (d : Dict) (k : String) (v : Val) (k' : String) :
    (d.set k v).get k' = if k' = k then v else d.get k' := by
  by_cases h : k' = k
  · subst h; simp [get, set]
  · simp [get, set, h]

@[simp] theorem get_empty (k : String) : (∅ : Dict).get k = .none := rfl

@[simp] theorem ofList_nil : ofList [] = ∅ := rfl

@[simp] theorem ofList_cons (k : String) (v : Val) (l : List (String × Val)) :
    ofList ((k, v) :: l) = (ofList l).set k v := rfl

@[simp] theorem mem_set (d : Dict) (k : String) (v : Val) (k' : String) :
    k' ∈ d.set k v ↔ k' = k ∨ k' ∈ d := AList.mem_insert d

@[simp] theorem mem_pop (d : Dict) (k k' : String) : k' ∈ d.pop k ↔ k' ≠ k ∧ k' ∈ d :=
  AList.mem_erase

@[simp] theorem get_pop (d : Dict) (k k' : String) :
    (d.pop k).get k' = if k' = k then .none else d.get k' := by
  by_cases h : k' = k
  · subst h; simp [get, pop]
  · simp [get, pop, h]

/-- The two dictionaries agree on the keys outside a list. -/
def AgreeOff (keys : List String) (d d' : Dict) : Prop :=
  ∀ k ∉ keys, (k ∈ d' ↔ k ∈ d) ∧ d'.get k = d.get k

theorem AgreeOff.refl (keys : List String) (d : Dict) : AgreeOff keys d d :=
  fun _ _ => ⟨Iff.rfl, rfl⟩

theorem AgreeOff.trans {keys keys' : List String} {d d' d'' : Dict} (h : AgreeOff keys d d')
    (h' : AgreeOff keys' d' d'') : AgreeOff (keys ++ keys') d d'' := by
  intro k hk
  rw [List.mem_append, not_or] at hk
  exact ⟨(h' k hk.2).1.trans (h k hk.1).1, (h' k hk.2).2.trans (h k hk.1).2⟩

theorem AgreeOff.mono {keys keys' : List String} {d d' : Dict} (h : AgreeOff keys d d')
    (hsub : keys ⊆ keys') : AgreeOff keys' d d' :=
  fun k hk => h k fun hmem => hk (hsub hmem)

theorem agreeOff_set (d : Dict) (k : String) (v : Val) : AgreeOff [k] d (d.set k v) := by
  intro k' hk
  rw [List.mem_singleton] at hk
  simp [hk]

theorem agreeOff_pop (d : Dict) (k : String) : AgreeOff [k] d (d.pop k) := by
  intro k' hk
  rw [List.mem_singleton] at hk
  simp [hk]

end Dict

/-- A record: every column with its cell. -/
abbrev Row := String → Val

namespace Row

/-- The record a body describes; columns it does not name hold nothing. -/
def ofDict (d : Dict) : Row := d.get

/-- The record after the columns named in the body are overwritten. -/
def write (r : Row) (d : Dict) : Row := fun c => if c ∈ d then d.get c else r c

@[simp] theorem ofDict_apply (d : Dict) (c : String) : ofDict d c = d.get c := rfl

theorem write_of_mem (r : Row) {d : Dict} {c : String} (h : c ∈ d) : r.write d c = d.get c :=
  if_pos h

theorem write_of_not_mem (r : Row) {d : Dict} {c : String} (h : c ∉ d) : r.write d c = r c :=
  if_neg h

end Row

/-- The lookups the code relies on either find one record or say why not. -/
inductive QueryError where
  | noResultFound
  | multipleResultsFound
deriving DecidableEq, Repr

/-- The only record of a result. -/
def one : List Row → Except QueryError Row
  | [] => .error .noResultFound
  | [r] => .ok r
  | _ :: _ :: _ => .error .multipleResultsFound

theorem one_eq_ok {rows : List Row} {r : Row} : one rows = .ok r ↔ rows = [r] := by
  match rows with
  | [] => simp [one]
  | [a] => simp [one]
  | a :: b :: l => simp [one]

/-- The rows that hold the given values (`none` selects the cells that hold nothing). -/
def filterBy (conds : List (String × Val)) (rows : List Row) : List Row :=
  rows.filter fun r => conds.all fun c => decide (r c.1 = c.2)

theorem mem_filterBy {conds : List (String × Val)} {rows : List Row} {r : Row} :
    r ∈ filterBy conds rows ↔ r ∈ rows ∧ ∀ c ∈ conds, r c.1 = c.2 := by
  simp [filterBy, List.mem_filter]

theorem of_one_filterBy {conds : List (String × Val)} {rows : List Row} {r : Row}
    (h : one (filterBy conds rows) = .ok r) : r ∈ rows ∧ ∀ c ∈ conds, r c.1 = c.2 := by
  have hr : r ∈ filterBy conds rows := by rw [one_eq_ok.mp h]; exact List.mem_singleton_self r
  exact mem_filterBy.mp hr

/-! ### Databases -/

variable {τ : Type}

/-- One list of rows for each table. -/
abbrev Db (τ : Type) := τ → List Row

namespace Db

variable [DecidableEq τ]

/-- Add a row to a table. -/
def insert (db : Db τ) (t : τ) (r : Row) : Db τ := Function.update db t (db t ++ [r])

/-- Rewrite the selected rows of a table. -/
def modify (db : Db τ) (t : τ) (p : Row → Bool) (f : Row → Row) : Db τ :=
  Function.update db t ((db t).map fun r => if p r then f r else r)

/-- Remove the selected rows of a table. -/
def remove (db : Db τ) (t : τ) (p : Row → Bool) : Db τ :=
  Function.update db t ((db t).filter fun r => !p r)

@[simp] theorem mem_insert {db : Db τ} {t : τ} {r r' : Row} :
    r' ∈ db.insert t r t ↔ r' ∈ db t ∨ r' = r := by
  simp [insert]

@[simp] theorem mem_modify {db : Db τ} {t : τ} {p : Row → Bool} {f : Row → Row} {r' : Row} :
    r' ∈ db.modify t p f t ↔ ∃ r ∈ db t, (if p r then f r else r) = r' := by
  simp [modify]

@[simp] theorem mem_remove {db : Db τ} {t : τ} {p : Row → Bool} {r : Row} :
    r ∈ db.remove t p t ↔ r ∈ db t ∧ p r = false := by
  simp [remove]

theorem insert_ne (db : Db τ) {t t' : τ} (r : Row) (h : t' ≠ t) : db.insert t r t' = db t' := by
  simp [insert, h]

theorem modify_ne (db : Db τ) {t t' : τ} (p : Row → Bool) (f : Row → Row) (h : t' ≠ t) :
    db.modify t p f t' = db t' := by
  simp [modify, h]

theorem remove_ne (db : Db τ) {t t' : τ} (p : Row → Bool) (h : t' ≠ t) :
    db.remove t p t' = db t' := by
  simp [remove, h]

end Db

/-! ### Schemas -/

/-- A column that names the `id` of a row of another table. -/
structure ForeignKey (τ : Type) where
  column : String
  target : τ
  cascade : Bool

/-- The declarations of every table. -/
structure Schema (τ : Type) where
  tables : List τ
  complete : ∀ t, t ∈ tables
  columns : τ → List String
  /-- The values the server fills in where an insert names none. -/
  defaults : τ → List (String × Val)
  notNull : τ → List String
  enums : τ → List (String × List Val)
  /-- The column lists whose values no two rows share. -/
  unique : τ → List (List String)
  foreign : τ → List (ForeignKey τ)
  /-- The longest chain of cascading foreign keys. -/
  cascadeDepth : ℕ

/-- Why a write is refused: a constraint, or a value the column's type cannot take. -/
inductive StoreError where
  | integrity
  | statement
deriving DecidableEq, Repr

namespace Schema

variable (S : Schema τ)

/-- Two rows clash on a key when they share all its values, none of them null. -/
def Clash (key : List String) (r r' : Row) : Prop :=
  (∀ c ∈ key, r c ≠ .none) ∧ ∀ c ∈ key, r c = r' c

instance (key : List String) (r r' : Row) : Decidable (Clash key r r') :=
  inferInstanceAs (Decidable (_ ∧ _))

/-- The foreign key of the row, if it names a row, names one that exists. -/
def Refers (db : Db τ) (fk : ForeignKey τ) (r : Row) : Prop :=
  r fk.column = .none ∨ ∃ p ∈ db fk.target, p "id" = r fk.column

instance (db : Db τ) (fk : ForeignKey τ) (r : Row) : Decidable (Refers db fk r) :=
  inferInstanceAs (Decidable (_ ∨ _))

/-- The cells of a row: no column holds a list, and the enumerated ones hold one of their values. -/
def CellsOk (t : τ) (r : Row) : Prop :=
  (∀ c ∈ S.columns t, (r c).IsCell) ∧ ∀ e ∈ S.enums t, r e.1 = .none ∨ r e.1 ∈ e.2

instance (t : τ) (r : Row) : Decidable (S.CellsOk t r) := inferInstanceAs (Decidable (_ ∧ _))

/-- All cells are of their columns' types. -/
def TypesOk (db : Db τ) : Prop := ∀ t ∈ S.tables, ∀ r ∈ db t, S.CellsOk t r

instance (db : Db τ) : Decidable (S.TypesOk db) :=
  inferInstanceAs (Decidable (∀ t ∈ S.tables, _))

/-- The integrity constraints of one table. -/
structure TableOk (db : Db τ) (t : τ) : Prop where
  notNull : ∀ r ∈ db t, ∀ c ∈ S.notNull t, r c ≠ .none
  unique : ∀ key ∈ S.unique t, (db t).Pairwise fun r r' => ¬ Clash key r r'
  foreign : ∀ r ∈ db t, ∀ fk ∈ S.foreign t, Refers db fk r

theorem tableOk_iff {db : Db τ} {t : τ} : S.TableOk db t ↔
    (∀ r ∈ db t, ∀ c ∈ S.notNull t, r c ≠ .none) ∧
    (∀ key ∈ S.unique t, (db t).Pairwise fun r r' => ¬ Clash key r r') ∧
    ∀ r ∈ db t, ∀ fk ∈ S.foreign t, Refers db fk r :=
  ⟨fun h => ⟨h.notNull, h.unique, h.foreign⟩, fun h => ⟨h.1, h.2.1, h.2.2⟩⟩

instance (db : Db τ) (t : τ) : Decidable (S.TableOk db t) :=
  decidable_of_iff _ S.tableOk_iff.symm

/-- The integrity constraints of every table. -/
def IntegrityOk (db : Db τ) : Prop := ∀ t ∈ S.tables, S.TableOk db t

instance (db : Db τ) : Decidable (S.IntegrityOk db) :=
  inferInstanceAs (Decidable (∀ t ∈ S.tables, _))

/-- A database that satisfies every declaration. -/
def Valid (db : Db τ) : Prop := S.TypesOk db ∧ S.IntegrityOk db

instance (db : Db τ) : Decidable (S.Valid db) := inferInstanceAs (Decidable (_ ∧ _))

/-- The row an insert stores: the server fills in the defaults. -/
def fill (t : τ) (r : Row) : Row := fun c =>
  if r c = .none then ((S.defaults t).lookup c).getD .none else r c

theorem fill_of_ne {t : τ} {r : Row} {c : String} (h : r c ≠ .none) : S.fill t r c = r c :=
  if_neg h

/-- Drop the rows whose cascading foreign key names a row that is gone. -/
def sweep (db : Db τ) : Db τ := fun t =>
  (db t).filter fun r => (S.foreign t).all fun fk => !fk.cascade || decide (Refers db fk r)

/-- The rows that go with a delete. -/
def cascade (db : Db τ) : Db τ := S.sweep^[S.cascadeDepth] db

theorem mem_of_mem_sweep {db : Db τ} {t : τ} {r : Row} (h : r ∈ S.sweep db t) : r ∈ db t :=
  (List.mem_filter.mp h).1

theorem mem_of_mem_iterate_sweep (n : ℕ) {db : Db τ} {t : τ} {r : Row}
    (h : r ∈ (S.sweep^[n] db) t) : r ∈ db t := by
  induction n generalizing db with
  | zero => exact h
  | succ n ih =>
      rw [Function.iterate_succ_apply] at h
      exact S.mem_of_mem_sweep (ih h)

/-- A cascade only removes rows. -/
theorem mem_of_mem_cascade {db : Db τ} {t : τ} {r : Row} (h : r ∈ S.cascade db t) : r ∈ db t :=
  S.mem_of_mem_iterate_sweep _ h

theorem cascade_sublist (db : Db τ) (t : τ) : (S.cascade db t).Sublist (db t) := by
  unfold cascade
  generalize S.cascadeDepth = n
  induction n generalizing db with
  | zero => exact List.Sublist.refl _
  | succ n ih =>
      rw [Function.iterate_succ_apply]
      exact (ih (S.sweep db)).trans List.filter_sublist

/-- A table whose foreign keys do not cascade stays as it is. -/
theorem sweep_eq_self {db : Db τ} {t : τ} (h : ∀ fk ∈ S.foreign t, fk.cascade = false) :
    S.sweep db t = db t :=
  List.filter_eq_self.mpr fun r _ => List.all_eq_true.mpr fun fk hfk => by simp [h fk hfk]

theorem cascade_eq_self {db : Db τ} {t : τ} (h : ∀ fk ∈ S.foreign t, fk.cascade = false) :
    S.cascade db t = db t := by
  unfold cascade
  generalize S.cascadeDepth = n
  induction n generalizing db with
  | zero => rfl
  | succ n ih => rw [Function.iterate_succ_apply, ih, S.sweep_eq_self h]

end Schema

/-- A database that satisfies the constraints of the schema. -/
def Store (S : Schema τ) := {db : Db τ // S.Valid db}

namespace Schema

variable (S : Schema τ)

/-- The database engine accepts a database or says which kind of error it raises. -/
def store (db : Db τ) : Except StoreError (Store S) :=
  if h : S.TypesOk db ∧ S.IntegrityOk db then .ok ⟨db, h⟩
  else if S.TypesOk db then .error .integrity else .error .statement

theorem store_eq_ok {db : Db τ} {st : Store S} : S.store db = .ok st ↔ st.1 = db := by
  unfold store
  split_ifs with h h'
  · exact ⟨fun e => by cases e; rfl, fun e => by cases st; cases e; rfl⟩
  · exact ⟨fun e => (nomatch e), fun e => absurd (e ▸ st.2) h⟩
  · exact ⟨fun e => (nomatch e), fun e => absurd (e ▸ st.2) h⟩

theorem store_of_valid {db : Db τ} (h : S.Valid db) : S.store db = .ok ⟨db, h⟩ := dif_pos h

/-! ### Writes that are accepted -/

/-- The column takes the value in every row: no constraint that reads it stands against it. -/
structure Takes (t : τ) (c : String) (v : Val) : Prop where
  notId : c ≠ "id"
  cell : v.IsCell
  notNull : c ∈ S.notNull t → v ≠ .none
  enums : ∀ e ∈ S.enums t, e.1 = c → v = .none ∨ v ∈ e.2
  unique : ∀ key ∈ S.unique t, c ∉ key
  foreign : ∀ fk ∈ S.foreign t, fk.column = c → v = .none

/-- A column that no constraint reads. -/
structure Free (t : τ) (c : String) : Prop where
  notId : c ≠ "id"
  notNull : c ∉ S.notNull t
  enums : ∀ e ∈ S.enums t, e.1 ≠ c
  unique : ∀ key ∈ S.unique t, c ∉ key
  foreign : ∀ fk ∈ S.foreign t, fk.column ≠ c

theorem clash_congr {key : List String} {r r' s s' : Row} (h : ∀ c ∈ key, s c = r c)
    (h' : ∀ c ∈ key, s' c = r' c) : Clash key s s' ↔ Clash key r r' := by
  constructor
  · rintro ⟨hne, heq⟩
    exact ⟨fun c hc => h c hc ▸ hne c hc, fun c hc => by rw [← h c hc, ← h' c hc, heq c hc]⟩
  · rintro ⟨hne, heq⟩
    exact ⟨fun c hc => by rw [h c hc]; exact hne c hc, fun c hc => by rw [h c hc, h' c hc, heq c hc]⟩

variable {S}

/-- Such a column takes everything that is a cell. -/
theorem Free.takes {t : τ} {c : String} (h : S.Free t c) {v : Val} (hv : v.IsCell) : S.Takes t c v where
  notId := h.notId
  cell := hv
  notNull hc := absurd hc h.notNull
  enums e he hc := absurd hc (h.enums e he)
  unique := h.unique
  foreign fk hfk hc := absurd hc (h.foreign fk hfk)

variable [DecidableEq τ]

/-- Rows keep their ids when another column is written, so references stay good. -/
theorem refers_modify {db : Db τ} {t : τ} {c : String} {p : Row → Bool} {v : Val} (hc : c ≠ "id")
    {fk : ForeignKey τ} {r r' : Row} (hcolumn : r' fk.column = r fk.column)
    (h : Refers db fk r) :
    Refers (db.modify t p fun row => Function.update row c v) fk r' := by
  rcases h with hnone | ⟨target, htarget, hid⟩
  · exact Or.inl (hcolumn.trans hnone)
  · refine Or.inr ?_
    rw [hcolumn]
    by_cases ht : fk.target = t
    · subst ht
      refine ⟨if p target then Function.update target c v else target,
        Db.mem_modify.mpr ⟨target, htarget, rfl⟩, ?_⟩
      split
      · rw [Function.update_of_ne (Ne.symm hc), hid]
      · exact hid
    · rw [Db.modify_ne db p _ ht]
      exact ⟨target, htarget, hid⟩

/-- A write of a value that the column takes is accepted. -/
theorem Takes.valid_modify {t : τ} {c : String} {v : Val} (htakes : S.Takes t c v) (p : Row → Bool)
    {db : Db τ} (h : S.Valid db) :
    S.Valid (db.modify t p fun row => Function.update row c v) := by
  obtain ⟨htypes, hintegrity⟩ := h
  have hsame : ∀ (r : Row) (c' : String), c' ≠ c →
      (if p r then Function.update r c v else r) c' = r c' := by
    intro r c' hc'
    split
    · exact Function.update_of_ne hc' _ _
    · rfl
  -- in the column itself stands the value, or what was there
  have hself : ∀ r : Row, (if p r then Function.update r c v else r) c = v ∨
      (if p r then Function.update r c v else r) c = r c := by
    intro r
    split
    · exact Or.inl (Function.update_self ..)
    · exact Or.inr rfl
  refine ⟨fun t' ht' r hr => ?_, fun t' ht' => ?_⟩
  · by_cases ht : t' = t
    · subst ht
      obtain ⟨old, hold, rfl⟩ := Db.mem_modify.mp hr
      obtain ⟨hcells, henums⟩ := htypes t' ht' old hold
      refine ⟨fun c' hc' => ?_, fun e he => ?_⟩
      · by_cases hcc : c' = c
        · subst hcc
          rcases hself old with hv | hv
          · rw [hv]
            exact htakes.cell
          · rw [hv]
            exact hcells c' hc'
        · rw [hsame old c' hcc]
          exact hcells c' hc'
      · by_cases hec : e.1 = c
        · rw [hec]
          rcases hself old with hv | hv
          · rw [hv]
            exact htakes.enums e he hec
          · rw [hv, ← hec]
            exact henums e he
        · rw [hsame old e.1 hec]
          exact henums e he
    · rw [Db.modify_ne db p _ ht] at hr
      exact htypes t' ht' r hr
  · have hok := hintegrity t' ht'
    by_cases ht : t' = t
    · subst ht
      refine ⟨fun r hr c' hc' => ?_, fun key hkey => ?_, fun r hr fk hfk => ?_⟩
      · obtain ⟨old, hold, rfl⟩ := Db.mem_modify.mp hr
        by_cases hcc : c' = c
        · subst hcc
          rcases hself old with hv | hv
          · rw [hv]
            exact htakes.notNull hc'
          · rw [hv]
            exact hok.notNull old hold c' hc'
        · rw [hsame old c' hcc]
          exact hok.notNull old hold c' hc'
      · have hkept : ∀ (r : Row), ∀ c' ∈ key,
            (if p r then Function.update r c v else r) c' = r c' :=
          fun r c' hc' => hsame r c' fun h => htakes.unique key hkey (h ▸ hc')
        have hrows : (db.modify t' p fun row => Function.update row c v) t' =
            (db t').map fun r => if p r then Function.update r c v else r := by
          simp [Db.modify]
        rw [hrows, List.pairwise_map]
        refine (hok.unique key hkey).imp fun {r r'} hclash hclash' => hclash ?_
        exact (clash_congr (hkept r) (hkept r')).mp hclash'
      · obtain ⟨old, hold, rfl⟩ := Db.mem_modify.mp hr
        by_cases hfc : fk.column = c
        · rcases hself old with hv | hv
          · exact Or.inl (by rw [hfc, hv, htakes.foreign fk hfk hfc])
          · exact refers_modify htakes.notId (by rw [hfc, hv]) (hok.foreign old hold fk hfk)
        · exact refers_modify htakes.notId (hsame old _ hfc) (hok.foreign old hold fk hfk)
    · have hrows : (db.modify t p fun row => Function.update row c v) t' = db t' :=
        Db.modify_ne db p _ ht
      refine ⟨fun r hr => ?_, fun key hkey => ?_, fun r hr fk hfk => ?_⟩
      · rw [hrows] at hr
        exact hok.notNull r hr
      · rw [hrows]
        exact hok.unique key hkey
      · rw [hrows] at hr
        exact refers_modify htakes.notId rfl (hok.foreign r hr fk hfk)

/-- A write to a free column is accepted. -/
theorem Free.valid_modify {t : τ} {c : String} (hfree : S.Free t c) {v : Val} (hv : v.IsCell)
    (p : Row → Bool) {db : Db τ} (h : S.Valid db) :
    S.Valid (db.modify t p fun row => Function.update row c v) :=
  (hfree.takes hv).valid_modify p h

/-- A table that no foreign key names may get any rows that meet its own constraints. -/
theorem valid_replace {db : Db τ} {t : τ} {rows : List Row} (h : S.Valid db)
    (htarget : ∀ t', ∀ fk ∈ S.foreign t', fk.target ≠ t) (hcells : ∀ r ∈ rows, S.CellsOk t r)
    (hnull : ∀ r ∈ rows, ∀ c ∈ S.notNull t, r c ≠ .none)
    (hunique : ∀ key ∈ S.unique t, rows.Pairwise fun r r' => ¬ Clash key r r')
    (hforeign : ∀ r ∈ rows, ∀ fk ∈ S.foreign t, Refers db fk r) :
    S.Valid (Function.update db t rows) := by
  have hrefers : ∀ {t' : τ} {fk : ForeignKey τ} {r : Row}, fk ∈ S.foreign t' → Refers db fk r →
      Refers (Function.update db t rows) fk r := by
    intro t' fk r hfk hr
    unfold Refers
    rwa [Function.update_of_ne (htarget t' fk hfk)]
  refine ⟨fun t' ht' r hr => ?_, fun t' ht' => ?_⟩
  · by_cases ht : t' = t
    · subst ht
      rw [Function.update_self] at hr
      exact hcells r hr
    · rw [Function.update_of_ne ht] at hr
      exact h.1 t' ht' r hr
  · by_cases ht : t' = t
    · subst ht
      refine ⟨?_, ?_, ?_⟩
      all_goals rw [Function.update_self]
      · exact hnull
      · exact hunique
      · exact fun r hr fk hfk => hrefers hfk (hforeign r hr fk hfk)
    · have hok := h.2 t' ht'
      refine ⟨?_, ?_, ?_⟩
      all_goals rw [Function.update_of_ne ht]
      · exact hok.notNull
      · exact hok.unique
      · exact fun r hr fk hfk => hrefers hfk (hok.foreign r hr fk hfk)

/-- Such a table may get further rows that meet its own constraints next to the old ones. -/
theorem valid_append {db : Db τ} {t : τ} {rows : List Row} (h : S.Valid db) (ht : t ∈ S.tables)
    (htarget : ∀ t', ∀ fk ∈ S.foreign t', fk.target ≠ t) (hcells : ∀ r ∈ rows, S.CellsOk t r)
    (hnull : ∀ r ∈ rows, ∀ c ∈ S.notNull t, r c ≠ .none)
    (hunique : ∀ key ∈ S.unique t, rows.Pairwise fun r r' => ¬ Clash key r r')
    (hfresh : ∀ key ∈ S.unique t, ∀ r ∈ db t, ∀ r' ∈ rows, ¬ Clash key r r')
    (hforeign : ∀ r ∈ rows, ∀ fk ∈ S.foreign t, Refers db fk r) :
    S.Valid (Function.update db t (db t ++ rows)) := by
  have hok := h.2 t ht
  refine valid_replace h htarget (fun r hr => ?_) (fun r hr => ?_) (fun key hkey => ?_) fun r hr => ?_
  · rcases List.mem_append.mp hr with hr | hr
    · exact h.1 t ht r hr
    · exact hcells r hr
  · rcases List.mem_append.mp hr with hr | hr
    · exact hok.notNull r hr
    · exact hnull r hr
  · rw [List.pairwise_append]
    exact ⟨hok.unique key hkey, hunique key hkey, hfresh key hkey⟩
  · rcases List.mem_append.mp hr with hr | hr
    · exact hok.foreign r hr
    · exact hforeign r hr

/-! ### What a cascade takes along -/

/-- The rows that go with given ones: a cascading foreign key names rows, and all of these go. -/
inductive Goes (S : Schema τ) (db : Db τ) (given : τ → Row → Prop) : τ → Row → Prop
  | given {t : τ} {r : Row} (h : given t r) : Goes S db given t r
  | along {t : τ} {r : Row} (fk : ForeignKey τ) (hfk : fk ∈ S.foreign t) (hcascade : fk.cascade = true)
      (hcolumn : r fk.column ≠ .none)
      (h : ∀ p ∈ db fk.target, p "id" = r fk.column → Goes S db given fk.target p) :
      Goes S db given t r

/-- A later state of a database from which rows were taken away: only such as go with the given ones. -/
structure Reduced (S : Schema τ) (db : Db τ) (given : τ → Row → Prop) (db' : Db τ) : Prop where
  mem : ∀ t, ∀ r ∈ db' t, r ∈ db t
  goes : ∀ t, ∀ r ∈ db t, r ∉ db' t → Goes S db given t r

variable {db db' : Db τ} {given : τ → Row → Prop}

omit [DecidableEq τ] in
theorem Reduced.refl (db : Db τ) : Reduced S db given db :=
  ⟨fun _ _ h => h, fun _ _ h hn => absurd h hn⟩

/-- Given rows are taken away. -/
theorem Reduced.remove (h : Reduced S db given db') {t : τ} {p : Row → Bool}
    (hp : ∀ r ∈ db' t, p r = true → given t r) : Reduced S db given (db'.remove t p) where
  mem t' r hr := by
    by_cases ht : t' = t
    · subst ht
      exact h.mem t' r (Db.mem_remove.mp hr).1
    · rw [Db.remove_ne db' p ht] at hr
      exact h.mem t' r hr
  goes t' r hr hgone := by
    by_cases hmem : r ∈ db' t'
    · by_cases ht : t' = t
      · subst ht
        refine .given (hp r hmem ?_)
        by_contra hfalse
        exact hgone (Db.mem_remove.mpr ⟨hmem, by simpa using hfalse⟩)
      · rw [Db.remove_ne db' p ht] at hgone
        exact absurd hmem hgone
    · exact h.goes t' r hr hmem

omit [DecidableEq τ] in
theorem Reduced.sweep (h : Reduced S db given db') : Reduced S db given (S.sweep db') where
  mem t r hr := h.mem t r (S.mem_of_mem_sweep hr)
  goes t r hr hgone := by
    by_cases hmem : r ∈ db' t
    · obtain ⟨fk, hfk, hbad⟩ : ∃ fk ∈ S.foreign t, (!fk.cascade || decide (Refers db' fk r)) = false := by
        by_contra hall
        refine hgone (List.mem_filter.mpr ⟨hmem, List.all_eq_true.mpr fun fk hfk => ?_⟩)
        by_contra hfalse
        exact hall ⟨fk, hfk, Bool.eq_false_iff.mpr hfalse⟩
      rw [Bool.or_eq_false_iff, Bool.not_eq_false', decide_eq_false_iff_not] at hbad
      obtain ⟨hcascade, hrefers⟩ := hbad
      rw [Refers, not_or] at hrefers
      refine .along fk hfk hcascade hrefers.1 fun p hp hid => ?_
      exact h.goes fk.target p hp fun hp' => hrefers.2 ⟨p, hp', hid⟩
    · exact h.goes t r hr hmem

omit [DecidableEq τ] in
theorem Reduced.cascade (h : Reduced S db given db') : Reduced S db given (S.cascade db') := by
  unfold Schema.cascade
  generalize S.cascadeDepth = n
  induction n generalizing db' with
  | zero => exact h
  | succ n ih =>
      rw [Function.iterate_succ_apply]
      exact ih h.sweep

end Schema

namespace Store

variable {S : Schema τ} (st : Store S)

/-- The rows of a table. -/
def rows (t : τ) : List Row := st.1 t

theorem tableOk (t : τ) : S.TableOk st.1 t := st.2.2 t (S.complete t)

theorem ne_none {t : τ} {r : Row} {c : String} (hr : r ∈ st.rows t) (hc : c ∈ S.notNull t) :
    r c ≠ .none := (st.tableOk t).notNull r hr c hc

theorem refers {t : τ} {r : Row} {fk : ForeignKey τ} (hr : r ∈ st.rows t)
    (hfk : fk ∈ S.foreign t) : Schema.Refers st.1 fk r := (st.tableOk t).foreign r hr fk hfk

/-- At most one place of the table holds the values of a unique key. -/
theorem pairwise_key {t : τ} {key : List String} (hkey : key ∈ S.unique t) :
    (st.rows t).Pairwise fun r r' => ¬ Schema.Clash key r r' := (st.tableOk t).unique key hkey

/-- A row that was inserted shares its unique keys with none that was there. -/
theorem fresh_of_insert [DecidableEq τ] {db : Db τ} {t : τ} {r : Row} (h : st.1 = db.insert t r)
    {key : List String} (hkey : key ∈ S.unique t) {r' : Row} (hr' : r' ∈ db t) :
    ¬ Schema.Clash key r' r := by
  have hpw := st.pairwise_key hkey
  rw [Store.rows, h, Db.insert, Function.update_self, List.pairwise_append] at hpw
  exact hpw.2.2 r' hr' r (List.mem_singleton_self r)

/-- The rows that agree with a row on a unique key are that row alone. -/
theorem filter_key {t : τ} {key : List String} (hkey : key ∈ S.unique t) {p : Row → Bool}
    (hp : ∀ r ∈ st.rows t, ∀ r' ∈ st.rows t, p r → p r' → Schema.Clash key r r')
    {r : Row} (hr : r ∈ st.rows t) (hpr : p r) : (st.rows t).filter p = [r] := by
  have hpw := st.pairwise_key hkey
  revert hp hr hpw
  generalize st.rows t = rows
  intro hp hr hpw
  induction rows with
  | nil => cases hr
  | cons a rows ih =>
      obtain ⟨ha, hpw⟩ := List.pairwise_cons.mp hpw
      rcases List.mem_cons.mp hr with rfl | hr'
      · have hnone : rows.filter p = [] := List.filter_eq_nil_iff.mpr fun r' hr' h' =>
          ha r' hr' (hp r List.mem_cons_self r' (List.mem_cons_of_mem _ hr') hpr h')
        rw [List.filter_cons_of_pos hpr, hnone]
      · have hpa : ¬ p a := fun h' =>
          ha r hr' (hp a List.mem_cons_self r (List.mem_cons_of_mem _ hr') h' hpr)
        rw [List.filter_cons_of_neg hpa]
        exact ih (fun r₁ h₁ r₂ h₂ => hp r₁ (List.mem_cons_of_mem _ h₁) r₂ (List.mem_cons_of_mem _ h₂))
          hr' hpw

/-- A unique key names one row. -/
theorem eq_of_key {t : τ} {key : List String} (hkey : key ∈ S.unique t) {r r' : Row}
    (hr : r ∈ st.rows t) (hr' : r' ∈ st.rows t) (hne : ∀ c ∈ key, r c ≠ .none)
    (heq : ∀ c ∈ key, r c = r' c) : r = r' := by
  have h := st.filter_key hkey (p := fun x => decide (∀ c ∈ key, r c = x c))
    (fun a _ b _ ha hb => by
      simp only [decide_eq_true_eq] at ha hb
      exact ⟨fun c hc => ha c hc ▸ hne c hc, fun c hc => (ha c hc).symm.trans (hb c hc)⟩)
    hr (by simp)
  have h' : r' ∈ (st.rows t).filter fun x => decide (∀ c ∈ key, r c = x c) :=
    List.mem_filter.mpr ⟨hr', by simpa using heq⟩
  rw [h] at h'
  exact (List.mem_singleton.mp h').symm

/-- A unique column that is never null names one row. -/
theorem eq_of_column {t : τ} {c : String} (hkey : [c] ∈ S.unique t) (hnull : c ∈ S.notNull t)
    {r r' : Row} (hr : r ∈ st.rows t) (hr' : r' ∈ st.rows t) (heq : r c = r' c) : r = r' := by
  refine st.eq_of_key hkey hr hr' (fun c' hc => ?_) fun c' hc => ?_
  · rw [List.mem_singleton.mp hc]
    exact st.ne_none hr hnull
  · rw [List.mem_singleton.mp hc]
    exact heq

/-- The rows that meet a condition are one row alone, where it settles a unique column. -/
theorem filter_column {t : τ} {c : String} (hkey : [c] ∈ S.unique t) (hnull : c ∈ S.notNull t)
    {p : Row → Bool} {r : Row} (hp : ∀ r' ∈ st.rows t, p r' → r' c = r c) (hr : r ∈ st.rows t)
    (hpr : p r) : (st.rows t).filter p = [r] := by
  refine st.filter_key hkey (fun r₁ h₁ r₂ h₂ hp₁ hp₂ => ⟨fun c' hc => ?_, fun c' hc => ?_⟩) hr hpr
  · rw [List.mem_singleton.mp hc]
    exact st.ne_none h₁ hnull
  · rw [List.mem_singleton.mp hc]
    exact (hp r₁ h₁ hp₁).trans (hp r₂ h₂ hp₂).symm

/-- A query by a unique column finds the row. -/
theorem one_filterBy_column {t : τ} {c : String} (hkey : [c] ∈ S.unique t) (hnull : c ∈ S.notNull t)
    {r : Row} {v : Val} (hr : r ∈ st.rows t) (hv : r c = v) :
    one (filterBy [(c, v)] (st.rows t)) = .ok r := by
  rw [one_eq_ok]
  refine st.filter_column hkey hnull (fun r' _ hp => ?_) hr (by simpa using hv)
  have hv' : r' c = v := by simpa using hp
  exact hv'.trans hv.symm

/-- A query by the columns of a unique key does not find two rows. -/
theorem one_filterBy_ne {t : τ} {key : List String} {conds : List (String × Val)}
    (hkey : key ∈ S.unique t) (hnull : ∀ c ∈ key, c ∈ S.notNull t)
    (hconds : ∀ c ∈ key, ∃ v, (c, v) ∈ conds) :
    one (filterBy conds (st.rows t)) ≠ .error .multipleResultsFound := by
  intro hone
  cases hrows : filterBy conds (st.rows t) with
  | nil =>
      rw [hrows] at hone
      cases hone
  | cons r rows =>
      have hr : r ∈ st.rows t ∧ ∀ c ∈ conds, r c.1 = c.2 := by
        rw [← mem_filterBy, hrows]
        exact List.mem_cons_self
      have hall : filterBy conds (st.rows t) = [r] := by
        unfold filterBy
        refine st.filter_key hkey (fun r₁ h₁ r₂ _ hp₁ hp₂ => ⟨fun c hc => ?_, fun c hc => ?_⟩) hr.1 ?_
        · exact st.ne_none h₁ (hnull c hc)
        · obtain ⟨v, hv⟩ := hconds c hc
          have hv₁ := of_decide_eq_true (List.all_eq_true.mp hp₁ _ hv)
          have hv₂ := of_decide_eq_true (List.all_eq_true.mp hp₂ _ hv)
          exact hv₁.trans hv₂.symm
        · simpa using hr.2
      rw [hall] at hone
      cases hone

end Store

end Relational
