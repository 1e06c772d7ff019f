import Apicrud.Commits

/-! # Deleting lists of records

A delete request goes through its ids one by one and commits at the end.  `Turns` is what such a request
does when no id is refused; `deletes_allOrNothing` says that a request is refused as a whole, with nothing
changed, or takes every turn, and what the database is then. -/

namespace Apicrud

open Relational

/-! ### The records a request names -/

/-- One of the names is that of the row. -/
def namesRow (names : List (Model × String)) (t : Model) (row : Row) : Bool :=
  names.any fun n => decide (n.1 = t) && hasId n.2 row

/-- The model and the id in a composite id, for `Trashcan.delete`. -/
def Trashcan.named (id : String) : Option (Model × String) :=
  match Text.splitFirst id '-' with
  | none => none
  | some (resource, recordId) =>
      (if resource = "apikey" then some Model.apikey else modelOf resource).map fun m => (m, recordId)

variable {svc : Service} {acc : Access} {force : Bool} {names : List (Model × String)}
  {db db' : Database} {t : Model} {row : Row}

theorem namesRow_cons {n : Model × String} :
    namesRow (n :: names) t row = ((decide (n.1 = t) && hasId n.2 row) || namesRow names t row) :=
  List.any_cons

theorem namesRow_congr {row' : Row} (h : row' "id" = row "id") :
    namesRow names t row' = namesRow names t row := by
  unfold namesRow hasId
  rw [h]

/-! ### Turns -/

/-- What one turn writes. -/
def turnWrite (force : Bool) (db : Database) (m : Model) (id : String) : Except StoreError Database :=
  if force then BasicCrud.deleteRows db m id else BasicCrud.setStatus db m id (.str "disabled")

/-- The turns of a request: the session has `d` on each named record at its turn, and the write is
accepted. -/
inductive Turns (svc : Service) (acc : Access) (force : Bool) :
    Database → List (Model × String) → Database → Prop
  | done (db : Database) : Turns svc acc force db [] db
  | turn {db db₁ db₂ : Database} {m : Model} {id : String} {rest : List (Model × String)}
      (hallowed : AccessControl.withPermission svc.policies db acc m 'd'
        { query := some (byId db m id) } = .ok true)
      (hwrite : turnWrite force db m id = .ok db₁) (hrest : Turns svc acc force db₁ rest db₂) :
      Turns svc acc force db ((m, id) :: rest) db₂

/-- The rows with the named ones disabled. -/
def disabledNamed (names : List (Model × String)) (db : Db Model) : Db Model := fun t =>
  (db t).map fun row =>
    if namesRow names t row then Function.update row "status" (.str "disabled") else row

/-- What is left of a database after the named records were deleted: they are disabled and nothing else is
touched; or, where they are removed, they are gone, and of the others only what goes with them. -/
def Gone (force : Bool) (names : List (Model × String)) (db db' : Database) : Prop :=
  if force then
    (∀ n ∈ names, byId db' n.1 n.2 = []) ∧
      Schema.Reduced schema db.1 (fun t row => namesRow names t row = true) db'.1
  else db'.1 = disabledNamed names db.1

theorem disabledNamed_nil (db : Db Model) : disabledNamed [] db = db := by
  funext t
  simp [disabledNamed, namesRow]

/-- Disabling one more record first. -/
theorem disabledNamed_cons {m : Model} {id : String} (db : Db Model) :
    disabledNamed names (db.modify m (hasId id) fun row =>
      Function.update row "status" (.str "disabled")) = disabledNamed ((m, id) :: names) db := by
  funext t
  unfold disabledNamed
  by_cases ht : t = m
  · subst ht
    simp only [Db.modify, Function.update_self, List.map_map]
    refine List.map_congr_left fun row _ => ?_
    simp only [Function.comp_apply, namesRow_cons, decide_true, Bool.true_and]
    cases hid : hasId id row with
    | false => simp
    | true =>
        have hsame : namesRow names t (Function.update row "status" (.str "disabled")) =
            namesRow names t row := namesRow_congr (Function.update_of_ne (by decide) _ _)
        simp only [if_true, Bool.true_or, hsame]
        split
        · rw [Function.update_idem]
        · rfl
  · simp only [Db.modify_ne db _ _ ht]
    refine List.map_congr_left fun row _ => ?_
    have hother : (decide (m = t) && hasId id row) = false := by
      rw [decide_eq_false fun h => ht h.symm, Bool.false_and]
    rw [namesRow_cons, hother, Bool.false_or]

theorem Turns.disabled (h : Turns svc acc false db names db') : db'.1 = disabledNamed names db.1 := by
  induction h with
  | done db => exact (disabledNamed_nil db.1).symm
  | turn hallowed hwrite hrest ih =>
      rw [ih, store_ok hwrite]
      exact disabledNamed_cons _

/-- Removals only take away what goes with the named records. -/
theorem Turns.reduced {given : Model → Row → Prop} {first : Db Model}
    (h : Turns svc acc true db names db') (hstart : Schema.Reduced schema first given db.1)
    (hgiven : ∀ t row, namesRow names t row = true → given t row) :
    Schema.Reduced schema first given db'.1 := by
  induction h with
  | done db => exact hstart
  | turn hallowed hwrite hrest ih =>
      refine ih ?_ fun t row hrow => hgiven t row ?_
      · rw [store_ok hwrite]
        refine (hstart.remove fun row _ hrow => hgiven _ row ?_).cascade
        rw [namesRow_cons, decide_eq_true rfl, hrow]
        rfl
      · rw [namesRow_cons, hrow, Bool.or_true]

/-- Every named record is gone after its turn, and does not come back. -/
theorem Turns.absent (h : Turns svc acc true db names db') : ∀ n ∈ names, byId db' n.1 n.2 = [] := by
  induction h with
  | done db => exact fun n hn => absurd hn List.not_mem_nil
  | @turn db db₁ db₂ m id rest hallowed hwrite hrest ih =>
      intro n hn
      rcases List.mem_cons.mp hn with rfl | hn
      · refine List.filter_eq_nil_iff.mpr fun row hrow hid => ?_
        have hfirst : row ∈ db₁.rows m :=
          (hrest.reduced (Schema.Reduced.refl db₁.1) fun _ _ h => h).mem m row hrow
        rw [Store.rows, store_ok hwrite] at hfirst
        have hkept := schema.mem_of_mem_cascade hfirst
        rw [(Db.mem_remove.mp hkept).2] at hid
        cases hid
      · exact ih n hn

theorem Turns.gone (h : Turns svc acc force db names db') : Gone force names db db' := by
  unfold Gone
  cases force with
  | true => exact ⟨h.absent, h.reduced (Schema.Reduced.refl db.1) fun _ _ h => h⟩
  | false => exact h.disabled

/-! ### Requests -/

/-- A request that deletes is refused as a whole, and nothing has changed, or it takes every turn. -/
structure AllOrNothing (svc : Service) (acc : Access) (force : Bool) (db : Database)
    (named : List (Option (Model × String))) (r : Database × Response) : Prop where
  answered : r.2.status = 403 ∨ r.2.status = 500 ∨ r.2.status = 204 ∨ r.2.status = 404
  refused : r.2.status = 403 ∨ r.2.status = 500 → r.1 = db
  taken : r.2.status = 204 ∨ r.2.status = 404 → ∃ names, named = names.map some ∧
    Turns svc acc force db names r.1 ∧ Gone force names db r.1

/-- A turn is refused for the session or for the database. -/
theorem deleteOne_error {m : Model} {label id : String} {st : Database × ℕ} {answer : Response}
    (h : BasicCrud.deleteOne svc acc m force label id st = .error answer) :
    answer.status = 403 ∨ answer.status = 500 := by
  have haborted : ∀ {ε : Type} {α : Type} {x : Except ε α},
      (Checks.orElse x fun _ => dbAbort) = .error answer → answer.status = 500 := by
    intro ε α x hx
    cases x with
    | ok a => cases hx
    | error e =>
        cases hx
        rfl
  rcases Checks.bind_eq_error.mp h with h | ⟨allowed, _, h⟩
  · exact Or.inr (haborted h)
  rcases Checks.bind_eq_error.mp h with h | ⟨_, _, h⟩
  · obtain ⟨-, rfl⟩ := Checks.ensure_eq_error.mp h
    exact Or.inl rfl
  cases force with
  | true =>
      rcases Checks.bind_eq_error.mp h with h | ⟨_, _, h⟩
      · exact Or.inr (haborted h)
      · cases h
  | false =>
      rcases Checks.bind_eq_error.mp h with h | ⟨_, _, h⟩
      · obtain ⟨-, rfl⟩ := Checks.ensure_eq_error.mp h
        exact Or.inr rfl
      rcases Checks.bind_eq_error.mp h with h | ⟨_, _, h⟩
      · exact Or.inr (haborted h)
      · cases h

section fold

variable {f : Database × ℕ → String → Except Response (Database × ℕ)}
  {nameOf : String → Option (Model × String)}

/-- The ids of a request that is not refused, in turn. -/
theorem turns_of_foldlM
    (hf : ∀ st id st', f st id = .ok st' → ∃ m recordId, nameOf id = some (m, recordId) ∧
      AccessControl.withPermission svc.policies st.1 acc m 'd'
        { query := some (byId st.1 m recordId) } = .ok true ∧
      turnWrite force st.1 m recordId = .ok st'.1)
    {ids : List String} {st st' : Database × ℕ} (h : ids.foldlM f st = .ok st') :
    ∃ names, ids.map nameOf = names.map some ∧ Turns svc acc force st.1 names st'.1 := by
  induction ids generalizing st with
  | nil =>
      cases h
      exact ⟨[], rfl, .done _⟩
  | cons id ids ih =>
      rw [List.foldlM_cons] at h
      obtain ⟨mid, hmid, h⟩ := Checks.bind_eq_ok.mp h
      obtain ⟨m, recordId, hname, hallowed, hwrite⟩ := hf st id mid hmid
      obtain ⟨names, hnames, hturns⟩ := ih h
      refine ⟨(m, recordId) :: names, ?_, .turn hallowed hwrite hturns⟩
      rw [List.map_cons, List.map_cons, hname, hnames]

theorem status_of_foldlM
    (hf : ∀ st id answer, f st id = .error answer → answer.status = 403 ∨ answer.status = 500)
    {ids : List String} {st : Database × ℕ} {answer : Response}
    (h : ids.foldlM f st = .error answer) : answer.status = 403 ∨ answer.status = 500 := by
  induction ids generalizing st with
  | nil => cases h
  | cons id ids ih =>
      rw [List.foldlM_cons] at h
      rcases Checks.bind_eq_error.mp h with h | ⟨mid, -, h⟩
      · exact hf st id answer h
      · exact ih h

/-- A request that goes through its ids like this is all or nothing. -/
theorem allOrNothing_of_foldlM
    (hok : ∀ st id st', f st id = .ok st' → ∃ m recordId, nameOf id = some (m, recordId) ∧
      AccessControl.withPermission svc.policies st.1 acc m 'd'
        { query := some (byId st.1 m recordId) } = .ok true ∧
      turnWrite force st.1 m recordId = .ok st'.1)
    (herror : ∀ st id answer, f st id = .error answer → answer.status = 403 ∨ answer.status = 500)
    (ids : List String) {r : Database × Response}
    (hrefused : ∀ answer, ids.foldlM f (db, 0) = .error answer → r = (db, answer))
    (htaken : ∀ st, ids.foldlM f (db, 0) = .ok st → r = (st.1, BasicCrud.noContent st.2)) :
    AllOrNothing svc acc force db (ids.map nameOf) r := by
  cases h : ids.foldlM f (db, 0) with
  | error answer =>
      rw [hrefused answer h]
      have hstatus := status_of_foldlM herror h
      refine ⟨hstatus.imp_right Or.inl, fun _ => rfl, fun hdone => ?_⟩
      simp only at hdone
      omega
  | ok st =>
      rw [htaken st h]
      have hstatus : (BasicCrud.noContent st.2).status = 204 ∨
          (BasicCrud.noContent st.2).status = 404 := by
        unfold BasicCrud.noContent
        split
        · exact Or.inl rfl
        · exact Or.inr rfl
      obtain ⟨names, hnames, hturns⟩ := turns_of_foldlM hok h
      refine ⟨Or.inr (Or.inr hstatus), fun hno => ?_, fun _ => ⟨names, hnames, hturns, hturns.gone⟩⟩
      simp only at hno
      omega

end fold

/-- A turn of the trashcan is that of the record that the composite id names. -/
theorem trashDeleteOne_eq (st : Database × ℕ) (id : String) : Trashcan.deleteOne svc acc st id =
    (Trashcan.named id).elim (.error .raised) fun n =>
      BasicCrud.deleteOne svc acc n.1 true id n.2 st := by
  unfold Trashcan.deleteOne Trashcan.named
  cases Text.splitFirst id '-' with
  | none => rfl
  | some parts =>
      obtain ⟨resource, recordId⟩ := parts
      simp only
      cases (if resource = "apikey" then some Model.apikey else Trashcan.modelOf resource) with
      | none => rfl
      | some m => rfl

theorem delete_allOrNothing (m : Model) (ids : List String) (force : Bool) :
    AllOrNothing svc acc force db (ids.map fun id => some (m, id))
      (BasicCrud.delete svc db acc m ids force) := by
  refine allOrNothing_of_foldlM
    (f := fun st id => BasicCrud.deleteOne svc acc m force id id st)
    (fun st id st' h => ⟨m, id, rfl, deleteOne_ok h⟩) (fun st id answer h => deleteOne_error h) ids
    (fun answer h => ?_) fun st h => ?_
  · simp only [BasicCrud.delete, h]
  · simp only [BasicCrud.delete, h]

theorem trashDelete_allOrNothing (ids : List String) :
    AllOrNothing svc acc true db (ids.map Trashcan.named) (Trashcan.delete svc db acc ids) := by
  refine allOrNothing_of_foldlM (f := Trashcan.deleteOne svc acc) (fun st id st' h => ?_)
    (fun st id answer h => ?_) ids (fun answer h => ?_) fun st h => ?_
  · rw [trashDeleteOne_eq] at h
    cases hname : Trashcan.named id with
    | none =>
        rw [hname] at h
        cases h
    | some n =>
        rw [hname] at h
        exact ⟨n.1, n.2, rfl, deleteOne_ok h⟩
  · rw [trashDeleteOne_eq] at h
    cases hname : Trashcan.named id with
    | none =>
        rw [hname] at h
        cases h
        exact Or.inr rfl
    | some n =>
        rw [hname] at h
        exact deleteOne_error h
  · simp only [Trashcan.delete, h]
  · simp only [Trashcan.delete, h]

/-- A request has changed nothing, or its turns are what it did. -/
theorem AllOrNothing.same_or_turns {named : List (Option (Model × String))} {r : Database × Response}
    (h : AllOrNothing svc acc force db named r) :
    r.1 = db ∨ ∃ names, named = names.map some ∧ Turns svc acc force db names r.1 := by
  rcases h.answered with hno | hno | hdone | hdone
  · exact Or.inl (h.refused (Or.inl hno))
  · exact Or.inl (h.refused (Or.inr hno))
  · obtain ⟨names, hnames, hturns, -⟩ := h.taken (Or.inl hdone)
    exact Or.inr ⟨names, hnames, hturns⟩
  · obtain ⟨names, hnames, hturns, -⟩ := h.taken (Or.inr hdone)
    exact Or.inr ⟨names, hnames, hturns⟩

/-- `BasicCRUD.delete` and `Trashcan.delete` are all or nothing: a refused request has changed nothing, and
another one had `d` on every id at its turn, and left the named records disabled or gone and touched no
other, but for the cascades. -/
theorem deletes_allOrNothing (svc : Service) (db : Database) (acc : Access) :
    (∀ m ids force, AllOrNothing svc acc force db (ids.map fun id => some (m, id))
      (BasicCrud.delete svc db acc m ids force)) ∧
    ∀ ids, AllOrNothing svc acc true db (ids.map Trashcan.named) (Trashcan.delete svc db acc ids) :=
  ⟨delete_allOrNothing, trashDelete_allOrNothing⟩

end Apicrud
