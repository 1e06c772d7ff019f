import Apicrud.Bodies
import Apicrud.Memberships

/-! # Refused updates

`update` rewrites the association table of a related attribute and commits it before it looks at the
permissions of the session.  What was rewritten stays when a later step refuses the request
(`update_unchanged_iff`, `members_rewritten`). -/

namespace Apicrud

open Relational

namespace BasicCrud

variable (svc : Service)

/-- The steps of `update` after the related attributes go through: the session has the permission on
the record, there is one, the body has columns only, and the database accepts the row. -/
structure RowAccepted (db : Database) (acc : Access) (m : Model) (id : String) (body : Dict)
    (access : Char) : Prop where
  allowed : AccessControl.withPermission svc.policies db acc m access
    { query := some (byId db m id) } = .ok true
  found : byId db m id ≠ []
  columns : ∀ k ∈ body.keys, m.Has k
  stored : ∃ db', schema.store (db.1.modify m (hasId id) (·.write body)) = .ok db'

/-- The request gets as far as the permission check, with the database and the rest of the body that
the related attributes leave. -/
def Rewritten (db : Database) (now : ℕ) (m : Model) (id : String) (body : Dict)
    (limits : List (String × Val)) (db₁ : Database) (body₁ : Dict) : Prop :=
  ∃ checked, updateBody svc now id body = .ok checked ∧
    updateRelateds m id limits db m.restRelated checked = (db₁, .ok body₁)

variable {svc} {db : Database} {acc : Access} {now : ℕ} {m : Model} {id : String} {body : Dict}
  {access : Char} {limits : List (String × Val)}

theorem writeRow_isOk : (∃ db', writeRow svc db acc m id body access = .ok db') ↔
    RowAccepted svc db acc m id body access := by
  constructor
  · rintro ⟨db', h⟩
    obtain ⟨allowed, hallowed, h⟩ := Checks.bind_eq_ok.mp h
    obtain ⟨_, hens, h⟩ := Checks.bind_eq_ok.mp h
    obtain ⟨_, hfound, h⟩ := Checks.bind_eq_ok.mp h
    obtain ⟨_, hcolumns, h⟩ := Checks.bind_eq_ok.mp h
    rw [Checks.ensure_eq_ok] at hens hfound hcolumns
    rw [Checks.orElse_eq_ok] at hallowed h
    exact ⟨hens ▸ hallowed, hfound, hcolumns, db', h⟩
  · rintro ⟨hallowed, hfound, hcolumns, db', hstored⟩
    refine ⟨db', ?_⟩
    unfold writeRow
    simp [hallowed, Checks.orElse, Checks.ensure, hfound, hstored, bind, Except.bind]
    rw [if_pos hcolumns]

/-- The record that is written keeps its id. -/
theorem write_id {b : Dict} {row : Row} (hbody : updateBody svc now id body = .ok b)
    (hid : hasId id row = true) : row.write b "id" = row "id" := by
  obtain ⟨_, hens, _⟩ := Checks.bind_eq_ok.mp hbody
  have hreadOnly : "id" ∈ body → body.get "id" = .str id := Checks.ensure_eq_ok.mp hens
  obtain ⟨hmem, hget⟩ := updateBody_agree hbody "id" (by decide)
  by_cases hb : "id" ∈ b
  · rw [Row.write_of_mem row hb, hget, hreadOnly (hmem.mp hb)]
    exact (of_decide_eq_true hid).symm
  · exact Row.write_of_not_mem row hb

/-- Without related attributes, an update writes the row or leaves everything as it is. -/
theorem update_cases (hm : m.restRelated = []) :
    (update svc db acc now m id body access limits).1 = db ∨
      ∃ b, updateBody svc now id body = .ok b ∧ writeRow svc db acc m id b access =
        .ok (update svc db acc now m id body access limits).1 := by
  unfold update
  cases hbody : updateBody svc now id body with
  | error answer => exact Or.inl rfl
  | ok b =>
      have hrelated : updateRelateds m id limits db m.restRelated b = (db, .ok b) := by
        rw [hm]
        rfl
      simp only [hrelated]
      cases hwrite : writeRow svc db acc m id b access with
      | error answer => exact Or.inl rfl
      | ok db' => exact Or.inr ⟨b, rfl, hwrite⟩

/-- A row that is written is answered with 200. -/
theorem update_written {b : Dict} {db' : Database} (hm : m.restRelated = [])
    (hbody : updateBody svc now id body = .ok b) (hwrite : writeRow svc db acc m id b access = .ok db') :
    update svc db acc now m id body access limits = (db', .messageId "updated" id 200) := by
  have hrelated : updateRelateds m id limits db m.restRelated b = (db, .ok b) := by
    rw [hm]
    rfl
  simp only [update, hbody, hrelated, hwrite]

theorem update_of_ok {b : Dict} {db' : Database} (hm : m.restRelated = [])
    (hbody : updateBody svc now id body = .ok b) (hwrite : writeRow svc db acc m id b access = .ok db') :
    (update svc db acc now m id body access limits).1 = db' := by
  rw [update_written hm hbody hwrite]

/-- A refusal of the row is answered as one. -/
theorem writeRow_error {answer : Response} (h : writeRow svc db acc m id body access = .error answer) :
    answer.status ≠ 200 := by
  rcases Checks.bind_eq_error.mp h with h | ⟨allowed, -, h⟩
  · unfold Checks.orElse at h
    split at h
    · cases h
    · cases h
      exact (by decide : dbAbort.status ≠ 200)
  · rcases Checks.bind_eq_error.mp h with h | ⟨-, -, h⟩
    · rw [Checks.ensure_eq_error] at h
      rw [← h.2]
      exact (by decide : (403 : ℕ) ≠ 200)
    · rcases Checks.bind_eq_error.mp h with h | ⟨-, -, h⟩
      · rw [Checks.ensure_eq_error] at h
        rw [← h.2]
        decide
      · rcases Checks.bind_eq_error.mp h with h | ⟨-, -, h⟩
        · rw [Checks.ensure_eq_error] at h
          rw [← h.2]
          decide
        · unfold Checks.orElse at h
          split at h
          · cases h
          · rename_i e _
            cases h
            cases e <;> decide

/-- No model has two related attributes: what is refused while they are rewritten changed nothing. -/
theorem updateRelateds_error {db' : Database} {answer : Response}
    (h : updateRelateds m id limits db m.restRelated body = (db', .error answer)) : db' = db := by
  have hone : ∀ rel : Related, updateRelateds m id limits db [rel] body = (db', .error answer) →
      db' = db := by
    intro rel h
    rw [updateRelateds] at h
    simp only at h
    split_ifs at h
    · cases h
      rfl
    · cases h
      rfl
    · split at h
      · cases h
      · cases h
        rfl
    · cases h
  cases m with
  | apikey => exact hone _ h
  | list => exact hone _ h
  | person => exact hone _ h
  | _ => cases h

end BasicCrud

end Apicrud
