import Apicrud.Bodies

/-! # Updates of contacts

`update_contact` has its own checks, and two writes: the contact, and, where its address was the identity
of a person, the identity (`updateContact_ok`). -/

namespace Apicrud

open Relational

namespace BasicCrud

/-- The body that reaches the row: a fresh `modified`, and the status `unconfirmed` unless it is
`disabled`. -/
def contactBody (now : ℕ) (body : Dict) : Dict :=
  if (body.set "modified" (.time now)).get "status" = .str "disabled" then
    body.set "modified" (.time now)
  else (body.set "modified" (.time now)).set "status" (.str "unconfirmed")

/-- The identity of the persons who have the old address becomes the new one. -/
def moveIdentity (db : Db Model) (old new : Val) : Db Model :=
  db.modify .person (fun person => decide (person "identity" = old))
    fun person => Function.update person "identity" new

/-- An update of a contact that went through. -/
structure ContactUpdated (svc : Service) (db : Database) (acc : Access) (now : ℕ) (id : String)
    (body checked : Dict) (contact : Row) (db₁ db' : Database) : Prop where
  checked_eq : contactInfo svc body = .ok checked
  id_eq : "id" ∈ checked → checked.get "id" = .str id
  allowed : AccessControl.withPermission svc.policies db acc .contact 'u'
    { query := some (byId db .contact id) } = .ok true
  found : one (byId db .contact id) = .ok contact
  columns : ∀ k ∈ (contactBody now checked).keys, Model.contact.Has k
  written : db₁.1 = db.1.modify .contact (hasId id) (·.write (contactBody now checked))
  moved : IsIdentity db₁ (contact "info") ∧
      db'.1 = moveIdentity db₁.1 (contact "info") ((contactBody now checked).get "info") ∨
    ¬ IsIdentity db₁ (contact "info") ∧ db' = db₁

variable {svc : Service} {db db' db₁ : Database} {acc : Access} {now : ℕ} {id : String}
  {body checked : Dict} {contact : Row}

theorem updateContact_ok (h : updateContact svc db acc now id body = .ok db') :
    ∃ checked contact db₁, ContactUpdated svc db acc now id body checked contact db₁ db' := by
  obtain ⟨checked, hchecked, h⟩ := Checks.bind_eq_ok.mp h
  obtain ⟨_, hid, h⟩ := Checks.bind_eq_ok.mp h
  obtain ⟨allowed, hallowed, h⟩ := Checks.bind_eq_ok.mp h
  obtain ⟨_, hens, h⟩ := Checks.bind_eq_ok.mp h
  obtain ⟨contact, hfound, h⟩ := Checks.bind_eq_ok.mp h
  obtain ⟨_, hcolumns, h⟩ := Checks.bind_eq_ok.mp h
  obtain ⟨db₁, hwritten, h⟩ := Checks.bind_eq_ok.mp h
  rw [Checks.ensure_eq_ok] at hid hens hcolumns
  rw [Checks.orElse_eq_ok] at hallowed hfound hwritten
  refine ⟨checked, contact, db₁, hchecked, hid, hens ▸ hallowed, hfound, hcolumns, ?_, ?_⟩
  · exact (schema.store_eq_ok).mp hwritten
  · by_cases hidentity : IsIdentity db₁ (contact "info")
    · rw [if_pos hidentity, Checks.orElse_eq_ok] at h
      exact Or.inl ⟨hidentity, (schema.store_eq_ok).mp h⟩
    · rw [if_neg hidentity, Checks.pure_eq_ok] at h
      exact Or.inr ⟨hidentity, h.symm⟩

/-- Other tables than those of contacts and people stay. -/
theorem ContactUpdated.rows_eq (h : ContactUpdated svc db acc now id body checked contact db₁ db')
    {m : Model} (hcontact : m ≠ .contact) (hperson : m ≠ .person) : db'.1 m = db.1 m := by
  have hfirst : db₁.1 m = db.1 m := by rw [h.written, Db.modify_ne _ _ _ hcontact]
  rcases h.moved with ⟨-, hdb⟩ | ⟨-, rfl⟩
  · rw [hdb, moveIdentity, Db.modify_ne _ _ _ hperson, hfirst]
  · exact hfirst

end BasicCrud

end Apicrud
