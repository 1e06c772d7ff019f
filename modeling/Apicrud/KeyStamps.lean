import Apicrud.KeyAccess

/-! # When an API key was last used

`apikey_verify` stores the time of a use when the one that is stored is missing or more than six hours old,
but the latter only for keys without an expiry time and for expired ones; and it does so before it tests
whether the key is expired.  So an unexpired key with an expiry time keeps its first stamp, and an attempt
with an expired one is stamped: `stamp_iff`. -/

namespace Apicrud

open Relational

namespace ApiKey

/-- The stored time is at most six hours old. -/
def Recent (record : Row) (now : ℕ) : Prop := ∃ t, record "last_used" = .time t ∧ now ≤ t + 21600

instance (record : Row) (now : ℕ) : Decidable (Recent record now) :=
  match h : record "last_used" with
  | .time t => decidable_of_iff (now ≤ t + 21600) ⟨fun hle => ⟨t, h, hle⟩, fun ⟨t', ht', hle⟩ => by
      rw [h] at ht'
      cases ht'
      exact hle⟩
  | .none | .bool _ | .int _ | .str _ | .list _ => isFalse fun ⟨t, ht, _⟩ => by
      rw [h] at ht
      cases ht

/-- After a key was accepted its stored time is recent, and an attempt that is rejected changes no key. -/
def LastUsedMeaningful (svc : Service) (db : Database) (now : ℕ) (keyId secret : String) : Prop :=
  (∀ record, (verify svc db now keyId secret).2 = some record →
    ∀ row ∈ (verify svc db now keyId secret).1.rows .apikey, row "id" = record "id" → Recent row now) ∧
  ((verify svc db now keyId secret).2 = none →
    (verify svc db now keyId secret).1.rows .apikey = db.rows .apikey)

/-- No stamp is due to the key if it is expired; if not, it was used in the last six hours, or never, or has
no expiry time. -/
def StampFits (record : Row) (now : ℕ) : Prop :=
  if Expired record now then ¬ Due record now
  else Recent record now ∨ (record "last_used").truthy = false ∨
    (∃ t, record "last_used" = .time t) ∧ (record "expires").truthy = false

variable {svc : Service} {db : Database} {now : ℕ} {keyId secret : String} {record : Row}

/-- A stored time that is recent is not replaced. -/
theorem not_due_of_recent (h : Recent record now) : ¬ Due record now := by
  obtain ⟨t, ht, hle⟩ := h
  unfold Due
  rw [ht]
  rintro ⟨hlt, -⟩
  omega

/-- Of the keys that are not expired, a stamp is due to those that were never used, and to those without an
expiry time that were not used for six hours. -/
theorem due_iff (hexpired : ¬ Expired record now) : Due record now ↔
    (record "last_used").truthy = false ∨
      (∃ t, record "last_used" = .time t) ∧ ¬ Recent record now ∧ (record "expires").truthy = false := by
  unfold Due Recent
  cases hlast : record "last_used" with
  | time t =>
      have htruthy : (Val.time t).truthy = true := rfl
      simp [hexpired, htruthy]
  | none | bool _ | int _ | str _ | list _ => simp

/-- The write of the stamp goes through. -/
theorem stampKey_due (h : Due record now) : ∃ db', stampKey db now record = .ok db' ∧
    db'.1 = db.1.modify .apikey (fun row => decide (row "id" = record "id"))
      fun row => Function.update row "last_used" (.time now) := by
  have hfree : schema.Free .apikey "last_used" :=
    ⟨by decide, by decide, by decide, by decide, by decide⟩
  have hvalid := hfree.valid_modify (show (Val.time now).IsCell from trivial)
    (fun row => decide (row "id" = record "id")) db.2
  refine ⟨⟨_, hvalid⟩, ?_, rfl⟩
  rw [stampKey, if_pos h]
  exact schema.store_of_valid hvalid

theorem stampKey_not_due (h : ¬ Due record now) : stampKey db now record = .ok db := if_neg h

/-- What `apikey_verify` does with the key that it finds. -/
theorem verify_of_find {db' : Database} (hfind : find svc db keyId secret = .ok record)
    (hstamp : stampKey db now record = .ok db') :
    verify svc db now keyId secret = (db', if Expired record now then none else some record) := by
  unfold verify
  rw [hfind]
  simp only [hstamp]

theorem mem_of_find (h : find svc db keyId secret = .ok record) : record ∈ db.rows .apikey :=
  (of_one_filterBy h).1

/-- The row of the key, by its id. -/
theorem eq_of_id {row : Row} (hrecord : record ∈ db.rows .apikey) (hrow : row ∈ db.rows .apikey)
    (hid : row "id" = record "id") : row = record :=
  db.eq_of_column (by decide : ["id"] ∈ schema.unique .apikey) (by decide) hrow hrecord hid

/-- A stamp changes the row. -/
theorem rows_ne_of_stamp {db' : Database} (hrecord : record ∈ db.rows .apikey) (hdue : Due record now)
    (hdb : db'.1 = db.1.modify .apikey (fun row => decide (row "id" = record "id"))
      fun row => Function.update row "last_used" (.time now)) :
    db'.rows .apikey ≠ db.rows .apikey := by
  intro hsame
  have hstamped : Function.update record "last_used" (.time now) ∈ db'.rows .apikey := by
    rw [Store.rows, hdb, Db.mem_modify]
    exact ⟨record, hrecord, if_pos (decide_eq_true rfl)⟩
  rw [hsame] at hstamped
  have heq := eq_of_id hrecord hstamped (Function.update_of_ne (by decide) _ _)
  have hnow : record "last_used" = .time now := by
    rw [← heq, Function.update_self]
  exact not_due_of_recent ⟨now, hnow, Nat.le_add_right now 21600⟩ hdue

/-- The time of the last use is meaningful just when the key that is found fits. -/
theorem stamp_iff (svc : Service) (db : Database) (now : ℕ) (keyId secret : String) :
    LastUsedMeaningful svc db now keyId secret ↔
      ∀ record, find svc db keyId secret = .ok record → StampFits record now := by
  cases hfind : find svc db keyId secret with
  | error e =>
      have hverify : verify svc db now keyId secret = (db, none) := by
        unfold verify
        rw [hfind]
      refine iff_of_true ⟨?_, fun _ => ?_⟩ fun _ h => by cases h
      · intro record hrecord
        rw [hverify] at hrecord
        cases hrecord
      · rw [hverify]
  | ok record =>
      have hrecord := mem_of_find hfind
      have hfits : (∀ record', (Except.ok record : Except QueryError Row) = .ok record' →
          StampFits record' now) ↔ StampFits record now :=
        ⟨fun h => h record rfl, fun h _ heq => by cases heq; exact h⟩
      rw [hfits]
      unfold LastUsedMeaningful StampFits
      by_cases hdue : Due record now
      · obtain ⟨db', hstamp, hdb⟩ := @stampKey_due db now record hdue
        rw [verify_of_find hfind hstamp]
        by_cases hexpired : Expired record now
        · rw [if_pos hexpired, if_pos hexpired]
          refine iff_of_false (fun h => ?_) (not_not.mpr hdue)
          exact rows_ne_of_stamp hrecord hdue hdb (h.2 rfl)
        · rw [if_neg hexpired, if_neg hexpired]
          refine iff_of_true ⟨?_, fun h => by cases h⟩ ?_
          · intro _ heq row hrow hid
            cases heq
            rw [Store.rows, hdb, Db.mem_modify] at hrow
            obtain ⟨before, hbefore, rfl⟩ := hrow
            refine ⟨now, ?_, Nat.le_add_right now 21600⟩
            split_ifs at hid ⊢ with hsame
            · exact Function.update_self ..
            · exact absurd (decide_eq_true hid) hsame
          · rcases (due_iff hexpired).mp hdue with hnever | ⟨htime, -, hendless⟩
            · exact Or.inr (Or.inl hnever)
            · exact Or.inr (Or.inr ⟨htime, hendless⟩)
      · rw [verify_of_find hfind (stampKey_not_due hdue)]
        by_cases hexpired : Expired record now
        · rw [if_pos hexpired, if_pos hexpired]
          exact iff_of_true ⟨fun _ h => (by cases h), fun _ => rfl⟩ hdue
        · rw [if_neg hexpired, if_neg hexpired]
          rw [due_iff hexpired, not_or] at hdue
          constructor
          · rintro ⟨haccepted, -⟩
            exact Or.inl (haccepted record rfl record hrecord rfl)
          · intro hfit
            refine ⟨?_, fun h => by cases h⟩
            intro _ heq row hrow hid
            cases heq
            rw [eq_of_id hrecord hrow hid]
            rcases hfit with hrecent | hnever | ⟨htime, hendless⟩
            · exact hrecent
            · exact absurd hnever hdue.1
            · by_contra hold
              exact hdue.2 ⟨htime, hold, hendless⟩

/-- A key that was used in the beginning, with an expiry time. -/
def usedKey (expires : ℕ) : Row :=
  Seed.row .apikey [("id", .str "x-k0001"), ("name", .str "key"), ("uid", .str "x-23450001"),
    ("prefix", .str "aaaaaaaa"), ("hashvalue", .str "right"), ("last_used", .time 0),
    ("expires", .time expires)]

/-- The seeded database with the key, which expires after a day. -/
def usedDatabase : Database := ⟨Seed.tables (Seed.records ++ [(.apikey, usedKey 86400)]), by decide +kernel⟩

/-- The key is accepted after twelve hours, and its last use stays in the beginning. -/
theorem expiring_not_stamped : ¬ LastUsedMeaningful Seed.service usedDatabase 43200 "aaaaaaaa" "right" := by
  intro h
  have hold : ((verify Seed.service usedDatabase 43200 "aaaaaaaa" "right").2.any fun record =>
      ((verify Seed.service usedDatabase 43200 "aaaaaaaa" "right").1.rows .apikey).any fun row =>
        decide (row "id" = record "id" ∧ ¬ Recent row 43200)) = true := by decide +kernel
  obtain ⟨record, haccepted, hrows⟩ := (Option.any_eq_true _ _).mp hold
  obtain ⟨row, hrow, hcond⟩ := List.any_eq_true.mp hrows
  obtain ⟨hid, hnot⟩ := of_decide_eq_true hcond
  exact hnot (h.1 record haccepted row hrow hid)

end ApiKey

end Apicrud
