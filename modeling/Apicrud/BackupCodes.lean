import Apicrud.OneTimePasswords

/-! # Backup codes over a run

`register` stores the encrypted digests of the codes; `login` decrypts them, cuts the digest of the
used one out and stores the rest as it is.  Up to the first accepted code every attempt is decided by
what `register` stored (`eachOnce_along`); from then on the next `decrypt` reads bytes that nobody encrypted
(`secondCode_refused`). -/

namespace Apicrud

open Relational

namespace TotpFunc

/-! ### Cutting a code out -/

/-- Digests of one length, stored side by side, are found by their steps. -/
theorem cutCode_isSome {digest : List Char} {digests : List (List Char)}
    (hlength : ∀ d ∈ digests, d.length = 16) {n : ℕ} (hn : digests.length < n) :
    (cutCode digest n digests.flatten).isSome ↔ digest ∈ digests := by
  induction digests generalizing n with
  | nil =>
      cases n with
      | zero => simp at hn
      | succ n => simp [cutCode]
  | cons d digests ih =>
      cases n with
      | zero => simp at hn
      | succ n =>
          have hd : d.length = 16 := hlength d (List.mem_cons_self ..)
          have htake : (d ++ digests.flatten).take 16 = d := by
            rw [← hd, List.take_left]
          have hdrop : (d ++ digests.flatten).drop 16 = digests.flatten := by
            rw [← hd, List.drop_left]
          have hne : d ++ digests.flatten ≠ [] := by
            intro hnil
            rw [(List.append_eq_nil_iff.mp hnil).1] at hd
            cases hd
          rw [List.flatten_cons, cutCode, if_neg hne, htake, hdrop]
          split_ifs with hfound
          · simp [hfound]
          · rw [Option.isSome_map, ih (fun d' hd' => hlength d' (List.mem_cons_of_mem _ hd'))
              (by simp at hn; omega), List.mem_cons]
            constructor
            · exact Or.inr
            · rintro (rfl | hmem)
              · exact absurd rfl hfound
              · exact hmem

variable (svc : Service)

/-- What the libraries are relied on for: a digest has sixteen bytes, and what was encrypted is
decrypted. -/
structure Keeps : Prop where
  digest : ∀ s, (svc.lib.md5 s).toList.length = 16
  decrypt : ∀ salt s, svc.lib.decryptBin (svc.lib.encryptBin salt s) = some s

/-- The accounts of that id keep what decrypts to the digests of the codes. -/
def Sealed (db : Database) (id : Val) (codes : List String) : Prop :=
  ∀ row ∈ db.rows .account, row "id" = id → ∃ stored, row "backup_codes" = .str stored ∧
    svc.lib.decryptBin stored = some (String.join (codes.map svc.lib.md5))

/-! ### A run of attempts -/

/-- The codes accepted for the account, and the time of the last attempt with a backup code. -/
structure CodeLog where
  accepted : List String
  last : ℕ

/-- The log after an action. -/
def recordCode (id : Val) (log : CodeLog) (s : State) (e : ℕ × Action) : CodeLog :=
  match e.2 with
  | .attempt a =>
      if a.otp.toList.length = 8 then
        ⟨match (attempts svc).out s e with
          | some account => if account "id" = id then a.otp :: log.accepted else log.accepted
          | none => log.accepted, s.now + e.1⟩
      else log
  | .elsewhere _ => log

/-- The attempts, watched for the codes they use. -/
def watchedCodes (id : Val) : Machine (State × CodeLog) (ℕ × Action) (Option Row) :=
  (attempts svc).withHistory (recordCode svc id)

/-- The account of the attempt has that id. -/
def Attempt.On (a : Attempt) (s : State) (id : Val) : Prop :=
  ∃ row, account (s.world a) (a.req.access svc (s.world a)) a.username = .ok row ∧ row "id" = id

/-- The attempts with backup codes are more than sixty seconds apart, and the digests of the presented
code and of the stored ones tell them apart. -/
def Spaced (codes : List String) (p : State × CodeLog) (e : ℕ × Action) : Prop :=
  ∀ a, e.2 = .attempt a → a.otp.toList.length = 8 →
    p.2.last + 60 < p.1.now + e.1 ∧ ∀ c ∈ codes, svc.lib.md5 a.otp = svc.lib.md5 c → a.otp = c

/-- An attempt with a backup code on the account is accepted exactly when the code is one of those and
was not accepted before. -/
def EachOnce (id : Val) (codes : List String) (p : State × CodeLog) (e : ℕ × Action) : Prop :=
  ∀ a, e.2 = .attempt a → a.otp.toList.length = 8 → a.On svc (p.1.after e.1) id →
    (((watchedCodes svc id).out p e).isSome ↔ a.otp ∈ codes ∧ a.otp ∉ p.2.accepted)

/-- The condition: no code of the account was accepted before an attempt on it, and the slot of the
bypass session that a code earns, if it earns one, is free; elsewhere the stored codes stay. -/
def FirstUse (id : Val) (codes : List String) (p : State × CodeLog) (e : ℕ × Action) : Prop :=
  match e.2 with
  | .attempt a =>
      a.otp.toList.length = 8 → a.On svc (p.1.after e.1) id →
        (∀ c ∈ codes, c ∉ p.2.accepted) ∧
        (a.otp ∈ codes → svc.conf.loginMfaCookieLimit = 0 ∨
          a.redis.get (p.1.now + e.1) (SessionManager.key
            (a.req.access svc ((p.1.after e.1).world a)).uid (a.req.amb.genId .bypass) none) = none)
  | .elsewhere db =>
      ∀ row ∈ db.rows .account, row "id" = id →
        ∃ old ∈ p.1.db.rows .account, old "id" = id ∧ row "backup_codes" = old "backup_codes"

variable {svc} {w : World} {id : Val} {codes : List String} {row : Row} {otp : String}

/-! ### One attempt -/

theorem toList_digests (codes : List String) :
    (String.join (codes.map svc.lib.md5)).toList =
      (codes.map fun c => (svc.lib.md5 c).toList).flatten := by
  rw [String.toList_join, List.flatMap_map, List.flatMap_def]

theorem backupCodes_free : schema.Free .account "backup_codes" where
  notId := by decide
  notNull := by decide
  enums := by decide
  unique := by decide
  foreign := by decide

/-- Looking for a code from the stored ones finds it exactly when it is one of them. -/
theorem cutCode_digests (hdigest : ∀ s, (svc.lib.md5 s).toList.length = 16)
    (hinj : ∀ c ∈ codes, svc.lib.md5 otp = svc.lib.md5 c → otp = c) :
    (cutCode (svc.lib.md5 otp).toList
      ((String.join (codes.map svc.lib.md5)).toList.length + 1)
      (String.join (codes.map svc.lib.md5)).toList).isSome ↔ otp ∈ codes := by
  have hlength : ∀ d ∈ codes.map fun c => (svc.lib.md5 c).toList, d.length = 16 := by
    intro d hd
    obtain ⟨c, -, rfl⟩ := List.mem_map.mp hd
    exact hdigest c
  have hfuel : (codes.map fun c => (svc.lib.md5 c).toList).length <
      (codes.map fun c => (svc.lib.md5 c).toList).flatten.length + 1 := by
    rw [List.length_flatten, Nat.lt_succ_iff]
    have hpos := List.length_le_sum_of_one_le
      ((codes.map fun c => (svc.lib.md5 c).toList).map List.length) (by
        intro n hn
        obtain ⟨d, hd, rfl⟩ := List.mem_map.mp hn
        rw [hlength d hd]
        omega)
    rwa [List.length_map] at hpos
  rw [toList_digests, cutCode_isSome hlength hfuel, List.mem_map]
  constructor
  · rintro ⟨c, hc, heq⟩
    rw [hinj c hc (String.toList_injective heq.symm)]
    exact hc
  · exact fun hmem => ⟨otp, hmem, rfl⟩

/-- A backup code is verified exactly when it is one of those that were stored. -/
theorem verify_isOk (hkeeps : Keeps svc) (hsealed : Sealed svc w.db id codes)
    (hrow : row ∈ w.db.rows .account) (hid : row "id" = id) (hotp : otp.toList.length = 8)
    (hinj : ∀ c ∈ codes, svc.lib.md5 otp = svc.lib.md5 c → otp = c) :
    (∃ db, verify svc w row otp = .ok db) ↔ otp ∈ codes := by
  obtain ⟨stored, hstored, hdecrypt⟩ := hsealed row hrow hid
  rw [← cutCode_digests hkeeps.digest hinj]
  unfold verify
  rw [if_pos hotp, hstored]
  simp only [hdecrypt]
  cases hcut : cutCode (svc.lib.md5 otp).toList
      ((String.join (codes.map svc.lib.md5)).toList.length + 1)
      (String.join (codes.map svc.lib.md5)).toList with
  | none => simp
  | some rest =>
      have hvalid := backupCodes_free.valid_modify (v := .str (String.ofList rest)) trivial
        (fun r => decide (r "id" = row "id")) w.db.2
      simp only [schema.store_of_valid hvalid, Option.isSome_some, iff_true]
      exact ⟨_, rfl⟩

/-- With no mark in the way and the slot of the bypass session free, an attempt with a backup code is
accepted exactly when the code is one of those that were stored. -/
theorem login_isOk {req : Request} {username : String} (hkeeps : Keeps svc)
    (hsealed : Sealed svc w.db id codes)
    (haccount : account w (req.access svc w) username = .ok row) (hid : row "id" = id)
    (hotp : otp.toList.length = 8)
    (hinj : ∀ c ∈ codes, svc.lib.md5 otp = svc.lib.md5 c → otp = c)
    (hmark : w.otps.get w.now ((req.access svc w).accountId.text, otp) = none)
    (hslot : otp ∈ codes → svc.conf.loginMfaCookieLimit = 0 ∨ w.redis.get w.now
      (SessionManager.key (req.access svc w).uid (req.amb.genId .bypass) none) = none) :
    (login svc w req username otp).2.toOption.isSome ↔ otp ∈ codes := by
  have hiff := verify_isOk hkeeps hsealed (totpAccount_mem haccount) hid hotp hinj
  unfold login
  simp only [haccount]
  rcases hverify : verify svc w row otp with answer | db
  · simp only [hverify, reduceCtorEq, exists_false, false_iff] at hiff
    simp [hiff, Except.toOption]
  · have hmem : otp ∈ codes := hiff.mp ⟨db, hverify⟩
    simp only [Expiring.setNX_of_none hmark]
    split_ifs with hlimit
    · simp [hmem, Except.toOption]
    · have hfree := (hslot hmem).resolve_left hlimit
      split
      · simp [hmem, Except.toOption]
      · rename_i hnone
        exact absurd hnone (Option.isSome_iff_ne_none.mp (World.createSession_isSome hfree _ _ _))

/-- A login changes the database by a verified password or code only. -/
theorem login_db {w' : World} {req : Request} {username : String} {r : Except Response Row}
    (h : login svc w req username otp = (w', r)) : w'.db = w.db ∨
      ∃ row, account w (req.access svc w) username = .ok row ∧ verify svc w row otp = .ok w'.db := by
  unfold login at h
  simp only at h
  split at h
  · cases h
    exact Or.inl rfl
  · cases h
    exact Or.inl rfl
  · rename_i row haccount
    split at h
    · cases h
      exact Or.inl rfl
    · rename_i db hverify
      refine Or.inr ⟨row, haccount, ?_⟩
      split at h
      · cases h
        exact hverify
      · split_ifs at h
        · cases h
          exact hverify
        · revert h
          split
          all_goals
            intro h
            cases h
            exact hverify

/-- A password that is no backup code leaves the database as it is. -/
theorem verify_short {db : Database} (hotp : otp.toList.length ≠ 8)
    (h : verify svc w row otp = .ok db) : db = w.db := by
  unfold verify at h
  rw [if_neg hotp] at h
  split_ifs at h
  cases h
  rfl

/-- The codes of another account stay. -/
theorem sealed_verify {db : Database} (hsealed : Sealed svc w.db id codes) (hid : row "id" ≠ id)
    (h : verify svc w row otp = .ok db) : Sealed svc db id codes := by
  rcases verify_rows h with rfl | ⟨v, hdb⟩
  · exact hsealed
  · intro new hnew hnewid
    change new ∈ db.1 .account at hnew
    rw [hdb] at hnew
    obtain ⟨old, hold, rfl⟩ := Db.mem_modify.mp hnew
    split at hnewid
    · rename_i hmatch
      rw [Function.update_of_ne (by decide)] at hnewid
      exact absurd ((of_decide_eq_true hmatch).symm.trans hnewid) hid
    · rename_i hother
      rw [if_neg hother]
      exact hsealed old hold hnewid

/-! ### The run -/

/-- What the attempts keep: marks of backup codes are gone sixty seconds after the last attempt, and the
account has its codes as long as none was accepted. -/
structure Kept (svc : Service) (id : Val) (codes : List String) (p : State × CodeLog) : Prop where
  marks : ∀ owner otp d, otp.toList.length = 8 → p.1.otps (owner, otp) = some ((), d) →
    d ≤ p.2.last + 60
  past : p.2.last ≤ p.1.now
  stored : (∀ c ∈ codes, c ∉ p.2.accepted) → Sealed svc p.1.db id codes

variable {p : State × CodeLog} {e : ℕ × Action}

/-- An attempt with a backup code finds no mark in its way. -/
theorem unmarked (h : Kept svc id codes p) {elapsed : ℕ} {a : Attempt}
    (hspaced : Spaced svc codes p (elapsed, .attempt a)) (hotp : a.otp.toList.length = 8) :
    (p.1.after elapsed).otps.get (p.1.after elapsed).now (a.key svc (p.1.after elapsed)) = none := by
  rcases hget : (p.1.after elapsed).otps.get (p.1.after elapsed).now
    (a.key svc (p.1.after elapsed)) with _ | u
  · rfl
  · obtain ⟨d, hd, hlive⟩ := Expiring.get_eq_some.mp hget
    have hlast := h.marks _ _ d hotp hd
    have hsince := (hspaced a rfl hotp).1
    change p.1.now + elapsed < d at hlive
    simp only at hsince
    omega

/-- While no code was accepted, an attempt is decided by what `register` stored. -/
theorem eachOnce_of_kept (hkeeps : Keeps svc) (h : Kept svc id codes p)
    (hspaced : Spaced svc codes p e) (hfirst : FirstUse svc id codes p e) :
    EachOnce svc id codes p e := by
  intro a hattempt hotp hon
  obtain ⟨elapsed, action⟩ := e
  simp only at hattempt hon
  subst hattempt
  obtain ⟨hunused, hslot⟩ := hfirst hotp hon
  obtain ⟨row, hrow, hid⟩ := hon
  have hlogin := login_isOk hkeeps (h.stored hunused) hrow hid hotp (hspaced a rfl hotp).2
    (unmarked h hspaced hotp) hslot
  have hout : (watchedCodes svc id).out p (elapsed, .attempt a) =
      (login svc ((p.1.after elapsed).world a) a.req a.username a.otp).2.toOption := by
    change (act svc (p.1.after elapsed) (.attempt a)).2 = _
    rw [act_attempt (Prod.mk.eta).symm]
  rw [hout, hlogin]
  exact ⟨fun hmem => ⟨hmem, hunused a.otp hmem⟩, And.left⟩

/-- What an attempt writes to the log. -/
theorem recordCode_attempt {elapsed : ℕ} {a : Attempt} {w : World} {r : Except Response Row}
    (hlogin : login svc ((p.1.after elapsed).world a) a.req a.username a.otp = (w, r)) :
    (watchedCodes svc id).next p (elapsed, .attempt a) =
      (⟨w.db, w.otps, p.1.now + elapsed⟩,
        if a.otp.toList.length = 8 then
          ⟨match r.toOption with
            | some account => if account "id" = id then a.otp :: p.2.accepted else p.2.accepted
            | none => p.2.accepted, p.1.now + elapsed⟩
        else p.2) := by
  have hact := act_attempt hlogin
  have hout : (attempts svc).out p.1 (elapsed, .attempt a) = r.toOption := by
    change (act svc (p.1.after elapsed) (.attempt a)).2 = _
    rw [hact]
  change ((act svc (p.1.after elapsed) (.attempt a)).1, recordCode svc id p.2 p.1 _) = _
  rw [hact]
  unfold recordCode
  rw [hout]
  rfl

theorem marks_next (h : Kept svc id codes p) {elapsed : ℕ} {a : Attempt} {w : World}
    {r : Except Response Row}
    (hlogin : login svc ((p.1.after elapsed).world a) a.req a.username a.otp = (w, r))
    {owner otp : String} {d : ℕ} (hotp : otp.toList.length = 8)
    (hd : w.otps (owner, otp) = some ((), d)) :
    d ≤ p.2.last + 60 ∨ a.otp.toList.length = 8 ∧ d = p.1.now + elapsed + 60 := by
  rcases login_marks hlogin with ⟨hsame, -⟩ | ⟨-, hset⟩
  · rw [hsame] at hd
    exact Or.inl (h.marks owner otp d hotp hd)
  · rw [hset] at hd
    rcases Expiring.set_cases hd with ⟨hkey, -, hnew⟩ | hold
    · right
      have hsame : otp = a.otp := congrArg Prod.snd hkey
      exact ⟨hsame ▸ hotp, hnew⟩
    · exact Or.inl (h.marks owner otp d hotp hold)

/-- While no code was accepted, an attempt leaves the stored codes as they are. -/
theorem stored_next (hkeeps : Keeps svc) (h : Kept svc id codes p) {elapsed : ℕ} {a : Attempt}
    (hspaced : Spaced svc codes p (elapsed, .attempt a))
    (hfirst : FirstUse svc id codes p (elapsed, .attempt a)) {w : World} {r : Except Response Row}
    (hlogin : login svc ((p.1.after elapsed).world a) a.req a.username a.otp = (w, r))
    (hunused : ∀ c ∈ codes, c ∉ p.2.accepted)
    (hrefused : a.otp.toList.length = 8 → a.otp ∈ codes →
      ∀ row, r = .ok row → row "id" ≠ id) : Sealed svc w.db id codes := by
  have hsealed : Sealed svc ((p.1.after elapsed).world a).db id codes := h.stored hunused
  rcases login_db hlogin with hsame | ⟨row, hrow, hverify⟩
  · rw [hsame]
    exact hsealed
  · by_cases hid : row "id" = id
    · by_cases hotp : a.otp.toList.length = 8
      · have hinj := (hspaced a rfl hotp).2
        have hmem := (verify_isOk hkeeps hsealed (totpAccount_mem hrow) hid hotp hinj).mp
          ⟨_, hverify⟩
        have haccepted := (login_isOk hkeeps hsealed hrow hid hotp hinj
          (unmarked h hspaced hotp) (hfirst hotp ⟨row, hrow, hid⟩).2).mpr hmem
        rw [hlogin] at haccepted
        cases r with
        | error answer => cases haccepted
        | ok row' =>
            obtain ⟨hrow', -⟩ := totpLogin_ok hlogin
            rw [hrow] at hrow'
            cases hrow'
            exact absurd hid (hrefused hotp hmem row rfl)
      · rw [verify_short hotp hverify]
        exact hsealed
    · exact sealed_verify hsealed hid hverify

theorem kept_next (hkeeps : Keeps svc) (h : Kept svc id codes p) (hspaced : Spaced svc codes p e)
    (hfirst : FirstUse svc id codes p e) : Kept svc id codes ((watchedCodes svc id).next p e) := by
  obtain ⟨elapsed, action⟩ := e
  cases action with
  | elsewhere db =>
      refine ⟨h.marks, Nat.le_add_right_of_le h.past, fun hunused row hrow hid => ?_⟩
      obtain ⟨old, hold, holdid, hcodes⟩ := hfirst row hrow hid
      rw [hcodes]
      exact h.stored hunused old hold holdid
  | attempt a =>
      rcases hlogin : login svc ((p.1.after elapsed).world a) a.req a.username a.otp with ⟨w, r⟩
      have hpast := h.past
      rw [recordCode_attempt hlogin]
      by_cases hotp : a.otp.toList.length = 8
      · rw [if_pos hotp]
        refine ⟨fun owner otp d hlength hd => ?_, le_refl _, fun hunused => ?_⟩
        · have hmarks := marks_next h hlogin hlength hd
          change d ≤ p.1.now + elapsed + 60
          omega
        · refine stored_next hkeeps h hspaced hfirst hlogin (fun c hc hold => ?_) ?_
          · refine hunused c hc ?_
            simp only
            split
            · split_ifs
              · exact List.mem_cons_of_mem _ hold
              · exact hold
            · exact hold
          · rintro - hmem row rfl hid
            refine hunused a.otp hmem ?_
            simp only [Except.toOption, hid, if_true]
            exact List.mem_cons_self ..
      · rw [if_neg hotp]
        refine ⟨fun owner otp d hlength hd => ?_, Nat.le_add_right_of_le hpast, fun hunused => ?_⟩
        · have hmarks := marks_next h hlogin hlength hd
          change d ≤ p.2.last + 60
          omega
        · exact stored_next hkeeps h hspaced hfirst hlogin hunused
            fun hlength => absurd hlength hotp

/-! ### From the registration on -/

/-- A successful `register` stores the encrypted digests of the codes it answers. -/
theorem register_sealed (hkeeps : Keeps svc) {w' : World} {req : Request} {body : Dict}
    {answer : Response} (h : AuthTotp.register svc w req body = (w', answer))
    (hok : answer.status = 200) :
    Sealed svc w'.db (req.access svc w).accountId req.amb.backupCodes := by
  unfold AuthTotp.register at h
  simp only at h
  split at h
  · split at h
    · cases h
      exact absurd hok (by decide)
    · split at h
      · cases h
        exact absurd hok (by decide)
      · rename_i account haccount
        split at h
        · cases h
          exact absurd hok (by decide)
        · split at h
          · cases h
            exact absurd hok (by decide)
          · split at h
            · rename_i db hstore
              cases h
              have hdb := store_ok hstore
              obtain ⟨-, hconds⟩ := mem_of_lookup haccount
              have hid : account "id" = (req.access svc w).accountId :=
                hconds ("id", (req.access svc w).accountId) (by simp)
              intro row hrow hrowid
              change row ∈ db.1 .account at hrow
              rw [hdb] at hrow
              obtain ⟨old, -, rfl⟩ := Db.mem_modify.mp hrow
              split at hrowid
              · rename_i hmatch
                refine ⟨_, ?_, hkeeps.decrypt req.amb.salt _⟩
                rw [if_pos hmatch, Row.write_of_mem _ (by simp)]
                simp
              · rename_i hother
                exact absurd (decide_eq_true (hrowid.trans hid.symm)) hother
            · cases h
              exact absurd hok (by decide)
  · cases h
    exact absurd hok (by decide)

/-- As long as no code was accepted before, each attempt with a backup code is accepted exactly when the
code is one of the registered ones and was not accepted before. -/
theorem eachOnce_along (hkeeps : Keeps svc) {w' : World} {req : Request} {body : Dict}
    {answer : Response} (hregister : AuthTotp.register svc w req body = (w', answer))
    (hok : answer.status = 200) {s : State} {last : ℕ} (hdb : s.db = w'.db) (hlast : last ≤ s.now)
    (hmarks : ∀ owner otp d, otp.toList.length = 8 → s.otps (owner, otp) = some ((), d) →
      d ≤ last + 60) {es : List (ℕ × Action)}
    (hspaced : (watchedCodes svc (req.access svc w).accountId).Along
      (Spaced svc req.amb.backupCodes) (s, ⟨[], last⟩) es)
    (hfirst : (watchedCodes svc (req.access svc w).accountId).Along
      (FirstUse svc (req.access svc w).accountId req.amb.backupCodes) (s, ⟨[], last⟩) es) :
    (watchedCodes svc (req.access svc w).accountId).Along
      (EachOnce svc (req.access svc w).accountId req.amb.backupCodes) (s, ⟨[], last⟩) es := by
  refine (hspaced.and hfirst).of_invariant
    (I := Kept svc (req.access svc w).accountId req.amb.backupCodes) ?_ ?_ ⟨hmarks, hlast, ?_⟩
  · exact fun p e h hboth => kept_next hkeeps h hboth.1 hboth.2
  · exact fun p e h hboth => eachOnce_of_kept hkeeps h hboth.1 hboth.2
  · intro _
    change Sealed svc s.db _ _
    rw [hdb]
    exact register_sealed hkeeps hregister hok

/-! ### Two codes of the other user -/

theorem on_of_found {s : State} {a : Attempt} (h : (account (s.world a)
    (a.req.access svc (s.world a)) a.username).toOption.map (fun row => row "id") = some id) :
    a.On svc s id := by
  unfold Attempt.On
  cases haccount : account (s.world a) (a.req.access svc (s.world a)) a.username with
  | error answer =>
      rw [haccount] at h
      cases h
  | ok row =>
      rw [haccount] at h
      exact ⟨row, rfl, Option.some.inj h⟩

theorem seed_keeps : Keeps Seed.service where
  digest s := by
    change (String.ofList ((s.toList ++ List.replicate 16 '.').take 16)).toList.length = 16
    rw [String.toList_ofList, List.length_take]
    simp
  decrypt salt s := by
    change (Text.splitFirst (":" ++ s) ':').map Prod.snd = some s
    simp [Text.splitFirst]

/-- The other user in the middle of the enrolment. -/
def enrolling : World := { Seed.world Seed.shared with
  redis := (SessionManager.create {} (pendingSession 60) 60 (some "u-0002") ["pendingtotp"] none "n-t2"
    120 [("totp", .str "SECRET")]).1 }

/-- The request that registers, with the codes drawn for it. -/
def registering : Request :=
  ⟨{ authorization := some ("u-0002", "t1") },
    { Seed.ambient "t3" with backupCodes := ["aaaaaaaa", "bbbbbbbb"] }⟩

/-- The world after the registration, and its answer. -/
def registered : World × Response :=
  AuthTotp.register Seed.service enrolling registering
    (Dict.ofList [("nonce", .str "n-t2"), ("otp_first", .str "SECRET3")])

/-- The state that the attempts start from. -/
def registeredState : State × CodeLog := (⟨registered.1.db, Expiring.empty, 100⟩, ⟨[], 0⟩)

/-- A code that is none, and the first one. -/
def firstRun : List (ℕ × Action) := [(10, presents "cccccccc"), (61, presents "aaaaaaaa")]

/-- The attempts of the registered account, watched for its codes. -/
abbrev registeredCodes : Machine (State × CodeLog) (ℕ × Action) (Option Row) :=
  watchedCodes Seed.service (registering.access Seed.service enrolling).accountId

theorem firstRun_spaced : registeredCodes.Along
    (Spaced Seed.service registering.amb.backupCodes) registeredState firstRun := by
  refine ⟨?_, ?_, trivial⟩
  all_goals
    intro a hattempt _
    cases hattempt
    exact ⟨by decide +kernel, by decide +kernel⟩

theorem firstRun_eachOnce : registeredCodes.Along
    (EachOnce Seed.service (registering.access Seed.service enrolling).accountId
      registering.amb.backupCodes) registeredState firstRun := by
  refine eachOnce_along seed_keeps (Prod.mk.eta).symm (by decide +kernel) rfl (by decide) ?_
    firstRun_spaced ⟨fun _ _ => ⟨?_, fun _ => ?_⟩, fun _ _ => ⟨?_, fun _ => ?_⟩, trivial⟩
  · intro owner otp d _ h
    cases h
  · decide +kernel
  · exact Or.inr (by decide +kernel)
  · decide +kernel
  · exact Or.inr (by decide +kernel)

/-- Both codes, one after the other. -/
def bothRun : List (ℕ × Action) := [(10, presents "aaaaaaaa"), (61, presents "bbbbbbbb")]

/-- The second code of the registered ones is refused. -/
theorem secondCode_refused : Keeps Seed.service ∧ registered.2.status = 200 ∧
    registering.amb.backupCodes.Nodup ∧
    registeredCodes.Along (Spaced Seed.service registering.amb.backupCodes) registeredState bothRun ∧
    ¬ registeredCodes.Along
      (EachOnce Seed.service (registering.access Seed.service enrolling).accountId
        registering.amb.backupCodes) registeredState bothRun := by
  refine ⟨seed_keeps, by decide +kernel, by decide, ⟨?_, ?_, trivial⟩, fun h => ?_⟩
  · intro a hattempt _
    cases hattempt
    exact ⟨by decide +kernel, by decide +kernel⟩
  · intro a hattempt _
    cases hattempt
    exact ⟨by decide +kernel, by decide +kernel⟩
  · have haccepted := (h.2.1 _ rfl (by decide) (on_of_found (by decide +kernel))).mpr
      (by decide +kernel)
    have hrefused : (registeredCodes.out (registeredCodes.run registeredState (bothRun.take 1))
        (61, presents "bbbbbbbb")).isSome = false := by decide +kernel
    change (registeredCodes.out (registeredCodes.run registeredState (bothRun.take 1))
        (61, presents "bbbbbbbb")).isSome = true at haccepted
    rw [hrefused] at haccepted
    cases haccepted

end TotpFunc

end Apicrud
