import Apicrud.Tokens

/-! # A reset token is spent by use

A reset deletes the session that holds its token, and no other kind of request puts a token back: only
`Confirmation.request` writes tokens, a new one each time.  So over a whole run at most one password is
reset with a token (`resets_once`).  The passwords are checked before the token is looked at: a request
that is refused for them changes nothing. -/

namespace Apicrud

open Relational Confirmation

/-! ### Resets -/

/-- The call resets a password with the token. -/
def Call.ResetsWith (token : String) : Call → Prop
  | .changePassword _ body =>
      (body.get "old_password").truthy = false ∧ body.get "reset_token" = .str token
  | _ => False

instance (token : String) (call : Call) : Decidable (call.ResetsWith token) :=
  match call with
  | .changePassword _ _ => inferInstanceAs (Decidable (_ ∧ _))
  | .authBasic .. | .authApikey .. | .login .. | .logout | .callback _ | .totpGenerate
  | .totpRegister _ | .post .. | .put .. | .delete .. | .trashUpdate .. | .trashDelete _
  | .confirmationGet _ | .confirm _ => isFalse not_false

/-- The new passwords of the call do not match, or they are weak. -/
def Call.BadPassword : Call → Prop
  | .changePassword _ body =>
      ¬ ((body.get "new_password").truthy ∧ body.get "new_password" = body.get "verify_password") ∨
        LocalUser.passwordWeak (body.get "new_password").text = true
  | _ => False

/-- One, where a password is reset with the token. -/
def resets (svc : Service) (token : String) (w : World) (e : Event) : ℕ :=
  if e.call.ResetsWith token ∧ ((machine svc).out w e).status = 200 then 1 else 0

/-- A token that is issued was not issued before. -/
def NewToken (svc : Service) (p : World × List Issue) (e : Event) : Prop :=
  ∀ i, issuedBy svc (p.1.at e) e.req e.call = some i → ∀ j ∈ p.2, j.token ≠ i.token

/-- What the sessions of a run hold: issued tokens, each issued once. -/
structure Distinct (p : World × List Issue) : Prop where
  issued : TokensIssued p
  nodup : (p.2.map Issue.token).Nodup

/-- The token was issued, and no session holds it any more. -/
def Spent (token : String) (p : World × List Issue) : Prop :=
  (∃ i ∈ p.2, i.token = token) ∧
    ∀ k ses d, p.1.redis k = some (ses, d) → ses.get "param" ≠ .str token

variable {svc : Service} {w : World} {amb : Ambient} {token id info nonce : String} {contact : Row}
  {p : World × List Issue} {e : Event}

/-! ### Steps -/

theorem distinct_next (h : Distinct p) (hnew : NewToken svc p e) :
    Distinct ((watchedTokens svc).next p e) := by
  refine ⟨tokensIssued_next p e h.issued, ?_⟩
  change ((recordIssued svc p.2 p.1 e).map Issue.token).Nodup
  unfold recordIssued
  cases hissued : issuedBy svc (p.1.at e) e.req e.call with
  | none => exact h.nodup
  | some i =>
      refine List.nodup_cons.mpr ⟨?_, h.nodup⟩
      rintro hmem
      obtain ⟨j, hj, htoken⟩ := List.mem_map.mp hmem
      exact hnew i hissued j hj htoken

/-- A spent token stays spent: the sessions that are opened hold other tokens. -/
theorem spent_next (h : Spent token p) (hnew : NewToken svc p e) :
    Spent token ((watchedTokens svc).next p e) := by
  obtain ⟨⟨i, hi, htoken⟩, hgone⟩ := h
  refine ⟨⟨i, mem_recordIssued hi, htoken⟩, fun k ses d hk hparam => ?_⟩
  rcases (handle_serves svc (p.1.at e) e.req e.call).opens k ses d hk with hold | hopened
  · exact hgone k ses d hold hparam
  · obtain ⟨j, hissued, hparam', -⟩ := hopened.param (by rw [hparam]; nofun)
    have hsame : token = j.token := Val.str.inj (hparam.symm.trans hparam')
    exact hnew j hissued i hi (htoken.trans hsame)

/-- A confirmation that clears takes the session of its token away, and the one it opens holds no
token. -/
theorem confirm_param (hcheck : check svc w token = .ok (id, info, nonce, contact))
    (hok : (confirm svc w amb token true).2.status = 200) {k : String} {ses : Session} {d : ℕ}
    (hk : (confirm svc w amb token true).1.redis k = some (ses, d))
    (hparam : ses.get "param" ≠ .none) :
    w.redis k = some (ses, d) ∧ k ≠ SessionManager.key (some id) nonce none := by
  cases hstore : schema.store (activate w.db id (contact "uid")) with
  | error error =>
      have hraised : (confirm svc w amb token true).2 = .raised := by
        unfold confirm
        simp only [hcheck, hstore]
      rw [hraised] at hok
      cases hok
  | ok db =>
      rw [confirm_eq true hcheck hstore] at hk
      simp only [openConfirmed, World.createSession, if_true] at hk
      have hold : (SessionManager.delete w.redis (some id) nonce none) k = some (ses, d) := by
        rcases SessionManager.create_cases svc.conf
          (SessionManager.delete w.redis (some id) nonce none) w.now (some (contact "uid").text)
          ["pending"] none (amb.genId .session) svc.conf.redisTtl (details db id info contact) with
          ⟨hcreate, -⟩ | ⟨hcreate, -⟩
        · rw [hcreate] at hk
          rcases Expiring.set_cases hk with ⟨-, hses, -⟩ | hold
          · refine absurd ?_ hparam
            rw [hses]
            simp [SessionManager.content, details]
          · exact hold
        · rwa [hcreate] at hk
      rw [SessionManager.delete, Expiring.del_apply] at hold
      split_ifs at hold with hkey
      exact ⟨hold, hkey⟩

/-- A password that is reset is stored after the confirmation of the token. -/
theorem changePassword_confirms {uid : String} {new old verify : Val} (hold : old.truthy = false)
    (hok : (LocalUser.changePassword svc w amb uid new (.str token) old verify).2.status = 200) :
    (confirm svc w amb token true).2.status = 200 ∧
      (LocalUser.changePassword svc w amb uid new (.str token) old verify).1.redis =
        (confirm svc w amb token true).1.redis := by
  obtain ⟨account, -, -, -, -, hnew, -⟩ := changePassword_ok hold hok
  unfold LocalUser.changePassword at hok ⊢
  simp only [hnew, hold, Bool.false_eq_true, if_false] at hok ⊢
  by_cases hstatus : (confirm svc w amb token true).2.status = 200
  · rw [if_pos hstatus]
    refine ⟨hstatus, ?_⟩
    unfold LocalUser.storePassword
    split <;> rfl
  · rw [if_neg hstatus] at hok
    split_ifs at hok
    · cases hok
    · cases hok

/-- The handler of a reset, with the token in its place. -/
theorem step_reset {elapsed : ℕ} {req : Request} {uid : String} {body : Dict}
    (htoken : body.get "reset_token" = .str token) :
    (machine svc).step w ⟨elapsed, req, .changePassword uid body⟩ =
      LocalUser.changePassword svc (w.at ⟨elapsed, req, .changePassword uid body⟩) req.amb uid
        (body.get "new_password") (.str token) (body.get "old_password")
        (body.get "verify_password") := by
  rw [← htoken]
  rfl

/-- A token that passes the checks is held by a session. -/
theorem held_of_check (hcheck : check svc w token = .ok (id, info, nonce, contact)) :
    ∃ k ses d, w.redis k = some (ses, d) ∧ ses.get "param" = .str token := by
  obtain ⟨-, hparam, -⟩ := check_ok hcheck
  unfold SessionManager.get at hparam
  split at hparam
  · rename_i ses hfind
    obtain ⟨⟨d, hk, -⟩, -⟩ := SessionManager.find_eq_some.mp hfind
    exact ⟨_, ses, d, hk, hparam⟩
  · cases hparam

/-- A spent token resets nothing. -/
theorem not_resets_of_spent (h : Spent token p) (hreset : e.call.ResetsWith token) :
    ((machine svc).out p.1 e).status ≠ 200 := by
  intro hok
  obtain ⟨elapsed, req, call⟩ := e
  cases call with
  | changePassword uid body =>
      obtain ⟨hold, htoken⟩ := hreset
      rw [Machine.out, step_reset htoken] at hok
      obtain ⟨-, id, info, nonce, contact, -, hcheck⟩ := changePassword_ok hold hok
      obtain ⟨k, ses, d, hk, hparam⟩ := held_of_check hcheck
      exact h.2 k ses d hk hparam
  | _ => exact hreset.elim

/-- A reset with a token spends it. -/
theorem spent_of_resets (h : Distinct p) (hnew : NewToken svc p e)
    (hreset : e.call.ResetsWith token) (hok : ((machine svc).out p.1 e).status = 200) :
    Spent token ((watchedTokens svc).next p e) := by
  obtain ⟨elapsed, req, call⟩ := e
  cases call with
  | changePassword uid body =>
      obtain ⟨hold, htoken⟩ := hreset
      have hcall : (machine svc).step p.1 ⟨elapsed, req, .changePassword uid body⟩ =
          LocalUser.changePassword svc (p.1.at ⟨elapsed, req, .changePassword uid body⟩) req.amb uid
            (body.get "new_password") (.str token) (body.get "old_password")
            (body.get "verify_password") := step_reset htoken
      rw [Machine.out, hcall] at hok
      obtain ⟨-, id, info, nonce, contact, -, hcheck⟩ := changePassword_ok hold hok
      obtain ⟨hconfirmed, hredis⟩ := changePassword_confirms hold hok
      have hissued : TokensIssued (p.1.at ⟨elapsed, req, .changePassword uid body⟩, p.2) := h.issued
      obtain ⟨i, hi, hitoken, hinonce, hid⟩ := issued_of_check hissued hcheck
      have hrecorded : i ∈ recordIssued svc p.2 p.1 ⟨elapsed, req, .changePassword uid body⟩ :=
        mem_recordIssued hi
      refine ⟨⟨i, hrecorded, hitoken⟩, fun k ses d hk hparam => ?_⟩
      have hk : (confirm svc (p.1.at ⟨elapsed, req, .changePassword uid body⟩) req.amb token
          true).1.redis k = some (ses, d) := by
        rw [← hredis, ← hcall]
        exact hk
      obtain ⟨hbefore, hkey⟩ := confirm_param hcheck hconfirmed hk (by rw [hparam]; nofun)
      obtain ⟨j, hj, hjtoken, -, hjkey, -⟩ := h.issued k ses d hbefore (by rw [hparam]; nofun)
      have hsame : i = j := List.inj_on_of_nodup_map h.nodup hi hj
        (hitoken.trans (Val.str.inj (hparam.symm.trans hjtoken)))
      refine hkey ?_
      rw [hjkey, ← hsame, hinonce, Issue.owner, hid, Val.text_str]
  | _ => exact hreset.elim

/-! ### Runs -/

/-- A request that is refused for its passwords changes nothing. -/
theorem badPassword_unchanged {req : Request} {call : Call} (h : call.BadPassword) :
    (handle svc w req call).1 = w ∧ (handle svc w req call).2.status ≠ 200 := by
  cases call with
  | changePassword uid body =>
      cases hnew : LocalUser.checkNew w.db uid (body.get "new_password")
          (body.get "verify_password") with
      | error answer =>
          have hrefused : handle svc w req (.changePassword uid body) = (w, answer) := by
            simp only [handle, LocalUser.changePassword, hnew]
          rw [hrefused]
          exact ⟨rfl, checkNew_error hnew⟩
      | ok account =>
          obtain ⟨_, hmatch, hrest⟩ := Checks.bind_eq_ok.mp hnew
          obtain ⟨_, _, hrest⟩ := Checks.bind_eq_ok.mp hrest
          obtain ⟨_, hstrong, _⟩ := Checks.bind_eq_ok.mp hrest
          rw [Checks.ensure_eq_ok] at hmatch hstrong
          rcases h with hdiffer | hweak
          · exact absurd hmatch hdiffer
          · rw [hweak] at hstrong
            cases hstrong
  | _ => exact h.elim

/-- From an empty session store on, with a new token for every confirmation that is requested: each token
resets at most one password, and a request with bad passwords leaves everything as it is. -/
theorem resets_once {w : World} {es : List Event} (hfresh : w.redis = Expiring.empty)
    (h : (watchedTokens svc).Along (NewToken svc) (w, []) es) :
    (∀ token, (watchedTokens svc).total (fun p e => resets svc token p.1 e) (w, []) es ≤ 1) ∧
      (watchedTokens svc).Along (fun p e => e.call.BadPassword →
        ((watchedTokens svc).next p e).1 = p.1.at e ∧
          ((watchedTokens svc).out p e).status ≠ 200) (w, []) es := by
  have hstart : Distinct (w, ([] : List Issue)) := by
    refine ⟨fun k ses d hk => ?_, List.nodup_nil⟩
    rw [hfresh] at hk
    cases hk
  refine ⟨fun token => ?_, h.imp fun _ _ _ hbad => badPassword_unchanged hbad⟩
  have hfirst : ∀ p e, Distinct p → NewToken svc p e → resets svc token p.1 e = 0 ∨
      (resets svc token p.1 e = 1 ∧ Spent token ((watchedTokens svc).next p e)) := by
    intro p e hp hnew
    unfold resets
    split_ifs with hreset
    · exact Or.inr ⟨rfl, spent_of_resets hp hnew hreset.1 hreset.2⟩
    · exact Or.inl rfl
  have hspent : ∀ p e, Distinct p → Spent token p → NewToken svc p e → resets svc token p.1 e = 0 ∧
      Spent token ((watchedTokens svc).next p e) := by
    intro p e hp hspent hnew
    refine ⟨?_, spent_next hspent hnew⟩
    unfold resets
    rw [if_neg]
    rintro ⟨hreset, hok⟩
    exact not_resets_of_spent hspent hreset hok
  exact h.total_le_one (fun p e hp hnew => distinct_next hp hnew) hfirst hspent hstart

/-- A token is requested, presented with a weak password, and used. -/
def usedRun : List Event :=
  [⟨0, Seed.request {} "t1", .confirmationGet "x-c0002"⟩,
    ⟨1, Seed.request {} "t2", .changePassword "u-0002" (resetBody "weak")⟩,
    ⟨1, Seed.request {} "t3", .changePassword "u-0002" (resetBody "Passw0rd!")⟩]
where
  /-- A new password, given twice, with the token. -/
  resetBody (password : String) : Dict :=
    Dict.ofList [("new_password", .str password), ("verify_password", .str password),
      ("reset_token", .str "100|x-c0002:second@example.com:noncet1")]

theorem usedRun_once :
    ((∀ token, (watchedTokens Seed.service).total (fun p e => resets Seed.service token p.1 e)
        (Seed.world Seed.shared, []) usedRun ≤ 1) ∧
      (watchedTokens Seed.service).Along (fun p e => e.call.BadPassword →
        ((watchedTokens Seed.service).next p e).1 = p.1.at e ∧
          ((watchedTokens Seed.service).out p e).status ≠ 200) (Seed.world Seed.shared, []) usedRun) ∧
    (watchedTokens Seed.service).total (fun p e => resets Seed.service
      "100|x-c0002:second@example.com:noncet1" p.1 e) (Seed.world Seed.shared, []) usedRun = 1 := by
  refine ⟨resets_once rfl ⟨?_, ?_, ?_, trivial⟩, by decide +kernel⟩
  · intro i _ j hj
    cases hj
  all_goals
    intro i hissued
    cases hissued

end Apicrud
