import Apicrud.DisabledAccounts

/-! # One-time passwords over a run

The attempts of `totp_func.login` as a machine.  The other requests are what they may have done
between two attempts: any database and any sessions; only the attempts mark a password as used.

A time-based password is good for ninety seconds and its mark lasts sixty, so a password used before its
step begins outlives its mark (`once_along`, `earlyPassword_twice`). -/

namespace Apicrud

open Relational

namespace TotpFunc

/-- An attempt, with the sessions at that moment. -/
structure Attempt where
  redis : Redis
  req : Request
  username : String
  otp : String

/-- An attempt, or what happens to the database elsewhere. -/
inductive Action where
  | attempt (a : Attempt)
  | elsewhere (db : Database)

/-- The committed database, the marks of used passwords and the time. -/
structure State where
  db : Database
  otps : Expiring (String × String) Unit
  now : ℕ

/-- The world that an attempt finds. -/
def State.world (s : State) (a : Attempt) : World := ⟨s.db, a.redis, s.otps, fun _ => none, s.now⟩

variable (svc : Service)

/-- One action at the time of the state; an attempt gives the accepted account. -/
def act (s : State) : Action → State × Option Row
  | .attempt a =>
      match login svc (s.world a) a.req a.username a.otp with
      | (w, .ok account) => (⟨w.db, w.otps, s.now⟩, some account)
      | (w, .error _) => (⟨w.db, w.otps, s.now⟩, none)
  | .elsewhere db => (⟨db, s.otps, s.now⟩, none)

/-- The state at the time of an action. -/
def State.after (s : State) (elapsed : ℕ) : State := { s with now := s.now + elapsed }

/-- The attempts as a machine: an event is an action with the time that passed before it. -/
def attempts : Machine State (ℕ × Action) (Option Row) where
  step s e := act svc (s.after e.1) e.2

/-- An accepted password: the account with its secret, the password, and the owner and instant of its
mark. -/
structure Use where
  accountId : Val
  secret : String
  otp : String
  mark : String
  now : ℕ
  deriving DecidableEq

/-- The passwords accepted so far, the last one first. -/
def recordUse (log : List Use) (s : State) (e : ℕ × Action) : List Use :=
  match e.2, (attempts svc).out s e with
  | .attempt a, some account =>
      ⟨account "id", (account "totp_secret").text, a.otp,
        (a.req.access svc ((s.after e.1).world a)).accountId.text, s.now + e.1⟩ :: log
  | _, _ => log

/-- The attempts, watched for the passwords they accept. -/
def watchedUses : Machine (State × List Use) (ℕ × Action) (Option Row) :=
  (attempts svc).withHistory (recordUse svc)

/-! ### What an attempt does -/

variable {svc} {s : State} {a : Attempt}

/-- The mark of an attempt. -/
def Attempt.key (svc : Service) (a : Attempt) (s : State) : String × String :=
  ((a.req.access svc (s.world a)).accountId.text, a.otp)

/-- An attempt is refused and leaves the marks as they are, or it sets its own for sixty seconds where
none was live. -/
theorem login_marks {w : World} {r : Except Response Row}
    (h : login svc (s.world a) a.req a.username a.otp = (w, r)) :
    (w.otps = s.otps ∧ ∃ answer, r = .error answer) ∨
      (s.otps.get s.now (a.key svc s) = none ∧
        w.otps = s.otps.set (a.key svc s) () (s.now + 60)) := by
  unfold login at h
  simp only at h
  split at h
  · cases h
    exact Or.inl ⟨rfl, _, rfl⟩
  · cases h
    exact Or.inl ⟨rfl, _, rfl⟩
  · split at h
    · cases h
      exact Or.inl ⟨rfl, _, rfl⟩
    · split at h
      · cases h
        exact Or.inl ⟨rfl, _, rfl⟩
      · rename_i otps hmark
        have hmark := Expiring.setNX_eq_some.mp hmark
        refine Or.inr ?_
        split_ifs at h
        · cases h
          exact hmark
        · revert h
          split
          all_goals
            intro h
            cases h
            exact hmark

theorem act_attempt {w : World} {r : Except Response Row}
    (h : login svc (s.world a) a.req a.username a.otp = (w, r)) :
    act svc s (.attempt a) = (⟨w.db, w.otps, s.now⟩, r.toOption) := by
  unfold act
  simp only
  rw [h]
  cases r <;> rfl

/-! ### A password and its step -/

/-- The password is the one of a step, at an instant of the step before, of the step or of the one
after. -/
def Presents (code : String → ℕ → String) (secret otp : String) (now k : ℕ) : Prop :=
  otp = code secret k ∧ k ≤ now / 30 + 1 ∧ now / 30 ≤ k + 1

/-- An accepted attempt presents no step's password that was accepted before. -/
def Once (svc : Service) (code : String → ℕ → String) (p : State × List Use) (e : ℕ × Action) : Prop :=
  ∀ a account k, e.2 = .attempt a → (watchedUses svc).out p e = some account →
    Presents code (account "totp_secret").text a.otp (p.1.now + e.1) k →
    ∀ use ∈ p.2, use.accountId = account "id" → use.secret = (account "totp_secret").text →
      ¬ Presents code use.secret use.otp use.now k

/-- The condition on an attempt with a password that was accepted before: it was accepted once its step
had begun, or less than sixty seconds ago, and under the same mark. -/
def InTime (svc : Service) (code : String → ℕ → String) (p : State × List Use) (e : ℕ × Action) :
    Prop :=
  ∀ a acc k use, e.2 = .attempt a →
    account ((p.1.after e.1).world a) (a.req.access svc ((p.1.after e.1).world a)) a.username =
      .ok acc →
    Presents code (acc "totp_secret").text a.otp (p.1.now + e.1) k → use ∈ p.2 →
    use.accountId = acc "id" → use.secret = (acc "totp_secret").text →
    Presents code use.secret use.otp use.now k →
    (30 * k ≤ use.now ∨ p.1.now + e.1 < use.now + 60) ∧
      use.mark = (a.key svc (p.1.after e.1)).1

/-- Every accepted password has its mark. -/
def Marked (p : State × List Use) : Prop :=
  ∀ use ∈ p.2, use.now ≤ p.1.now ∧
    ∃ d, use.now + 60 ≤ d ∧ p.1.otps (use.mark, use.otp) = some ((), d)

/-! ### Marks over a run -/

variable {p : State × List Use} {elapsed : ℕ}

/-- A mark outlasts a later one that takes its place. -/
theorem marked_set {otps : Expiring (String × String) Unit} {now' : ℕ} {use : Use}
    {key : String × String} (huse : use.now ≤ now')
    (hmark : ∃ d, use.now + 60 ≤ d ∧ otps (use.mark, use.otp) = some ((), d)) :
    ∃ d, use.now + 60 ≤ d ∧ (otps.set key () (now' + 60)) (use.mark, use.otp) = some ((), d) := by
  obtain ⟨d, hd, hk⟩ := hmark
  rw [Expiring.set_apply]
  split_ifs with hkey
  · exact ⟨now' + 60, by omega, rfl⟩
  · exact ⟨d, hd, hk⟩

theorem marked_next (p : State × List Use) (e : ℕ × Action) (h : Marked p) :
    Marked ((watchedUses svc).next p e) := by
  obtain ⟨elapsed, action⟩ := e
  cases action with
  | elsewhere db =>
      intro use huse
      obtain ⟨hle, hmark⟩ := h use huse
      exact ⟨Nat.le_add_right_of_le hle, hmark⟩
  | attempt a =>
      rcases hlogin : login svc ((p.1.after elapsed).world a) a.req a.username a.otp with ⟨w, r⟩
      have hact := act_attempt hlogin
      have hnext : (watchedUses svc).next p (elapsed, .attempt a) =
          (⟨w.db, w.otps, p.1.now + elapsed⟩, recordUse svc p.2 p.1 (elapsed, .attempt a)) := by
        change ((act svc (p.1.after elapsed) (.attempt a)).1, _) = _
        rw [hact]
        rfl
      have hlog : recordUse svc p.2 p.1 (elapsed, .attempt a) = p.2 ∨
          (∃ account, r = .ok account) ∧ ∃ use, use.now = p.1.now + elapsed ∧
            (use.mark, use.otp) = a.key svc (p.1.after elapsed) ∧
            recordUse svc p.2 p.1 (elapsed, .attempt a) = use :: p.2 := by
        have hout : (attempts svc).out p.1 (elapsed, .attempt a) = r.toOption := by
          change (act svc (p.1.after elapsed) (.attempt a)).2 = _
          rw [hact]
        unfold recordUse
        rw [hout]
        cases r with
        | error answer => exact Or.inl rfl
        | ok account => exact Or.inr ⟨⟨account, rfl⟩, _, rfl, rfl, rfl⟩
      rw [hnext]
      rcases login_marks hlogin with ⟨hsame, answer, hrefused⟩ | ⟨hfree, hset⟩
      · rcases hlog with hlog | ⟨⟨account, haccepted⟩, -⟩
        · intro use huse
          rw [hlog] at huse
          obtain ⟨hle, hmark⟩ := h use huse
          exact ⟨Nat.le_add_right_of_le hle, by rw [hsame]; exact hmark⟩
        · rw [hrefused] at haccepted
          cases haccepted
      · have hold : ∀ use ∈ p.2, use.now ≤ p.1.now + elapsed ∧
            ∃ d, use.now + 60 ≤ d ∧ w.otps (use.mark, use.otp) = some ((), d) := by
          intro use huse
          obtain ⟨hle, hmark⟩ := h use huse
          rw [hset]
          exact ⟨Nat.le_add_right_of_le hle, marked_set (Nat.le_add_right_of_le hle) hmark⟩
        rcases hlog with hlog | ⟨-, new, hnow, hkey, hlog⟩
        · rw [hlog]
          exact hold
        · rw [hlog]
          intro use huse
          rcases List.mem_cons.mp huse with rfl | huse
          · refine ⟨hnow.le, p.1.now + elapsed + 60, by omega, ?_⟩
            change w.otps (use.mark, use.otp) = _
            rw [hset, hkey, Expiring.set_apply, if_pos rfl]
            rfl
          · exact hold use huse

/-- A live mark stands in the way of the attempt. -/
theorem once_of_marked (code : String → ℕ → String) (e : ℕ × Action) (h : Marked p)
    (htime : InTime svc code p e) : Once svc code p e := by
  intro a acc k hattempt hout hpresents use huse haccount hsecret hpresented
  obtain ⟨elapsed, action⟩ := e
  simp only at hattempt hout hpresents
  subst hattempt
  rcases hlogin : login svc ((p.1.after elapsed).world a) a.req a.username a.otp with ⟨w, r⟩
  have hr : r = .ok acc := by
    change (act svc (p.1.after elapsed) (.attempt a)).2 = some acc at hout
    rw [act_attempt hlogin] at hout
    cases r with
    | error answer => cases hout
    | ok account => exact congrArg _ (Option.some.inj hout)
  subst hr
  obtain ⟨hfound, -⟩ := totpLogin_ok hlogin
  obtain ⟨hsoon, hmark⟩ := htime a acc k use rfl hfound hpresents huse haccount hsecret hpresented
  obtain ⟨-, d, hd, hk⟩ := h use huse
  have hotp : use.otp = a.otp := by
    rw [hpresented.1, hpresents.1, hsecret]
  have hkey : (use.mark, use.otp) = a.key svc (p.1.after elapsed) := by
    rw [hmark, hotp]
    rfl
  -- a password is good until sixty seconds after its step begins
  have hlive : p.1.now + elapsed < d := by
    obtain ⟨-, -, hlast⟩ := hpresents
    rcases hsoon with hsoon | hsoon
    · omega
    · omega
  rcases login_marks hlogin with ⟨-, answer, hrefused⟩ | ⟨hfree, -⟩
  · cases hrefused
  · have hfound : (p.1.after elapsed).otps.get (p.1.after elapsed).now
        (a.key svc (p.1.after elapsed)) = some () :=
      Expiring.get_eq_some.mpr ⟨d, hkey ▸ hk, hlive⟩
    rw [hfound] at hfree
    cases hfree

/-- As long as used passwords come back in time, no password of a step is accepted twice. -/
theorem once_along (code : String → ℕ → String) {s : State} {es : List (ℕ × Action)}
    (h : (watchedUses svc).Along (InTime svc code) (s, []) es) :
    (watchedUses svc).Along (Once svc code) (s, []) es := by
  refine h.of_invariant (fun p e hmarked _ => marked_next p e hmarked)
    (fun p e hmarked htime => once_of_marked code e hmarked htime) ?_
  intro use huse
  cases huse

/-! ### A password after its step, and one before it -/

/-- The sessions in which the other user is asked for the one-time password. -/
def pendingSession (now : ℕ) : Redis :=
  (SessionManager.create {} Expiring.empty now (some "u-0002") ["pendingtotp"] none "t1" 120
    [("acc", .str "x-a0002")]).1

/-- The other user presents a one-time password in that session. -/
def presents (otp : String) : Action :=
  .attempt ⟨pendingSession 60, Seed.request { authorization := some ("u-0002", "t1") } "t2",
    "second", otp⟩

/-- The passwords of the seeded installation. -/
def seedCode (secret : String) (k : ℕ) : String := secret ++ toString k

/-- The installation in which the other user has enrolled. -/
def enrolledAt (now : ℕ) : State := ⟨enrolled, Expiring.empty, now⟩

/-- A password of the running step, the same again, and the one of the next step. -/
def timelyRun : List (ℕ × Action) :=
  [(0, presents "SECRET3"), (10, presents "SECRET3"), (20, presents "SECRET4")]

theorem timelyRun_once : (watchedUses Seed.service).Along (Once Seed.service seedCode)
    (enrolledAt 100, []) timelyRun := by
  refine once_along seedCode ⟨?_, ?_, ?_, trivial⟩
  · intro a acc k use _ _ _ huse
    cases huse
  · intro a acc k use hattempt _ _ huse
    cases hattempt
    have huses : ∀ use ∈ ((watchedUses Seed.service).run (enrolledAt 100, [])
        (timelyRun.take 1)).2, use.now = 100 ∧ use.mark = "x-a0002" := by decide +kernel
    obtain ⟨hnow, hmark⟩ := huses use huse
    rw [hnow, hmark]
    exact fun _ _ _ => ⟨Or.inr (by decide), by decide +kernel⟩
  · intro a acc k use hattempt _ _ huse
    cases hattempt
    have huses : ∀ use ∈ ((watchedUses Seed.service).run (enrolledAt 100, [])
        (timelyRun.take 2)).2, use.now = 100 ∧ use.mark = "x-a0002" := by decide +kernel
    obtain ⟨hnow, hmark⟩ := huses use huse
    rw [hnow, hmark]
    exact fun _ _ _ => ⟨Or.inr (by decide), by decide +kernel⟩

/-- A password before its step begins, and the same sixty seconds later. -/
def earlyRun : List (ℕ × Action) := [(0, presents "SECRET3"), (60, presents "SECRET3")]

/-- Both are accepted: the mark is gone before the password is. -/
theorem earlyPassword_twice : ¬ (watchedUses Seed.service).Along (Once Seed.service seedCode)
    (enrolledAt 65, []) earlyRun := by
  intro h
  have hsecond := h.2.1
  have haccepted : ((watchedUses Seed.service).out ((watchedUses Seed.service).run
      (enrolledAt 65, []) (earlyRun.take 1)) (60, presents "SECRET3")).map
        (fun row => (row "id", row "totp_secret")) = some (.str "x-a0002", .str "SECRET") := by
    decide +kernel
  rcases hout : (watchedUses Seed.service).out ((watchedUses Seed.service).run
      (enrolledAt 65, []) (earlyRun.take 1)) (60, presents "SECRET3") with _ | account
  · rw [hout] at haccepted
    cases haccepted
  · rw [hout] at haccepted
    have hcells := Option.some.inj haccepted
    have hid : account "id" = .str "x-a0002" := congrArg Prod.fst hcells
    have hsecret : account "totp_secret" = .str "SECRET" := congrArg Prod.snd hcells
    have huse : ∃ use ∈ ((watchedUses Seed.service).run (enrolledAt 65, []) (earlyRun.take 1)).2,
        use = ⟨.str "x-a0002", "SECRET", "SECRET3", "x-a0002", 65⟩ := by decide +kernel
    obtain ⟨use, huse, rfl⟩ := huse
    refine hsecond _ account 3 rfl hout ?_ _ huse hid.symm (by rw [hsecret]; rfl) ?_
    · rw [hsecret]
      exact ⟨by decide +kernel, by decide +kernel, by decide +kernel⟩
    · exact ⟨by decide +kernel, by decide, by decide⟩

end TotpFunc

end Apicrud
