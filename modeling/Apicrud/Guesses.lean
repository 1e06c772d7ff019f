import Apicrud.Alternating
import Apicrud.Lockout

/-! # Guesses

The limit counts under the username that a request sends; the account whose credential is compared is
chosen by its name, by the identity of its person or by the session.  With an exact limit, an account
that is always compared under one name stays within the limit (`guesses_along`); the counters of
`RateLimit` are exact in a run without success, as long as no login comes in the last second of an
interval (`Limited.counted_le`). -/

namespace Apicrud

open Relational

variable (svc : Service)

/-! ### What is counted -/

/-- The interval of an instant. -/
def window (now : ℕ) : ℕ := now / RateLimit.interval svc.conf

/-- The comparisons of an event with a credential of the account, when it is in the window. -/
def guesses (n : ℕ) (id : String) (w : World) (e : Event) : ℕ :=
  if window svc (w.at e).now = n then (checksAt svc w e).countP fun c => c.accountId = .str id else 0

/-- One for a login in the window that is let through and counted under the name. -/
def counted (n : ℕ) (uid : String) (w : World) (e : Event) : ℕ :=
  match e.call with
  | .login username _ _ _ =>
      if window svc (w.at e).now = n ∧ e.req.amb.lockedOut = false ∧
          RateLimit.uidOf svc (w.at e) e.req username = some uid then 1
      else 0
  | _ => 0

/-- `RateLimit.call` is exact: in a window, at most the limit of calls under a name are let through.
A limit of zero would be one that is not set. -/
def Exact (w : World) (es : List Event) : Prop :=
  svc.conf.loginAttemptsMax ≠ 0 ∧
    ∀ n uid, (machine svc).total (counted svc n uid) w es ≤ svc.conf.loginAttemptsMax

/-- Whatever account an event compares a credential of, the limit counts it under the name of that
account for the window. -/
def Spelled (name : ℕ → String → String) (w : World) (e : Event) : Prop :=
  ∀ username password method otp id, e.call = .login username password method otp →
    (∃ c ∈ checksAt svc w e, c.accountId = .str id) →
    RateLimit.uidOf svc (w.at e) e.req username = some (name (window svc (w.at e).now) id)

variable {svc} {w : World} {req : Request} {username id : String} {password method otp : Val}

/-! ### One request, one comparison -/

theorem countP_directory (amb : Ambient) :
    (directoryChecks svc amb).countP (fun c => c.accountId = .str id) = 0 := by
  unfold directoryChecks
  split
  · rfl
  · rfl

theorem passwordChecks_length (db : Database) :
    (passwordChecks svc db username password).length ≤ 1 := by
  unfold passwordChecks
  split
  · exact Nat.zero_le 1
  · split_ifs
    · exact Nat.zero_le 1
    · exact Nat.le_refl 1

theorem otpChecks_length (acc : Access) (otp : String) :
    (otpChecks svc w acc username otp).length ≤ 1 := by
  unfold otpChecks
  split
  · exact Nat.zero_le 1
  · split_ifs
    · exact Nat.le_refl 1
    · exact Nat.le_refl 1
    · exact Nat.zero_le 1

/-- Each time that `local` is gone through, one password is compared at most. -/
theorem countP_methodChecks (amb : Ambient) (items : List String) (w : World) :
    (methodChecks svc amb username password w items).countP (fun c => c.accountId = .str id) ≤
      items.count "local" := by
  induction items generalizing w with
  | nil => exact Nat.le_refl 0
  | cons item items ih =>
      rw [methodChecks]
      split_ifs with hlocal hldap
      · rw [List.countP_append, hlocal, List.count_cons_self]
        have hfirst : (passwordChecks svc w.db username password).countP
            (fun c => c.accountId = .str id) ≤ 1 :=
          (List.countP_le_length).trans (passwordChecks_length w.db)
        split
        · rw [List.countP_nil]
          omega
        · have hrest := ih w
          omega
      · rw [List.countP_append, countP_directory, List.count_cons_of_ne hlocal]
        split
        · exact Nat.zero_le _
        · rename_i w₁ _ _
          have hrest := ih w₁
          omega
      · rw [List.count_cons_of_ne hlocal]
        exact ih w

/-- The letters of a method are no method. -/
theorem count_methodItems (hlocal : svc.conf.authMethods.count "local" ≤ 1)
    (hmethod : ¬ method.truthy ∨ method ∈ svc.conf.authMethods.map .str) :
    (SessionAuth.methodItems svc method).count "local" ≤ 1 := by
  unfold SessionAuth.methodItems
  split_ifs with htruthy
  · have hmem := hmethod.resolve_left (not_not.mpr htruthy)
    obtain ⟨s, -, rfl⟩ := List.mem_map.mp hmem
    have hnone : "local" ∉ ((Val.str s).items.getD []) := by
      intro hmem
      obtain ⟨c, -, hc⟩ := List.mem_map.mp hmem
      have hlength := congrArg (fun s => s.toList.length) hc
      simp at hlength
    rw [List.count_eq_zero_of_not_mem hnone]
    exact Nat.zero_le 1
  · exact hlocal

theorem countP_checks (hlocal : svc.conf.authMethods.count "local" ≤ 1) :
    (checks svc w req username password method otp).countP (fun c => c.accountId = .str id) ≤ 1 := by
  unfold checks
  split_ifs with htakes hotp hprovider hmethod
  · exact (List.countP_le_length).trans (otpChecks_length _ _)
  · exact Nat.zero_le 1
  · exact Nat.zero_le 1
  · exact (countP_methodChecks _ _ _).trans (count_methodItems hlocal hmethod)
  · exact Nat.zero_le 1

theorem countP_checksAt (hlocal : svc.conf.authMethods.count "local" ≤ 1) (w : World) (e : Event) :
    (checksAt svc w e).countP (fun c => c.accountId = .str id) ≤ 1 := by
  unfold checksAt
  split
  · split_ifs
    · exact Nat.zero_le 1
    · exact countP_checks hlocal
  · exact Nat.zero_le 1

/-- A guess is a login that is counted under the name of the account. -/
theorem guesses_le (hlocal : svc.conf.authMethods.count "local" ≤ 1)
    {name : ℕ → String → String} {e : Event} (h : Spelled svc name w e) (n : ℕ) (id : String) :
    guesses svc n id w e ≤ counted svc n (name n id) w e := by
  unfold guesses
  split_ifs with hwindow
  · rcases Nat.eq_zero_or_pos ((checksAt svc w e).countP fun c => c.accountId = .str id) with
      hzero | hpos
    · omega
    · obtain ⟨c, hc, hid⟩ := List.countP_pos_iff.mp hpos
      have hone : (checksAt svc w e).countP (fun c => c.accountId = .str id) ≤ 1 :=
        countP_checksAt hlocal w e
      have hcounted : counted svc n (name n id) w e = 1 := by
        obtain ⟨elapsed, req, call⟩ := e
        cases call with
        | login username password method otp =>
            have huid := h username password method otp id rfl ⟨c, hc, of_decide_eq_true hid⟩
            rw [hwindow] at huid
            have hopen : req.amb.lockedOut = false := by
              by_contra hlocked
              have hnone : checksAt svc w ⟨elapsed, req, .login username password method otp⟩ = [] :=
                if_pos (Bool.not_eq_false _ ▸ hlocked)
              rw [hnone] at hc
              cases hc
            exact if_pos ⟨hwindow, hopen, huid⟩
        | _ => cases hc
      omega
  · exact Nat.zero_le _

/-- Under an exact limit, an account that is compared under one name in a window is compared at most as
often as the limit says. -/
theorem guesses_along {name : ℕ → String → String} {es : List Event}
    (hlocal : svc.conf.authMethods.count "local" ≤ 1) (hexact : Exact svc w es)
    (h : (machine svc).Along (Spelled svc name) w es) (n : ℕ) (id : String) :
    (machine svc).total (guesses svc n id) w es ≤ svc.conf.loginAttemptsMax := by
  have hle : (machine svc).Along (fun w e => guesses svc n id w e ≤ counted svc n (name n id) w e)
      w es := h.imp fun w e hspelled => guesses_le hlocal hspelled n id
  exact hle.total_le.trans (hexact.2 n (name n id))

/-! ### The counters are exact -/

/-- The calls that were let through under a name in a window stand on its counter, until the window is
over. -/
def Stands (svc : Service) (counters : Counters) (now n : ℕ) (uid : String) (c : ℕ) : Prop :=
  c ≤ svc.conf.loginAttemptsMax ∧ (c = 0 ∨ n < window svc now ∨ n = window svc now ∧
    ∃ calls d, counters (uid, n % 2) = some (calls, d) ∧ c ≤ calls ∧
      (n + 1) * RateLimit.interval svc.conf ≤ d + 1)

/-- Time passes. -/
theorem Stands.later {counters : Counters} {now now' n c : ℕ} {uid : String}
    (h : Stands svc counters now n uid c) (hnow : now ≤ now') : Stands svc counters now' n uid c := by
  obtain ⟨hmax, hzero | hpast | ⟨hn, hlive⟩⟩ := h
  · exact ⟨hmax, Or.inl hzero⟩
  · exact ⟨hmax, Or.inr (Or.inl (hpast.trans_le (Nat.div_le_div_right hnow)))⟩
  · have hle : window svc now ≤ window svc now' := Nat.div_le_div_right hnow
    rcases Nat.eq_or_lt_of_le hle with heq | hlt
    · exact ⟨hmax, Or.inr (Or.inr ⟨hn.trans heq, hlive⟩)⟩
    · exact ⟨hmax, Or.inr (Or.inl (hn ▸ hlt))⟩

theorem curr_eq (now : ℕ) : RateLimit.curr svc.conf now = window svc now % 2 := Alternating.curr_eq ..

/-- A call that is let through before the last second of a window is counted on top of the others. -/
theorem Stands.counted {counters : Counters} {now n c calls : ℕ} {uid : String}
    (h : Stands svc counters now n uid c) (hn : window svc now = n)
    (hinterval : 0 < RateLimit.interval svc.conf)
    (hlast : now + 1 < (n + 1) * RateLimit.interval svc.conf)
    (hcalls : (counters.get now (uid, RateLimit.curr svc.conf now)).getD 0 = calls)
    (hbelow : calls < svc.conf.loginAttemptsMax) :
    Stands svc (RateLimit.count svc.conf counters now uid calls) now n uid (c + 1) := by
  have hcurr : RateLimit.curr svc.conf now = n % 2 := by rw [curr_eq, hn]
  have hle : c ≤ calls := by
    obtain ⟨-, hzero | hpast | ⟨-, calls', d, hentry, hle, hd⟩⟩ := h
    · omega
    · omega
    · have hlive : counters.get now (uid, n % 2) = some calls' :=
        Expiring.get_eq_some.mpr ⟨d, hentry, by omega⟩
      rw [hcurr, hlive] at hcalls
      exact hcalls ▸ hle
  have hstart : n * RateLimit.interval svc.conf ≤ now := by
    rw [← hn]
    exact Nat.div_mul_le_self now _
  refine ⟨by omega, Or.inr (Or.inr ⟨hn.symm, calls + 1, now + (RateLimit.interval svc.conf - 1), ?_,
    by omega, ?_⟩)⟩
  · rw [← hcurr]
    exact Alternating.count_self _ counters now uid calls
  · rw [Nat.succ_mul]
    omega

/-- Calls under other names, and calls that are kept away, leave a counter alone. -/
theorem Stands.other {counters : Counters} {now n c calls : ℕ} {uid uid' : String}
    (h : Stands svc counters now n uid c) (hother : window svc now = n → uid ≠ uid') :
    Stands svc (RateLimit.count svc.conf counters now uid' calls) now n uid c := by
  obtain ⟨hmax, hzero | hpast | ⟨hn, calls', d, hentry, hrest⟩⟩ := h
  · exact ⟨hmax, Or.inl hzero⟩
  · exact ⟨hmax, Or.inr (Or.inl hpast)⟩
  · have hsame := Alternating.count_ne (RateLimit.interval svc.conf) counters now calls (n % 2)
      (hother hn.symm)
    exact ⟨hmax, Or.inr (Or.inr ⟨hn, calls', d, hsame.trans hentry, hrest⟩)⟩

namespace Limited

/-- A login fails, and does not come in the last second of a window. -/
def Quiet (svc : Service) (s : Limited) (e : Event) : Prop :=
  ∀ username password method otp, e.call = .login username password method otp →
    ¬ ((machine svc).out s e).Accepts ∧
      (s.at e).world.now + 1 <
        (window svc (s.at e).world.now + 1) * RateLimit.interval svc.conf

theorem next_now (s : Limited) (e : Event) :
    ((machine svc).next s e).world.now = s.world.now + e.elapsed := by
  rw [next_world]
  have hserves := handle_serves svc (s.world.at (seen svc s e)) (seen svc s e).req (seen svc s e).call
  have helapsed : (seen svc s e).elapsed = e.elapsed := by
    unfold seen
    split <;> rfl
  exact hserves.now.trans (congrArg (s.world.now + ·) helapsed)

/-- What a failing login does to the counters. -/
theorem stands_login (hmax : svc.conf.loginAttemptsMax ≠ 0) {s : Limited} {n c : ℕ} {uid : String}
    (h : Stands svc s.attempts s.world.now n uid c)
    (hlast : s.world.now + 1 < (window svc s.world.now + 1) * RateLimit.interval svc.conf)
    (hfails : ¬ (accountLogin svc s req username password method otp).2.Accepts) :
    Stands svc (accountLogin svc s req username password method otp).1.attempts s.world.now n uid
      (c + if window svc s.world.now = n ∧ locks svc s req username = false ∧
        RateLimit.uidOf svc s.world req username = some uid then 1 else 0) := by
  unfold accountLogin at hfails ⊢
  unfold locks
  cases hcall : RateLimit.call svc s.attempts s.world req username with
  | none => simpa using h
  | some r =>
      obtain ⟨attempts, locked⟩ := r
      rw [hcall] at hfails
      simp only [if_neg hfails]
      by_cases hkept : locked = true ∨ RateLimit.uidOf svc s.world req username = none
      · rw [RateLimit.call_unchanged hcall hkept, if_neg]
        · exact h
        · rintro ⟨-, hopen, huid⟩
          rcases hkept with hlocked | hnone
          · exact absurd (hopen.symm.trans hlocked) (by decide)
          · exact absurd (hnone.symm.trans huid) (by simp)
      · rw [not_or, Bool.not_eq_true] at hkept
        obtain ⟨rfl, hname⟩ := hkept
        obtain ⟨uid', huid'⟩ := Option.ne_none_iff_exists'.mp hname
        obtain ⟨hinterval, calls, hbelow, hcalls, rfl⟩ := RateLimit.call_open hmax huid' hcall
        rw [huid']
        split_ifs with hcounted
        · cases Option.some.inj hcounted.2.2
          exact h.counted hcounted.1 hinterval (hcounted.1 ▸ hlast) hcalls hbelow
        · refine h.other fun hwindow huid => hcounted ⟨hwindow, rfl, congrArg some huid.symm⟩

theorem stands_next (hmax : svc.conf.loginAttemptsMax ≠ 0) {s : Limited} {e : Event} {n c : ℕ}
    {uid : String} (h : Stands svc s.attempts s.world.now n uid c) (hquiet : Quiet svc s e) :
    Stands svc ((machine svc).next s e).attempts ((machine svc).next s e).world.now n uid
      (c + counted svc n uid s.world (seen svc s e)) := by
  rw [next_now]
  have hlater := h.later (Nat.le_add_right s.world.now e.elapsed)
  obtain ⟨elapsed, req, call⟩ := e
  cases call with
  | login username password method otp =>
      obtain ⟨hfails, hlast⟩ := hquiet username password method otp rfl
      exact stands_login hmax hlater hlast hfails
  | _ => exact hlater

/-- In a run of failing logins, the counters count exactly. -/
theorem counted_le (hmax : svc.conf.loginAttemptsMax ≠ 0) {s : Limited} {es : List Event} {n c : ℕ}
    {uid : String} (h : Stands svc s.attempts s.world.now n uid c)
    (hquiet : (machine svc).Along (Quiet svc) s es) :
    c + (machine svc).total (fun s e => counted svc n uid s.world (seen svc s e)) s es ≤
      svc.conf.loginAttemptsMax := by
  induction es generalizing s c with
  | nil => exact h.1
  | cons e es ih =>
      have hrest := ih (stands_next hmax h hquiet.1) hquiet.2
      rw [Machine.total_cons]
      omega

/-- So the limit of the code holds an account to its number of guesses when every login fails, none comes
in the last second of a window, and the account is always compared under one name. -/
theorem guesses_quiet (hmax : svc.conf.loginAttemptsMax ≠ 0)
    (hlocal : svc.conf.authMethods.count "local" ≤ 1) {name : ℕ → String → String} {s : Limited}
    {es : List Event} (hquiet : (machine svc).Along (Quiet svc) s es)
    (h : (machine svc).Along (fun s e => Spelled svc name s.world (seen svc s e)) s es) (n : ℕ)
    (id : String) :
    (machine svc).total (fun s e => guesses svc n id s.world (seen svc s e)) s es ≤
      svc.conf.loginAttemptsMax := by
  have hle : (machine svc).Along (fun s e => guesses svc n id s.world (seen svc s e) ≤
      counted svc n (name n id) s.world (seen svc s e)) s es :=
    h.imp fun s e hspelled => guesses_le hlocal hspelled n id
  have hstands : Stands svc s.attempts s.world.now n (name n id) 0 := ⟨Nat.zero_le _, Or.inl rfl⟩
  have hcounted := counted_le hmax hstands hquiet
  have htotal := hle.total_le
  omega

end Limited

/-! ### One account under two names -/

/-- A wrong password for the other user, under one of the names of the account. -/
def guess (username : String) : Event :=
  ⟨1, Seed.request {} "t1", .login username (.str "guess") .none .none⟩

/-- A login is not answered by 200 or 201. -/
def Fails (svc : Service) (w : World) (e : Event) : Prop := ¬ ((machine svc).out w e).Accepts

theorem counted_guess (n : ℕ) (uid username : String) (w : World) (hname : username ≠ "") :
    counted Seed.service n uid w (guess username) ≤ if username = uid then 1 else 0 := by
  have huid : RateLimit.uidOf Seed.service (w.at (guess username)) (guess username).req username =
      some username := if_pos hname
  change (if _ ∧ _ ∧ RateLimit.uidOf Seed.service (w.at (guess username)) (guess username).req
    username = some uid then 1 else 0) ≤ _
  split_ifs with h h' h'
  · exact Nat.le_refl 1
  · exact absurd (Option.some.inj (huid.symm.trans h.2.2)) h'
  · exact Nat.zero_le 1
  · exact Nat.le_refl 0

theorem counted_guesses (n : ℕ) (uid : String) {names : List String} (hnames : "" ∉ names)
    (w : World) :
    (machine Seed.service).total (counted Seed.service n uid) w (names.map guess) ≤
      names.count uid := by
  induction names generalizing w with
  | nil => exact Nat.le_refl 0
  | cons name names ih =>
      rw [List.mem_cons, not_or] at hnames
      have hfirst := counted_guess n uid name w (Ne.symm hnames.1)
      have hrest := ih hnames.2 ((machine Seed.service).next w (guess name))
      rw [List.map_cons, Machine.total_cons, List.count_cons]
      simp only [beq_iff_eq]
      omega

/-- Guesses are within an exact limit when no name occurs more than five times. -/
theorem exact_guesses {names : List String} (hnames : "" ∉ names)
    (hcount : ∀ uid ∈ names, names.count uid ≤ 5) (w : World) :
    Exact Seed.service w (names.map guess) := by
  refine ⟨by decide, fun n uid => (counted_guesses n uid hnames w).trans ?_⟩
  by_cases huid : uid ∈ names
  · exact hcount uid huid
  · rw [List.count_eq_zero_of_not_mem huid]
    exact Nat.zero_le _

/-- Five guesses under the name of the account. -/
def fiveNames : List String := List.replicate 5 "second"

theorem fiveGuesses_within : (machine Seed.service).total (guesses Seed.service 0 "x-a0002")
    (Seed.world Seed.shared) (fiveNames.map guess) ≤ 5 := by
  refine @guesses_along Seed.service _ (fun _ _ => "second") _ (by decide)
    (exact_guesses (by decide) (by decide) (Seed.world Seed.shared)) ?_ 0 "x-a0002"
  have hspelled : ∀ w, Spelled Seed.service (fun _ _ => "second") w (guess "second") := by
    intro w username password method otp id hcall _
    cases hcall
    exact if_pos (by decide)
  exact ⟨hspelled _, hspelled _, hspelled _, hspelled _, hspelled _, trivial⟩

/-- And one more under the address of its person. -/
def sixNames : List String := fiveNames ++ ["second@example.com"]

/-- The account has been compared six times, once more than the limit lets through. -/
theorem sixGuesses_exceed : Exact Seed.service (Seed.world Seed.shared) (sixNames.map guess) ∧
    (machine Seed.service).Along (Fails Seed.service) (Seed.world Seed.shared)
      (sixNames.map guess) ∧
    (machine Seed.service).total (guesses Seed.service 0 "x-a0002") (Seed.world Seed.shared)
      (sixNames.map guess) = Seed.service.conf.loginAttemptsMax + 1 := by
  refine ⟨exact_guesses (by decide) (by decide) _, ?_, by decide +kernel⟩
  simp only [sixNames, fiveNames, List.replicate, List.cons_append, List.nil_append, List.map_cons,
    List.map_nil, Machine.along_cons, Fails]
  exact ⟨by decide +kernel, by decide +kernel, by decide +kernel, by decide +kernel,
    by decide +kernel, by decide +kernel, trivial⟩

end Apicrud
