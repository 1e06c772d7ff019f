import Apicrud.Sessions
import Apicrud.Seed

/-! # The second factor over a run

A login with a password skips the one-time password when the cookie of the request names a live
session of the user.  A session with no role, no method and no token is only opened after a
one-time password was verified (`bypassLogged_next`), so the skip is justified whenever the cookie names
such a session (`secondFactor_along`).  But `totp_bypass` accepts any session of the user, and the
session of a confirmed contact is one (`confirmedContact_skips`). -/

namespace Apicrud

open Relational

variable (svc : Service)

/-! ### The cached keys -/

/-- Every cached key was verified at some time. -/
def KeysVerified (w : World) : Prop :=
  ∀ keyId item, w.apikeys keyId = some item → ∃ now, Verified svc now item

variable {svc}

theorem KeysVerified.cached {w : World} (h : KeysVerified svc w) {keyId secret : String}
    {item : CachedKey} (hitem : (ApiKey.cached svc w keyId secret).2 = some item) :
    ∃ now, Verified svc now item := by
  rcases ApiKey.cached_cases svc w keyId secret with ⟨item', hitem', -, hcached⟩ | ⟨-, hcached⟩
  · rw [hcached] at hitem
    cases hitem
    exact h keyId item hitem'
  · obtain ⟨db, hrefill | ⟨record, account, -, hrefill⟩⟩ := ApiKey.refill_cases svc w keyId secret
    · rw [hcached, hrefill] at hitem
      cases hitem
    · rw [hcached, hrefill] at hitem
      cases hitem
      exact ⟨w.now, db, record, account, rfl⟩

theorem KeysVerified.next {w : World} (h : KeysVerified svc w) (e : Event) :
    KeysVerified svc ((machine svc).next w e) := by
  intro keyId item hitem
  rcases (handle_serves svc (w.at e) e.req e.call).keys keyId item hitem with hold | hnew
  · exact h keyId item hold
  · exact ⟨_, hnew⟩

theorem Verified.roles {now : ℕ} {item : CachedKey} (h : Verified svc now item) :
    item.roles = ["admin", "user"] ∨ item.roles = ["user"] := by
  obtain ⟨db, record, account, rfl⟩ := h
  simp only [ApiKey.cacheEntry]
  split_ifs
  · exact Or.inl rfl
  · exact Or.inr rfl

variable (svc)

/-! ### The watched service -/

/-- A verified one-time password: its instant, the account and the token of the bypass session. -/
structure OtpStep where
  now : ℕ
  accountId : Val
  token : String

/-- The one-time passwords verified so far, the last one first. -/
def recordOtp (log : List OtpStep) (w : World) (e : Event) : List OtpStep :=
  match otpAccount svc (w.at e) e.req e.call with
  | some account => ⟨(w.at e).now, account "id", e.req.amb.genId .bypass⟩ :: log
  | none => log

/-- The service, watched for the one-time passwords it verifies. -/
def watchedOtps : Machine (World × List OtpStep) Event Response :=
  (machine svc).withHistory (recordOtp svc)

/-- The request verified a one-time password or backup code of the account, or its cookie is the
token of a bypass session that such a verification opened less than the limit ago. -/
def FactorShown (p : World × List OtpStep) (e : Event) (account : Row) : Prop :=
  (otpAccount svc (p.1.at e) e.req e.call).map (fun row => row "id") = some (account "id") ∨
  ∃ s ∈ p.2, s.accountId = account "id" ∧ e.req.headers.cookie = some s.token ∧
    s.now ≤ (p.1.at e).now ∧ (p.1.at e).now < s.now + svc.conf.loginMfaCookieLimit

/-- A login by one of the two internal methods and without an API key, which gives the role `user`
to an account with a TOTP secret, has shown a second factor. -/
def SecondFactor (p : World × List OtpStep) (e : Event) : Prop :=
  ∀ username password method otp w account m, e.call = .login username password method otp →
    loginArgs svc (p.1.at e) e.req username password method otp = some (w, account, m) →
    SessionAuth.Internal m → (e.req.access svc (p.1.at e)).apikeyId = none →
    hasTotp account = true → "user" ∈ (SessionAuth.acceptedAs svc w e.req account m).roles account →
    ((watchedOtps svc).out p e).status = 201 → FactorShown svc p e account

/-- The content of the sessions that a verified one-time password opens. -/
def IsBypass (ses : Session) : Prop :=
  ses.get "auth" = .str "" ∧ "method" ∉ ses ∧ "param" ∉ ses

instance (ses : Session) : Decidable (IsBypass ses) := inferInstanceAs (Decidable (_ ∧ _))

/-- The condition on a login by password: a live session of the user that the cookie names is a
bypass session of the account. -/
def CookieBypass (p : World × List OtpStep) (e : Event) : Prop :=
  ∀ username password method otp w account m cookie ses,
    e.call = .login username password method otp →
    loginArgs svc (p.1.at e) e.req username password method otp = some (w, account, m) →
    otpAccount svc (p.1.at e) e.req e.call = none → hasTotp account = true →
    ¬ ((account "password_must_change").truthy ∧ m = .str "local") →
    e.req.headers.cookie = some cookie →
    SessionManager.find p.1.redis (p.1.at e).now (some (account "uid").text) cookie none =
      some ses →
    IsBypass ses ∧ ses.get "acc" = account "id"

variable {svc}

/-! ### The two ways to `login_accepted` -/

theorem accountAdd_sessions (w : World) (amb : Ambient) (username uid : Val) :
    (SessionAuth.accountAdd w amb username uid).1.redis = w.redis ∧
      (SessionAuth.accountAdd w amb username uid).1.now = w.now := by
  unfold SessionAuth.accountAdd
  split
  · exact ⟨rfl, rfl⟩
  · simp only
    split <;> exact ⟨rfl, rfl⟩

theorem registerExternal_sessions (svc : Service) (w : World) (amb : Ambient) (identity username name picture : Val) :
    (SessionAuth.registerExternal svc w amb identity username name picture).1.redis = w.redis ∧
      (SessionAuth.registerExternal svc w amb identity username name picture).1.now = w.now := by
  have hreg : (SessionAuth.register svc w amb identity username name false picture).1.redis =
        w.redis ∧
      (SessionAuth.register svc w amb identity username name false picture).1.now = w.now := by
    unfold SessionAuth.register
    split
    · exact ⟨rfl, rfl⟩
    · simp only [Bool.false_eq_true, if_false]
      split <;> exact ⟨rfl, rfl⟩
  unfold SessionAuth.registerExternal
  revert hreg
  rcases SessionAuth.register svc w amb identity username name false picture with ⟨w₁, answer⟩
  intro hreg
  simp only at hreg ⊢
  split
  · exact hreg
  · have hadd := accountAdd_sessions w₁ amb username (answer.body.get "uid")
    rw [hreg.1, hreg.2] at hadd
    revert hadd
    rcases SessionAuth.accountAdd w₁ amb username (answer.body.get "uid") with ⟨w₂, answer₂⟩
    intro hadd
    simp only at hadd ⊢
    split
    · exact hadd
    · split <;> exact hadd

theorem ldapLogin_sessions (svc : Service) (w : World) (amb : Ambient) :
    (LdapFunc.login svc w amb).1.redis = w.redis ∧ (LdapFunc.login svc w amb).1.now = w.now := by
  unfold LdapFunc.login
  split
  · exact ⟨rfl, rfl⟩
  · simp only
    split
    · split
      · exact ⟨rfl, rfl⟩
      · exact ⟨rfl, rfl⟩
      · exact registerExternal_sessions ..
    · exact ⟨rfl, rfl⟩

/-- The password step leaves the sessions alone. -/
theorem tryMethods_sessions (svc : Service) (amb : Ambient) (username : String) (password : Val)
    (items : List String) (w : World) (answer : Response) :
    (SessionAuth.tryMethods svc amb username password w answer items).1.redis = w.redis ∧
      (SessionAuth.tryMethods svc amb username password w answer items).1.now = w.now := by
  induction items generalizing w answer with
  | nil => exact ⟨rfl, rfl⟩
  | cons item items ih =>
      rw [SessionAuth.tryMethods]
      split
      · split
        · exact ⟨rfl, rfl⟩
        · exact ih w _
      · split
        · have hldap := ldapLogin_sessions svc w amb
          split
          · rename_i hr
            rw [hr] at hldap
            exact hldap
          · rename_i w₁ answer₁ hr
            rw [hr] at hldap
            have hrest := ih w₁ answer₁
            exact ⟨hrest.1.trans hldap.1, hrest.2.trans hldap.2⟩
        · exact ih w _

/-- An account reaches `login_accepted` by a one-time password, or by the password step, which
leaves the sessions as they were. -/
theorem loginArgs_eq_some {w w' : World} {req : Request} {username : String}
    {password method otp m : Val} {account : Row}
    (h : loginArgs svc w req username password method otp = some (w', account, m)) :
    otpAccount svc w req (.login username password method otp) = some account ∨
      (otpAccount svc w req (.login username password method otp) = none ∧
        ¬ (req.access svc w).HasRole "pendingtotp" ∧ w'.redis = w.redis ∧ w'.now = w.now) := by
  unfold loginArgs at h
  simp only at h
  split at h
  · cases h
  · rename_i hopen
    split at h
    · rename_i hstep
      split at h
      · rename_i hotp
        split at h
        · rename_i hlogin
          cases h
          refine Or.inl ?_
          simp only [otpAccount]
          rw [if_pos ⟨Bool.not_eq_true _ ▸ hopen, hstep, hotp⟩, hlogin]
        · cases h
      · cases h
    · rename_i hstep
      have hnone : otpAccount svc w req (.login username password method otp) = none := by
        simp only [otpAccount]
        rw [if_neg fun hstep' => hstep hstep'.2.1]
      split at h
      · cases h
      · split at h
        · have hsame := tryMethods_sessions svc req.amb username password
            (SessionAuth.methodItems svc method) w (.message "access denied" 403)
          split at h
          · rename_i hr
            cases h
            rw [hr] at hsame
            exact Or.inr ⟨hnone, fun hrole => hstep (Or.inl hrole), hsame⟩
          · cases h
        · cases h

/-- An internal login gives an account with a secret the role `user` at the password step only for a
cookie that names a live session of the user. -/
theorem bypass_of_user {w : World} {req : Request} {account : Row} {m : Val}
    (hm : SessionAuth.Internal m) (htotp : hasTotp account = true)
    (hrole : ¬ (req.access svc w).HasRole "pendingtotp")
    (huser : "user" ∈ (SessionAuth.acceptedAs svc w req account m).roles account) :
    ¬ ((account "password_must_change").truthy ∧ m = .str "local") ∧
      SessionAuth.totpBypass w req.headers (account "uid").text = true := by
  unfold SessionAuth.acceptedAs at huser
  split at huser
  · simp [SessionAuth.Accepted.roles] at huser
  · rename_i hchange
    refine ⟨hchange, ?_⟩
    rw [if_neg fun h => h.1 htotp] at huser
    split at huser
    · simp [SessionAuth.Accepted.roles] at huser
    · rename_i hpending
      by_contra hbypass
      exact hpending ⟨Bool.not_eq_true _ ▸ hbypass, htotp, Or.inl hm, hrole⟩

/-! ### Bypass sessions -/

/-- Every bypass session was opened by a verified one-time password of its account. -/
def BypassLogged (svc : Service) (p : World × List OtpStep) : Prop :=
  ∀ k ses d, p.1.redis k = some (ses, d) → IsBypass ses →
    ∃ s ∈ p.2, s.accountId = ses.get "acc" ∧ ses.get "jti" = .str s.token ∧
      s.now ≤ p.1.now ∧ d = s.now + svc.conf.loginMfaCookieLimit

/-- What opens a bypass session. -/
theorem Opening.bypassed {w : World} {req : Request} {call : Call} {k : String} {ses : Session}
    {d : ℕ} (h : Opening svc w req call k ses d) (hkeys : KeysVerified svc w)
    (hbypass : IsBypass ses) :
    ∃ account, otpAccount svc w req call = some account ∧ ses.get "acc" = account "id" ∧
      ses.get "jti" = .str (req.amb.genId .bypass) ∧
      d = w.now + svc.conf.loginMfaCookieLimit := by
  obtain ⟨hauth, hmethod, hparam⟩ := hbypass
  cases h with
  | bypass identity haccount =>
      refine ⟨_, haccount, ?_, ?_, rfl⟩
      · simp [SessionManager.content]
      · simp [SessionManager.content]
  | confirmation => simp [SessionManager.content] at hparam
  | login => simp [SessionManager.content, SessionAuth.loginKwargs] at hmethod
  | confirmed clear =>
      refine absurd hauth ?_
      cases clear <;> simp [SessionManager.content] <;> decide
  | enrolment =>
      refine absurd hauth ?_
      simp [SessionManager.content]
      decide
  | apikey ttl hitem =>
      obtain ⟨now, hverified⟩ := hkeys.cached hitem
      refine absurd hauth ?_
      rcases hverified.roles with hroles | hroles <;> rw [hroles] <;>
        simp [SessionManager.content] <;> decide

/-- The invariant of the watched service. -/
def FactorInv (svc : Service) (p : World × List OtpStep) : Prop :=
  KeysVerified svc p.1 ∧ BypassLogged svc p

theorem factorInv_next (p : World × List OtpStep) (e : Event) (h : FactorInv svc p) :
    FactorInv svc ((watchedOtps svc).next p e) := by
  obtain ⟨hkeys, hlogged⟩ := h
  refine ⟨hkeys.next e, fun k ses d hk hbypass => ?_⟩
  have hserves := handle_serves svc (p.1.at e) e.req e.call
  have hnow : (handle svc (p.1.at e) e.req e.call).1.now = p.1.now + e.elapsed := hserves.now
  change ∃ s ∈ recordOtp svc p.2 p.1 e, s.accountId = ses.get "acc" ∧ ses.get "jti" = .str s.token ∧
    s.now ≤ (handle svc (p.1.at e) e.req e.call).1.now ∧ d = s.now + svc.conf.loginMfaCookieLimit
  rw [hnow]
  rcases hserves.opens k ses d hk with hold | hnew
  · obtain ⟨s, hs, hacc, hjti, hle, hd⟩ := hlogged k ses d hold hbypass
    refine ⟨s, ?_, hacc, hjti, by omega, hd⟩
    unfold recordOtp
    split
    · exact List.mem_cons_of_mem _ hs
    · exact hs
  · have hkeys' : KeysVerified svc (p.1.at e) := hkeys
    obtain ⟨account, haccount, hacc, hjti, hd⟩ := hnew.bypassed hkeys' hbypass
    refine ⟨⟨(p.1.at e).now, account "id", e.req.amb.genId .bypass⟩, ?_, hacc.symm, hjti, le_rfl, hd⟩
    rw [recordOtp, haccount]
    exact List.mem_cons_self

/-! ### Logins over a run -/

theorem secondFactor_of_inv (p : World × List OtpStep) (e : Event) (h : FactorInv svc p)
    (hcookie : CookieBypass svc p e) : SecondFactor svc p e := by
  intro username password method otp w account m hcall hargs hm _ htotp huser _
  rcases loginArgs_eq_some hargs with hotp | ⟨hnone, hrole, hredis, hnow⟩
  · refine Or.inl ?_
    rw [hcall, hotp]
    rfl
  · rw [← hcall] at hnone
    have hrole' : ¬ (e.req.access svc w).HasRole "pendingtotp" := by
      rw [Request.access, hredis, hnow]
      exact hrole
    obtain ⟨hchange, hbypass⟩ := bypass_of_user hm htotp hrole' huser
    unfold SessionAuth.totpBypass at hbypass
    split at hbypass
    · rename_i cookie hcookie'
      obtain ⟨ses, hses⟩ := Option.isSome_iff_exists.mp hbypass
      rw [hredis, hnow] at hses
      obtain ⟨hisBypass, hacc⟩ := hcookie username password method otp w account m cookie ses hcall
        hargs hnone htotp hchange hcookie' hses
      obtain ⟨⟨d, hk, hlive⟩, hjti⟩ := SessionManager.find_eq_some.mp hses
      obtain ⟨s, hs, hsacc, hsjti, hle, hd⟩ := h.2 _ ses d hk hisBypass
      refine Or.inr ⟨s, hs, hsacc.trans hacc, ?_, ?_, ?_⟩
      · rw [hcookie', Val.str.inj (hjti.symm.trans hsjti)]
      · exact hle.trans (Nat.le_add_right _ _)
      · exact hd ▸ hlive
    · cases hbypass

/-- From a fresh start on: as long as the cookies of password logins name bypass sessions of the
account or no live session of the user, no internal login skips the second factor. -/
theorem secondFactor_along {w : World} {es : List Event} (hfresh : w.redis = Expiring.empty)
    (hkeys : w.apikeys = fun _ => none) (h : (watchedOtps svc).Along (CookieBypass svc) (w, []) es) :
    (watchedOtps svc).Along (SecondFactor svc) (w, []) es := by
  refine h.of_invariant (fun p e hinv _ => factorInv_next p e hinv) secondFactor_of_inv ⟨?_, ?_⟩
  · intro keyId item hitem
    simp only [hkeys] at hitem
    cases hitem
  · intro k ses d hk
    simp only [hfresh] at hk
    cases hk

/-! ### A login with a stranger's cookie, and one with its own -/

/-- The seeded database, in which the other user has enrolled. -/
def enrolled : Database :=
  ⟨Seed.shared.1.modify .account (hasId "x-a0002") fun row =>
    Function.update row "totp_secret" (.str "SECRET"), by decide +kernel⟩

/-- The other user logs in with the password. -/
def passwordLogin (h : Headers) (id : String) : Event :=
  ⟨1, Seed.request h id, .login "second" (.str "Second2!") .none .none⟩

/-- The password, the one-time password, and later the password with the cookie of the bypass session. -/
def bypassRun : List Event :=
  [passwordLogin {} "t1",
    ⟨1, Seed.request { authorization := some ("u-0002", "t1") } "t2",
      .login "second" .none .none (.str "SECRET3")⟩,
    passwordLogin { cookie := some "t2b" } "t3"]

/-- The contact of the user is confirmed, and the password sent with the cookie of that session. -/
def confirmedRun : List Event :=
  [⟨0, Seed.request {} "t1", .confirmationGet "x-c0002"⟩,
    ⟨0, Seed.request {} "t2", .confirm "100|x-c0002:second@example.com:noncet1"⟩,
    passwordLogin { cookie := some "t2" } "t3"]

/-- The state that the third event finds. -/
def thirdState (es : List Event) : World × List OtpStep :=
  (watchedOtps Seed.service).run (Seed.world enrolled, []) (es.take 2)

/-- What `login_accepted` is given when the third event is a login with the password and a cookie. -/
def thirdArgs (es : List Event) (token : String) : Option (World × Row × Val) :=
  let e := passwordLogin { cookie := some token } "t3"
  loginArgs Seed.service ((thirdState es).1.at e) e.req "second" (.str "Second2!") .none .none

theorem bypassCookie_factor : (watchedOtps Seed.service).Along (SecondFactor Seed.service)
    (Seed.world enrolled, []) bypassRun := by
  refine secondFactor_along rfl rfl ⟨?_, ?_, ?_, trivial⟩
  · intro _ _ _ _ _ _ _ cookie _ _ _ _ _ _ hcookie
    cases hcookie
  · intro _ _ _ _ _ _ _ cookie _ _ _ _ _ _ hcookie
    cases hcookie
  · intro username password method otp w account m cookie ses hcall hargs _ _ _ hcookie hfind
    cases hcall
    cases hcookie
    have haccount : (thirdArgs bypassRun "t2b").map (fun a => (a.2.1 "uid", a.2.1 "id")) =
        some (.str "u-0002", .str "x-a0002") := by decide +kernel
    have hargs : thirdArgs bypassRun "t2b" = some (w, account, m) := hargs
    rw [hargs] at haccount
    obtain ⟨huid, hid⟩ := Prod.mk.inj (Option.some.inj haccount)
    have hses : (SessionManager.find (thirdState bypassRun).1.redis
        ((thirdState bypassRun).1.at (passwordLogin { cookie := some "t2b" } "t3")).now
        (some "u-0002") "t2b" none).map (fun ses => (ses.get "acc",
          decide (IsBypass ses))) =
        some (.str "x-a0002", true) := by decide +kernel
    simp only at huid hid
    rw [huid] at hfind
    have hfind : SessionManager.find (thirdState bypassRun).1.redis
        ((thirdState bypassRun).1.at (passwordLogin { cookie := some "t2b" } "t3")).now
        (some "u-0002") "t2b" none = some ses := hfind
    rw [hfind] at hses
    obtain ⟨hacc, hbypass⟩ := Prod.mk.inj (Option.some.inj hses)
    exact ⟨of_decide_eq_true hbypass, hacc.trans hid.symm⟩

/-- The password alone is enough with the cookie of a confirmed contact's session. -/
theorem confirmedContact_skips : ¬ (watchedOtps Seed.service).Along (SecondFactor Seed.service)
    (Seed.world enrolled, []) confirmedRun := by
  intro h
  have hthird : SecondFactor Seed.service (thirdState confirmedRun)
      (passwordLogin { cookie := some "t2" } "t3") := h.2.2.1
  rcases hargs : thirdArgs confirmedRun "t2" with _ | ⟨w, account, m⟩
  · have hsome : (thirdArgs confirmedRun "t2").isSome := by decide +kernel
    rw [hargs] at hsome
    cases hsome
  · have hfacts : (thirdArgs confirmedRun "t2").map (fun a => (a.2.2, hasTotp a.2.1,
        decide ("user" ∈ (SessionAuth.acceptedAs Seed.service a.1
          (Seed.request { cookie := some "t2" } "t3") a.2.1 a.2.2).roles a.2.1))) =
        some (.str "local", true, true) := by decide +kernel
    rw [hargs] at hfacts
    obtain ⟨hm, hrest⟩ := Prod.mk.inj (Option.some.inj hfacts)
    obtain ⟨htotp, huser⟩ := Prod.mk.inj hrest
    rcases hthird "second" (.str "Second2!") .none .none w account m rfl hargs (Or.inl hm)
      (by decide +kernel) htotp (of_decide_eq_true huser) (by decide +kernel) with hotp | ⟨s, hs, -⟩
    · have hnone : (otpAccount Seed.service
          ((thirdState confirmedRun).1.at (passwordLogin { cookie := some "t2" } "t3"))
          (Seed.request { cookie := some "t2" } "t3")
          (.login "second" (.str "Second2!") .none .none)).map (fun row => row "id") = none := by
        decide +kernel
      exact nomatch hnone.symm.trans hotp
    · have hlog : (thirdState confirmedRun).2.length = 0 := by decide +kernel
      rw [List.eq_nil_of_length_eq_zero hlog] at hs
      cases hs

end Apicrud
