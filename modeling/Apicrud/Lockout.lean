import Apicrud.DisabledAccounts
import Apicrud.RateLimit
import Apicrud.Seed

/-! # Locked accounts

`account_login` asks the limit before it looks at anything else, and deletes the counters of the
request's username when it answers 200 or 201.  `checks` lists the credentials that a request has
compared.  An answer that deletes counters rests on one of them, of the account that the username names,
when the request is `Own` (`accepts_checks`, `cleared_along`); the redirect to a provider rests on none
(`redirect_clears`). -/

namespace Apicrud

open Relational

/-! ### The limited service -/

/-- The service with the counters of login attempts. -/
structure Limited where
  world : World
  attempts : Counters

/-- The state at the time of an event. -/
def Limited.at (s : Limited) (e : Event) : Limited := { s with world := s.world.at e }

/-- The request as it goes on after the limit was asked. -/
def Request.limited (req : Request) (locked : Bool) : Request :=
  { req with amb := { req.amb with lockedOut := locked } }

/-- `status in (200, 201)` -/
def Response.Accepts (answer : Response) : Prop := answer.status = 200 ∨ answer.status = 201

instance (answer : Response) : Decidable answer.Accepts := inferInstanceAs (Decidable (_ ∨ _))

variable (svc : Service)

namespace Limited

/-- `account_login` -/
def accountLogin (s : Limited) (req : Request) (username : String) (password method otp : Val) :
    Limited × Response :=
  match RateLimit.call svc s.attempts s.world req username with
  | none => (s, .raised)
  | some (attempts, locked) =>
      let (w, answer) :=
        SessionAuth.accountLogin svc s.world (req.limited locked) username password method otp
      (⟨w, if answer.Accepts then RateLimit.reset attempts username else attempts⟩, answer)

/-- One call is served. -/
def handle (s : Limited) (req : Request) : Call → Limited × Response
  | .login username password method otp => accountLogin svc s req username password method otp
  | call => ({ s with world := (Apicrud.handle svc s.world req call).1 },
      (Apicrud.handle svc s.world req call).2)

/-- The limited service as a machine. -/
def machine : Machine Limited Event Response where
  step s e := handle svc (s.at e) e.req e.call

/-- The limit keeps the request away. -/
def locks (s : Limited) (req : Request) (username : String) : Bool :=
  match RateLimit.call svc s.attempts s.world req username with
  | some (_, locked) => locked
  | none => true

/-- The event as the service sees it: the limit has been asked. -/
def seen (s : Limited) (e : Event) : Event :=
  match e.call with
  | .login username _ _ _ => { e with req := e.req.limited (locks svc (s.at e) e.req username) }
  | _ => e

variable {svc}

/-- A request that is locked out changes nothing. -/
theorem accountLogin_locked {w : World} {req : Request} (h : req.amb.lockedOut = true)
    (username : String) (password method otp : Val) :
    SessionAuth.accountLogin svc w req username password method otp =
      (w, SessionAuth.lockedOut username) := by
  unfold SessionAuth.accountLogin
  simp only [h, if_true]

theorem accountLogin_world (s : Limited) (req : Request) (username : String)
    (password method otp : Val) :
    (accountLogin svc s req username password method otp).1.world =
      (SessionAuth.accountLogin svc s.world (req.limited (locks svc s req username)) username password
        method otp).1 := by
  unfold accountLogin locks
  cases RateLimit.call svc s.attempts s.world req username with
  | none => rw [@accountLogin_locked svc s.world (req.limited true) rfl]
  | some r => rfl

/-- The limit lets a request through to the service or keeps it away. -/
theorem next_world (s : Limited) (e : Event) :
    ((machine svc).next s e).world = (Apicrud.machine svc).next s.world (seen svc s e) := by
  obtain ⟨elapsed, req, call⟩ := e
  cases call with
  | login username password method otp => exact accountLogin_world _ req username password method otp
  | _ => rfl

/-- So a run of the limited service is one of the service. -/
theorem run_world (s : Limited) (es : List Event) :
    ∃ es', ((machine svc).run s es).world = (Apicrud.machine svc).run s.world es' := by
  induction es generalizing s with
  | nil => exact ⟨[], rfl⟩
  | cons e es ih =>
      obtain ⟨es', h⟩ := ih ((machine svc).next s e)
      exact ⟨seen svc s e :: es', by rw [Machine.run_cons, h, next_world, Machine.run_cons]⟩

end Limited

/-! ### The credentials that a request has compared -/

/-- What a credential is compared with. -/
inductive Secret where
  | password
  | otp
  | backupCode
  | directory
deriving DecidableEq

/-- A comparison of a credential with the one of an account. -/
structure Check where
  secret : Secret
  accountId : Val
  name : Val
  identity : Val
  passed : Bool
deriving DecidableEq

/-- The username is the account's name or its identity. -/
def Check.Names (c : Check) (username : String) : Prop :=
  c.name = .str username ∨ c.identity = .str username

instance (c : Check) (username : String) : Decidable (c.Names username) :=
  inferInstanceAs (Decidable (_ ∨ _))

/-- A comparison with a credential of an account in the database. -/
def checkOf (db : Database) (secret : Secret) (account : Row) (passed : Bool) : Check :=
  ⟨secret, account "id", account "name",
    match ownerOf db account with
    | some owner => owner "identity"
    | none => .none, passed⟩

/-- The password of an account that has one, when one is given. -/
def passwordChecks (db : Database) (username : String) (password : Val) : List Check :=
  match LocalFunc.find db username with
  | .error _ => []
  | .ok account =>
      if account "password" = .str "" ∨ ¬ password.truthy then []
      else [checkOf db .password account
        (svc.lib.cryptVerify password.text (account "password").text)]

/-- The user that the directory vouches for; those it refuses are no account's. -/
def directoryChecks (amb : Ambient) : List Check :=
  match amb.userInfo with
  | none => []
  | some user => [⟨.directory, .none, user.accountName, LdapFunc.identityOf svc user, true⟩]

/-- The backup codes of an account, or the one-time password of one with a secret. -/
def otpChecks (w : World) (acc : Access) (username otp : String) : List Check :=
  match TotpFunc.account w acc username with
  | .error _ => []
  | .ok account =>
      if otp.toList.length = 8 then
        [checkOf w.db .backupCode account (TotpFunc.verify svc w account otp).toBool]
      else if hasTotp account then
        [checkOf w.db .otp account (svc.lib.totpVerify (account "totp_secret").text otp w.now)]
      else []

/-- The comparisons of the methods tried in turn, up to the first that accepts. -/
def methodChecks (amb : Ambient) (username : String) (password : Val) :
    World → List String → List Check
  | _, [] => []
  | w, item :: items =>
      if item = "local" then
        passwordChecks svc w.db username password ++
          match LocalFunc.login svc w.db username password with
          | .ok _ => []
          | .error _ => methodChecks amb username password w items
      else if item = "ldap" then
        directoryChecks svc amb ++
          match LdapFunc.login svc w amb with
          | (_, .ok _) => []
          | (w, .error _) => methodChecks amb username password w items
      else methodChecks amb username password w items

/-- The request takes the step of the one-time password. -/
def TakesOtp (w : World) (req : Request) (otp : Val) : Prop :=
  (req.access svc w).HasRole "pendingtotp" ∨ (otp.truthy ∧ (req.access svc w).apikeyId.isSome)

instance (w : World) (req : Request) (otp : Val) : Decidable (TakesOtp svc w req otp) :=
  inferInstanceAs (Decidable (_ ∨ _))

/-- The comparisons of a request that the limit lets through. -/
def checks (w : World) (req : Request) (username : String) (password method otp : Val) :
    List Check :=
  if TakesOtp svc w req otp then
    if otp.truthy then otpChecks svc w (req.access svc w) username otp.text else []
  else if method ∈ svc.conf.authParams.map .str then []
  else if ¬ method.truthy ∨ method ∈ svc.conf.authMethods.map .str then
    methodChecks svc req.amb username password w (SessionAuth.methodItems svc method)
  else []

/-- The comparisons of an event. -/
def checksAt (w : World) (e : Event) : List Check :=
  match e.call with
  | .login username password method otp =>
      if e.req.amb.lockedOut then [] else checks svc (w.at e) e.req username password method otp
  | _ => []

variable {svc} {w w' : World} {req : Request} {account : Row} {username item : String}
  {password method otp m : Val}

theorem find_names {db : Database} (h : LocalFunc.find db username = .ok account) (secret : Secret)
    (passed : Bool) : (checkOf db secret account passed).Names username := by
  unfold LocalFunc.find at h
  split at h
  · obtain ⟨-, owner, howner, hp⟩ := mem_of_one_accountsOf h
    refine Or.inr ?_
    rw [checkOf]
    simp only [howner]
    exact (of_decide_eq_true hp).1
  · exact Or.inl ((mem_of_lookup h).2 ("name", .str username) List.mem_cons_self)

/-- An accepted password was compared. -/
theorem localLogin_checks {db : Database}
    (h : LocalFunc.login svc db username password = .ok account) :
    passwordChecks svc db username password = [checkOf db .password account true] ∧
      (checkOf db .password account true).Names username := by
  unfold LocalFunc.login at h
  cases hfind : LocalFunc.find db username with
  | error e =>
      rw [hfind] at h
      cases e <;> cases h
  | ok found =>
      rw [hfind] at h
      simp only at h
      split_ifs at h with hempty hvalid
      cases h
      refine ⟨?_, find_names hfind _ _⟩
      unfold passwordChecks
      rw [hfind]
      simp only
      rw [if_neg (by simp [hempty, hvalid.1]), hvalid.2]

/-- An accepted one-time password or backup code was compared. -/
theorem totpLogin_checks {otp : String}
    (h : TotpFunc.login svc w req username otp = (w', .ok account)) :
    ∃ secret, otpChecks svc w (req.access svc w) username otp = [checkOf w.db secret account true] := by
  obtain ⟨haccount, hverify⟩ := totpLogin_ok h
  unfold otpChecks
  rw [haccount]
  simp only
  split_ifs with hlength htotp
  · exact ⟨_, by rw [hverify]; rfl⟩
  · unfold TotpFunc.verify at hverify
    rw [if_neg hlength, if_neg (by simpa using htotp)] at hverify
    split_ifs at hverify with hvalid
    exact ⟨_, by rw [hvalid]⟩
  · unfold TotpFunc.verify at hverify
    rw [if_neg hlength, if_pos (by simpa using htotp)] at hverify
    cases hverify

theorem ldapLogin_checks {amb : Ambient} (h : LdapFunc.login svc w amb = (w', .ok account)) :
    ∃ user, amb.userInfo = some user ∧ directoryChecks svc amb =
      [⟨.directory, .none, user.accountName, LdapFunc.identityOf svc user, true⟩] := by
  unfold LdapFunc.login at h
  cases huser : amb.userInfo with
  | none =>
      rw [huser] at h
      cases h
  | some user =>
      refine ⟨user, rfl, ?_⟩
      unfold directoryChecks
      rw [huser]

/-- A method that accepts has compared a password of the username, or asked the directory. -/
theorem tryMethods_checks {amb : Ambient} {items : List String} {answer : Response}
    (h : SessionAuth.tryMethods svc amb username password w answer items =
      (w', .ok (item, account))) :
    ∃ c ∈ methodChecks svc amb username password w items, c.passed = true ∧
      (c.Names username ∨ "ldap" ∈ items ∧ c ∈ directoryChecks svc amb) := by
  induction items generalizing w answer with
  | nil => cases h
  | cons first items ih =>
      rw [SessionAuth.tryMethods] at h
      rw [methodChecks]
      split_ifs at h with hlocal hldap
      · rw [if_pos hlocal]
        cases hlogin : LocalFunc.login svc w.db username password with
        | ok found =>
            obtain ⟨hchecks, hnames⟩ := localLogin_checks hlogin
            exact ⟨_, by rw [hchecks]; exact List.mem_cons_self, rfl, Or.inl hnames⟩
        | error refused =>
            rw [hlogin] at h
            obtain ⟨c, hc, hpassed, hnames⟩ := ih h
            refine ⟨c, List.mem_append_right _ hc, hpassed, ?_⟩
            exact hnames.imp_right fun hdir => ⟨List.mem_cons_of_mem _ hdir.1, hdir.2⟩
      · rw [if_neg hlocal, if_pos hldap]
        rcases hlogin : LdapFunc.login svc w amb with ⟨w₁, refused | found⟩
        · rw [hlogin] at h
          obtain ⟨c, hc, hpassed, hnames⟩ := ih h
          refine ⟨c, List.mem_append_right _ hc, hpassed, ?_⟩
          exact hnames.imp_right fun hdir => ⟨List.mem_cons_of_mem _ hdir.1, hdir.2⟩
        · obtain ⟨user, -, hchecks⟩ := ldapLogin_checks hlogin
          have hmem : (⟨.directory, .none, user.accountName, LdapFunc.identityOf svc user, true⟩ :
              Check) ∈ directoryChecks svc amb := by
            rw [hchecks]
            exact List.mem_cons_self
          exact ⟨_, List.mem_append_left _ hmem, rfl,
            Or.inr ⟨hldap ▸ List.mem_cons_self, hmem⟩⟩
      · rw [if_neg hlocal, if_neg hldap]
        obtain ⟨c, hc, hpassed, hnames⟩ := ih h
        exact ⟨c, hc, hpassed, hnames.imp_right fun hdir => ⟨List.mem_cons_of_mem _ hdir.1, hdir.2⟩⟩

/-! ### Refusals -/

/-- The answer of a request that the limit keeps away. -/
def Response.IsLockedOut (answer : Response) : Prop :=
  answer.status = 403 ∧ answer.body.get "message" = .str "locked out"

instance (answer : Response) : Decidable answer.IsLockedOut := inferInstanceAs (Decidable (_ ∧ _))

/-- The answer of a request that the limit lets through and the login refuses. -/
def Response.Declines (answer : Response) : Prop := ¬ answer.Accepts ∧ ¬ answer.IsLockedOut

instance (answer : Response) : Decidable answer.Declines := inferInstanceAs (Decidable (_ ∧ _))

theorem isLockedOut_lockedOut (username : String) : (SessionAuth.lockedOut username).IsLockedOut :=
  ⟨rfl, rfl⟩

theorem not_accepts_lockedOut (username : String) : ¬ (SessionAuth.lockedOut username).Accepts := by
  rintro (h | h)
  · exact absurd h (by decide : (403 : ℕ) ≠ 200)
  · exact absurd h (by decide : (403 : ℕ) ≠ 201)

theorem localLogin_error {db : Database} {answer : Response}
    (h : LocalFunc.login svc db username password = .error answer) : answer.Declines := by
  unfold LocalFunc.login at h
  split at h
  · cases h
    decide
  · cases h
    decide
  · split_ifs at h
    · cases h
      decide
    · cases h
      decide

theorem verify_error {otp : String} {answer : Response}
    (h : TotpFunc.verify svc w account otp = .error answer) : answer.Declines := by
  unfold TotpFunc.verify at h
  split_ifs at h
  · split at h
    · split at h
      · split at h
        · unfold Checks.orElse at h
          split at h
          · cases h
          · cases h
            exact (by decide : Response.raised.Declines)
        · cases h
          decide
      · cases h
        decide
    · cases h
      decide
  · cases h
    decide
  · cases h
    decide

theorem totpLogin_error {otp : String} {answer : Response}
    (h : TotpFunc.login svc w req username otp = (w', .error answer)) : answer.Declines := by
  unfold TotpFunc.login at h
  simp only at h
  split at h
  · cases h
    decide
  · cases h
    decide
  · split at h
    · rename_i hverify
      cases h
      exact verify_error hverify
    · split at h
      · cases h
        decide
      · split_ifs at h
        · cases h
        · revert h
          split
          · intro h
            cases h
          · intro h
            cases h
            decide

theorem registrant_error {db : Database} {amb : Ambient} {identity name uname : Val}
    {answer : Response} (h : SessionAuth.registrant svc db amb identity uname name = .error answer) :
    answer.Declines := by
  unfold SessionAuth.registrant at h
  rcases Checks.bind_eq_error.mp h with hfields | ⟨-, -, h⟩
  · rw [Checks.ensure_eq_error] at hfields
    rw [← hfields.2]
    decide
  · simp only at h
    split at h
    · cases h
      decide
    · cases h
      decide
    · split at h
      · cases h
        decide
      · split at h
        · cases h
          decide
        · cases h
          decide
        · split at h
          · cases h
          · cases h
            decide
      · split at h
        · cases h
        · cases h
          decide

theorem register_status {amb : Ambient} {identity uname name picture : Val} {answer : Response}
    (h : SessionAuth.register svc w amb identity uname name false picture = (w', answer)) :
    answer.status = 200 ∨ answer.Declines := by
  unfold SessionAuth.register at h
  split at h
  · rename_i hregistrant
    cases h
    exact Or.inr (registrant_error hregistrant)
  · simp only [Bool.false_eq_true, if_false] at h
    split at h
    · cases h
      exact Or.inl rfl
    · cases h
      exact Or.inr (by decide)

theorem accountAdd_status {amb : Ambient} {uname uid : Val} {answer : Response}
    (h : SessionAuth.accountAdd w amb uname uid = (w', answer)) :
    answer.status = 201 ∨ answer.Declines := by
  unfold SessionAuth.accountAdd at h
  split at h
  · cases h
    exact Or.inr (by decide)
  · simp only at h
    split at h
    · cases h
      exact Or.inl rfl
    · cases h
      exact Or.inr (by decide)

theorem registerExternal_error {amb : Ambient} {identity uname name picture : Val}
    {answer : Response} (h : SessionAuth.registerExternal svc w amb identity uname name picture =
      (w', .error answer)) : answer.Declines := by
  unfold SessionAuth.registerExternal at h
  rcases hregister : SessionAuth.register svc w amb identity uname name false picture with
    ⟨w₁, registered⟩
  rw [hregister] at h
  simp only at h
  by_cases hstatus : registered.status = 200
  · rcases hadd : SessionAuth.accountAdd w₁ amb uname (registered.body.get "uid") with ⟨w₂, added⟩
    rw [if_neg (not_not.mpr hstatus), hadd] at h
    simp only at h
    by_cases hadded : added.status = 201
    · rw [if_neg (not_not.mpr hadded)] at h
      split at h
      · cases h
      · cases h
        decide
    · rw [if_pos hadded] at h
      cases h
      exact (accountAdd_status hadd).resolve_left hadded
  · rw [if_pos hstatus] at h
    cases h
    exact (register_status hregister).resolve_left hstatus

theorem ldapLogin_error {amb : Ambient} {answer : Response}
    (h : LdapFunc.login svc w amb = (w', .error answer)) : answer.Declines := by
  unfold LdapFunc.login at h
  split at h
  · cases h
    decide
  · simp only at h
    split_ifs at h
    · split at h
      · cases h
      · cases h
        decide
      · exact registerExternal_error h
    · cases h
      decide

theorem tryMethods_error {amb : Ambient} {items : List String} {answer answer' : Response}
    (h : SessionAuth.tryMethods svc amb username password w answer items = (w', .error answer'))
    (hanswer : answer.Declines) : answer'.Declines := by
  induction items generalizing w answer with
  | nil =>
      cases h
      exact hanswer
  | cons first items ih =>
      rw [SessionAuth.tryMethods] at h
      split_ifs at h
      · split at h
        · cases h
        · rename_i hlogin
          exact ih h (localLogin_error hlogin)
      · split at h
        · cases h
        · rename_i hlogin
          exact ih h (ldapLogin_error hlogin)
      · exact ih h hanswer

/-! ### Counters are cleared by proof -/

variable (svc)

/-- The account has the username as its name, or its person as the identity. -/
def NamesAccount (db : Database) (account : Row) (username : String) : Prop :=
  account "name" = .str username ∨
    ∃ owner, ownerOf db account = some owner ∧ owner "identity" = .str username

/-- The condition on a request that the limit lets through.  It is no redirect to a provider; in the
step of the one-time password without an API key, the account of the session, when its password or code
is right, is the one that the username names; and the user that the directory finds has the
username as name or identity. -/
structure Own (w : World) (req : Request) (username : String) (method otp : Val) : Prop where
  session : TakesOtp svc w req otp → (req.access svc w).apikeyId = none → ∀ account db,
    TotpFunc.account w (req.access svc w) username = .ok account →
    TotpFunc.verify svc w account otp.text = .ok db → NamesAccount w.db account username
  provider : ¬ TakesOtp svc w req otp → method ∈ svc.conf.authParams.map .str →
    ∀ location, req.amb.authorize ≠ .redirect location
  directory : ¬ TakesOtp svc w req otp → "ldap" ∈ SessionAuth.methodItems svc method →
    ∀ user, req.amb.userInfo = some user →
      user.accountName = .str username ∨ LdapFunc.identityOf svc user = .str username

variable {svc}

theorem names_checkOf {db : Database} (h : NamesAccount db account username) (secret : Secret)
    (passed : Bool) : (checkOf db secret account passed).Names username := by
  rcases h with hname | ⟨owner, howner, hidentity⟩
  · exact Or.inl hname
  · refine Or.inr ?_
    rw [checkOf]
    simp only [howner]
    exact hidentity

/-- An answer that clears the counters of a username rests on a credential of the account with that
username. -/
theorem accepts_checks (hown : Own svc w req username method otp)
    (h : (SessionAuth.accountLogin svc w req username password method otp).2.Accepts) :
    ∃ c ∈ checks svc w req username password method otp, c.passed = true ∧ c.Names username := by
  unfold SessionAuth.accountLogin at h
  unfold checks
  simp only at h
  split_ifs at h with hlocked hstep hotp hprovider hmethod
  · exact absurd h (not_accepts_lockedOut username)
  · have htakes : TakesOtp svc w req otp := hstep
    rw [if_pos htakes, if_pos hotp]
    split at h
    · rename_i hlogin
      obtain ⟨secret, hchecks⟩ := totpLogin_checks hlogin
      refine ⟨_, by rw [hchecks]; exact List.mem_cons_self, rfl, ?_⟩
      obtain ⟨haccount, hverify⟩ := totpLogin_ok hlogin
      by_cases hkey : (req.access svc w).apikeyId = none
      · exact names_checkOf (hown.session htakes hkey _ _ haccount hverify) _ _
      · refine names_checkOf (Or.inl ?_) _ _
        rw [TotpFunc.account, if_pos (Option.isSome_iff_ne_none.mpr hkey)] at haccount
        exact (mem_of_lookup haccount).2 ("name", .str username) List.mem_cons_self
    · rename_i hlogin
      exact absurd h (totpLogin_error hlogin).1
  · exact absurd h (by decide : ¬ (Response.message "access denied" 403).Accepts)
  · exfalso
    have hnone := hown.provider hstep hprovider
    change (SessionAuth.oauth2Login req.amb).Accepts at h
    unfold SessionAuth.oauth2Login at h
    split at h
    · exact absurd h (by decide)
    · exact absurd h (by decide)
    · rename_i location hauthorize
      exact hnone location hauthorize
  · have htakes : ¬ TakesOtp svc w req otp := hstep
    rw [if_neg htakes, if_neg hprovider, if_pos hmethod]
    split at h
    · rename_i hr
      obtain ⟨c, hc, hpassed, hnames | ⟨hldap, hdir⟩⟩ := tryMethods_checks hr
      · exact ⟨c, hc, hpassed, hnames⟩
      · refine ⟨c, hc, hpassed, ?_⟩
        unfold directoryChecks at hdir
        split at hdir
        · cases hdir
        · rename_i user huser
          rw [List.mem_singleton.mp hdir]
          exact hown.directory htakes hldap user huser
    · rename_i hr
      exact absurd h (tryMethods_error hr (by decide)).1
  · exact absurd h (by decide : ¬ (Response.message "unsupported login method" 500).Accepts)

namespace Limited

variable (svc)

/-- `reset` runs: the request deletes the counters of its username. -/
def Resets (s : Limited) (e : Event) : Prop := ((machine svc).out s e).Accepts

/-- Counters are deleted only by a request that has verified a credential of the account with their
username. -/
def ClearedByProof (s : Limited) (e : Event) : Prop :=
  ∀ username password method otp, e.call = .login username password method otp → Resets svc s e →
    ∃ c ∈ checksAt svc s.world (seen svc s e), c.passed = true ∧ c.Names username

/-- A login that the limit lets through is `Own`. -/
def OwnLogin (s : Limited) (e : Event) : Prop :=
  ∀ username password method otp, e.call = .login username password method otp →
    locks svc (s.at e) e.req username = false → Own svc (s.at e).world e.req username method otp

variable {svc} {s : Limited} {es : List Event}

theorem accountLogin_out (s : Limited) (req : Request) (username : String)
    (password method otp : Val) (h : (accountLogin svc s req username password method otp).2.Accepts) :
    locks svc s req username = false ∧ (SessionAuth.accountLogin svc s.world (req.limited false)
      username password method otp).2.Accepts := by
  unfold accountLogin at h
  unfold locks
  cases hcall : RateLimit.call svc s.attempts s.world req username with
  | none =>
      rw [hcall] at h
      exact absurd h (by decide : ¬ Response.raised.Accepts)
  | some r =>
      obtain ⟨attempts, locked⟩ := r
      rw [hcall] at h
      cases locked with
      | false => exact ⟨rfl, h⟩
      | true =>
          simp only at h
          rw [@accountLogin_locked svc s.world (req.limited true) rfl] at h
          exact absurd h (not_accepts_lockedOut username)

theorem clearedByProof_step (s : Limited) (e : Event) (h : OwnLogin svc s e) :
    ClearedByProof svc s e := by
  intro username password method otp hcall hresets
  have hout : (machine svc).out s e = (accountLogin svc (s.at e) e.req username password method otp).2 :=
    congrArg (fun call => (handle svc (s.at e) e.req call).2) hcall
  rw [Resets, hout] at hresets
  obtain ⟨hopen, haccepts⟩ := accountLogin_out _ _ _ _ _ _ hresets
  have hown := h username password method otp hcall hopen
  have hchecks : checksAt svc s.world (seen svc s e) =
      checks svc (s.at e).world (e.req.limited false) username password method otp := by
    unfold checksAt seen
    rw [hcall]
    simp only [hopen]
    rfl
  rw [hchecks]
  exact accepts_checks ⟨hown.session, hown.provider, hown.directory⟩ haccepts

/-- In every run whose logins are `Own`, counters are cleared by proof only. -/
theorem cleared_along (h : (machine svc).Along (OwnLogin svc) s es) :
    (machine svc).Along (ClearedByProof svc) s es :=
  h.imp clearedByProof_step

/-- The seeded service before any attempt. -/
def fresh : Limited := ⟨Seed.world Seed.shared, Expiring.empty⟩

/-- A wrong password, then the right one. -/
def retryRun : List Event :=
  [⟨1, Seed.request {} "t1", .login "second" (.str "guess") .none .none⟩,
    ⟨1, Seed.request {} "t2", .login "second" (.str "Second2!") .none .none⟩]

/-- A login with a password is `Own` where no directory is asked. -/
theorem ownLogin_local (hmethods : "ldap" ∉ svc.conf.authMethods) {e : Event} {username : String}
    {password : Val} (hcall : e.call = .login username password .none .none)
    (hparams : svc.conf.authParams = [])
    (hanonymous : ¬ TakesOtp svc (s.at e).world e.req .none) : OwnLogin svc s e := by
  intro username' password' method otp hcall' _
  cases hcall.symm.trans hcall'
  exact ⟨fun htakes => absurd htakes hanonymous,
    fun _ hprovider => by simp [hparams] at hprovider, fun _ hldap => absurd hldap hmethods⟩

theorem retryRun_cleared : (machine Seed.service).Along (ClearedByProof Seed.service) fresh retryRun ∧
    ((machine Seed.service).run fresh (retryRun.take 1)).attempts ("second", 0) = some (1, 700) ∧
    ((machine Seed.service).run fresh retryRun).attempts ("second", 0) = none := by
  refine ⟨cleared_along ⟨?_, ?_, trivial⟩, by decide +kernel, by decide +kernel⟩
  · exact ownLogin_local (by decide) rfl rfl (by decide +kernel)
  · exact ownLogin_local (by decide) rfl rfl (by decide +kernel)

/-- The service with a login provider. -/
def providers : Service := Service.example { authParams := ["google"] } Seed.lib

/-- A wrong password for the other user, then a login at the provider with the same username. -/
def redirectRun : List Event :=
  [⟨1, Seed.request {} "t1", .login "second" (.str "guess") .none .none⟩,
    ⟨1, Seed.request {} "t2", .login "second" .none (.str "google") .none⟩]

/-- The redirect clears the counter, and nothing was proved. -/
theorem redirect_clears :
    ((machine providers).run fresh (redirectRun.take 1)).attempts ("second", 0) = some (1, 700) ∧
      ((machine providers).run fresh redirectRun).attempts ("second", 0) = none ∧
      ¬ (machine providers).Along (ClearedByProof providers) fresh redirectRun := by
  refine ⟨by decide +kernel, by decide +kernel, ?_⟩
  rintro ⟨-, hcleared, -⟩
  obtain ⟨c, hc, -⟩ := hcleared "second" .none (.str "google") .none rfl
    (by unfold Resets; decide +kernel)
  have hnone : checksAt providers ((machine providers).run fresh (redirectRun.take 1)).world
      (seen providers ((machine providers).run fresh (redirectRun.take 1))
        ⟨1, Seed.request {} "t2", .login "second" .none (.str "google") .none⟩) = [] := by
    decide +kernel
  have hc : c ∈ checksAt providers ((machine providers).run fresh (redirectRun.take 1)).world
      (seen providers ((machine providers).run fresh (redirectRun.take 1))
        ⟨1, Seed.request {} "t2", .login "second" .none (.str "google") .none⟩) := hc
  rw [hnone] at hc
  cases hc

end Limited

end Apicrud
