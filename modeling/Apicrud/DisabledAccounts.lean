import Apicrud.SecondFactor

/-! # Disabled accounts at the login paths

The lookups of `local_func` and `ldap_func` ask for an active account; the lookup of the one-time
password step and the fallback of `callback` do not.  `acceptsDisabled_iff` says that these two are the
only ways for a disabled account to reach `login_accepted`. -/

namespace Apicrud

open Relational

/-- The account is disabled at that moment. -/
def IsDisabled (db : Database) (account : Row) : Prop :=
  ∃ row ∈ db.rows .account, row "id" = account "id" ∧ row "status" = .str "disabled"

instance (db : Database) (account : Row) : Decidable (IsDisabled db account) :=
  inferInstanceAs (Decidable (∃ row ∈ _, _))

variable (svc : Service)

/-- Serving the call takes a disabled account to `login_accepted`. -/
def AcceptsDisabled (w : World) (req : Request) (call : Call) : Prop :=
  ∃ w' account m, acceptedBy svc w req call = some (w', account, m) ∧ IsDisabled w'.db account

/-- The condition on the two lookups that do not ask for an active account: in the one-time password
step, the account whose password or backup code is accepted is not disabled; and in a
callback, the account found for the identity is not disabled when its person is active and the
contact is not disabled. -/
def LookupsEnabled (w : World) (req : Request) (call : Call) : Prop :=
  (∀ account, otpAccount svc w req call = some account → account "status" ≠ .str "disabled") ∧
  ∀ method user contact account owner, call = .callback method → req.amb.userInfo = some user →
    (svc.lib.identityNormalize user.email).truthy →
    Text.Contains (svc.lib.identityNormalize user.email).text "@" →
    lookup w.db .contact [("info", svc.lib.identityNormalize user.email)] = .ok contact →
    OAuth2.accountFor w.db (svc.lib.identityNormalize user.email) = .ok account →
    ownerOf w.db account = some owner → owner "status" = .str "active" →
    contact "status" ≠ .str "disabled" → account "status" ≠ .str "disabled"

variable {svc} {w w' : World} {req : Request} {account : Row}

/-! ### Accounts and their rows -/

/-- An id names one account. -/
theorem account_of_id {db : Database} {row row' : Row} (hrow : row ∈ db.rows .account)
    (hrow' : row' ∈ db.rows .account) (hid : row "id" = row' "id") : row = row' :=
  db.eq_of_column (by decide : ["id"] ∈ schema.unique .account) (by decide) hrow hrow' hid

theorem isDisabled_iff {db : Database} (h : account ∈ db.rows .account) :
    IsDisabled db account ↔ account "status" = .str "disabled" := by
  constructor
  · rintro ⟨row, hrow, hid, hstatus⟩
    rw [← account_of_id hrow h hid]
    exact hstatus
  · exact fun hstatus => ⟨account, h, rfl, hstatus⟩

/-- A row that a lookup finds. -/
theorem mem_of_lookup {db : Database} {m : Model} {conds : List (String × Val)} {row : Row}
    (h : lookup db m conds = .ok row) : row ∈ db.rows m ∧ ∀ c ∈ conds, row c.1 = c.2 :=
  of_one_filterBy h

/-- An account that a lookup with its person finds. -/
theorem mem_of_one_accountsOf {db : Database} {p : Row → Row → Bool}
    (h : one (accountsOf db p) = .ok account) :
    account ∈ db.rows .account ∧ ∃ owner, ownerOf db account = some owner ∧ p account owner = true := by
  have hmem : account ∈ accountsOf db p := by
    rw [one_eq_ok.mp h]
    exact List.mem_singleton_self account
  obtain ⟨hrow, hp⟩ := List.mem_filter.mp hmem
  refine ⟨hrow, ?_⟩
  split at hp
  · rename_i owner howner
    exact ⟨owner, howner, hp⟩
  · cases hp

/-! ### The password step -/

theorem localFind_active {db : Database} {username : String}
    (h : LocalFunc.find db username = .ok account) :
    account ∈ db.rows .account ∧ account "status" = .str "active" := by
  unfold LocalFunc.find at h
  split at h
  · obtain ⟨hrow, owner, -, hp⟩ := mem_of_one_accountsOf h
    exact ⟨hrow, (of_decide_eq_true hp).2⟩
  · obtain ⟨hrow, hconds⟩ := mem_of_lookup h
    exact ⟨hrow, hconds ("status", .str "active") (by simp)⟩

theorem localLogin_active {db : Database} {username : String} {password : Val}
    (h : LocalFunc.login svc db username password = .ok account) :
    account ∈ db.rows .account ∧ account "status" = .str "active" := by
  unfold LocalFunc.login at h
  split at h
  · cases h
  · cases h
  · rename_i hfind
    split at h
    · cases h
    · split at h
      · cases h
        exact localFind_active hfind
      · cases h

/-- The new account of an externally authenticated user is active. -/
theorem registerExternal_active {amb : Ambient} {identity username name picture : Val}
    (h : SessionAuth.registerExternal svc w amb identity username name picture =
      (w', .ok account)) : account ∈ w'.db.rows .account ∧ account "status" = .str "active" := by
  unfold SessionAuth.registerExternal at h
  revert h
  rcases SessionAuth.register svc w amb identity username name false picture with ⟨w₁, answer⟩
  intro h
  simp only at h
  split at h
  · cases h
  · revert h
    unfold SessionAuth.accountAdd
    split
    · intro h
      simp at h
    · rename_i settings _
      simp only
      split
      · rename_i db hstore
        intro h
        simp only [ne_eq, not_true_eq_false, if_false] at h
        split at h
        · rename_i hone
          cases h
          obtain ⟨hrow, hid⟩ := of_one_byId hone
          have hnew := store_ok hstore
          refine ⟨hrow, ?_⟩
          have hinserted : record .account [("id", .str (amb.genIdWith "x-" .account)),
              ("uid", answer.body.get "uid"), ("name", username),
              ("password_must_change", .bool true), ("password", .str ""),
              ("settings_id", settings "id"), ("status", .str "active")] ∈ db.rows .account := by
            change _ ∈ db.1 .account
            rw [hnew]
            exact Db.mem_insert.mpr (Or.inr rfl)
          rw [account_of_id hrow hinserted (hid.trans rfl)]
          rfl
        · cases h
      · intro h
        simp at h

theorem ldapLogin_active {amb : Ambient} (h : LdapFunc.login svc w amb = (w', .ok account)) :
    account ∈ w'.db.rows .account ∧ account "status" = .str "active" := by
  unfold LdapFunc.login at h
  split at h
  · cases h
  · simp only at h
    split at h
    · split at h
      · rename_i hone
        cases h
        obtain ⟨hrow, owner, -, hp⟩ := mem_of_one_accountsOf hone
        exact ⟨hrow, (of_decide_eq_true hp).2.2⟩
      · cases h
      · exact registerExternal_active h
    · cases h

/-- Every method of the password step gives an active account. -/
theorem tryMethods_active {amb : Ambient} {username item : String} {password : Val}
    {items : List String} {answer : Response}
    (h : SessionAuth.tryMethods svc amb username password w answer items =
      (w', .ok (item, account))) :
    account ∈ w'.db.rows .account ∧ account "status" = .str "active" := by
  induction items generalizing w answer with
  | nil => cases h
  | cons first items ih =>
      rw [SessionAuth.tryMethods] at h
      split at h
      · split at h
        · rename_i hlogin
          cases h
          exact localLogin_active hlogin
        · exact ih h
      · split at h
        · split at h
          · rename_i hlogin
            cases h
            exact ldapLogin_active hlogin
          · exact ih h
        · exact ih h

/-! ### The one-time password step -/

/-- The database after a verified one-time password: at most the backup codes of the account differ. -/
theorem verify_rows {otp : String} {db : Database} (h : TotpFunc.verify svc w account otp = .ok db) :
    db = w.db ∨ ∃ v, db.1 = w.db.1.modify .account (fun row => decide (row "id" = account "id"))
      fun row => Function.update row "backup_codes" v := by
  unfold TotpFunc.verify at h
  split_ifs at h
  · split at h
    · split at h
      · split at h
        · rw [Checks.orElse_eq_ok] at h
          exact Or.inr ⟨_, store_ok h⟩
        · cases h
      · cases h
    · cases h
  · cases h
    exact Or.inl rfl

theorem totpLogin_ok {username otp : String}
    (h : TotpFunc.login svc w req username otp = (w', .ok account)) :
    TotpFunc.account w (req.access svc w) username = .ok account ∧
      TotpFunc.verify svc w account otp = .ok w'.db := by
  unfold TotpFunc.login at h
  simp only at h
  split at h
  · cases h
  · cases h
  · rename_i haccount
    split at h
    · cases h
    · rename_i db hverify
      split at h
      · cases h
      · split_ifs at h
        · cases h
          exact ⟨haccount, hverify⟩
        · revert h
          split
          · intro h
            cases h
            exact ⟨haccount, hverify⟩
          · intro h
            cases h

theorem totpAccount_mem {acc : Access} {username : String}
    (h : TotpFunc.account w acc username = .ok account) : account ∈ w.db.rows .account := by
  unfold TotpFunc.account at h
  split at h
  · exact (mem_of_lookup h).1
  · exact (mem_of_lookup h).1

/-- Verifying a one-time password changes no status. -/
theorem totpLogin_isDisabled {username otp : String}
    (h : TotpFunc.login svc w req username otp = (w', .ok account)) :
    IsDisabled w'.db account ↔ account "status" = .str "disabled" := by
  obtain ⟨haccount, hverify⟩ := totpLogin_ok h
  have hrow := totpAccount_mem haccount
  rcases verify_rows hverify with hsame | ⟨v, hdb⟩
  · rw [hsame]
    exact isDisabled_iff hrow
  · have hmem : ∀ row, row ∈ w'.db.rows .account ↔ ∃ old ∈ w.db.rows .account,
        (if decide (old "id" = account "id") then Function.update old "backup_codes" v else old) =
          row := by
      intro row
      change row ∈ w'.db.1 .account ↔ _
      rw [hdb]
      exact Db.mem_modify
    constructor
    · rintro ⟨row, hnew, hid, hstatus⟩
      obtain ⟨old, hold, rfl⟩ := (hmem row).mp hnew
      have hcell : ∀ c ≠ "backup_codes", (if decide (old "id" = account "id") then
          Function.update old "backup_codes" v else old) c = old c := by
        intro c hc
        split
        · exact Function.update_of_ne hc _ _
        · rfl
      rw [hcell "id" (by decide)] at hid
      rw [hcell "status" (by decide)] at hstatus
      rw [← account_of_id hold hrow hid]
      exact hstatus
    · intro hstatus
      refine ⟨Function.update account "backup_codes" v, (hmem _).mpr ⟨account, hrow, by simp⟩, ?_, ?_⟩
      · exact Function.update_of_ne (by decide) _ _
      · rw [Function.update_of_ne (by decide), hstatus]

/-! ### The callback -/

theorem accountFor_mem {db : Database} {identity : Val}
    (h : OAuth2.accountFor db identity = .ok account) : account ∈ db.rows .account := by
  unfold OAuth2.accountFor at h
  split at h
  · rename_i hone
    cases h
    exact (mem_of_one_accountsOf hone).1
  · cases h
  · split at h
    · rename_i hone
      cases h
      exact (mem_of_one_accountsOf hone).1
    · cases h
    · cases h

theorem unknownArgs_active {method : String} {user : UserInfo} {m : Val}
    (h : OAuth2.unknownArgs svc w req method user = some (w', account, m)) :
    account ∈ w'.db.rows .account ∧ account "status" = .str "active" := by
  unfold OAuth2.unknownArgs at h
  simp only at h
  split at h
  · split at h
    · rename_i hreg
      cases h
      exact registerExternal_active hreg
    · cases h
  · cases h

/-! ### Every path -/

/-- A login takes a disabled account to `login_accepted` only by a one-time password of it. -/
theorem login_disabled {username : String} {password method otp m : Val}
    (hargs : loginArgs svc w req username password method otp = some (w', account, m))
    (hdisabled : IsDisabled w'.db account) :
    otpAccount svc w req (.login username password method otp) = some account ∧
      account "status" = .str "disabled" := by
  unfold loginArgs at hargs
  simp only at hargs
  split at hargs
  · cases hargs
  · rename_i hopen
    split at hargs
    · rename_i hstep
      split at hargs
      · rename_i hotp
        split at hargs
        · rename_i hlogin
          cases hargs
          refine ⟨?_, (totpLogin_isDisabled hlogin).mp hdisabled⟩
          simp only [otpAccount]
          rw [if_pos ⟨Bool.not_eq_true _ ▸ hopen, hstep, hotp⟩, hlogin]
        · cases hargs
      · cases hargs
    · split at hargs
      · cases hargs
      · split at hargs
        · split at hargs
          · rename_i hr
            cases hargs
            obtain ⟨hrow, hactive⟩ := tryMethods_active hr
            rw [isDisabled_iff hrow, hactive] at hdisabled
            exact absurd hdisabled (by decide)
          · cases hargs
        · cases hargs

/-- An accepted one-time password takes its account to `login_accepted`. -/
theorem acceptedBy_of_otp {call : Call} (h : otpAccount svc w req call = some account) :
    ∃ w' m, acceptedBy svc w req call = some (w', account, m) ∧
      (IsDisabled w'.db account ↔ account "status" = .str "disabled") := by
  cases call with
  | login username password method otp =>
      simp only [otpAccount] at h
      split at h
      · rename_i hstep
        obtain ⟨hopen, hstep, hotp⟩ := hstep
        split at h
        · rename_i hlogin
          cases h
          refine ⟨_, (req.access svc w).authMethod, ?_, totpLogin_isDisabled hlogin⟩
          simp only [acceptedBy, loginArgs]
          rw [if_neg (Bool.not_eq_true _ ▸ hopen), if_pos hstep, if_pos hotp, hlogin]
        · cases h
      · cases h
  | _ => cases h

/-- A disabled account reaches `login_accepted` through one of two lookups only, and whenever they
let it. -/
theorem acceptsDisabled_iff (svc : Service) (w : World) (req : Request) (call : Call) :
    ¬ AcceptsDisabled svc w req call ↔ LookupsEnabled svc w req call := by
  constructor
  · intro h
    refine ⟨fun account hotp hstatus => ?_, ?_⟩
    · obtain ⟨w', m, haccepted, hiff⟩ := acceptedBy_of_otp hotp
      exact h ⟨w', account, m, haccepted, hiff.mpr hstatus⟩
    · intro method user contact account owner hcall huser hidentity hat hcontact haccount howner
        hactive hopen hstatus
      refine h ⟨w, account, .str method, ?_, (isDisabled_iff (accountFor_mem haccount)).mpr hstatus⟩
      simp only [hcall, acceptedBy, OAuth2.callbackArgs, huser]
      rw [if_pos ⟨hidentity, hat⟩, hcontact]
      simp only [haccount, howner]
      rw [if_neg]
      rintro (hno | hno)
      · exact hno hactive
      · exact hopen hno
  · rintro ⟨hotp, hcallback⟩ ⟨w', account, m, haccepted, hdisabled⟩
    cases call with
    | login username password method otp =>
        obtain ⟨haccount, hstatus⟩ := login_disabled haccepted hdisabled
        exact hotp account haccount hstatus
    | callback method =>
        simp only [acceptedBy, OAuth2.callbackArgs] at haccepted
        split at haccepted
        · cases haccepted
        · rename_i user huser
          split at haccepted
          · rename_i hidentity
            split at haccepted
            · obtain ⟨hrow, hactive⟩ := unknownArgs_active haccepted
              rw [isDisabled_iff hrow, hactive] at hdisabled
              exact absurd hdisabled (by decide)
            · cases haccepted
            · rename_i contact hcontact
              split at haccepted
              · cases haccepted
              · rename_i account' haccount
                split at haccepted
                · cases haccepted
                · rename_i owner howner
                  split at haccepted
                  · cases haccepted
                  · rename_i hopen
                    cases haccepted
                    rw [not_or, not_not] at hopen
                    exact hcallback method user contact account owner rfl huser hidentity.1
                      hidentity.2 hcontact haccount howner hopen.1 hopen.2
                      ((isDisabled_iff (accountFor_mem haccount)).mp hdisabled)
          · cases haccepted
    | _ => cases haccepted

/-- The shared database, in which the account of the other user is disabled. -/
def disabledAccount : Database :=
  ⟨Seed.shared.1.modify .account (hasId "x-a0002") fun row =>
    Function.update row "status" (.str "disabled"), by decide +kernel⟩

/-- A provider vouches for the address of the other user. -/
def vouched : Request :=
  ⟨{}, { Seed.ambient "t1" with
    userInfo := some ⟨.none, .str "second@example.com", .str "Second User", .none⟩ }⟩

/-- The fallback by contact finds the disabled account and logs it in. -/
theorem disabledAccount_accepted :
    AcceptsDisabled Seed.service (Seed.world disabledAccount) vouched (.callback "google") ∧
      loggedIn Seed.service (Seed.world disabledAccount) vouched (.callback "google") =
        some ("u-0002", "t1") := by
  refine ⟨?_, by decide +kernel⟩
  have hdisabled : (acceptedBy Seed.service (Seed.world disabledAccount) vouched
      (.callback "google")).map (fun a => decide (IsDisabled a.1.db a.2.1)) = some true := by
    decide +kernel
  rcases haccepted : acceptedBy Seed.service (Seed.world disabledAccount) vouched
    (.callback "google") with _ | ⟨w', account, m⟩
  · rw [haccepted] at hdisabled
    cases hdisabled
  · rw [haccepted] at hdisabled
    exact ⟨w', account, m, haccepted, of_decide_eq_true (Option.some.inj hdisabled)⟩

end Apicrud
