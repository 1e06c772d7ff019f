import Apicrud.Sessions
import Apicrud.Seed

/-! # What basic authentication accepts

The security scheme `basic` takes any live session whose owner and token are the name and the password.
Sessions of logins and of confirmed contacts are meant; they alone have a method or a contact id
(`loginsLogged_next`), so nothing else is accepted while the credentials name such a session
(`loginTokens_along`).  But pending confirmations, enrolments and bypass cookies have their
sessions in the same store, under the same kind of key (`pendingConfirmation_accepted`). -/

namespace Apicrud

open Relational

variable (svc : Service)

/-- The owners and tokens of the sessions that logins and confirmations opened, the last one first. -/
def recordLogin (log : List (String × String)) (w : World) (e : Event) : List (String × String) :=
  (loggedIn svc (w.at e) e.req e.call).toList ++
    ((confirmedBy svc (w.at e) e.req e.call).toList ++ log)

/-- The service, watched for the sessions of its logins and confirmations. -/
def watchedLogins : Machine (World × List (String × String)) Event Response :=
  (machine svc).withHistory (recordLogin svc)

/-- Credentials that basic authentication accepts are those of a login or a confirmation. -/
def LoginTokens (p : World × List (String × String)) (e : Event) : Prop :=
  ∀ username password uid, e.call = .authBasic username password →
    (basic (p.1.at e) username password).2 = some uid → (username, password) ∈ p.2

/-- A session that a login or a confirmation made. -/
def IsLogin (ses : Session) : Prop := "method" ∈ ses ∨ "contact_id" ∈ ses

instance (ses : Session) : Decidable (IsLogin ses) := inferInstanceAs (Decidable (_ ∨ _))

/-- The condition on credentials: a live session that they name has a method or a contact id. -/
def NamesLogin (p : World × List (String × String)) (e : Event) : Prop :=
  ∀ username password ses, e.call = .authBasic username password →
    SessionManager.find p.1.redis (p.1.at e).now (some username) password none = some ses →
    ses.get "sub" = .str username → IsLogin ses

/-- Every session of a login or a confirmation is logged. -/
def LoginsLogged (p : World × List (String × String)) : Prop :=
  ∀ k ses d, p.1.redis k = some (ses, d) → IsLogin ses →
    ∃ entry ∈ p.2, ses.get "sub" = .str entry.1 ∧ ses.get "jti" = .str entry.2

variable {svc}

/-- What opens a session with a method or a contact id. -/
theorem Opening.logged {w : World} {req : Request} {call : Call} {k : String} {ses : Session} {d : ℕ}
    (h : Opening svc w req call k ses d) (hlogin : IsLogin ses) :
    ∃ entry, (loggedIn svc w req call = some entry ∨ confirmedBy svc w req call = some entry) ∧
      ses.get "sub" = .str entry.1 ∧ ses.get "jti" = .str entry.2 := by
  cases h with
  | confirmed clear name hcheck hconfirmed =>
      refine ⟨_, Or.inr hconfirmed, ?_, ?_⟩
      · simp [SessionManager.content]
      · simp [SessionManager.content]
  | login a account method db hlogged =>
      refine ⟨_, Or.inl hlogged, ?_, ?_⟩
      · simp [SessionManager.content, SessionAuth.loginKwargs]
      · simp [SessionManager.content, SessionAuth.loginKwargs]
  | confirmation | bypass | enrolment | apikey =>
      simp [IsLogin, SessionManager.content] at hlogin

theorem loginsLogged_next (p : World × List (String × String)) (e : Event) (h : LoginsLogged p) :
    LoginsLogged ((watchedLogins svc).next p e) := by
  intro k ses d hk hlogin
  change ∃ entry ∈ recordLogin svc p.2 p.1 e, _
  unfold recordLogin
  rcases (handle_serves svc (p.1.at e) e.req e.call).opens k ses d hk with hold | hnew
  · obtain ⟨entry, hmem, hentry⟩ := h k ses d hold hlogin
    exact ⟨entry, List.mem_append_right _ (List.mem_append_right _ hmem), hentry⟩
  · obtain ⟨entry, hopened, hentry⟩ := hnew.logged hlogin
    refine ⟨entry, ?_, hentry⟩
    rcases hopened with hopened | hopened
    · rw [hopened]
      exact List.mem_append_left _ (List.mem_singleton_self entry)
    · rw [hopened]
      exact List.mem_append_right _ (List.mem_append_left _ (List.mem_singleton_self entry))

/-- Accepted credentials name a live session. -/
theorem basic_eq_some {w : World} {username password uid : String}
    (h : (basic w username password).2 = some uid) :
    ∃ ses, SessionManager.find w.redis w.now (some username) password none = some ses ∧
      ses.get "sub" = .str username := by
  unfold basic at h
  split at h
  · cases h
  · rename_i ses hfind
    split at h
    · rename_i hsub
      exact ⟨ses, hfind, hsub.1⟩
    · cases h

/-- From an empty store on: as long as credentials name sessions of logins and confirmations, or no live
session, only tokens of logins and confirmations authenticate. -/
theorem loginTokens_along {w : World} {es : List Event} (hfresh : w.redis = Expiring.empty)
    (h : (watchedLogins svc).Along (NamesLogin) (w, []) es) :
    (watchedLogins svc).Along (LoginTokens) (w, []) es := by
  refine h.of_invariant (fun p e hlogged _ => loginsLogged_next p e hlogged) ?_ ?_
  · intro p e hlogged hnames username password uid hcall haccepted
    obtain ⟨ses, hfind, hsub⟩ := basic_eq_some haccepted
    obtain ⟨⟨d, hk, -⟩, hjti⟩ := SessionManager.find_eq_some.mp hfind
    obtain ⟨⟨sub, jti⟩, hmem, hentry⟩ := hlogged _ ses d hk (hnames username password ses hcall hfind hsub)
    have husername : username = sub := Val.str.inj (hsub.symm.trans hentry.1)
    have hpassword : password = jti := Val.str.inj (hjti.symm.trans hentry.2)
    rw [husername, hpassword]
    exact hmem
  · intro k ses d hk
    simp only [hfresh] at hk
    cases hk

/-- The other user logs in and sends the token. -/
def tokenRun : List Event :=
  [⟨1, Seed.request {} "t1", .login "second" (.str "Second2!") .none .none⟩,
    ⟨1, Seed.request {} "t2", .authBasic "u-0002" "t1"⟩]

theorem loginToken_accepted :
    ((machine Seed.service).out ((machine Seed.service).run (Seed.world Seed.shared) (tokenRun.take 1))
      ⟨1, Seed.request {} "t2", .authBasic "u-0002" "t1"⟩).status = 200 ∧
    (watchedLogins Seed.service).Along LoginTokens (Seed.world Seed.shared, []) tokenRun := by
  refine ⟨by decide +kernel, loginTokens_along rfl ⟨?_, ?_, trivial⟩⟩
  · intro username password ses hcall
    cases hcall
  · intro username password ses hcall hfind _
    cases hcall
    have hlogin : (SessionManager.find ((watchedLogins Seed.service).run
        (Seed.world Seed.shared, []) (tokenRun.take 1)).1.redis 102 (some "u-0002") "t1" none).map
        (fun ses => decide (IsLogin ses)) = some true := by decide +kernel
    have hfind : SessionManager.find ((watchedLogins Seed.service).run
        (Seed.world Seed.shared, []) (tokenRun.take 1)).1.redis 102 (some "u-0002") "t1" none =
        some ses := hfind
    rw [hfind] at hlogin
    exact of_decide_eq_true (Option.some.inj hlogin)

/-- A confirmation of a contact is requested; then the id of the contact and the nonce are sent. -/
def pendingRun : List Event :=
  [⟨0, Seed.request {} "t1", .confirmationGet "x-c0002"⟩,
    ⟨1, Seed.request {} "t2", .authBasic "x-c0002" "noncet1"⟩]

theorem pendingConfirmation_accepted : ¬ (watchedLogins Seed.service).Along LoginTokens
    (Seed.world Seed.shared, []) pendingRun := by
  intro h
  have hmem := h.2.1 "x-c0002" "noncet1" "x-c0002" rfl (by decide +kernel)
  have hlog : ((watchedLogins Seed.service).run (Seed.world Seed.shared, [])
      (pendingRun.take 1)).2.length = 0 := by decide +kernel
  have hmem : ("x-c0002", "noncet1") ∈ ((watchedLogins Seed.service).run
      (Seed.world Seed.shared, []) (pendingRun.take 1)).2 := hmem
  rw [List.eq_nil_of_length_eq_zero hlog] at hmem
  cases hmem

end Apicrud
