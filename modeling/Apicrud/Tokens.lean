import Apicrud.Sessions
import Apicrud.Seed

/-! # Confirmation tokens over a run

A token is only accepted while its session holds it, and only `Confirmation.request` writes such
sessions.  So in any run that starts without sessions, a token that passes the checks of `confirm` was
issued in the run, for the contact it names (`issued_of_check`).  This needs no signature.

Whoever holds a token can use it: `change_password` asks for a valid token, and never compares the
owner of the contact with the user whose password is changed (`strangersToken_resets`). -/

namespace Apicrud

open Relational Confirmation

variable (svc : Service)

/-- The tokens issued so far, the last one first. -/
def recordIssued (issued : List Issue) (w : World) (e : Event) : List Issue :=
  match issuedBy svc (w.at e) e.req e.call with
  | some i => i :: issued
  | none => issued

/-- The service, watched for the tokens it issues. -/
def watchedTokens : Machine (World × List Issue) Event Response :=
  (machine svc).withHistory (recordIssued svc)

/-- A session that holds a token is that of an issued one. -/
def TokensIssued (p : World × List Issue) : Prop :=
  ∀ k ses d, p.1.redis k = some (ses, d) → ses.get "param" ≠ .none →
    ∃ i ∈ p.2, ses.get "param" = .str i.token ∧ ses.get "jti" = .str i.nonce ∧
      k = SessionManager.key i.owner i.nonce none ∧ ∃ id, i.contact "id" = .str id

variable {svc}

theorem issue_contact {db : Database} {now : ℕ} {amb : Ambient} {id : String} {i : Issue}
    (h : issue svc db now amb id = some i) :
    one (byId db .contact id) = .ok i.contact ∧ i.contact "id" = .str id := by
  unfold issue at h
  split at h
  · rename_i contact hone
    cases h
    exact ⟨hone, (of_one_byId hone).2⟩
  · cases h

theorem issuedBy_eq_some {w : World} {req : Request} {call : Call} {db : Database} {id : String}
    {i : Issue} (hrequested : requested svc w req call = some (db, id))
    (hissue : issue svc db w.now req.amb id = some i) : issuedBy svc w req call = some i := by
  rw [issuedBy, hrequested]
  exact hissue

/-- The sessions that hold tokens are those of confirmation requests. -/
theorem Opening.param {w : World} {req : Request} {call : Call} {k : String} {ses : Session}
    {d : ℕ} (h : Opening svc w req call k ses d) (hparam : ses.get "param" ≠ .none) :
    ∃ i, issuedBy svc w req call = some i ∧ ses.get "param" = .str i.token ∧
      ses.get "jti" = .str i.nonce ∧ k = SessionManager.key i.owner i.nonce none ∧
      ∃ id, i.contact "id" = .str id := by
  cases h with
  | confirmation hrequested hissue =>
      refine ⟨_, issuedBy_eq_some hrequested hissue, ?_, ?_, rfl, _, (issue_contact hissue).2⟩
      · simp [SessionManager.content]
      · simp [SessionManager.content]
  | confirmed | login | bypass | enrolment | apikey =>
      refine absurd ?_ hparam
      simp [SessionManager.content, SessionAuth.loginKwargs]

theorem mem_recordIssued {issued : List Issue} {w : World} {e : Event} {i : Issue}
    (h : i ∈ issued) : i ∈ recordIssued svc issued w e := by
  unfold recordIssued
  split
  · exact List.mem_cons_of_mem _ h
  · exact h

theorem tokensIssued_next (p : World × List Issue) (e : Event) (h : TokensIssued p) :
    TokensIssued ((watchedTokens svc).next p e) := by
  intro k ses d hk hparam
  rcases (handle_serves svc (p.1.at e) e.req e.call).opens k ses d hk with hold | hnew
  · obtain ⟨i, hi, hrest⟩ := h k ses d hold hparam
    exact ⟨i, mem_recordIssued hi, hrest⟩
  · obtain ⟨i, hissued, hrest⟩ := hnew.param hparam
    refine ⟨i, ?_, hrest⟩
    change i ∈ recordIssued svc p.2 p.1 e
    rw [recordIssued, hissued]
    exact List.mem_cons_self

/-- What the checks of `confirm` establish. -/
theorem check_ok {w : World} {token id info nonce : String} {contact : Row}
    (h : check svc w token = .ok (id, info, nonce, contact)) :
    (∃ payload, svc.lib.loads token w.now svc.conf.tokenTimeout = some payload ∧
      Text.split payload ':' = [id, info, nonce]) ∧
    SessionManager.get w.redis w.now (some id) nonce "param" = .str token ∧
    one (byId w.db .contact id) = .ok contact := by
  unfold check at h
  split at h
  · cases h
  · rename_i payload hloads
    split at h
    · rename_i hsplit
      split_ifs at h with hparam
      split at h
      · rename_i hone
        cases h
        exact ⟨⟨payload, hloads, hsplit⟩, hparam, hone⟩
      · cases h
      · cases h
    · cases h

namespace Confirmation

/-- The values of the session that `confirm` opens. -/
def details (db : Database) (id info : String) (contact : Row) : List (String × Val) :=
  [("info", .str info), ("type", contact "type"), ("contact_id", .str id),
    ("name", ((ownerOf db contact).map fun owner => owner "name").getD .none)]

/-- The database takes a confirmation. -/
theorem activate_valid (db : Database) (id : String) (uid : Val) : schema.Valid (activate db id uid) := by
  have hstatus : schema.Takes .contact "status" (.str "active") :=
    ⟨by decide, by decide, fun _ => nofun, by decide, by decide, by decide⟩
  have hreferrer : schema.Takes .person "referrer_id" .none :=
    ⟨by decide, by decide, fun hnull => absurd hnull (by decide), by decide, by decide, by decide⟩
  exact hreferrer.valid_modify _ (hstatus.valid_modify _ db.2)

/-- The last step of `confirm`: a session of the owner, after the commit. -/
def openConfirmed (svc : Service) (w : World) (amb : Ambient) (clear : Bool) (db : Database)
    (id info nonce : String) (contact : Row) : World × Option Session :=
  World.createSession { w with
      db := db
      redis := if clear then SessionManager.delete w.redis (some id) nonce none else w.redis }
    svc (some (contact "uid").text) [if clear then "pending" else "person"] none (amb.genId .session)
    svc.conf.redisTtl (details db id info contact)

/-- A token that passes the checks: the contact is activated, and a session opened. -/
theorem confirm_eq {w : World} {amb : Ambient} {token id info nonce : String} {contact : Row}
    {db : Database} (clear : Bool) (hcheck : check svc w token = .ok (id, info, nonce, contact))
    (hstore : schema.store (activate w.db id (contact "uid")) = .ok db) :
    confirm svc w amb token clear =
      ((openConfirmed svc w amb clear db id info nonce contact).1,
        (openConfirmed svc w amb clear db id info nonce contact).2.elim .raised
          fun ses => ⟨ses, 200⟩) := by
  unfold confirm openConfirmed details
  simp only [hcheck, hstore]
  cases ownerOf db contact
  all_goals
    simp only [Option.map_none, Option.map_some, Option.getD_none, Option.getD_some]
    split
    all_goals
      rename_i hopened
      rw [hopened]
      rfl

end Confirmation

/-- A token that is accepted was issued in the run, for the contact that it names. -/
theorem issued_of_check {w : World} {issued : List Issue} {token id info nonce : String}
    {contact : Row} (h : TokensIssued (w, issued))
    (hcheck : check svc w token = .ok (id, info, nonce, contact)) :
    ∃ i ∈ issued, i.token = token ∧ i.nonce = nonce ∧ i.contact "id" = .str id := by
  obtain ⟨-, hparam, -⟩ := check_ok hcheck
  unfold SessionManager.get at hparam
  split at hparam
  · rename_i ses hfind
    obtain ⟨⟨d, hk, -⟩, hjti⟩ := SessionManager.find_eq_some.mp hfind
    obtain ⟨i, hi, htoken, hnonce, hkey, cid, hcid⟩ := h _ ses d hk (by rw [hparam]; nofun)
    have htoken : token = i.token := Val.str.inj (hparam.symm.trans htoken)
    have hnonce : nonce = i.nonce := Val.str.inj (hjti.symm.trans hnonce)
    rw [← hnonce] at hkey
    have howner : id = (i.contact "id").text := SessionManager.owner_eq_of_key hkey
    refine ⟨i, hi, htoken.symm, hnonce.symm, ?_⟩
    rw [hcid, Val.text_str] at howner
    rw [hcid, howner]
  · cases hparam

/-! ### Password resets -/

/-- A reset of a password that succeeds was made with a token that was issued for a contact of the
user. -/
def ResetOwned (svc : Service) (p : World × List Issue) (e : Event) : Prop :=
  ∀ uid body token, e.call = .changePassword uid body → (body.get "old_password").truthy = false →
    body.get "reset_token" = .str token → ((watchedTokens svc).out p e).status = 200 →
    ∃ i ∈ p.2, i.token = token ∧
      ∃ contact ∈ p.1.db.rows .contact, contact "id" = i.contact "id" ∧ contact "uid" = .str uid

/-- The condition on a reset: it is refused before or at the check of its token, or the contact that
the token names belongs to the user. -/
def TokenFits (svc : Service) (p : World × List Issue) (e : Event) : Prop :=
  ∀ uid body token account id info nonce contact, e.call = .changePassword uid body →
    (body.get "old_password").truthy = false → body.get "reset_token" = .str token →
    LocalUser.checkNew p.1.db uid (body.get "new_password") (body.get "verify_password") =
      .ok account →
    check svc (p.1.at e) token = .ok (id, info, nonce, contact) → contact "uid" = .str uid

theorem checkNew_error {db : Database} {uid : String} {new verify : Val} {answer : Response}
    (h : LocalUser.checkNew db uid new verify = .error answer) : answer.status ≠ 200 := by
  unfold LocalUser.checkNew at h
  rcases Checks.bind_eq_error.mp h with h | ⟨_, _, h⟩
  · obtain ⟨-, rfl⟩ := Checks.ensure_eq_error.mp h
    decide
  · rcases Checks.bind_eq_error.mp h with h | ⟨account, _, h⟩
    · unfold LocalUser.accountOf at h
      split at h
      · cases h
      · cases h
        nofun
      · cases h
        nofun
    · rcases Checks.bind_eq_error.mp h with h | ⟨_, _, h⟩
      · obtain ⟨-, rfl⟩ := Checks.ensure_eq_error.mp h
        decide
      · cases h

theorem check_error {w : World} {token : String} {answer : Response}
    (h : check svc w token = .error answer) : answer.status ≠ 200 := by
  unfold check at h
  split at h
  · cases h
    nofun
  · split at h
    · split_ifs at h
      · split at h
        · cases h
        · cases h
          nofun
        · cases h
          nofun
      · cases h
        nofun
    · cases h
      nofun

/-- A reset that succeeds passed the checks of the password and of the token. -/
theorem changePassword_ok {w : World} {amb : Ambient} {uid token : String} {new old verify : Val}
    (hold : old.truthy = false)
    (h : (LocalUser.changePassword svc w amb uid new (.str token) old verify).2.status = 200) :
    ∃ account id info nonce contact, LocalUser.checkNew w.db uid new verify = .ok account ∧
      check svc w token = .ok (id, info, nonce, contact) := by
  unfold LocalUser.changePassword at h
  split at h
  · rename_i hnew
    exact absurd h (checkNew_error hnew)
  · rename_i account hnew
    simp only [hold, Bool.false_eq_true, if_false] at h
    cases hcheck : check svc w token with
    | ok parts =>
        obtain ⟨id, info, nonce, contact⟩ := parts
        exact ⟨account, id, info, nonce, contact, hnew, rfl⟩
    | error answer =>
        have hconfirm : confirm svc w amb token true = (w, answer) := by
          unfold confirm
          rw [hcheck]
        rw [hconfirm] at h
        simp only [check_error hcheck, if_false] at h
        split at h
        · cases h
        · cases h

/-- From an empty session store on: as long as resets are made with tokens of the user's own
contacts, or refused, a reset that succeeds was made with a token that was issued for a contact of the
user. -/
theorem reset_along_owned {w : World} {es : List Event} (hfresh : w.redis = Expiring.empty)
    (h : (watchedTokens svc).Along (TokenFits svc) (w, []) es) :
    (watchedTokens svc).Along (ResetOwned svc) (w, []) es := by
  refine h.of_invariant (fun p e hissued _ => tokensIssued_next p e hissued) ?_ ?_
  · intro p e hissued hfits uid body token hcall hold htoken hok
    have hout : (watchedTokens svc).out p e = (LocalUser.changePassword svc (p.1.at e) e.req.amb uid
        (body.get "new_password") (.str token) (body.get "old_password")
        (body.get "verify_password")).2 := by
      change (handle svc (p.1.at e) e.req e.call).2 = _
      rw [hcall, ← htoken]
      rfl
    rw [hout] at hok
    obtain ⟨account, id, info, nonce, contact, hnew, hcheck⟩ := changePassword_ok hold hok
    have hissued' : TokensIssued (p.1.at e, p.2) := hissued
    obtain ⟨i, hi, hitoken, -, hid⟩ := issued_of_check hissued' hcheck
    obtain ⟨-, -, hone⟩ := check_ok hcheck
    obtain ⟨hrow, hcid⟩ := of_one_byId hone
    exact ⟨i, hi, hitoken, contact, hrow, hcid.trans hid.symm,
      hfits uid body token account id info nonce contact hcall hold htoken hnew hcheck⟩
  · intro k ses d hk
    rw [hfresh] at hk
    cases hk

/-- A token is issued for the other user's contact, and used to reset the password of a user. -/
def resetRun (uid : String) : List Event :=
  [⟨0, Seed.request {} "t1", .confirmationGet "x-c0002"⟩,
    ⟨1, Seed.request {} "t2", .changePassword uid (Dict.ofList
      [("new_password", .str "Passw0rd!"), ("verify_password", .str "Passw0rd!"),
        ("reset_token", .str "100|x-c0002:second@example.com:noncet1")])⟩]

/-- The state and the issued tokens when the password is reset. -/
def beforeReset : World × List Issue :=
  (watchedTokens Seed.service).next (Seed.world Seed.shared, [])
    ⟨0, Seed.request {} "t1", .confirmationGet "x-c0002"⟩

theorem ownToken_owned : (watchedTokens Seed.service).Along (ResetOwned Seed.service)
    (Seed.world Seed.shared, []) (resetRun "u-0002") := by
  refine reset_along_owned rfl ⟨?_, ?_, trivial⟩
  · intro uid body token account id info nonce contact hcall
    cases hcall
  · intro uid body token account id info nonce contact hcall _ htoken _ hcheck
    cases hcall
    cases htoken
    have huid : (match check Seed.service { beforeReset.1 with now := 101 }
        "100|x-c0002:second@example.com:noncet1" with
        | .ok parts => parts.2.2.2 "uid"
        | .error _ => .none) = .str "u-0002" := by decide +kernel
    have hcheck : check Seed.service { beforeReset.1 with now := 101 }
        "100|x-c0002:second@example.com:noncet1" = .ok (id, info, nonce, contact) := hcheck
    rw [hcheck] at huid
    exact huid

/-- The administrator's password is reset with a token of the other user's contact. -/
theorem strangersToken_resets : ¬ (watchedTokens Seed.service).Along (ResetOwned Seed.service)
    (Seed.world Seed.shared, []) (resetRun "x-23450001") := by
  intro h
  obtain ⟨i, hi, -, contact, hcontact, hid, huid⟩ := h.2.1 "x-23450001" _ _ rfl (by decide +kernel)
    rfl (by decide +kernel)
  have hother : ∀ i ∈ beforeReset.2, ∀ contact ∈ beforeReset.1.db.rows .contact,
      contact "id" = i.contact "id" → contact "uid" ≠ .str "x-23450001" := by decide +kernel
  exact hother i hi contact hcontact hid huid

end Apicrud
