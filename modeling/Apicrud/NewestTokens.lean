import Apicrud.SecondFactor
import Apicrud.Tokens

/-! # The newest confirmation token

`request` answers with a token whether or not its session could be stored.  The slot of the session is
that of the contact and of the last three characters of the nonce, which is always the same for a mobile
number: a token that is requested while the slot is taken is never accepted.  `newest_token_iff` says when
a token is accepted right after it was issued. -/

namespace Apicrud

open Relational Confirmation

variable {svc : Service} {w : World} {req : Request} {call : Call} {db : Database} {id : String}
  {i : Issue}

/-! ### What issuing a token does to the sessions -/

/-- The sessions after a token was issued: its own is opened, unless the slot is taken. -/
structure Opened (svc : Service) (w : World) (i : Issue) (w' : World) : Prop where
  now : w'.now = w.now
  redis : w'.redis = (w.createSession svc i.owner [] none i.nonce svc.conf.tokenTimeout
    [("param", .str i.token)]).1.redis

theorem request_opened (svc : Service) (w : World) {amb : Ambient}
    (hissue : issue svc db w.now amb id = some i) :
    Opened svc w i (request svc { w with db := db } amb id).1 := by
  unfold request
  simp only [hissue]
  exact ⟨rfl, rfl⟩

theorem confirmed_opened {amb : Ambient} (hissue : issue svc db w.now amb id = some i)
    (answer : Response) :
    Opened svc w i (Controllers.confirmed svc { w with db := db } amb id answer).1 := by
  have hopened := request_opened svc w hissue
  unfold Controllers.confirmed
  split
  · rename_i hr
    rw [hr] at hopened
    exact hopened
  · rename_i hr
    rw [hr] at hopened
    exact hopened

theorem Opened.accountAdd {w' : World} (h : Opened svc w i w') (amb : Ambient) (username uid : Val) :
    Opened svc w i (SessionAuth.accountAdd w' amb username uid).1 :=
  ⟨(accountAdd_sessions w' amb username uid).2.trans h.now,
    (accountAdd_sessions w' amb username uid).1.trans h.redis⟩

theorem register_opened {amb : Ambient} {identity username name picture : Val}
    (hrequested : registration svc w.db amb identity username name picture = some (db, id))
    (hissue : issue svc db w.now amb id = some i) :
    Opened svc w i (SessionAuth.register svc w amb identity username name true picture).1 := by
  unfold registration at hrequested
  unfold SessionAuth.register
  split at hrequested
  · rename_i hreg
    cases hrequested
    have hopened := request_opened svc w hissue
    rw [hreg]
    simp only [if_true]
    split
    · rename_i hr
      rw [hr] at hopened
      exact hopened
    · rename_i hr
      rw [hr] at hopened
      exact hopened
  · cases hrequested

theorem forgotPassword_opened {amb : Ambient} {identity username : Val}
    (hrequested : recovery svc w.db identity username = some id)
    (hissue : issue svc w.db w.now amb id = some i) :
    Opened svc w i (LocalUser.forgotPassword svc w amb identity username).1 := by
  unfold recovery at hrequested
  unfold LocalUser.forgotPassword
  split at hrequested
  · rename_i haccount
    split at hrequested
    · rename_i hcontact
      cases hrequested
      have hopened := request_opened svc w hissue
      simp only [haccount, hcontact]
      split
      · rename_i hr
        rw [hr] at hopened
        exact hopened
      · rename_i hr
        rw [hr] at hopened
        exact hopened
    · cases hrequested
  · cases hrequested

theorem handleUnknownUser_opened {method : String} {user : UserInfo}
    (hpolicy : svc.conf.loginExternalPolicy = "open")
    (hrequested : registration svc w.db req.amb (svc.lib.identityNormalize user.email)
      (.str (String.ofList (((Text.split (svc.lib.identityNormalize user.email).text '@').headD
        "").toList.take 15) ++ "-" ++ req.amb.genId .username)) user.name user.picture = some (db, id))
    (hissue : issue svc db w.now req.amb id = some i) :
    Opened svc w i (OAuth2.handleUnknownUser svc w req method user).1 := by
  have hopened := register_opened hrequested hissue
  have hclosed : svc.conf.loginExternalPolicy ≠ "closed" := by
    rw [hpolicy]
    decide
  have hauto : svc.conf.loginExternalPolicy ≠ "auto" := by
    rw [hpolicy]
    decide
  unfold OAuth2.handleUnknownUser
  extract_lets identity username
  rw [if_neg hclosed, if_neg hauto, if_pos hpolicy]
  revert hopened
  generalize SessionAuth.register svc w req.amb identity username user.name true user.picture = r
  intro hopened
  obtain ⟨w₁, answer⟩ := r
  simp only
  split
  · exact hopened
  · exact hopened.accountAdd ..

/-- A call that issues a token opens its session, and no other. -/
theorem handle_opened (hissued : issuedBy svc w req call = some i) :
    Opened svc w i (handle svc w req call).1 := by
  obtain ⟨⟨db, id⟩, hrequested, hissue⟩ := Option.bind_eq_some_iff.mp hissued
  cases call with
  | confirmationGet cid =>
      cases hrequested
      have hopened := request_opened svc w hissue
      simp only [handle]
      split
      · rename_i hr
        rw [hr] at hopened
        exact hopened
      · rename_i hr
        rw [hr] at hopened
        exact hopened
  | put m cid body =>
      cases m with
      | contact =>
          simp only [requested] at hrequested
          split at hrequested
          · rename_i hok
            cases hrequested
            have hrouted : ¬ Model.contact ∉ Controllers.routed := by decide
            simp only [handle, Controllers.put]
            rw [if_neg hrouted, if_pos trivial, hok]
            exact confirmed_opened hissue _
          · cases hrequested
      | _ => cases hrequested
  | post m body =>
      cases m with
      | account =>
          simp only [requested] at hrequested
          simp only [handle, Controllers.post, Controllers.register, if_true]
          split_ifs at hrequested ⊢ with hforgot
          · obtain ⟨cid, hcid, heq⟩ := Option.map_eq_some_iff.mp hrequested
            cases heq
            exact forgotPassword_opened hcid hissue
          · exact register_opened hrequested hissue
          · exact (register_opened hrequested hissue).accountAdd ..
      | contact =>
          simp only [requested] at hrequested
          split_ifs at hrequested with hcreated
          cases hrequested
          have hrouted : ¬ (Model.contact ∉ Controllers.routed ∨ Model.contact = .settings) := by decide
          have hmessage : ¬ (Model.contact = .message ∧ req.amb.withinDailyTotal = false) := by
            rintro ⟨hm, -⟩
            cases hm
          simp only [handle, Controllers.post]
          rw [if_neg (by decide : ¬ Model.contact = .account), if_neg hrouted, if_neg hmessage,
            if_pos hcreated]
          exact confirmed_opened hissue _
      | _ => cases hrequested
  | callback method =>
      simp only [requested] at hrequested
      simp only [handle, OAuth2.callback]
      split at hrequested
      · rename_i user huser
        split_ifs at hrequested with hopen
        · rw [huser]
          simp only
          rw [if_pos ⟨hopen.1, hopen.2.1⟩]
          split at hrequested
          · rename_i hunknown
            rw [hunknown]
            exact handleUnknownUser_opened hopen.2.2 hrequested hissue
          · cases hrequested
      · cases hrequested
  | _ => cases hrequested

/-! ### When the token is accepted -/

/-- What the token is made of. -/
def payload (i : Issue) : String :=
  (i.contact "id").text ++ ":" ++ (i.contact "info").text ++ ":" ++ i.nonce

/-- The parts of the payload hold no separator. -/
def Parts (i : Issue) : Prop :=
  ':' ∉ (i.contact "id").text.toList ∧ ':' ∉ (i.contact "info").text.toList ∧ ':' ∉ i.nonce.toList

/-- The payload is read as it was written, or not at all. -/
theorem split_payload (i : Issue) :
    (Parts i → Text.split (payload i) ':' =
      [(i.contact "id").text, (i.contact "info").text, i.nonce]) ∧
    (¬ Parts i → ∀ a b c, Text.split (payload i) ':' ≠ [a, b, c]) := by
  constructor
  · rintro ⟨hid, hinfo, hnonce⟩
    have hjoin : payload i = Text.join [(i.contact "id").text, (i.contact "info").text, i.nonce] ':' := by
      rw [payload, Text.join]
      apply String.toList_injective
      simp
    rw [hjoin]
    refine Text.split_join (by simp) fun s hs => ?_
    simp only [List.mem_cons, List.not_mem_nil, or_false] at hs
    rcases hs with rfl | rfl | rfl
    · exact hid
    · exact hinfo
    · exact hnonce
  · intro hparts a b c hsplit
    have hlength := Text.length_split (payload i) ':'
    rw [hsplit, payload] at hlength
    simp only [List.length_cons, List.length_nil, String.toList_append, List.count_append] at hlength
    have hcolon : (":".toList).count ':' = 1 := by decide
    rw [hcolon] at hlength
    refine hparts ⟨?_, ?_, ?_⟩
    all_goals
      rw [← List.count_eq_zero]
      omega

/-- The slot of the token's session is free. -/
def SlotFree (w : World) (i : Issue) : Prop :=
  w.redis.get w.now (SessionManager.key i.owner i.nonce none) = none

/-- A new token is found in its slot while its session lasts, if the slot was free. -/
theorem Opened.param_iff {w' : World} (h : Opened svc w i w')
    (hnew : ∀ k ses d, w.redis k = some (ses, d) → ses.get "param" ≠ .str i.token) (t : ℕ) :
    SessionManager.get w'.redis t i.owner i.nonce "param" = .str i.token ↔
      SlotFree w i ∧ t < w.now + svc.conf.tokenTimeout := by
  have hredis := h.redis
  unfold World.createSession at hredis
  unfold SlotFree
  have hget : ∀ redis : Redis, SessionManager.get redis t i.owner i.nonce "param" = .str i.token ↔
      ∃ ses d, redis (SessionManager.key i.owner i.nonce none) = some (ses, d) ∧ t < d ∧
        ses.get "jti" = .str i.nonce ∧ ses.get "param" = .str i.token := by
    intro redis
    unfold SessionManager.get
    cases hfind : SessionManager.find redis t i.owner i.nonce none with
    | none =>
        refine ⟨fun hnone => (nomatch hnone), fun ⟨ses, d, hk, hd, hjti, _⟩ => ?_⟩
        rw [SessionManager.find_eq_some.mpr ⟨⟨d, hk, hd⟩, hjti⟩] at hfind
        cases hfind
    | some ses =>
        obtain ⟨⟨d, hk, hd⟩, hjti⟩ := SessionManager.find_eq_some.mp hfind
        refine ⟨fun hparam => ⟨ses, d, hk, hd, hjti, hparam⟩, fun ⟨ses', d', hk', _, _, hparam⟩ => ?_⟩
        rw [hk] at hk'
        cases hk'
        exact hparam
  rw [hget]
  rcases SessionManager.create_cases svc.conf w.redis w.now i.owner [] none i.nonce
    svc.conf.tokenTimeout [("param", .str i.token)] with ⟨hcreate, hfree⟩ | ⟨hcreate, htaken⟩
  · rw [hcreate] at hredis
    rw [hredis]
    simp only [Expiring.set_apply, if_true]
    constructor
    · rintro ⟨ses, d, hk, hd, _, _⟩
      cases hk
      exact ⟨hfree, hd⟩
    · rintro ⟨_, hd⟩
      refine ⟨_, _, rfl, hd, ?_, ?_⟩
      · simp [SessionManager.content]
      · simp [SessionManager.content]
  · rw [hcreate] at hredis
    rw [hredis]
    constructor
    · rintro ⟨ses, d, hk, _, _, hparam⟩
      exact absurd hparam (hnew _ ses d hk)
    · rintro ⟨hfree, _⟩
      rw [hfree] at htaken
      cases htaken

theorem createSession_isSome_iff (svc : Service) (w : World) (uid : Option String) (token : String)
    (roles : List String) (ttl : ℕ) (kwargs : List (String × Val)) :
    (w.createSession svc uid roles none token ttl kwargs).2.isSome ↔
      w.redis.get w.now (SessionManager.key uid token none) = none := by
  refine ⟨fun hsome => ?_, fun hfree => World.createSession_isSome hfree roles ttl kwargs⟩
  unfold World.createSession at hsome
  rcases SessionManager.create_cases svc.conf w.redis w.now uid roles none token ttl kwargs with
    ⟨_, hfree⟩ | ⟨hcreate, _⟩
  · exact hfree
  · rw [hcreate] at hsome
    cases hsome

/-- A token that passes the checks is accepted when the slot of the login session is free. -/
theorem confirm_status {amb : Ambient} {token info nonce : String} {contact : Row}
    (hcheck : check svc w token = .ok (id, info, nonce, contact)) :
    (confirm svc w amb token false).2.status = 200 ↔
      w.redis.get w.now (SessionManager.key (some (contact "uid").text) (amb.genId .session) none) =
        none := by
  rw [confirm_eq false hcheck (schema.store_of_valid (activate_valid w.db id (contact "uid")))]
  have hopened := createSession_isSome_iff svc
    { w with db := ⟨activate w.db id (contact "uid"), activate_valid w.db id (contact "uid")⟩ }
    (some (contact "uid").text) (amb.genId .session) ["person"] svc.conf.redisTtl
    (details ⟨activate w.db id (contact "uid"), activate_valid w.db id (contact "uid")⟩ id info contact)
  rw [← hopened]
  simp only [openConfirmed, Bool.false_eq_true, if_false]
  cases (World.createSession _ svc (some (contact "uid").text) ["person"] none (amb.genId .session)
    svc.conf.redisTtl _).2 with
  | none => exact ⟨fun hstatus => absurd hstatus (by decide), fun hsome => nomatch hsome⟩
  | some ses => exact ⟨fun _ => rfl, fun _ => rfl⟩

/-- What `check` makes of a new token whose contact is there. -/
theorem check_newest {contact : Row}
    (hloads : svc.lib.loads i.token w.now svc.conf.tokenTimeout = some (payload i))
    (hcontact : one (byId w.db .contact (i.contact "id").text) = .ok contact) :
    (Parts i ∧ SessionManager.get w.redis w.now i.owner i.nonce "param" = .str i.token →
      check svc w i.token = .ok ((i.contact "id").text, (i.contact "info").text, i.nonce, contact)) ∧
    (¬ (Parts i ∧ SessionManager.get w.redis w.now i.owner i.nonce "param" = .str i.token) →
      ∀ parts, check svc w i.token ≠ .ok parts) := by
  constructor
  · rintro ⟨hparts, hparam⟩
    unfold check
    simp only [hloads, (split_payload i).1 hparts]
    have hparam : SessionManager.get w.redis w.now (some (i.contact "id").text) i.nonce "param" =
        .str i.token := hparam
    rw [if_pos hparam, hcontact]
  · rintro hno ⟨id, info, nonce, contact'⟩ hcheck
    obtain ⟨⟨text, htext, hsplit⟩, hparam, -⟩ := check_ok hcheck
    rw [hloads] at htext
    cases htext
    by_cases hparts : Parts i
    · rw [(split_payload i).1 hparts] at hsplit
      cases hsplit
      exact hno ⟨hparts, hparam⟩
    · exact (split_payload i).2 hparts _ _ _ hsplit

/-- After any run from an empty session store on: right after a call that issued a new token, and while the
token loads and its contact is there, the token is accepted if and only if the slot of its session was
free, its parts hold no separator, the session has not expired and the slot of the login session is
free. -/
theorem newest_token_iff {es : List Event} {e c : Event} {contact : Row}
    (hfresh : w.redis = Expiring.empty)
    (hissued : issuedBy svc (((machine svc).run w es).at e) e.req e.call = some i)
    (hnew : ∀ j ∈ ((watchedTokens svc).run (w, []) es).2, j.token ≠ i.token)
    (hcall : c.call = .confirm i.token)
    (hloads : svc.lib.loads i.token (((machine svc).run w (es ++ [e])).at c).now
      svc.conf.tokenTimeout = some (payload i))
    (hcontact : one (byId ((machine svc).run w (es ++ [e])).db .contact (i.contact "id").text) =
      .ok contact) :
    ((machine svc).out ((machine svc).run w (es ++ [e])) c).status = 200 ↔
      SlotFree (((machine svc).run w es).at e) i ∧ Parts i ∧ c.elapsed < svc.conf.tokenTimeout ∧
        ((machine svc).run w (es ++ [e])).redis.get (((machine svc).run w (es ++ [e])).at c).now
          (SessionManager.key (some (contact "uid").text) (c.req.amb.genId .session) none) = none := by
  have hrun : ((watchedTokens svc).run (w, []) es).1 = (machine svc).run w es :=
    Machine.run_withHistory _ _ _ _
  have htokens : TokensIssued ((watchedTokens svc).run (w, []) es) := by
    refine Machine.invariant_run (fun p e h => tokensIssued_next p e h) ?_ es
    intro k ses d hk
    rw [hfresh] at hk
    cases hk
  have hold : ∀ k ses d, (((machine svc).run w es).at e).redis k = some (ses, d) →
      ses.get "param" ≠ .str i.token := by
    intro k ses d hk hparam
    have hk : ((watchedTokens svc).run (w, []) es).1.redis k = some (ses, d) := by
      rw [hrun]
      exact hk
    obtain ⟨j, hj, hjparam, -⟩ := htokens k ses d hk (by rw [hparam]; nofun)
    exact hnew j hj (Val.str.inj (hjparam.symm.trans hparam))
  have hnext : (machine svc).run w (es ++ [e]) = (handle svc (((machine svc).run w es).at e) e.req
      e.call).1 := Machine.run_append _ _ _ _
  have hopened := handle_opened hissued
  rw [← hnext] at hopened
  have hparam := hopened.param_iff hold (((machine svc).run w (es ++ [e])).at c).now
  have htime : (((machine svc).run w (es ++ [e])).at c).now <
      (((machine svc).run w es).at e).now + svc.conf.tokenTimeout ↔
        c.elapsed < svc.conf.tokenTimeout := by
    change ((machine svc).run w (es ++ [e])).now + c.elapsed < _ ↔ _
    rw [hopened.now]
    omega
  rw [htime] at hparam
  obtain ⟨haccepted, hrefused⟩ :=
    @check_newest svc (((machine svc).run w (es ++ [e])).at c) i contact hloads hcontact
  have hanswer : (machine svc).out ((machine svc).run w (es ++ [e])) c =
      (confirm svc (((machine svc).run w (es ++ [e])).at c) c.req.amb i.token false).2 := by
    change (handle svc _ c.req c.call).2 = _
    rw [hcall]
    rfl
  rw [hanswer]
  by_cases hchecks : Parts i ∧ SessionManager.get (((machine svc).run w (es ++ [e])).at c).redis
      (((machine svc).run w (es ++ [e])).at c).now i.owner i.nonce "param" = .str i.token
  · obtain ⟨hfree, hlasts⟩ := hparam.mp hchecks.2
    rw [confirm_status (haccepted hchecks)]
    exact ⟨fun hlogin => ⟨hfree, hchecks.1, hlasts, hlogin⟩, fun h => h.2.2.2⟩
  · refine ⟨fun hstatus => ?_, fun h => absurd ⟨h.2.1, hparam.mpr ⟨h.1, h.2.2.1⟩⟩ hchecks⟩
    unfold confirm at hstatus
    cases hcheck : check svc (((machine svc).run w (es ++ [e])).at c) i.token with
    | ok parts => exact absurd hcheck (hrefused hchecks parts)
    | error answer =>
        rw [hcheck] at hstatus
        exact absurd hstatus (check_error hcheck)

/-- The contact of the other user is to be confirmed, and is. -/
def mailed : Event := ⟨0, Seed.request {} "t1", .confirmationGet "x-c0002"⟩

def mailConfirmed : Event :=
  ⟨0, Seed.request {} "t2", .confirm "100|x-c0002:second@example.com:noncet1"⟩

theorem mailed_accepted :
    ((machine Seed.service).out ((machine Seed.service).run (Seed.world Seed.shared) ([] ++ [mailed]))
      mailConfirmed).status = 200 := by
  have hdata : (issuedBy Seed.service (((machine Seed.service).run (Seed.world Seed.shared) []).at
      mailed) mailed.req mailed.call).map (fun i => (i.token, i.nonce, i.contact "id",
        i.contact "info")) = some ("100|x-c0002:second@example.com:noncet1", "noncet1",
          .str "x-c0002", .str "second@example.com") := by decide +kernel
  obtain ⟨i, hissued, hi⟩ := Option.map_eq_some_iff.mp hdata
  obtain ⟨htoken, hi⟩ := Prod.mk.inj hi
  obtain ⟨hnonce, hi⟩ := Prod.mk.inj hi
  obtain ⟨hid, hinfo⟩ := Prod.mk.inj hi
  have huid : (one (byId ((machine Seed.service).run (Seed.world Seed.shared) ([] ++ [mailed])).db
      .contact "x-c0002")).toOption.map (fun contact => contact "uid") = some (.str "u-0002") := by
    decide +kernel
  cases hcontact : one (byId ((machine Seed.service).run (Seed.world Seed.shared) ([] ++ [mailed])).db
      .contact "x-c0002") with
  | error e =>
      rw [hcontact] at huid
      cases huid
  | ok contact =>
      rw [hcontact] at huid
      have huid : contact "uid" = .str "u-0002" := Option.some.inj huid
      refine (@newest_token_iff _ _ i _ _ _ contact rfl hissued ?_ ?_ ?_ ?_).mpr ⟨?_, ?_, ?_, ?_⟩
      · exact fun j hj => absurd hj List.not_mem_nil
      · rw [htoken]
        rfl
      · rw [htoken, payload, hid, hinfo, hnonce]
        decide +kernel
      · rw [hid]
        exact hcontact
      · unfold SlotFree
        rw [Confirmation.Issue.owner, hid, hnonce]
        exact Option.isNone_iff_eq_none.mp (by decide +kernel)
      · unfold Parts
        rw [hid, hinfo, hnonce]
        decide +kernel
      · decide
      · rw [huid]
        exact Option.isNone_iff_eq_none.mp (by decide +kernel)

/-- A mobile number of the other user. -/
def texting : Database :=
  ⟨Seed.tables (Seed.records ++ Seed.member ++
    [(.contact, Seed.row .contact [("id", .str "x-c0003"), ("uid", .str "u-0002"),
      ("type", .str "sms"), ("info", .str "+15550003")])]), by decide +kernel⟩

/-- Its confirmation is requested twice. -/
def texted : List Event :=
  [⟨0, Seed.request {} "t1", .confirmationGet "x-c0003"⟩,
    ⟨1, Seed.request {} "t2", .confirmationGet "x-c0003"⟩]

/-- Both requests are answered with a token: the second one is not accepted, and the first one is. -/
theorem secondText_refused :
    ((machine Seed.service).outputs (Seed.world texting) texted).map
        (fun answer => (answer.status, answer.body.get "token")) =
      [(200, .str "100|x-c0003:+15550003:1"), (200, .str "101|x-c0003:+15550003:1")] ∧
    ((machine Seed.service).out ((machine Seed.service).run (Seed.world texting) texted)
      ⟨0, Seed.request {} "t3", .confirm "101|x-c0003:+15550003:1"⟩).status = 403 ∧
    ((machine Seed.service).out ((machine Seed.service).run (Seed.world texting) texted)
      ⟨0, Seed.request {} "t3", .confirm "100|x-c0003:+15550003:1"⟩).status = 200 :=
  ⟨by decide +kernel, by decide +kernel, by decide +kernel⟩

end Apicrud
