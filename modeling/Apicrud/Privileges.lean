import Apicrud.Conferred
import Apicrud.Promotion

/-! # What a role rests on

The roles of an account are put into a session when it is opened, by a login or for an API key, and are
read from there at every request: what happens to the account afterwards does not reach them.
`privileged_along` bounds how late that can be.  A request that is given the role `user` or `admin` presents
a session of an account that was in the database (for `admin`, as an administrator's) at most `REDIS_TTL`
and the time limit of its sessions before.  Where nobody is promoted, the administrators stay those of the
start (`admins_stay`). -/

namespace Apicrud

open Relational

/-! ### The session of a request -/

/-- The session that the headers name. -/
def Headers.session (lib : Lib) (redis : Redis) (now : ℕ) (h : Headers) : Option Session :=
  match h.apikey with
  | some header =>
      match Text.split header '.' with
      | [pre, secret] =>
          SessionManager.find redis now none (Text.firstEight (lib.apikeyHash secret)) (some pre)
      | _ => none
  | none =>
      match h.authorization with
      | some (uid, secret) => SessionManager.find redis now (some uid) secret none
      | none => none

/-- The roles of a request are those of the session it presents. -/
theorem accessControl_auth (lib : Lib) (redis : Redis) (now : ℕ) (h : Headers) :
    (accessControl lib redis now h).auth = (h.session lib redis now).map Session.roles := by
  obtain ⟨apikey, authorization, _⟩ := h
  unfold accessControl Headers.session
  cases apikey with
  | some header =>
      simp only
      generalize Text.split header '.' = parts
      rcases parts with _ | ⟨pre, _ | ⟨secret, _ | ⟨_, _⟩⟩⟩
      · rfl
      · rfl
      · simp only
        cases SessionManager.find redis now none (Text.firstEight (lib.apikeyHash secret)) (some pre) <;> rfl
      · rfl
  | none =>
      rcases authorization with _ | ⟨uid, secret⟩
      · rfl
      · simp only
        cases SessionManager.find redis now (some uid) secret none <;> rfl

variable {svc : Service} {w : World} {req : Request}

/-- A session that is presented is stored and has not ended. -/
theorem Headers.session_stored {lib : Lib} {redis : Redis} {now : ℕ} {h : Headers} {ses : Session}
    (hses : h.session lib redis now = some ses) : ∃ k d, redis k = some (ses, d) ∧ now < d := by
  unfold Headers.session at hses
  split at hses
  · split at hses
    · obtain ⟨⟨d, hd, hlt⟩, -⟩ := SessionManager.find_eq_some.mp hses
      exact ⟨_, d, hd, hlt⟩
    · cases hses
  · split at hses
    · obtain ⟨⟨d, hd, hlt⟩, -⟩ := SessionManager.find_eq_some.mp hses
      exact ⟨_, d, hd, hlt⟩
    · cases hses

/-! ### Every run -/

/-- The session that a request presents. -/
def Request.session (req : Request) (svc : Service) (w : World) : Option Session :=
  req.headers.session svc.lib w.redis w.now

/-- After some part of the run the account was in the database, for the role `admin` as an administrator's,
and since then less than `REDIS_TTL` and the time limit of its sessions have passed. -/
def Stood (svc : Service) (w : World) (es : List Event) (role : String) (id : Val) (t : ℕ) : Prop :=
  ∃ before, before <+: es ∧ ∃ row ∈ ((machine svc).run w before).db.rows .account, row "id" = id ∧
    (role = "admin" → (row "is_admin").truthy = true) ∧
    t < ((machine svc).run w before).now + svc.conf.redisTtl + SessionAuth.Accepted.full.duration svc row

/-- Every stored session and every cached key rests on an account that stood. -/
structure Rooted (svc : Service) (w : World) (es : List Event) : Prop where
  sessions : ∀ k ses d, ((machine svc).run w es).redis k = some (ses, d) →
    ∀ role ∈ ["user", "admin"], role ∈ ses.roles → ∀ t < d, Stood svc w es role (ses.get "acc") t
  keys : ∀ keyId item, ((machine svc).run w es).apikeys keyId = some item →
    ∃ before, before <+: es ∧ ∃ account, Holds ((machine svc).run w before).db account ∧
      KeyOf svc ((machine svc).run w before).now account item

variable {es : List Event} {role : String} {t d : ℕ} {ses : Session}

theorem Stood.append {id : Val} (h : Stood svc w es role id t) (e : Event) :
    Stood svc w (es ++ [e]) role id t := by
  obtain ⟨before, hbefore, h⟩ := h
  exact ⟨before, hbefore.trans (List.prefix_append es [e]), h⟩

/-- The time limit depends on nothing else of the account. -/
theorem duration_eq {row account : Row} (h : row "is_admin" = account "is_admin") :
    SessionAuth.Accepted.full.duration svc row = SessionAuth.Accepted.full.duration svc account := by
  simp only [SessionAuth.Accepted.duration, h]

theorem stood_of_ranked {before : List Event} {account : Row} {amb : Ambient} (hbefore : before <+: es)
    (hholds : Holds ((machine svc).run w before).db account)
    (hranked : AccountSession svc amb ((machine svc).run w before).now account ses d)
    (hrole : role ∈ ses.roles)
    (ht : t < d) : Stood svc w es role (ses.get "acc") t := by
  obtain ⟨row, hrow, hid, hadmin⟩ := hholds
  refine ⟨before, hbefore, row, hrow, hid.trans hranked.acc.symm, ?_, ?_⟩
  · rintro rfl
    rw [hadmin]
    exact hranked.admin hrole
  · rw [duration_eq hadmin]
    have hends := hranked.ends
    omega

/-- A session for a cached key ends at most its time limit after the key went stale. -/
theorem stood_of_key {before : List Event} {account : Row} {item : CachedKey} {now : ℕ}
    {secret : String}     (hbefore : before <+: es) (hholds : Holds ((machine svc).run w before).db account)
    (hkey : KeyOf svc ((machine svc).run w before).now account item)
    (hranked : KeySession svc now secret item ses d) (hrole : role ∈ ses.roles) (ht : t < d) :
    Stood svc w es role (ses.get "acc") t := by
  obtain ⟨row, hrow, hid, hadmin⟩ := hholds
  refine ⟨before, hbefore, row, hrow, hid.trans (hkey.acc.symm.trans hranked.acc.symm), ?_, ?_⟩
  · rintro rfl
    rw [hranked.roles, hkey.roles] at hrole
    rw [hadmin]
    exact admin_of_rank hrole
  · have hlimit : (if "admin" ∈ item.roles then svc.conf.loginAdminLimit else svc.conf.loginSessionLimit) =
        SessionAuth.Accepted.full.duration svc row := by
      rw [hkey.roles]
      simp only [SessionAuth.Accepted.duration, hadmin]
      by_cases hrank : (account "is_admin").truthy = true
      · simp [hrank]
      · simp [hrank]
    have hends := hranked.ends
    have hfresh := hranked.fresh
    rw [hkey.expires] at hfresh
    omega

theorem Rooted.append (h : Rooted svc w es) (e : Event) : Rooted svc w (es ++ [e]) := by
  have hrun : (machine svc).run w (es ++ [e]) =
      (handle svc (((machine svc).run w es).at e) e.req e.call).1 := (machine svc).run_append w es [e]
  have hconfers := handle_confers svc (((machine svc).run w es).at e) e.req e.call
  rw [← hrun] at hconfers
  have hkeys : ∀ keyId item, ((machine svc).run w (es ++ [e])).apikeys keyId = some item →
      ∃ before, before <+: es ++ [e] ∧ ∃ account, Holds ((machine svc).run w before).db account ∧
        KeyOf svc ((machine svc).run w before).now account item := by
    intro keyId item hitem
    rcases hconfers.keys keyId item hitem with hold | ⟨account, hholds, hkey⟩
    · obtain ⟨before, hbefore, hstood⟩ := h.keys keyId item hold
      exact ⟨before, hbefore.trans (List.prefix_append es [e]), hstood⟩
    · rw [← hconfers.now] at hkey
      exact ⟨es ++ [e], List.prefix_rfl, account, hholds, hkey⟩
  refine ⟨fun k ses d hk role hmem hrole t ht => ?_, hkeys⟩
  rcases hconfers.opens k ses d hk with hold | hses | ⟨account, hholds, hranked⟩ |
    ⟨keyId, secret, item, -, hitem, hranked⟩
  · exact (h.sessions k ses d hold role hmem hrole t ht).append e
  · exact absurd hrole (hses.roles role hmem)
  · rw [← hconfers.now] at hranked
    exact stood_of_ranked List.prefix_rfl hholds hranked hrole ht
  · obtain ⟨before, hbefore, account, hholds, hkey⟩ := hkeys keyId item hitem
    exact stood_of_key hbefore hholds hkey hranked hrole ht

theorem rooted_of_fresh (hredis : w.redis = Expiring.empty) (hkeys : w.apikeys = fun _ => none)
    (es : List Event) : Rooted svc w es := by
  induction es using List.reverseRecOn with
  | nil =>
      refine ⟨fun k ses d hk => ?_, fun keyId item hitem => ?_⟩
      · rw [Machine.run_nil, hredis] at hk
        cases hk
      · rw [Machine.run_nil, hkeys] at hitem
        cases hitem
  | append_singleton es e ih => exact ih.append e

/-- The roles of a request rest on the account of the session that it presents. -/
theorem Rooted.privileged (h : Rooted svc w es) (e : Event) (hmem : role ∈ ["user", "admin"])
    (hrole : (e.req.access svc (((machine svc).run w es).at e)).HasRole role) :
    ∃ ses, e.req.session svc (((machine svc).run w es).at e) = some ses ∧
      Stood svc w es role (ses.get "acc") (((machine svc).run w es).at e).now := by
  obtain ⟨roles, hauth, hin⟩ := hrole
  rw [Request.access, accessControl_auth] at hauth
  obtain ⟨ses, hses, rfl⟩ := Option.map_eq_some_iff.mp hauth
  obtain ⟨k, d, hk, hlive⟩ := Headers.session_stored hses
  exact ⟨ses, hses, h.sessions k ses d hk role hmem hin _ hlive⟩

/-- After any run of a fresh process, a request that is given the role `user` or `admin` presents a session
of an account that was in the database, for `admin` as an administrator's, less than `REDIS_TTL` and the time
limit of the account's sessions before. -/
theorem privileged_along (svc : Service) (w : World) (es : List Event) (hredis : w.redis = Expiring.empty)
    (hkeys : w.apikeys = fun _ => none) (e : Event) (role : String) (hmem : role ∈ ["user", "admin"])
    (hrole : (e.req.access svc (((machine svc).run w es).at e)).HasRole role) :
    ∃ ses, e.req.session svc (((machine svc).run w es).at e) = some ses ∧
      Stood svc w es role (ses.get "acc") (((machine svc).run w es).at e).now :=
  (rooted_of_fresh hredis hkeys es).privileged e hmem hrole

/-- The administrator logs in. -/
def adminLogin : Event := ⟨1, Seed.request {} "t1", .login "admin" (.str "p@ssw0rd") .none .none⟩

/-- A request of the administrator, fourteen minutes later. -/
def adminRequest : Event :=
  ⟨840, Seed.request { authorization := some ("x-23450001", "t1") } "q1", .totpGenerate⟩

theorem adminRequest_stood :
    ∃ ses, adminRequest.req.session Seed.service
        (((machine Seed.service).run (Seed.world Seed.shared) [adminLogin]).at adminRequest) = some ses ∧
      Stood Seed.service (Seed.world Seed.shared) [adminLogin] "admin" (ses.get "acc")
        (((machine Seed.service).run (Seed.world Seed.shared) [adminLogin]).at adminRequest).now :=
  privileged_along Seed.service (Seed.world Seed.shared) [adminLogin] rfl rfl adminRequest "admin"
    (by simp) (by decide +kernel)

/-! ### Runs without promotions -/

/-- Who is an administrator after a call that promotes nobody was one before. -/
theorem adminsFrom_of_promotesNobody {call : Call} (h : PromotesNobody svc w req call) :
    AdminsFrom w.db (handle svc w req call).1.db := by
  by_cases hput : ∃ id body, call = .put .account id body
  · obtain ⟨uid, body, rfl⟩ := hput
    rintro id ⟨row', hrow', hid, htrue⟩
    have hrow : ∃ row ∈ w.db.rows .account, row' "id" = row "id" := by
      rw [handle_put_account] at hrow'
      rcases @BasicCrud.update_cases svc w.db (req.access svc w) w.now .account uid body 'u' [] rfl with
        hsame | ⟨b, hb, hwrite⟩
      · rw [hsame] at hrow'
        exact ⟨row', hrow', rfl⟩
      · rw [Store.rows, (writeRow_ok hwrite).2.2.2, Db.mem_modify] at hrow'
        obtain ⟨row, hrow, rfl⟩ := hrow'
        refine ⟨row, hrow, ?_⟩
        split_ifs with hwritten
        · exact (write_account hb hwritten).1
        · rfl
    obtain ⟨row, hrow, hsame⟩ := hrow
    refine ⟨row, hrow, hsame.symm.trans hid, ?_⟩
    by_contra hfalse
    rw [Bool.not_eq_true] at hfalse
    rw [put_noPromotion h row hrow row' hrow' hsame hfalse] at htrue
    cases htrue
  · exact handle_adminsFrom fun id body hcall => hput ⟨id, body, hcall⟩

/-- As long as no `PUT` promotes anybody, the role `admin` is given to nobody but those who were
administrators when the process started. -/
theorem admins_stay (svc : Service) (w : World) (es : List Event) (hredis : w.redis = Expiring.empty)
    (hkeys : w.apikeys = fun _ => none)
    (h : (machine svc).Along (fun w e => PromotesNobody svc (w.at e) e.req e.call) w es) (e : Event)
    (hrole : (e.req.access svc (((machine svc).run w es).at e)).HasRole "admin") :
    ∃ ses, e.req.session svc (((machine svc).run w es).at e) = some ses ∧ IsAdmin w.db (ses.get "acc") := by
  obtain ⟨ses, hses, before, ⟨rest, rfl⟩, row, hrow, hid, hadmin, -⟩ :=
    (rooted_of_fresh hredis hkeys es).privileged e (by simp) hrole
  have hbefore := ((machine svc).along_append _ w before rest).mp h
  have hfrom : AdminsFrom w.db ((machine svc).run w before).db :=
    Machine.invariant (I := fun w' => AdminsFrom w.db w'.db)
      (fun _ _ hfrom hnobody => hfrom.trans (adminsFrom_of_promotesNobody hnobody)) hbefore.1
      fun _ hadmin => hadmin
  exact ⟨ses, hses, hfrom _ ⟨row, hrow, hid, hadmin rfl⟩⟩

/-- The administrator's account is written again as an administrator's. -/
def adminWritten : Event :=
  ⟨1, Seed.request { authorization := some ("x-23450001", "t1") } "q0",
    .put .account "x-54320001" (Dict.ofList [("name", .str "root"), ("uid", .str "x-23450001"),
      ("is_admin", .bool true)])⟩

theorem adminWritten_stays :
    ∃ ses, adminRequest.req.session Seed.service (((machine Seed.service).run (Seed.world Seed.shared)
        [adminLogin, adminWritten]).at adminRequest) = some ses ∧
      IsAdmin Seed.shared (ses.get "acc") := by
  refine admins_stay Seed.service (Seed.world Seed.shared) [adminLogin, adminWritten] rfl rfl
    ⟨?_, ?_, trivial⟩
    adminRequest (by decide +kernel)
  · intro id body hcall
    cases hcall
  · intro id body hcall _ b _ _
    cases hcall
    decide +kernel

end Apicrud
