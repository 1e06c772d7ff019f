import Apicrud.Conferred

/-! # After a logout

`logout` removes the session that the credentials name.  No token is handed out again by the calls that
follow unless the generator draws it again, so the credentials stay refused (`loggedOut_along`): by the
security scheme, by the permissions, and as the cookie of a second factor. -/

namespace Apicrud

open Relational
open SessionManager (key find)

/-- A session of the event may get the token: it is drawn, or belongs to the API key that is presented. -/
def Event.Draws (svc : Service) (e : Event) (token : String) : Prop :=
  token ∈ e.req.amb.tokens ∨
    ∃ keyId secret, e.call.Presents keyId secret ∧ ApiKey.sessionToken svc secret = token

/-- What is stored for the owner under the token has ended. -/
def Ended (redis : Redis) (now : ℕ) (uid token : String) : Prop :=
  ∀ ses d, redis (key (some uid) token none) = some (ses, d) → ses.get "jti" = .str token → d ≤ now

/-- The credentials of the session are refused: by the security scheme, by the permissions and as the cookie
of a second factor. -/
structure Refused (svc : Service) (uid token : String) (w : World) (e : Event) : Prop where
  scheme : e.call = .authBasic uid token → ((machine svc).out w e).status = 401
  access : e.req.headers.apikey = none → e.req.headers.authorization = some (uid, token) →
    e.req.access svc (w.at e) = .anonymous
  cookie : e.req.headers.cookie = some token → SessionAuth.totpBypass (w.at e) e.req.headers uid = false

variable {svc : Service} {w : World} {e : Event} {es : List Event} {uid token : String}

theorem Ended.find_eq {redis : Redis} {now : ℕ} (h : Ended redis now uid token) :
    find redis now (some uid) token none = none := by
  rw [Option.eq_none_iff_forall_ne_some]
  intro ses hfind
  obtain ⟨⟨d, hd, hlt⟩, hjti⟩ := SessionManager.find_eq_some.mp hfind
  exact absurd (h ses d hd hjti) (Nat.not_le.mpr hlt)

/-- What has ended has ended later. -/
theorem Ended.at (h : Ended w.redis w.now uid token) (e : Event) :
    Ended (w.at e).redis (w.at e).now uid token :=
  fun ses d hd hjti => (h ses d hd hjti).trans (Nat.le_add_right _ _)

/-- A call that does not draw the token opens no session under it. -/
theorem Ended.next (h : Ended w.redis w.now uid token) (hdraws : ¬ e.Draws svc token) :
    Ended ((machine svc).next w e).redis ((machine svc).next w e).now uid token := by
  have hconfers : Confers svc e.req.amb e.call.Presents (w.at e) ((machine svc).next w e) :=
    handle_confers svc (w.at e) e.req e.call
  intro ses d hd hjti
  rw [hconfers.now]
  rcases hconfers.opens _ ses d hd with hold | ⟨-, t, ht, htoken⟩ | ⟨account, -, hranked⟩ |
    ⟨keyId, secret, item, hpresents, -, hranked⟩
  · exact h.at e ses d hold hjti
  · rw [hjti] at htoken
    cases htoken
    exact absurd (Or.inl ht) hdraws
  · have htoken := hjti.symm.trans hranked.token
    cases htoken
    exact absurd (Or.inl (by simp [Ambient.tokens])) hdraws
  · have htoken := hjti.symm.trans hranked.token
    cases htoken
    exact absurd (Or.inr ⟨keyId, secret, hpresents, rfl⟩) hdraws

theorem Ended.refused (h : Ended w.redis w.now uid token) (e : Event) : Refused svc uid token w e := by
  have hfind := (h.at e).find_eq
  refine ⟨fun hcall => ?_, fun hkey hauth => ?_, fun hcookie => ?_⟩
  · change (handle svc (w.at e) e.req e.call).2.status = 401
    rw [hcall]
    simp only [handle, basic, hfind]
    rfl
  · unfold Request.access accessControl
    simp only [hkey, hauth, hfind]
  · unfold SessionAuth.totpBypass
    simp only [hcookie, hfind]
    rfl

/-- A session that has ended stays so along every run that does not draw its token. -/
theorem Ended.along (h : Ended w.redis w.now uid token) (hdraws : ∀ e ∈ es, ¬ e.Draws svc token) :
    (machine svc).Along (Refused svc uid token) w es := by
  have hruns : (machine svc).Along (fun _ e => ¬ e.Draws svc token) w es := by
    rw [Machine.along_iff]
    rintro es₁ e es₂ rfl
    exact hdraws e (by simp)
  exact hruns.of_invariant (I := fun w => Ended w.redis w.now uid token)
    (fun _ _ hended hdraws => hended.next hdraws) (fun _ e hended _ => hended.refused e) h

/-- After a logout the credentials are refused along every run that does not draw the token again. -/
theorem loggedOut_along (svc : Service) (w : World) (e : Event) (es : List Event) (uid token : String)
    (hcall : e.call = .logout) (hauth : e.req.headers.authorization = some (uid, token))
    (hdraws : ∀ e ∈ es, ¬ e.Draws svc token) :
    (machine svc).Along (Refused svc uid token) ((machine svc).next w e) es := by
  refine Ended.along (fun ses d hd _ => ?_) hdraws
  change (handle svc (w.at e) e.req e.call).1.redis (key (some uid) token none) = some (ses, d) at hd
  rw [hcall] at hd
  simp only [handle, hauth, SessionManager.delete, Expiring.del_apply, if_true] at hd
  cases hd

/-- The other user logs in, shows the token to the security scheme, and logs out. -/
def memberIn : List Event :=
  [⟨1, Seed.request {} "t1", .login "second" (.str "Second2!") .none .none⟩,
    ⟨1, Seed.request {} "q1", .authBasic "u-0002" "t1"⟩]

def memberOut : Event := ⟨1, Seed.request { authorization := some ("u-0002", "t1") } "q2", .logout⟩

/-- The other user logs in again, and the old token is shown. -/
def memberBack : List Event :=
  [⟨1, Seed.request {} "t2", .login "second" (.str "Second2!") .none .none⟩,
    ⟨1, Seed.request {} "q3", .authBasic "u-0002" "t1"⟩]

theorem memberOut_refused :
    ((machine Seed.service).outputs (Seed.world Seed.shared) memberIn).map Response.status = [201, 200] ∧
      (machine Seed.service).Along (Refused Seed.service "u-0002" "t1")
        ((machine Seed.service).next ((machine Seed.service).run (Seed.world Seed.shared) memberIn) memberOut)
        memberBack := by
  refine ⟨by decide +kernel, ?_⟩
  refine loggedOut_along Seed.service _ memberOut memberBack "u-0002" "t1" rfl rfl fun e he => ?_
  simp only [memberBack, List.mem_cons, List.not_mem_nil, or_false] at he
  rcases he with rfl | rfl
  · rintro (ht | ⟨_, _, ⟨_, _, _, hcall, -⟩, -⟩)
    · exact absurd ht (by decide)
    · cases hcall
  · rintro (ht | ⟨_, _, ⟨_, _, _, hcall, -⟩, -⟩)
    · exact absurd ht (by decide)
    · cases hcall

end Apicrud
