import Apicrud.SessionStore

/-! # Updating a session

`update` looks for the session without the `key_id`, stores it with it, and gives it the default time to
live from then on.  `Live` is a session in its slot with the instant at which it ends, as `create` leaves
it (`live_of_create`); `updateKeeps_iff` says when an update replaces one field and nothing else. -/

namespace Apicrud

open Relational

namespace SessionManager

variable {conf : Config} {redis redis' : Redis} {now : ℕ} {uid : Option String} {token arg : String}
  {value : Val} {keyId : Option String} {ses : Session} {ends : ℕ}

/-- The session of an owner and a token, readable until it ends. -/
structure Live (redis : Redis) (now : ℕ) (uid : Option String) (token : String)
    (keyId : Option String) (ses : Session) (ends : ℕ) : Prop where
  stored : redis (key uid token keyId) = some (ses, ends)
  alive : now < ends
  own : ses.get "jti" = .str token

theorem Live.find_eq (h : Live redis now uid token keyId ses ends) (t : ℕ) :
    find redis t uid token keyId = if t < ends then some ses else none := by
  split_ifs with ht
  · exact find_eq_some.mpr ⟨⟨ends, h.stored, ht⟩, h.own⟩
  · rw [Option.eq_none_iff_forall_ne_some]
    intro ses' hfound
    obtain ⟨⟨d, hd, hlt⟩, -⟩ := find_eq_some.mp hfound
    rw [h.stored, Option.some.injEq, Prod.mk.injEq] at hd
    omega

theorem content_exp {roles : List String} {expires : ℕ} {kwargs : List (String × Val)}
    (hexp : "exp" ∉ kwargs.map Prod.fst) :
    (content conf uid roles token expires kwargs).get "exp" = .str (toString expires) := by
  unfold content
  induction kwargs with
  | nil => simp
  | cons entry kwargs ih =>
      rw [List.map_cons, List.mem_cons, not_or] at hexp
      rw [List.cons_append, Dict.ofList_cons, Dict.get_set, if_neg hexp.1]
      exact ih hexp.2

/-- A new session ends its time to live after it was created, which is what its `exp` says, unless the
caller names one. -/
theorem live_of_create {roles : List String} {ttl : ℕ} {kwargs : List (String × Val)}
    (hcreate : create conf redis now uid roles keyId token ttl kwargs = (redis', some ses))
    (hown : ses.get "jti" = .str token) (httl : 0 < ttl) :
    Live redis' now uid token keyId ses (now + ttl) ∧
      ("exp" ∉ kwargs.map Prod.fst → ses.get "exp" = .str (toString (now + ttl))) := by
  rcases create_cases conf redis now uid roles keyId token ttl kwargs with
    ⟨hstored, -⟩ | ⟨hrefused, -⟩
  · rw [hstored, Prod.mk.injEq, Option.some.injEq] at hcreate
    obtain ⟨rfl, rfl⟩ := hcreate
    exact ⟨⟨by rw [Expiring.set_apply, if_pos rfl], by omega, hown⟩, content_exp⟩
  · rw [hrefused] at hcreate
    cases hcreate

/-- The content with one field replaced. -/
structure Replaces (ses : Session) (arg : String) (value : Val) (data : Session) : Prop where
  others : ses.AgreeOff [arg] data
  mem : arg ∈ data
  field : data.get arg = value

/-- What an update is to leave: the session with the field replaced, for as long as it had, and every
other slot as it was. -/
structure Keeps (redis redis' : Redis) (now : ℕ) (uid : Option String) (token arg : String)
    (value : Val) (keyId : Option String) (ses : Session) (ends : ℕ) : Prop where
  readable : ∀ t, now ≤ t → t < ends →
    ∃ data, find redis' t uid token keyId = some data ∧ Replaces ses arg value data
  ended : ∀ t, ends ≤ t → find redis' t uid token keyId = none
  frame : ∀ k ≠ key uid token keyId, redis' k = redis k

/-- The update succeeds and keeps the rest. -/
def UpdateKeeps (conf : Config) (redis : Redis) (now : ℕ) (uid : Option String) (token arg : String)
    (value : Val) (keyId : Option String) (ses : Session) (ends : ℕ) : Prop :=
  ∃ redis', update conf redis now uid token arg value keyId = some redis' ∧
    Keeps redis redis' now uid token arg value keyId ses ends

/-- What is found without the `key_id` is the session, up to the field. -/
def FindsOwn (redis : Redis) (now : ℕ) (uid : Option String) (token arg : String) (ses : Session) :
    Prop :=
  ∃ found, find redis now uid token none = some found ∧ ses.AgreeOff [arg] found

/-- Without a `key_id` of its own, a session is found. -/
theorem Live.findsOwn (h : Live redis now uid token keyId ses ends)
    (howner : owner uid keyId = owner uid none) (arg : String) :
    FindsOwn redis now uid token arg ses := by
  refine ⟨ses, ?_, Dict.AgreeOff.refl _ _⟩
  have hfind := h.find_eq now
  rw [if_pos h.alive] at hfind
  unfold find at hfind ⊢
  rwa [key_eq_of_owner howner] at hfind

theorem replaces_set {found : Session} :
    Replaces ses arg value (found.set arg value) ↔ ses.AgreeOff [arg] found := by
  constructor
  · intro h k hk
    have hother := h.others k hk
    rw [List.mem_singleton] at hk
    simpa [hk] using hother
  · intro h
    refine ⟨fun k hk => ?_, by simp, by simp⟩
    have hother := h k hk
    rw [List.mem_singleton] at hk
    simpa [hk] using hother

/-- The session that a write leaves. -/
theorem live_of_set {data : Session} (hend : now < ends) (hown : data.get "jti" = .str token) :
    Live (redis.set (key uid token keyId) data ends) now uid token keyId data ends where
  stored := by rw [Expiring.set_apply, if_pos rfl]
  alive := hend
  own := hown

/-- An update replaces one field and nothing else just when the session is found without its `key_id`, the
field is not its token, and it was to end when a session made now would. -/
theorem updateKeeps_iff (h : Live redis now uid token keyId ses ends) (arg : String) (value : Val) :
    UpdateKeeps conf redis now uid token arg value keyId ses ends ↔
      FindsOwn redis now uid token arg ses ∧ (arg = "jti" → value = .str token) ∧
        ends = now + conf.redisTtl := by
  constructor
  · rintro ⟨redis', hupdate, hreadable, hended, -⟩
    obtain ⟨found, hfound, rfl⟩ := Option.map_eq_some_iff.mp hupdate
    obtain ⟨data, hdata, hreplaces⟩ := hreadable now le_rfl h.alive
    obtain ⟨⟨d, hd, hlt⟩, hjti⟩ := find_eq_some.mp hdata
    rw [Expiring.set_apply, if_pos rfl, Option.some.injEq, Prod.mk.injEq] at hd
    obtain ⟨rfl, rfl⟩ := hd
    have hlive : Live (redis.set (key uid token keyId) _ _) now uid token keyId _ _ :=
      live_of_set hlt hjti
    refine ⟨⟨found, hfound, replaces_set.mp hreplaces⟩, ?_, ?_⟩
    · rintro rfl
      exact hreplaces.field.symm.trans hjti
    -- it is readable until the later of the two ends, unless they are the same
    · by_contra hne
      rcases lt_or_gt_of_ne hne with hlt' | hgt
      · have hgone := hended ends le_rfl
        rw [hlive.find_eq, if_pos hlt'] at hgone
        cases hgone
      · obtain ⟨_, hthere, -⟩ := hreadable (now + conf.redisTtl) (by omega) hgt
        rw [hlive.find_eq, if_neg (by omega)] at hthere
        cases hthere
  · rintro ⟨⟨found, hfound, hagree⟩, hjti, rfl⟩
    have hown : (found.set arg value).get "jti" = .str token := by
      rw [Dict.get_set]
      split_ifs with harg
      · exact hjti harg.symm
      · exact (find_eq_some.mp hfound).2
    have hlive : Live (redis.set (key uid token keyId) _ _) now uid token keyId _ _ :=
      live_of_set h.alive hown
    refine ⟨_, Option.map_eq_some_iff.mpr ⟨found, hfound, rfl⟩, fun t _ ht => ?_, fun t ht => ?_,
      fun k hk => ?_⟩
    · exact ⟨_, by rw [hlive.find_eq, if_pos ht], replaces_set.mpr hagree⟩
    · rw [hlive.find_eq, if_neg (by omega)]
    · rw [Expiring.set_apply, if_neg hk]

/-! ### A session that is updated -/

/-- A login session that is updated in the second in which it was created. -/
theorem login_updated : ∃ redis ses,
    create {} Expiring.empty 100 (some "u-0002") ["user"] none "t-0001" 1200 [] = (redis, some ses) ∧
      UpdateKeeps {} redis 100 (some "u-0002") "t-0001" "auth" (.str "user:admin") none ses 1300 := by
  obtain ⟨hlive, -⟩ := live_of_create (rfl : create {} Expiring.empty 100 (some "u-0002") ["user"]
    none "t-0001" 1200 [] = _) (by decide +kernel) (by decide)
  exact ⟨_, _, rfl, (updateKeeps_iff hlive "auth" (.str "user:admin")).mpr
    ⟨hlive.findsOwn rfl "auth", by decide, rfl⟩⟩

/-- A session of a minute can still be read after ten of them when it was updated, although its `exp` says
otherwise; one with a `key_id` is not found. -/
theorem update_extends_and_misses :
    (∃ redis ses redis',
      create {} Expiring.empty 100 (some "u-0002") ["person"] none "t-0001" 60 [] = (redis, some ses) ∧
        ses.get "exp" = .str "160" ∧
        update {} redis 110 (some "u-0002") "t-0001" "auth" (.str "user") none = some redis' ∧
        (find redis' 700 (some "u-0002") "t-0001" none).isSome ∧
        ¬ UpdateKeeps {} redis 110 (some "u-0002") "t-0001" "auth" (.str "user") none ses 160) ∧
    ∃ redis ses,
      create {} Expiring.empty 100 (some "u-0002") ["user"] (some "abcd") "t-0001" 1200 [] =
        (redis, some ses) ∧
      find redis 110 (some "u-0002") "t-0001" (some "abcd") = some ses ∧
      update {} redis 110 (some "u-0002") "t-0001" "auth" (.str "admin") (some "abcd") = none := by
  constructor
  · refine ⟨_, _, _, rfl, by decide +kernel, rfl, by decide +kernel, ?_⟩
    rintro ⟨redis', hupdate, -, hended, -⟩
    cases hupdate
    have hgone := hended 700 (by decide)
    revert hgone
    decide +kernel
  · obtain ⟨hlive, -⟩ := live_of_create (rfl : create {} Expiring.empty 100 (some "u-0002") ["user"]
      (some "abcd") "t-0001" 1200 [] = _) (by decide +kernel) (by decide)
    refine ⟨_, _, rfl, ?_, rfl⟩
    rw [hlive.find_eq, if_pos (by decide)]

end SessionManager

end Apicrud
