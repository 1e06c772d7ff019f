import Apicrud.Clients
import Apicrud.Expiring

/-! # The mutex

`Mutex.acquire` tries `SET mutex:<name> <signature> EX ttl NX` once a second until it succeeds or gives
up; `release` reads the key, compares the signature, and deletes the key.  Each of these commands is a
turn of its process; any time may pass between two turns, so the key may expire between any two.

When every holder finishes its release before its time to live is over, at most one process holds the
lock and no release of a holder raises (`exclusive_along`).  Without that, a release still leaves the
locks of others alone as long as no process takes the lock between the two commands of another's
release, and no release begins when the key is gone (`keeps_along`): the comparison and the deletion are
two commands, and a missing key has no signature to decode (`release_fails`). -/

namespace Apicrud

/-- A `Mutex` object. -/
structure Mutex where
  lockname : String
  signature : String
  ttl : ℕ
  maxwait : ℕ := 20

namespace Mutex

/-! ### Commands -/

/-- The locks of redis, and the time. -/
structure Locks where
  store : Expiring String String
  now : ℕ

/-- Where a process is in its calls. -/
inductive Stage where
  | ready
  /-- in the loop of `acquire`, with so many tries left -/
  | waiting (tries : ℕ)
  /-- in `release`, after the signature was found to be its own -/
  | compared
deriving DecidableEq

/-- A process, with the instant of its last successful `acquire` until its release is over. -/
structure Process where
  stage : Stage := .ready
  acquired : Option ℕ := none
deriving DecidableEq

/-- What a process that is ready calls. -/
inductive Call where
  | acquire
  | release
deriving DecidableEq

/-- A turn: the time that passed before it, and the call that begins when the process is ready. -/
structure Command where
  elapsed : ℕ
  call : Call
deriving DecidableEq

/-- How a turn ends. -/
inductive Result where
  /-- the call goes on -/
  | continues
  | acquired
  | released
  | timeoutError
  /-- `None` has no `decode` -/
  | attributeError
deriving DecidableEq

/-- `'mutex:%s' % self.lockname` -/
def key (m : Mutex) : String := "mutex:" ++ m.lockname

/-- One pass of the loop in `acquire`. -/
def tryAcquire (m : Mutex) (store : Expiring String String) (now : ℕ) (acquired : Option ℕ) :
    ℕ → Locks × Process × Result
  | 0 => (⟨store, now⟩, ⟨.ready, acquired⟩, .timeoutError)
  | tries + 1 =>
      match store.setNX now m.key m.signature m.ttl with
      | some store => (⟨store, now⟩, ⟨.ready, some now⟩, .acquired)
      | none =>
          if tries = 0 then (⟨store, now⟩, ⟨.ready, acquired⟩, .timeoutError)
          else (⟨store, now⟩, ⟨.waiting tries, acquired⟩, .continues)

/-- The first command of `release`. -/
def compare (m : Mutex) (store : Expiring String String) (now : ℕ) (acquired : Option ℕ) :
    Locks × Process × Result :=
  match store.get now m.key with
  | none => (⟨store, now⟩, ⟨.ready, none⟩, .attributeError)
  | some signature =>
      if signature = m.signature then (⟨store, now⟩, ⟨.compared, acquired⟩, .continues)
      else (⟨store, now⟩, ⟨.ready, none⟩, .timeoutError)

/-- The second command of `release`; the answer of `DEL` is the number of keys deleted. -/
def remove (m : Mutex) (store : Expiring String String) (now : ℕ) : Locks × Process × Result :=
  (⟨store.del m.key, now⟩, ⟨.ready, none⟩,
    if (store.get now m.key).isSome then .released else .timeoutError)

/-- A turn of a process. -/
def turn (m : Mutex) (s : Locks) (c : Command) (r : Process) : Locks × Process × Result :=
  let now := s.now + c.elapsed
  match r.stage with
  | .waiting tries => tryAcquire m s.store now r.acquired tries
  | .compared => remove m s.store now
  | .ready =>
      match c.call with
      | .acquire => tryAcquire m s.store now r.acquired m.maxwait
      | .release => compare m s.store now r.acquired

variable {ι : Type} [DecidableEq ι] (mutex : ι → Mutex)

/-- The processes, each with its own object. -/
def processes : Program ι Locks Process Command Result where
  turn i := turn (mutex i)

/-- The processes with the locks. -/
abbrev Processes (ι : Type) := Pool ι Locks Process

/-- The time of a turn. -/
def Processes.time (p : Processes ι) (t : Turn ι Command) : ℕ := p.shared.now + t.event.elapsed

/-- The turn is a command of `release`. -/
def Processes.Releases (p : Processes ι) (t : Turn ι Command) : Prop :=
  (p.locals t.client).stage = .compared ∨
    (p.locals t.client).stage = .ready ∧ t.event.call = .release

instance (p : Processes ι) (t : Turn ι Command) : Decidable (p.Releases t) :=
  inferInstanceAs (Decidable (_ ∨ _))

/-! ### What a turn does -/

variable {mutex} {p : Processes ι} {t : Turn ι Command}

/-- The kinds of turns. -/
inductive Turns (mutex : ι → Mutex) (p : Processes ι) (t : Turn ι Command) : Prop
  /-- the lock is free and is taken -/
  | takes (hfree : p.shared.store.get (p.time t) (mutex t.client).key = none)
      (hno : ¬ p.Releases t)
      (hstore : ((processes mutex).machine.next p t).shared.store = p.shared.store.set
        (mutex t.client).key (mutex t.client).signature (p.time t + (mutex t.client).ttl))
      (hlocal : ((processes mutex).machine.next p t).locals t.client = ⟨.ready, some (p.time t)⟩)
  /-- the lock is not free, or the time to wait is over -/
  | waits (hno : ¬ p.Releases t)
      (hstore : ((processes mutex).machine.next p t).shared.store = p.shared.store)
      (hstage : (((processes mutex).machine.next p t).locals t.client).stage ≠ .compared)
      (hlocal : (((processes mutex).machine.next p t).locals t.client).acquired =
        (p.locals t.client).acquired)
  /-- the key is gone -/
  | misses (hstage : (p.locals t.client).stage = .ready) (hrelease : t.event.call = .release)
      (hgone : p.shared.store.get (p.time t) (mutex t.client).key = none)
      (hstore : ((processes mutex).machine.next p t).shared.store = p.shared.store)
      (hlocal : ((processes mutex).machine.next p t).locals t.client = ⟨.ready, none⟩)
      (hout : (processes mutex).machine.out p t = .attributeError)
  /-- the key holds another signature -/
  | differs (hstage : (p.locals t.client).stage = .ready) {signature : String}
      (hother : p.shared.store.get (p.time t) (mutex t.client).key = some signature)
      (hne : signature ≠ (mutex t.client).signature)
      (hstore : ((processes mutex).machine.next p t).shared.store = p.shared.store)
      (hlocal : ((processes mutex).machine.next p t).locals t.client = ⟨.ready, none⟩)
      (hout : (processes mutex).machine.out p t = .timeoutError)
  /-- the key holds the process's own signature -/
  | compares (hstage : (p.locals t.client).stage = .ready)
      (hown : p.shared.store.get (p.time t) (mutex t.client).key = some (mutex t.client).signature)
      (hstore : ((processes mutex).machine.next p t).shared.store = p.shared.store)
      (hlocal : ((processes mutex).machine.next p t).locals t.client =
        ⟨.compared, (p.locals t.client).acquired⟩)
      (hout : (processes mutex).machine.out p t = .continues)
  /-- the key is deleted, whatever it holds -/
  | removes (hstage : (p.locals t.client).stage = .compared)
      (hstore : ((processes mutex).machine.next p t).shared.store =
        p.shared.store.del (mutex t.client).key)
      (hlocal : ((processes mutex).machine.next p t).locals t.client = ⟨.ready, none⟩)
      (hout : (processes mutex).machine.out p t =
        if (p.shared.store.get (p.time t) (mutex t.client).key).isSome then .released
        else .timeoutError)

/-- The locks, the state of the process and the result of a turn, from those of its command. -/
theorem next_eq {store : Expiring String String} {now : ℕ} {process : Process} {result : Result}
    (h : turn (mutex t.client) p.shared t.event (p.locals t.client) =
      (⟨store, now⟩, process, result)) :
    ((processes mutex).machine.next p t).shared.store = store ∧
      ((processes mutex).machine.next p t).locals t.client = process ∧
      (processes mutex).machine.out p t = result := by
  rw [Program.next_shared, Program.next_self, Program.out_eq]
  simp only [processes, h]
  exact ⟨trivial, trivial, trivial⟩

/-- One pass of the loop takes the lock or leaves it. -/
theorem turns_tryAcquire {tries : ℕ}
    (hturn : turn (mutex t.client) p.shared t.event (p.locals t.client) =
      tryAcquire (mutex t.client) p.shared.store (p.time t) (p.locals t.client).acquired tries)
    (hno : ¬ p.Releases t) : Turns mutex p t := by
  cases tries with
  | zero =>
      obtain ⟨hstore, hlocal, -⟩ := next_eq hturn
      refine .waits hno hstore ?_ ?_
      · rw [hlocal]
        exact Stage.noConfusion
      · rw [hlocal]
  | succ tries =>
      rw [tryAcquire] at hturn
      cases hset : p.shared.store.setNX (p.time t) (mutex t.client).key (mutex t.client).signature
          (mutex t.client).ttl with
      | some store =>
          rw [hset] at hturn
          obtain ⟨hstore, hlocal, -⟩ := next_eq hturn
          obtain ⟨hfree, rfl⟩ := Expiring.setNX_eq_some.mp hset
          exact .takes hfree hno hstore hlocal
      | none =>
          rw [hset] at hturn
          simp only at hturn
          split_ifs at hturn
          · obtain ⟨hstore, hlocal, -⟩ := next_eq hturn
            refine .waits hno hstore ?_ ?_
            · rw [hlocal]
              exact Stage.noConfusion
            · rw [hlocal]
          · obtain ⟨hstore, hlocal, -⟩ := next_eq hturn
            refine .waits hno hstore ?_ ?_
            · rw [hlocal]
              exact Stage.noConfusion
            · rw [hlocal]

/-- Every turn is of one of the kinds. -/
theorem turns (mutex : ι → Mutex) (p : Processes ι) (t : Turn ι Command) : Turns mutex p t := by
  cases hstage : (p.locals t.client).stage with
  | waiting tries =>
      refine @turns_tryAcquire ι _ mutex p t tries ?_ ?_
      · simp only [turn, hstage]
        rfl
      · rintro (h | ⟨h, -⟩)
        · rw [hstage] at h
          cases h
        · rw [hstage] at h
          cases h
  | compared =>
      have hturn : turn (mutex t.client) p.shared t.event (p.locals t.client) =
          remove (mutex t.client) p.shared.store (p.time t) := by
        simp only [turn, hstage]
        rfl
      obtain ⟨hstore, hlocal, hout⟩ := next_eq hturn
      exact .removes hstage hstore hlocal hout
  | ready =>
      cases hcall : t.event.call with
      | acquire =>
          refine @turns_tryAcquire ι _ mutex p t (mutex t.client).maxwait ?_ ?_
          · simp only [turn, hstage, hcall]
            rfl
          · rintro (h | ⟨-, h⟩)
            · rw [hstage] at h
              cases h
            · rw [hcall] at h
              cases h
      | release =>
          have hturn : turn (mutex t.client) p.shared t.event (p.locals t.client) =
              compare (mutex t.client) p.shared.store (p.time t) (p.locals t.client).acquired := by
            simp only [turn, hstage, hcall]
            rfl
          unfold compare at hturn
          cases hget : p.shared.store.get (p.time t) (mutex t.client).key with
          | none =>
              rw [hget] at hturn
              obtain ⟨hstore, hlocal, hout⟩ := next_eq hturn
              exact .misses hstage hcall hget hstore hlocal hout
          | some signature =>
              rw [hget] at hturn
              simp only at hturn
              split_ifs at hturn with hsame
              · obtain ⟨hstore, hlocal, hout⟩ := next_eq hturn
                exact .compares hstage (hsame ▸ hget) hstore hlocal hout
              · obtain ⟨hstore, hlocal, hout⟩ := next_eq hturn
                exact .differs hstage hget hsame hstore hlocal hout

theorem tryAcquire_now (m : Mutex) (store : Expiring String String) (now : ℕ) (acquired : Option ℕ)
    (tries : ℕ) : (tryAcquire m store now acquired tries).1.now = now := by
  cases tries with
  | zero => rfl
  | succ tries =>
      rw [tryAcquire]
      split
      · rfl
      · split_ifs <;> rfl

theorem next_now : ((processes mutex).machine.next p t).shared.now = p.time t := by
  rw [Program.next_shared]
  change (turn (mutex t.client) p.shared t.event (p.locals t.client)).1.now = p.time t
  unfold turn
  simp only
  split
  · exact tryAcquire_now ..
  · rfl
  · split
    · exact tryAcquire_now ..
    · unfold compare
      split
      · rfl
      · split_ifs <;> rfl

/-! ### Mutual exclusion -/

/-- No holder is still holding when its time to live is over. -/
def Timely (mutex : ι → Mutex) (p : Processes ι) (t : Turn ι Command) : Prop :=
  ∀ i t₀, (p.locals i).acquired = some t₀ → p.time t < t₀ + (mutex i).ttl

/-- No process has begun, and no key holds the signature of one. -/
structure Fresh (mutex : ι → Mutex) (p : Processes ι) : Prop where
  ready : ∀ i, p.locals i = {}
  unused : ∀ i d, p.shared.store (mutex i).key ≠ some ((mutex i).signature, d)

/-- At most one process holds a lock. -/
def Exclusive (mutex : ι → Mutex) (p : Processes ι) : Prop :=
  ∀ i j, (mutex i).lockname = (mutex j).lockname → (p.locals i).acquired.isSome →
    (p.locals j).acquired.isSome → i = j

/-- A holder's release does not raise. -/
def ReleaseReturns (mutex : ι → Mutex) (p : Processes ι) (t : Turn ι Command) : Prop :=
  p.Releases t → (p.locals t.client).acquired.isSome →
    (processes mutex).machine.out p t = .continues ∨ (processes mutex).machine.out p t = .released

/-- The keys hold the signatures of the holders and of no other process, with the times at which they
are over. -/
structure Signed (mutex : ι → Mutex) (p : Processes ι) : Prop where
  held : ∀ i t₀, (p.locals i).acquired = some t₀ →
    p.shared.store (mutex i).key = some ((mutex i).signature, t₀ + (mutex i).ttl)
  own : ∀ i d, p.shared.store (mutex i).key = some ((mutex i).signature, d) →
    (p.locals i).acquired.isSome
  compared : ∀ i, (p.locals i).stage = .compared → (p.locals i).acquired.isSome

variable {i : ι} {es : List (Turn ι Command)}

omit [DecidableEq ι] in
theorem Signed.get_held (h : Signed mutex p) (htimely : Timely mutex p t)
    (hi : (p.locals i).acquired.isSome) :
    p.shared.store.get (p.time t) (mutex i).key = some (mutex i).signature := by
  obtain ⟨t₀, ht₀⟩ := Option.isSome_iff_exists.mp hi
  exact Expiring.get_eq_some.mpr ⟨_, h.held i t₀ ht₀, htimely i t₀ ht₀⟩

omit [DecidableEq ι] in
theorem Signed.of_get (h : Signed mutex p)
    (hget : p.shared.store.get (p.time t) (mutex i).key = some (mutex i).signature) :
    (p.locals i).acquired.isSome := by
  obtain ⟨d, hd, -⟩ := Expiring.get_eq_some.mp hget
  exact h.own i d hd

omit [DecidableEq ι] in
theorem Signed.exclusive (hsignature : Function.Injective fun i => (mutex i).signature)
    (h : Signed mutex p) : Exclusive mutex p := by
  intro i j hname hi hj
  obtain ⟨t₁, ht₁⟩ := Option.isSome_iff_exists.mp hi
  obtain ⟨t₂, ht₂⟩ := Option.isSome_iff_exists.mp hj
  have hkey : (mutex i).key = (mutex j).key := by rw [key, key, hname]
  have heq := (h.held i t₁ ht₁).symm.trans (hkey ▸ h.held j t₂ ht₂)
  exact hsignature (congrArg Prod.fst (Option.some.inj heq))

/-- A turn that leaves the locks alone, and drops the claim of its process to a lock it does not hold. -/
theorem Signed.next_same (h : Signed mutex p)
    (hstore : ((processes mutex).machine.next p t).shared.store = p.shared.store)
    (hlocal : (((processes mutex).machine.next p t).locals t.client).acquired =
        (p.locals t.client).acquired ∨
      (((processes mutex).machine.next p t).locals t.client).acquired = none ∧
        (p.locals t.client).acquired = none)
    (hstage : (((processes mutex).machine.next p t).locals t.client).stage = .compared →
      (p.locals t.client).acquired.isSome) :
    Signed mutex ((processes mutex).machine.next p t) := by
  have hacquired : ∀ i, (((processes mutex).machine.next p t).locals i).acquired =
      (p.locals i).acquired := by
    intro i
    by_cases hi : i = t.client
    · subst hi
      rcases hlocal with hsame | ⟨hnone, hnone'⟩
      · exact hsame
      · rw [hnone, hnone']
    · rw [Program.next_other _ p t hi]
  constructor
  · intro i t₀ ht₀
    rw [hstore]
    exact h.held i t₀ (hacquired i ▸ ht₀)
  · intro i d hd
    rw [hstore] at hd
    rw [hacquired]
    exact h.own i d hd
  · intro i hi
    rw [hacquired]
    by_cases hclient : i = t.client
    · subst hclient
      exact hstage hi
    · rw [Program.next_other _ p t hclient] at hi
      exact h.compared i hi

/-- The signatures stay those of the holders, as long as every holder is in time. -/
theorem Signed.next (hsignature : Function.Injective fun i => (mutex i).signature)
    (h : Signed mutex p) (htimely : Timely mutex p t) :
    Signed mutex ((processes mutex).machine.next p t) := by
  cases turns mutex p t with
  | waits hno hstore hstage hlocal =>
      exact h.next_same hstore (Or.inl hlocal) fun hcompared => absurd hcompared hstage
  | compares hstage hown hstore hlocal hout =>
      refine h.next_same hstore (Or.inl ?_) fun _ => h.of_get hown
      rw [hlocal]
  | misses hstage hrelease hgone hstore hlocal hout =>
      refine h.next_same hstore (Or.inr ⟨by rw [hlocal], ?_⟩) fun hcompared => ?_
      · rw [← Option.not_isSome_iff_eq_none]
        intro hsome
        rw [h.get_held htimely hsome] at hgone
        cases hgone
      · rw [hlocal] at hcompared
        cases hcompared
  | differs hstage hother hne hstore hlocal hout =>
      refine h.next_same hstore (Or.inr ⟨by rw [hlocal], ?_⟩) fun hcompared => ?_
      · rw [← Option.not_isSome_iff_eq_none]
        intro hsome
        rw [h.get_held htimely hsome] at hother
        exact hne (Option.some.inj hother).symm
      · rw [hlocal] at hcompared
        cases hcompared
  | takes hfree hno hstore hlocal =>
      constructor
      · intro i t₀ ht₀
        by_cases hi : i = t.client
        · subst hi
          rw [hlocal] at ht₀
          cases ht₀
          rw [hstore, Expiring.set_apply, if_pos rfl]
        · rw [Program.next_other _ p t hi] at ht₀
          have hkey : (mutex i).key ≠ (mutex t.client).key := by
            intro hkey
            have hlive := h.get_held htimely (Option.isSome_iff_exists.mpr ⟨t₀, ht₀⟩)
            rw [hkey, hfree] at hlive
            cases hlive
          rw [hstore, Expiring.set_apply, if_neg hkey]
          exact h.held i t₀ ht₀
      · intro i d hd
        by_cases hi : i = t.client
        · subst hi
          rw [hlocal]
          rfl
        · rw [Program.next_other _ p t hi]
          rw [hstore, Expiring.set_apply] at hd
          split_ifs at hd
          · have hsame := congrArg Prod.fst (Option.some.inj hd)
            exact absurd (hsignature hsame.symm) hi
          · exact h.own i d hd
      · intro i hi
        by_cases hclient : i = t.client
        · subst hclient
          rw [hlocal]
          rfl
        · rw [Program.next_other _ p t hclient] at hi ⊢
          exact h.compared i hi
  | removes hstage hstore hlocal hout =>
      have hother : ∀ i ≠ t.client, (p.locals i).acquired.isSome →
          (mutex i).key ≠ (mutex t.client).key := by
        intro i hi hsome hkey
        have hmine := h.get_held htimely (h.compared t.client hstage)
        have hits := h.get_held htimely hsome
        rw [hkey, hmine] at hits
        exact hi (hsignature (Option.some.inj hits).symm)
      constructor
      · intro i t₀ ht₀
        by_cases hi : i = t.client
        · subst hi
          rw [hlocal] at ht₀
          cases ht₀
        · rw [Program.next_other _ p t hi] at ht₀
          have hkey := hother i hi (Option.isSome_iff_exists.mpr ⟨t₀, ht₀⟩)
          rw [hstore, Expiring.del_apply, if_neg hkey]
          exact h.held i t₀ ht₀
      · intro i d hd
        rw [hstore, Expiring.del_apply] at hd
        split_ifs at hd with hkey
        by_cases hi : i = t.client
        · subst hi
          exact absurd rfl hkey
        · rw [Program.next_other _ p t hi]
          exact h.own i d hd
      · intro i hi
        by_cases hclient : i = t.client
        · subst hclient
          rw [hlocal] at hi
          cases hi
        · rw [Program.next_other _ p t hclient] at hi ⊢
          exact h.compared i hi

theorem Signed.returns (h : Signed mutex p) (htimely : Timely mutex p t) :
    ReleaseReturns mutex p t := by
  intro hrelease hholds
  have hlive := h.get_held htimely hholds
  cases turns mutex p t with
  | takes hfree hno => exact absurd hrelease hno
  | waits hno => exact absurd hrelease hno
  | misses hstage hcall hgone =>
      rw [hgone] at hlive
      cases hlive
  | differs hstage hother hne =>
      rw [hother] at hlive
      exact absurd (Option.some.inj hlive) hne
  | compares hstage hown hstore hlocal hout => exact Or.inl hout
  | removes hstage hstore hlocal hout =>
      rw [hlive] at hout
      exact Or.inr hout

/-- When every holder releases before its time to live is over, at most one process holds a lock at any
time, and no release of a holder raises. -/
theorem exclusive_along (hsignature : Function.Injective fun i => (mutex i).signature)
    (hfresh : Fresh mutex p) (h : (processes mutex).machine.Along (Timely mutex) p es) :
    (processes mutex).machine.Along (fun p t =>
      Exclusive mutex ((processes mutex).machine.next p t) ∧ ReleaseReturns mutex p t) p es := by
  refine h.of_invariant (I := Signed mutex)
    (fun p t hsigned htimely => hsigned.next hsignature htimely)
    (fun p t hsigned htimely => ⟨(hsigned.next hsignature htimely).exclusive hsignature,
      hsigned.returns htimely⟩) ?_
  constructor
  · intro i t₀ ht₀
    rw [hfresh.ready i] at ht₀
    cases ht₀
  · intro i d hd
    exact absurd hd (hfresh.unused i d)
  · intro i hi
    rw [hfresh.ready i] at hi
    cases hi

/-- Two processes with the lock of the migrations, for a minute. -/
def migrations (b : Bool) : Mutex := { lockname := "alembic", signature := if b then "x-1" else "x-2", ttl := 60 }

/-- No lock is taken. -/
def unlocked : Processes Bool := ⟨⟨Expiring.empty, 100⟩, fun _ => {}⟩

/-- One process after the other, each in time. -/
theorem inTurn_exclusive : (processes migrations).machine.Along (fun p t =>
      Exclusive migrations ((processes migrations).machine.next p t) ∧ ReleaseReturns migrations p t)
    unlocked [⟨true, ⟨0, .acquire⟩⟩, ⟨false, ⟨1, .acquire⟩⟩, ⟨true, ⟨50, .release⟩⟩,
      ⟨true, ⟨0, .release⟩⟩, ⟨false, ⟨1, .acquire⟩⟩] := by
  have hsignature : Function.Injective fun b => (migrations b).signature := by decide
  refine exclusive_along hsignature ⟨fun _ => rfl, fun i d h => by cases h⟩ ?_
  have htimely : ∀ p : Processes Bool, ∀ t, (∀ i, ∀ t₀ ∈ (p.locals i).acquired,
      p.time t < t₀ + (migrations i).ttl) → Timely migrations p t := fun p t h i t₀ ht₀ => h i t₀ ht₀
  exact ⟨htimely _ _ (by decide +kernel), htimely _ _ (by decide +kernel),
    htimely _ _ (by decide +kernel), htimely _ _ (by decide +kernel), htimely _ _ (by decide +kernel),
    trivial⟩

/-! ### Releases and the locks of others -/

/-- A release by a process that does not own the lock raises `TimeoutError`, and leaves the locks as they
are. -/
def Keeps (mutex : ι → Mutex) (p : Processes ι) (t : Turn ι Command) : Prop :=
  p.Releases t → p.shared.store.get (p.time t) (mutex t.client).key ≠ some (mutex t.client).signature →
    (processes mutex).machine.out p t = .timeoutError ∧
      ∀ k, ((processes mutex).machine.next p t).shared.store.get (p.time t) k =
        p.shared.store.get (p.time t) k

/-- No release begins when the key is gone, and no process takes a lock that another is releasing. -/
structure Undisturbed (mutex : ι → Mutex) (p : Processes ι) (t : Turn ι Command) : Prop where
  present : (p.locals t.client).stage = .ready → t.event.call = .release →
    p.shared.store.get (p.time t) (mutex t.client).key ≠ none
  alone : ¬ p.Releases t → p.shared.store.get (p.time t) (mutex t.client).key = none →
    ∀ i ≠ t.client, (mutex i).lockname = (mutex t.client).lockname →
      (p.locals i).stage ≠ .compared

/-- A lock that a process is about to delete is its own, or gone. -/
def Compared (mutex : ι → Mutex) (p : Processes ι) : Prop :=
  ∀ i, (p.locals i).stage = .compared → ∀ signature,
    p.shared.store.get p.shared.now (mutex i).key = some signature → signature = (mutex i).signature

omit [DecidableEq ι] in
theorem key_eq_iff {m m' : Mutex} : m.key = m'.key ↔ m.lockname = m'.lockname := by
  constructor
  · intro h
    have hlist := congrArg String.toList h
    simp only [key, String.toList_append] at hlist
    exact String.toList_injective (List.append_cancel_left hlist)
  · intro h
    rw [key, key, h]

/-- A process that has compared is still right when the locks are left alone or deleted. -/
theorem Compared.next_of_get (h : Compared mutex p)
    (hget : ∀ i ≠ t.client, (p.locals i).stage = .compared → ∀ signature,
      ((processes mutex).machine.next p t).shared.store.get (p.time t) (mutex i).key =
        some signature → p.shared.store.get (p.time t) (mutex i).key = some signature)
    (hclient : (((processes mutex).machine.next p t).locals t.client).stage = .compared →
      ∀ signature, ((processes mutex).machine.next p t).shared.store.get (p.time t)
        (mutex t.client).key = some signature → signature = (mutex t.client).signature) :
    Compared mutex ((processes mutex).machine.next p t) := by
  intro i hi signature hsignature
  rw [next_now] at hsignature
  by_cases hclient' : i = t.client
  · subst hclient'
    exact hclient hi signature hsignature
  · rw [Program.next_other _ p t hclient'] at hi
    have hlater := hget i hclient' hi signature hsignature
    exact h i hi signature (Expiring.get_of_le hlater (Nat.le_add_right _ _))

theorem Compared.next (h : Compared mutex p) (hundisturbed : Undisturbed mutex p t) :
    Compared mutex ((processes mutex).machine.next p t) := by
  cases turns mutex p t with
  | waits hno hstore hstage hlocal =>
      refine h.next_of_get (fun i _ _ signature hget => ?_) fun hcompared => absurd hcompared hstage
      rwa [hstore] at hget
  | misses hstage hrelease hgone hstore hlocal hout =>
      refine h.next_of_get (fun i _ _ signature hget => ?_) fun hcompared => ?_
      · rwa [hstore] at hget
      · rw [hlocal] at hcompared
        cases hcompared
  | differs hstage hother hne hstore hlocal hout =>
      refine h.next_of_get (fun i _ _ signature hget => ?_) fun hcompared => ?_
      · rwa [hstore] at hget
      · rw [hlocal] at hcompared
        cases hcompared
  | compares hstage hown hstore hlocal hout =>
      refine h.next_of_get (fun i _ _ signature hget => ?_) fun _ signature hget => ?_
      · rwa [hstore] at hget
      · rw [hstore, hown] at hget
        exact (Option.some.inj hget).symm
  | takes hfree hno hstore hlocal =>
      refine h.next_of_get (fun i hi hcompared signature hget => ?_) fun hcompared => ?_
      · have hkey : (mutex i).key ≠ (mutex t.client).key := fun hkey =>
          hundisturbed.alone hno hfree i hi (key_eq_iff.mp hkey) hcompared
        have hsame : ((processes mutex).machine.next p t).shared.store (mutex i).key =
            p.shared.store (mutex i).key := by
          rw [hstore, Expiring.set_apply, if_neg hkey]
        rwa [Expiring.get_congr hsame] at hget
      · rw [hlocal] at hcompared
        cases hcompared
  | removes hstage hstore hlocal hout =>
      refine h.next_of_get (fun i hi hcompared signature hget => ?_) fun hcompared => ?_
      · obtain ⟨d, hd, hlive⟩ := Expiring.get_eq_some.mp hget
        rw [hstore] at hd
        exact Expiring.get_eq_some.mpr ⟨d, Expiring.del_some hd, hlive⟩
      · rw [hlocal] at hcompared
        cases hcompared

/-- Deleting a key that is gone changes nothing that can be read. -/
theorem get_del_of_none {store : Expiring String String} {now : ℕ} {k : String}
    (h : store.get now k = none) (k' : String) : (store.del k).get now k' = store.get now k' := by
  by_cases hk : k' = k
  · subst hk
    rw [h, Expiring.get, Expiring.del_apply, if_pos rfl]
  · apply Expiring.get_congr
    rw [Expiring.del_apply, if_neg hk]

theorem Compared.keeps (h : Compared mutex p) (hundisturbed : Undisturbed mutex p t) :
    Keeps mutex p t := by
  intro hrelease hown
  cases turns mutex p t with
  | takes hfree hno => exact absurd hrelease hno
  | waits hno => exact absurd hrelease hno
  | misses hstage hcall hgone => exact absurd hgone (hundisturbed.present hstage hcall)
  | compares hstage hown' => exact absurd hown' hown
  | differs hstage hother hne hstore hlocal hout =>
      refine ⟨hout, fun k => ?_⟩
      rw [hstore]
  | removes hstage hstore hlocal hout =>
      have hgone : p.shared.store.get (p.time t) (mutex t.client).key = none := by
        by_contra hsome
        obtain ⟨signature, hget⟩ := Option.ne_none_iff_exists'.mp hsome
        have hearlier := Expiring.get_of_le hget (Nat.le_add_right p.shared.now t.event.elapsed)
        rw [h t.client hstage signature hearlier] at hget
        exact hown hget
      rw [hgone] at hout
      refine ⟨hout, fun k => ?_⟩
      rw [hstore]
      exact get_del_of_none hgone k

/-- In a run in which no release begins when the key is gone, and no process takes a lock between the two
commands of another's release, every release of a lock that is not owned raises `TimeoutError` and leaves
the locks as they are. -/
theorem keeps_along (hready : ∀ i, (p.locals i).stage ≠ .compared)
    (h : (processes mutex).machine.Along (Undisturbed mutex) p es) :
    (processes mutex).machine.Along (Keeps mutex) p es := by
  refine h.of_invariant (I := Compared mutex) (fun p t hcompared => hcompared.next)
    (fun p t hcompared => hcompared.keeps) ?_
  intro i hi
  exact absurd hi (hready i)

/-- A process whose lock was taken over releases it. -/
theorem takenOver_keeps : (processes migrations).machine.Along (Keeps migrations) unlocked
    [⟨true, ⟨0, .acquire⟩⟩, ⟨false, ⟨60, .acquire⟩⟩, ⟨true, ⟨0, .release⟩⟩] :=
  keeps_along (fun _ => Stage.noConfusion)
    ⟨⟨by decide +kernel, by decide +kernel⟩, ⟨by decide +kernel, by decide +kernel⟩,
      ⟨by decide +kernel, by decide +kernel⟩, trivial⟩

/-- A process has found its own signature just before the key expires. -/
def aboutToDelete : Processes Bool :=
  (processes migrations).machine.run unlocked
    [⟨true, ⟨0, .acquire⟩⟩, ⟨true, ⟨59, .release⟩⟩, ⟨false, ⟨1, .acquire⟩⟩]

/-- The lock that another process has taken meanwhile is deleted without an error; and where no process
has taken it, a release that finds the key gone raises another error. -/
theorem release_fails : ¬ Keeps migrations aboutToDelete ⟨true, ⟨0, .release⟩⟩ ∧
    aboutToDelete.shared.store.get 160 "mutex:alembic" = some "x-2" ∧
    ((processes migrations).machine.next aboutToDelete ⟨true, ⟨0, .release⟩⟩).shared.store.get 160
      "mutex:alembic" = none ∧
    ¬ Keeps migrations ((processes migrations).machine.run unlocked [⟨true, ⟨0, .acquire⟩⟩])
      ⟨true, ⟨60, .release⟩⟩ := by
  refine ⟨fun h => ?_, by decide +kernel, by decide +kernel, fun h => ?_⟩
  · have hout := (h (by decide +kernel) (by decide +kernel)).1
    exact absurd hout (by decide +kernel)
  · have hout := (h (by decide +kernel) (by decide +kernel)).1
    exact absurd hout (by decide +kernel)

end Mutex

end Apicrud
