import Apicrud.GrantListing
import Apicrud.GrantLookups

/-! # Grants in several processes

Each process of a service has a cache of its own for the grants, and no process hears of a grant that another
one changes.  What bounds the age of an answer is only the time to live of the entries: `settles_along` says
that, when the grants of a user stay as they are, every process answers with them once the time to live has
passed, and the time that a call may take to store what it read. -/

namespace Apicrud

open Relational

namespace Grants

/-- The database that the processes share, and the cache of each. -/
structure Fleet (ι σ τ : Type*) where
  db : Database
  caches : ι → σ
  /-- when something happened last -/
  clock : τ

/-- What can happen. -/
inductive FleetAction (ι σ τ : Type*) where
  /-- a request to any process changes the database -/
  | write (db : Database)
  /-- a process uses the class -/
  | use (p : ι) (u : Use τ)
  /-- a process takes entries out of its cache -/
  | lose (p : ι) (cache : σ)

structure FleetEvent (ι σ τ : Type*) where
  now : τ
  action : FleetAction ι σ τ

/-- The query is made in the database as it is. -/
def Use.on {τ : Type*} (db : Database) : Use τ → Use τ
  | .construct untilTest untilStore => .construct untilTest untilStore
  | .get l => .get { l with db := db }

section Code

variable {ι σ τ : Type*} [DecidableEq ι] [LinearOrder τ] [Add τ] (C : TtlCache σ Val Limits τ) (g : Setting)

/-- What an event does, and what a call answers. -/
def serve (s : Fleet ι σ τ) (e : FleetEvent ι σ τ) : Fleet ι σ τ × Option Val :=
  match e.action with
  | .write db => ({ s with db := db, clock := e.now }, none)
  | .use p u =>
      let (c, answer) := use C g ⟨s.caches p, e.now⟩ (u.on s.db)
      ({ s with caches := Function.update s.caches p c.cache, clock := e.now }, answer)
  | .lose p cache => ({ s with caches := Function.update s.caches p cache, clock := e.now }, none)

/-- The processes, event by event. -/
def fleet : Machine (Fleet ι σ τ) (FleetEvent ι σ τ) (Option Val) := ⟨serve C g⟩

/-- The clock does not go back, a call stores what it read within some time, and a process takes out entries
only.  No user has the id under which the defaults are kept. -/
structure Timely (slack : τ) (s : Fleet ι σ τ) (e : FleetEvent ι σ τ) : Prop where
  clock : s.clock ≤ e.now
  stores : ∀ p l, e.action = .use p (.get l) → l.untilTest + l.untilStore ≤ slack
  user : ∀ p l, e.action = .use p (.get l) → l.user ≠ defaultsKey
  loses : ∀ p cache, e.action = .lose p cache →
    ∀ k entry, C.entry cache k = some entry → C.entry (s.caches p) k = some entry

/-- The grants of the user are the same whenever a call asks for them. -/
def Settled (u : Val) (grants : Limits) (s : Fleet ι σ τ) (e : FleetEvent ι σ τ) : Prop :=
  ∀ p l, e.action = .use p (.get l) → l.user = u → ofUser l.now s.db u = grants

/-- A call that reads the grants of the user after an instant answers with what is in force. -/
def AnswersCurrent (u : Val) (since : τ) (s : Fleet ι σ τ) (e : FleetEvent ι σ τ) : Prop :=
  ∀ p l, e.action = .use p (.get l) → l.user = u → since ≤ l.member e.now →
    ∀ answer, (fleet C g).out s e = some answer → answer = g.number (current g l.now s.db u l.name)

end Code

/-! ### The entries of one call -/

section Entries

variable {σ τ : Type*} [LinearOrder τ] [Add τ] [CanonicallyOrderedAdd τ] {C : TtlCache σ Val Limits τ}
  {g : Setting} {c : σ} {start : τ} {l : Lookup τ} {k : Val} {e : CacheEntry Val Limits τ}

/-- The entries after `get`: those of before, and that of the user. -/
theorem entry_fill (h : C.entry (fill C c start l) k = some e) :
    C.entry c k = some e ∨ k = l.user ∧ e = ⟨l.user, l.found, l.store start + C.ttl⟩ := by
  unfold fill at h
  split_ifs at h with hcached
  · exact Or.inl h
  · refine TtlCache.entry_insert_cases (fun hlasts => hcached ?_) h
    exact TtlCache.contains_iff.mpr (hlasts.mono Lookup.test_le)

omit [CanonicallyOrderedAdd τ] in
/-- Only the defaults are written by `Grants()`. -/
theorem entry_construct {test store : τ} (hle : test ≤ store)
    (h : C.entry (constructTimed C g c test store) k = some e) :
    C.entry c k = some e ∨ k = defaultsKey ∧ e = ⟨defaultsKey, g.limits, store + C.ttl⟩ := by
  unfold constructTimed at h
  split_ifs at h with hcached
  · exact Or.inl h
  · refine TtlCache.entry_insert_cases (fun hlasts => hcached ?_) h
    exact TtlCache.contains_iff.mpr (hlasts.mono hle)

omit [CanonicallyOrderedAdd τ] in
/-- The reads of `get` leave the entries. -/
theorem entry_getTimed : C.entry (getTimed C g c start l).1 k = C.entry (fill C c start l) k := by
  unfold getTimed
  generalize fill C c start l = c
  cases hread : C.index c (l.member start) l.user with
  | mk value c₁ =>
      have hmember : ∀ k, C.entry c₁ k = C.entry c k := by
        intro k
        rw [← @TtlCache.entry_index _ _ _ _ _ _ _ C c l.user k (l.member start), hread]
      cases value with
      | none => exact hmember k
      | some grants =>
          simp only
          split_ifs
          · rw [TtlCache.entry_index, hmember]
          · unfold getDefault
            cases hdefault : C.index c₁ (l.value start) defaultsKey with
            | mk value c₂ =>
                have hvalue : C.entry c₂ k = C.entry c₁ k := by
                  rw [← @TtlCache.entry_index _ _ _ _ _ _ _ C c₁ defaultsKey k (l.value start), hdefault]
                cases value with
                | none => rw [hvalue, hmember]
                | some defaults =>
                    simp only
                    rw [TtlCache.entry_index, hvalue, hmember]

omit [CanonicallyOrderedAdd τ] in
/-- An answer comes from the entry of the user, while it lasts, and else from that of the defaults. -/
theorem getTimed_answer {answer : Val} (h : (getTimed C g c start l).2 = some answer) :
    ∃ e, C.entry (fill C c start l) l.user = some e ∧ l.member start < e.expires ∧
      if (e.value (.str l.name)).isSome then answer = numberIn g e.value l.name
      else ∃ d, C.entry (fill C c start l) defaultsKey = some d ∧ answer = numberIn g d.value l.name := by
  unfold getTimed at h
  generalize fill C c start l = c at h ⊢
  have hindex := fun v => @TtlCache.index_eq_some _ _ _ _ _ _ _ C c l.user (l.member start) v
  have hmember := fun k => @TtlCache.entry_index _ _ _ _ _ _ _ C c l.user k (l.member start)
  cases hread : C.index c (l.member start) l.user with
  | mk value c₁ =>
      rw [hread] at h hindex hmember
      cases value with
      | none => cases h
      | some grants =>
          obtain ⟨e, he, hlt, hvalue⟩ := (hindex grants).mp rfl
          refine ⟨e, he, hlt, ?_⟩
          rw [hvalue]
          simp only at h
          split_ifs at h ⊢ with hname
          · obtain ⟨again, hagain, rfl⟩ := Option.map_eq_some_iff.mp h
            obtain ⟨e', he', -, rfl⟩ := TtlCache.index_eq_some.mp hagain
            rw [hmember, he, Option.some.injEq] at he'
            rw [← he', hvalue]
          · unfold getDefault at h
            have hthere := @TtlCache.entry_index _ _ _ _ _ _ _ C c₁ defaultsKey defaultsKey (l.value start)
            cases hdefault : C.index c₁ (l.value start) defaultsKey with
            | mk value c₂ =>
                rw [hdefault] at h hthere
                cases value with
                | none => cases h
                | some defaults =>
                    obtain ⟨again, hagain, rfl⟩ := Option.map_eq_some_iff.mp h
                    obtain ⟨d, hd, -, rfl⟩ := TtlCache.index_eq_some.mp hagain
                    exact ⟨d, by rw [← hmember, ← hthere, hd], rfl⟩

end Entries

/-! ### Runs -/

section Runs

variable {ι σ τ : Type*} [DecidableEq ι] [AddCommMonoid τ] [LinearOrder τ] [IsOrderedAddMonoid τ]
  [CanonicallyOrderedAdd τ] {C : TtlCache σ Val Limits τ} {g : Setting} {slack : τ} {s : Fleet ι σ τ}
  {e : FleetEvent ι σ τ} {p : ι} {k u : Val} {entry : CacheEntry Val Limits τ} {grants : Limits} {since : τ}

omit [IsOrderedAddMonoid τ] in
/-- What an event puts into a cache: the grants that a call reads, or the defaults. -/
theorem entry_next (htimely : Timely C slack s e)
    (h : C.entry (((fleet C g).next s e).caches p) k = some entry) :
    C.entry (s.caches p) k = some entry ∨
      (∃ l, e.action = .use p (.get l) ∧ k = l.user ∧
        entry = ⟨l.user, ofUser l.now s.db l.user, l.store e.now + C.ttl⟩) ∨
      k = defaultsKey ∧ entry.value = g.limits := by
  change C.entry ((serve C g s e).1.caches p) k = some entry at h
  unfold serve at h
  cases haction : e.action with
  | write db =>
      rw [haction] at h
      exact Or.inl h
  | lose q cache =>
      rw [haction] at h
      by_cases hp : p = q
      · subst hp
        simp only [Function.update_self] at h
        exact Or.inl (htimely.loses p cache haction k entry h)
      · simp only [Function.update_of_ne hp] at h
        exact Or.inl h
  | use q call =>
      rw [haction] at h
      by_cases hp : p = q
      · subst hp
        simp only [Function.update_self] at h
        cases call with
        | construct untilTest untilStore =>
            rcases entry_construct le_self_add h with h | ⟨hk, rfl⟩
            · exact Or.inl h
            · exact Or.inr (Or.inr ⟨hk, rfl⟩)
        | get l =>
            have h : C.entry (getTimed C g (s.caches p) e.now { l with db := s.db }).1 k = some entry := h
            rw [entry_getTimed] at h
            rcases entry_fill h with h | ⟨hk, rfl⟩
            · exact Or.inl h
            · exact Or.inr (Or.inl ⟨l, rfl, hk, rfl⟩)
      · simp only [Function.update_of_ne hp] at h
        exact Or.inl h

omit [IsOrderedAddMonoid τ] [CanonicallyOrderedAdd τ] in
theorem clock_next (s : Fleet ι σ τ) (e : FleetEvent ι σ τ) : ((fleet C g).next s e).clock = e.now := by
  change (serve C g s e).1.clock = e.now
  unfold serve
  cases e.action <;> rfl

/-- No entry of a user outlives what is read now, and the defaults are the configured ones. -/
structure Fresh (C : TtlCache σ Val Limits τ) (g : Setting) (slack : τ) (s : Fleet ι σ τ) : Prop where
  expires : ∀ p k entry, k ≠ defaultsKey → C.entry (s.caches p) k = some entry →
    entry.expires ≤ s.clock + slack + C.ttl
  defaults : ∀ p entry, C.entry (s.caches p) defaultsKey = some entry → entry.value = g.limits

theorem Fresh.next (h : Fresh C g slack s) (htimely : Timely C slack s e) :
    Fresh C g slack ((fleet C g).next s e) := by
  constructor
  · intro p k entry hk hentry
    rw [clock_next]
    rcases entry_next htimely hentry with hold | ⟨l, haction, -, rfl⟩ | ⟨hdefaults, -⟩
    · calc entry.expires ≤ s.clock + slack + C.ttl := h.expires p k entry hk hold
        _ ≤ e.now + slack + C.ttl := by gcongr; exact htimely.clock
    · have hstores := htimely.stores p l haction
      calc l.store e.now + C.ttl = e.now + (l.untilTest + l.untilStore) + C.ttl := by
            rw [Lookup.store, Lookup.test, add_assoc e.now]
        _ ≤ e.now + slack + C.ttl := by gcongr
    · exact absurd hdefaults hk
  · intro p entry hentry
    rcases entry_next htimely hentry with hold | ⟨l, haction, hk, -⟩ | ⟨-, hvalue⟩
    · exact h.defaults p entry hold
    · exact absurd hk.symm (htimely.user p l haction)
    · exact hvalue

/-- What is cached of the user is what is in force, or goes at the instant. -/
def Turned (C : TtlCache σ Val Limits τ) (u : Val) (grants : Limits) (since : τ) (s : Fleet ι σ τ) : Prop :=
  ∀ p entry, C.entry (s.caches p) u = some entry → entry.value = grants ∨ entry.expires ≤ since

omit [IsOrderedAddMonoid τ] in
theorem Turned.next (h : Turned C u grants since s) (hu : u ≠ defaultsKey) (htimely : Timely C slack s e)
    (hsettled : Settled u grants s e) : Turned C u grants since ((fleet C g).next s e) := by
  intro p entry hentry
  rcases entry_next htimely hentry with hold | ⟨l, haction, rfl, rfl⟩ | ⟨hdefaults, -⟩
  · exact h p entry hold
  · exact Or.inl (hsettled p l haction rfl)
  · exact absurd hdefaults hu

omit [IsOrderedAddMonoid τ] in
/-- A call that reads after the instant reads what is in force. -/
theorem Turned.answers (h : Turned C u grants since s) (hfresh : Fresh C g slack s)
    (htimely : Timely C slack s e) (hsettled : Settled u grants s e) : AnswersCurrent C g u since s e := by
  rintro p l haction rfl hlate answer hanswer
  have hout : (fleet C g).out s e = (getTimed C g (s.caches p) e.now { l with db := s.db }).2 := by
    change (serve C g s e).2 = _
    unfold serve
    rw [haction]
    rfl
  rw [hout] at hanswer
  obtain ⟨entry, hentry, hlt, hvalue⟩ := getTimed_answer hanswer
  have hforce : entry.value = ofUser l.now s.db l.user := by
    rcases entry_fill hentry with hold | ⟨-, rfl⟩
    · rcases h p entry hold with hsame | hgone
      · rw [hsame, hsettled p l haction rfl]
      · exact absurd (hgone.trans hlate) (not_le.mpr hlt)
    · rfl
  have hname : entry.value (.str l.name) =
      (inForce l.now s.db l.user l.name).map fun rec => rec "value" := by
    rw [hforce, ofUser_apply]
  rw [current, ← hname]
  by_cases hgranted : (entry.value (.str l.name)).isSome = true
  · rw [if_pos hgranted] at hvalue
    obtain ⟨value, hsome⟩ := Option.isSome_iff_exists.mp hgranted
    rw [hvalue, numberIn, hsome]
    rfl
  · rw [if_neg hgranted] at hvalue
    obtain ⟨d, hd, hanswer⟩ := hvalue
    have hdefaults : d.value = g.limits := by
      rcases entry_fill hd with hold | ⟨hk, -⟩
      · exact hfresh.defaults p d hold
      · exact absurd hk.symm (htimely.user p l haction)
    rw [hanswer, numberIn, hdefaults, Option.not_isSome_iff_eq_none.mp hgranted]
    rfl

/-- Once the grants of a user stay as they are, every process answers with them after the time to live, and the
time that a call takes to store what it read. -/
theorem settles_along (C : TtlCache σ Val Limits τ) (g : Setting) {es₁ es₂ : List (FleetEvent ι σ τ)}
    (hempty : ∀ p k, C.entry (s.caches p) k = none) (hu : u ≠ defaultsKey)
    (htimely : (fleet C g).Along (Timely C slack) s (es₁ ++ es₂))
    (hsettled : (fleet C g).Along (Settled u grants) ((fleet C g).run s es₁) es₂) :
    (fleet C g).Along (AnswersCurrent C g u (((fleet C g).run s es₁).clock + slack + C.ttl))
      ((fleet C g).run s es₁) es₂ := by
  obtain ⟨hbefore, hafter⟩ := (Machine.along_append _ _ s es₁ es₂).mp htimely
  have hstart : Fresh C g slack s := by
    constructor
    · intro p k entry _ hentry
      rw [hempty] at hentry
      cases hentry
    · intro p entry hentry
      rw [hempty] at hentry
      cases hentry
  have hfresh : Fresh C g slack ((fleet C g).run s es₁) :=
    Machine.invariant (fun _ _ h hP => h.next hP) hbefore hstart
  refine Machine.Along.of_invariant
    (I := fun s' => Fresh C g slack s' ∧
      Turned C u grants (((fleet C g).run s es₁).clock + slack + C.ttl) s')
    (fun s' e h hP => ⟨h.1.next hP.1, h.2.next hu hP.1 hP.2⟩)
    (fun s' e h hP => h.2.answers h.1 hP.1 hP.2) (hafter.and hsettled) ⟨hfresh, ?_⟩
  exact fun p entry hentry => Or.inr (hfresh.expires p u entry hu hentry)

end Runs

/-! ### A grant made by one process, and read by another -/

/-- Two processes without entries; their caches keep entries for five minutes. -/
def twoProcesses : Fleet Bool (TtlCache.Entries Val Limits ℕ 10) ℕ :=
  ⟨Seed.shared, fun _ => TtlCache.Entries.empty 10, 0⟩

/-- The cache that the processes have. -/
def tenEntries : TtlCache (TtlCache.Entries Val Limits ℕ 10) Val Limits ℕ :=
  TtlCache.recency 10 (by decide) 300

/-- A process asks how many lists the other user may have. -/
def asksAt (now : ℕ) (p : Bool) : FleetEvent Bool (TtlCache.Entries Val Limits ℕ 10) ℕ :=
  ⟨now, .use p (.get (listsOf "u-0002"))⟩

/-- One process asks, and then the user is granted five lists. -/
def grantMade : List (FleetEvent Bool (TtlCache.Entries Val Limits ℕ 10) ℕ) :=
  [⟨0, .use true (.construct 0 0)⟩, asksAt 0 true, ⟨10, .write fiveLists⟩]

/-- Five minutes later that process answers with the five lists. -/
theorem grantMade_settles : (fleet tenEntries shipped).Along
      (AnswersCurrent tenEntries shipped (.str "u-0002") 312)
      ((fleet tenEntries shipped).run twoProcesses grantMade) [asksAt 20 true, asksAt 400 true] ∧
    (fleet tenEntries shipped).outputs ((fleet tenEntries shipped).run twoProcesses grantMade)
      [asksAt 20 true, asksAt 400 true] = [some (.int 12), some (.int 5)] := by
  refine ⟨?_, by decide +kernel⟩
  have hasks : ∀ s : Fleet Bool (TtlCache.Entries Val Limits ℕ 10) ℕ, ∀ now p, s.clock ≤ now →
      Timely tenEntries 2 s (asksAt now p) := by
    refine fun s now p hclock => ⟨hclock, ?_, ?_, ?_⟩
    · intro q l haction
      cases haction
      exact Nat.le_refl 2
    · intro q l haction
      cases haction
      decide
    · intro q cache haction
      cases haction
  have htimely : (fleet tenEntries shipped).Along (Timely tenEntries 2) twoProcesses
      (grantMade ++ [asksAt 20 true, asksAt 400 true]) := by
    refine ⟨⟨Nat.le_refl 0, ?_, ?_, ?_⟩, hasks _ _ _ (Nat.le_refl 0), ⟨Nat.zero_le 10, ?_, ?_, ?_⟩,
      hasks _ _ _ (by decide), hasks _ _ _ (by decide), trivial⟩
    all_goals
      intro p x haction
      cases haction
  have hsettled : (fleet tenEntries shipped).Along
      (Settled (.str "u-0002") (ofUser 100 fiveLists (.str "u-0002")))
      ((fleet tenEntries shipped).run twoProcesses grantMade) [asksAt 20 true, asksAt 400 true] := by
    refine ⟨?_, ?_, trivial⟩
    all_goals
      intro p l haction _
      cases haction
      rfl
  exact settles_along tenEntries shipped (fun _ _ => rfl) (by decide) htimely hsettled

end Grants

end Apicrud
