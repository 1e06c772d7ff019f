import Apicrud.Checks
import Apicrud.Machine
import Apicrud.Relational

/-! # Two runs side by side

What a program does not depend on is said of two runs, which begin with related states.  Computations in
`Except` are related when they end alike (`EndsAlike`, with one rule for each way to build them), databases
when their tables hold related rows at the same places (`Alike`), and a relation that the constraints of a
schema cannot see through (`Blind`) lets both databases take the same writes.  Machines whose steps keep a
relation between their states put out the same (`outputs_eq_of_related`). -/

/-! ### Computations -/

namespace Checks

universe u v

variable {ε ε' : Type u} {α β γ δ : Type v} {R : α → β → Prop} {Q : γ → δ → Prop}

/-- Two computations end alike: with the same error, or with related results. -/
inductive EndsAlike (R : α → β → Prop) : Except ε α → Except ε β → Prop
  | ok {a : α} {b : β} (h : R a b) : EndsAlike R (.ok a) (.ok b)
  | error (e : ε) : EndsAlike R (.error e) (.error e)

namespace EndsAlike

theorem refl (x : Except ε α) : EndsAlike Eq x x := by
  cases x with
  | ok a => exact .ok rfl
  | error e => exact .error e

/-- One computation, with what it results in. -/
theorem same (x : Except ε α) : EndsAlike (fun a b => a = b ∧ x = .ok a) x x := by
  cases x with
  | ok a => exact .ok ⟨rfl, rfl⟩
  | error e => exact .error e

theorem of_eq {x y : Except ε α} (h : x = y) : EndsAlike Eq x y := h ▸ refl x

theorem eq {x y : Except ε α} (h : EndsAlike Eq x y) : x = y := by
  cases h with
  | ok h => rw [h]
  | error e => rfl

variable {x : Except ε α} {y : Except ε β}

theorem imp {R' : α → β → Prop} (h : EndsAlike R x y) (himp : ∀ a b, R a b → R' a b) :
    EndsAlike R' x y := by
  cases h with
  | ok h => exact .ok (himp _ _ h)
  | error e => exact .error e

theorem bind {f : α → Except ε γ} {g : β → Except ε δ} (h : EndsAlike R x y)
    (hfg : ∀ a b, R a b → EndsAlike Q (f a) (g b)) : EndsAlike Q (x >>= f) (y >>= g) := by
  cases h with
  | ok h => exact hfg _ _ h
  | error e => exact .error e

/-- A check that both computations make. -/
theorem ensure {p q : Prop} [Decidable p] [Decidable q] (h : p ↔ q) (e : ε) :
    EndsAlike Eq (Checks.ensure p e) (Checks.ensure q e) := by
  by_cases hp : p
  · rw [Checks.ensure, Checks.ensure, if_pos hp, if_pos (h.mp hp)]
    exact .ok rfl
  · rw [Checks.ensure, Checks.ensure, if_neg hp, if_neg fun hq => hp (h.mpr hq)]
    exact .error e

theorem orElse (h : EndsAlike R x y) (handler : ε → ε') :
    EndsAlike R (Checks.orElse x handler) (Checks.orElse y handler) := by
  cases h with
  | ok h => exact .ok h
  | error e => exact .error _

theorem foldlM {f : α → γ → Except ε α} {g : β → γ → Except ε β}
    (hstep : ∀ a b c, R a b → EndsAlike R (f a c) (g b c)) (cs : List γ) {a : α} {b : β} (h : R a b) :
    EndsAlike R (cs.foldlM f a) (cs.foldlM g b) := by
  induction cs generalizing a b with
  | nil => exact .ok h
  | cons c cs ih =>
      rw [List.foldlM_cons, List.foldlM_cons]
      exact (hstep a b c h).bind fun _ _ h => ih h

theorem mapM {f : α → Except ε γ} {g : β → Except ε δ} (hfg : ∀ a b, R a b → EndsAlike Q (f a) (g b))
    {as : List α} {bs : List β} (h : List.Forall₂ R as bs) :
    EndsAlike (List.Forall₂ Q) (as.mapM f) (bs.mapM g) := by
  induction h with
  | nil => exact .ok .nil
  | cons hab _ ih =>
      rw [List.mapM_cons, List.mapM_cons]
      exact (hfg _ _ hab).bind fun _ _ hfirst => ih.bind fun _ _ hrest => .ok (.cons hfirst hrest)

end EndsAlike

end Checks

/-! ### Machines -/

namespace Machine

variable {σ τ ε ω : Type*} {M : Machine σ ε ω} {N : Machine τ ε ω}

/-- Where the steps keep two states related and put out the same, so do the runs. -/
theorem outputs_eq_of_related {R : σ → τ → Prop} {P : ε → Prop}
    (hstep : ∀ s t e, R s t → P e → R (M.next s e) (N.next t e) ∧ M.out s e = N.out t e)
    {es : List ε} (hes : ∀ e ∈ es, P e) {s : σ} {t : τ} (h : R s t) :
    M.outputs s es = N.outputs t es ∧ R (M.run s es) (N.run t es) := by
  induction es generalizing s t with
  | nil => exact ⟨rfl, h⟩
  | cons e es ih =>
      obtain ⟨hnext, hout⟩ := hstep s t e h (hes e List.mem_cons_self)
      obtain ⟨houts, hrun⟩ := ih (fun e' he' => hes e' (List.mem_cons_of_mem e he')) hnext
      rw [outputs_cons, outputs_cons, hout, houts]
      exact ⟨rfl, hrun⟩

end Machine

/-! ### Databases -/

namespace Relational

section Lists

variable {α β : Type} {R : α → β → Prop}

theorem exists_related {as : List α} {bs : List β} (h : List.Forall₂ R as bs) {a : α} (ha : a ∈ as) :
    ∃ b ∈ bs, R a b := by
  induction h with
  | nil => cases ha
  | cons hab _ ih =>
      rcases List.mem_cons.mp ha with rfl | ha
      · exact ⟨_, List.mem_cons_self, hab⟩
      · obtain ⟨b, hb, h⟩ := ih ha
        exact ⟨b, List.mem_cons_of_mem _ hb, h⟩

theorem exists_related' {as : List α} {bs : List β} (h : List.Forall₂ R as bs) {b : β} (hb : b ∈ bs) :
    ∃ a ∈ as, R a b :=
  exists_related (R := flip R) h.flip hb

/-- Related lists keep related elements, where they are asked for the same. -/
theorem related_filter {p : α → Bool} {q : β → Bool} (hpq : ∀ a b, R a b → p a = q b) {as : List α}
    {bs : List β} (h : List.Forall₂ R as bs) : List.Forall₂ R (as.filter p) (bs.filter q) :=
  List.rel_filter (fun a b hab => by simp only [hpq a b hab]) h

theorem related_orderedInsert {r : α → α → Prop} {s : β → β → Prop} [DecidableRel r] [DecidableRel s]
    (hrs : ∀ a b, R a b → ∀ a' b', R a' b' → (r a a' ↔ s b b')) {a : α} {b : β} (hab : R a b)
    {as : List α} {bs : List β} (h : List.Forall₂ R as bs) :
    List.Forall₂ R (as.orderedInsert r a) (bs.orderedInsert s b) := by
  induction h with
  | nil => exact .cons hab .nil
  | @cons a' b' as bs hab' hrest ih =>
      rw [List.orderedInsert_cons, List.orderedInsert_cons]
      by_cases hr : r a a'
      · rw [if_pos hr, if_pos ((hrs a b hab a' b' hab').mp hr)]
        exact .cons hab (.cons hab' hrest)
      · rw [if_neg hr, if_neg fun hs => hr ((hrs a b hab a' b' hab').mpr hs)]
        exact .cons hab' ih

/-- Related lists are sorted alike. -/
theorem related_insertionSort {r : α → α → Prop} {s : β → β → Prop} [DecidableRel r] [DecidableRel s]
    (hrs : ∀ a b, R a b → ∀ a' b', R a' b' → (r a a' ↔ s b b')) {as : List α} {bs : List β}
    (h : List.Forall₂ R as bs) : List.Forall₂ R (as.insertionSort r) (bs.insertionSort s) := by
  induction h with
  | nil => exact .nil
  | cons hab _ ih => exact related_orderedInsert hrs hab ih

theorem pairwise_related {r : α → α → Prop} {s : β → β → Prop}
    (hrs : ∀ a b, R a b → ∀ a' b', R a' b' → r a a' → s b b') {as : List α} {bs : List β}
    (h : List.Forall₂ R as bs) (has : as.Pairwise r) : bs.Pairwise s := by
  induction h with
  | nil => exact List.Pairwise.nil
  | cons hab hrest ih =>
      obtain ⟨hfirst, hlater⟩ := List.pairwise_cons.mp has
      refine List.pairwise_cons.mpr ⟨fun b' hb' => ?_, ih hlater⟩
      obtain ⟨a', ha', hab'⟩ := exists_related' hrest hb'
      exact hrs _ _ hab _ _ hab' (hfirst a' ha')

/-- A query for one row ends alike. -/
theorem related_one {R : Row → Row → Prop} {rows rows' : List Row} (h : List.Forall₂ R rows rows') :
    Checks.EndsAlike R (one rows) (one rows') := by
  cases h with
  | nil => exact .error _
  | cons hr hrest =>
      cases hrest with
      | nil => exact .ok hr
      | cons _ _ => exact .error _

end Lists

variable {τ : Type}

/-- The tables hold related rows at the same places. -/
def Alike (R : τ → Row → Row → Prop) (db db' : Db τ) : Prop := ∀ t, List.Forall₂ (R t) (db t) (db' t)

namespace Alike

variable {R : τ → Row → Row → Prop} {db db' : Db τ}

theorem symm (h : Alike R db db') : Alike (fun t => flip (R t)) db' db := fun t => (h t).flip

/-- A table whose rows are related only to themselves. -/
theorem rows_eq (h : Alike R db db') {t : τ} (ht : ∀ r r', R t r r' → r = r') : db t = db' t :=
  List.forall₂_eq_eq_eq ▸ (h t).imp ht

variable [DecidableEq τ]

theorem update (h : Alike R db db') {t : τ} {rows rows' : List Row} (hrows : List.Forall₂ (R t) rows rows') :
    Alike R (Function.update db t rows) (Function.update db' t rows') := by
  intro t'
  by_cases ht : t' = t
  · subst ht
    rw [Function.update_self, Function.update_self]
    exact hrows
  · rw [Function.update_of_ne ht, Function.update_of_ne ht]
    exact h t'

theorem insert (h : Alike R db db') {t : τ} {r r' : Row} (hr : R t r r') :
    Alike R (db.insert t r) (db'.insert t r') :=
  h.update (List.rel_append (h t) (.cons hr .nil))

theorem modify (h : Alike R db db') {t : τ} {p p' : Row → Bool} {f f' : Row → Row}
    (hp : ∀ r r', R t r r' → p r = p' r') (hf : ∀ r r', R t r r' → R t (f r) (f' r')) :
    Alike R (db.modify t p f) (db'.modify t p' f') := by
  refine h.update (List.rel_map (fun r r' hr => ?_) (h t))
  rw [hp r r' hr]
  split_ifs
  · exact hf r r' hr
  · exact hr

theorem remove (h : Alike R db db') {t : τ} {p p' : Row → Bool} (hp : ∀ r r', R t r r' → p r = p' r') :
    Alike R (db.remove t p) (db'.remove t p') :=
  h.update (related_filter (fun r r' hr => by rw [hp r r' hr]) (h t))

end Alike

/-- The constraints of the schema do not tell related rows apart. -/
structure Schema.Blind (S : Schema τ) (R : τ → Row → Row → Prop) : Prop where
  id : ∀ t r r', R t r r' → r "id" = r' "id"
  cells : ∀ t r r', R t r r' → (S.CellsOk t r ↔ S.CellsOk t r')
  notNull : ∀ t r r', R t r r' → ∀ c ∈ S.notNull t, (r c = .none ↔ r' c = .none)
  unique : ∀ t r r', R t r r' → ∀ key ∈ S.unique t, ∀ c ∈ key, r c = r' c
  foreign : ∀ t r r', R t r r' → ∀ fk ∈ S.foreign t, r fk.column = r' fk.column

namespace Schema.Blind

variable {S : Schema τ} {R : τ → Row → Row → Prop} {db db' : Db τ}

theorem symm (hS : S.Blind R) : S.Blind fun t => flip (R t) where
  id t r r' h := (hS.id t r' r h).symm
  cells t r r' h := (hS.cells t r' r h).symm
  notNull t r r' h c hc := (hS.notNull t r' r h c hc).symm
  unique t r r' h key hkey c hc := (hS.unique t r' r h key hkey c hc).symm
  foreign t r r' h fk hfk := (hS.foreign t r' r h fk hfk).symm

theorem refers (hS : S.Blind R) (h : Alike R db db') {t : τ} {r r' : Row} (hr : R t r r')
    {fk : ForeignKey τ} (hfk : fk ∈ S.foreign t) (hrefers : Refers db fk r) : Refers db' fk r' := by
  have hcolumn := hS.foreign t r r' hr fk hfk
  rcases hrefers with hnone | ⟨p, hp, hid⟩
  · exact Or.inl (hcolumn ▸ hnone)
  · obtain ⟨p', hp', hpp'⟩ := exists_related (h fk.target) hp
    exact Or.inr ⟨p', hp', ((hS.id _ _ _ hpp').symm.trans hid).trans hcolumn⟩

theorem refers_iff (hS : S.Blind R) (h : Alike R db db') {t : τ} {r r' : Row} (hr : R t r r')
    {fk : ForeignKey τ} (hfk : fk ∈ S.foreign t) : Refers db fk r ↔ Refers db' fk r' :=
  ⟨hS.refers h hr hfk, hS.symm.refers h.symm hr hfk⟩

theorem typesOk (hS : S.Blind R) (h : Alike R db db') (hdb : S.TypesOk db) : S.TypesOk db' := by
  intro t ht r' hr'
  obtain ⟨r, hr, hrr'⟩ := exists_related' (h t) hr'
  exact (hS.cells t r r' hrr').mp (hdb t ht r hr)

theorem integrityOk (hS : S.Blind R) (h : Alike R db db') (hdb : S.IntegrityOk db) : S.IntegrityOk db' := by
  intro t ht
  have hok := hdb t ht
  refine ⟨fun r' hr' c hc => ?_, fun key hkey => ?_, fun r' hr' fk hfk => ?_⟩
  · obtain ⟨r, hr, hrr'⟩ := exists_related' (h t) hr'
    exact fun hnone => hok.notNull r hr c hc ((hS.notNull t r r' hrr' c hc).mpr hnone)
  · refine pairwise_related (fun r r' hrr' q q' hqq' hclash hclash' => hclash ⟨fun c hc => ?_, fun c hc => ?_⟩)
      (h t) (hok.unique key hkey)
    · exact hS.unique t r r' hrr' key hkey c hc ▸ hclash'.1 c hc
    · rw [hS.unique t r r' hrr' key hkey c hc, hS.unique t q q' hqq' key hkey c hc]
      exact hclash'.2 c hc
  · obtain ⟨r, hr, hrr'⟩ := exists_related' (h t) hr'
    exact hS.refers h hrr' hfk (hok.foreign r hr fk hfk)

/-- Both databases are taken, or both refused for the same reason. -/
theorem store (hS : S.Blind R) (h : Alike R db db') :
    Checks.EndsAlike (fun st st' => Alike R st.1 st'.1) (S.store db) (S.store db') := by
  have htypes : S.TypesOk db ↔ S.TypesOk db' := ⟨hS.typesOk h, hS.symm.typesOk h.symm⟩
  have hintegrity : S.IntegrityOk db ↔ S.IntegrityOk db' := ⟨hS.integrityOk h, hS.symm.integrityOk h.symm⟩
  unfold Schema.store
  by_cases hok : S.TypesOk db
  · by_cases hok' : S.IntegrityOk db
    · rw [dif_pos ⟨hok, hok'⟩, dif_pos ⟨htypes.mp hok, hintegrity.mp hok'⟩]
      exact .ok h
    · rw [dif_neg fun hboth => hok' hboth.2, if_pos hok, dif_neg fun hboth => hok' (hintegrity.mpr hboth.2),
        if_pos (htypes.mp hok)]
      exact .error _
  · rw [dif_neg fun hboth => hok hboth.1, if_neg hok, dif_neg fun hboth => hok (htypes.mpr hboth.1),
      if_neg fun hok' => hok (htypes.mpr hok')]
    exact .error _

theorem sweep (hS : S.Blind R) (h : Alike R db db') : Alike R (S.sweep db) (S.sweep db') := by
  intro t
  refine related_filter (fun r r' hrr' => ?_) (h t)
  have hall : ∀ fks : List (ForeignKey τ), (∀ fk ∈ fks, fk ∈ S.foreign t) →
      (fks.all fun fk => !fk.cascade || decide (Refers db fk r)) =
        fks.all fun fk => !fk.cascade || decide (Refers db' fk r') := by
    intro fks hfks
    induction fks with
    | nil => rfl
    | cons fk fks ih =>
        rw [List.all_cons, List.all_cons, ih fun fk' h' => hfks fk' (List.mem_cons_of_mem _ h'),
          decide_eq_decide.mpr (hS.refers_iff h hrr' (hfks fk List.mem_cons_self))]
  exact hall _ fun _ h => h

theorem cascade (hS : S.Blind R) (h : Alike R db db') : Alike R (S.cascade db) (S.cascade db') := by
  unfold Schema.cascade
  generalize S.cascadeDepth = n
  induction n generalizing db db' with
  | zero => exact h
  | succ n ih =>
      rw [Function.iterate_succ_apply, Function.iterate_succ_apply]
      exact ih (hS.sweep h)

end Schema.Blind

end Relational
