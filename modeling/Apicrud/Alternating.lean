import Apicrud.Expiring

/-! # Counters that alternate

A limit of demands for each window of the clock, kept with two counters for every name: one for the even
windows and one for the odd ones.  A demand that is admitted is counted, renews the counter for one second
less than a window, and deletes the other counter.

`Tally` says when the demands of one window came: in its first second, in its last one, or between.  This
decides how many of them were admitted (`Standing.demand`): the counter of the first second is gone in the
last second, unless a demand between the two was admitted (`Tally.Lapses`).

A name that is refused has reached the limit at its last admitted demand (`Alternating.Recent.full`), and
is refused from then on in the same window, up to its last second (`Alternating.Full.refused_iff`). -/

/-- Two counters for every name. -/
abbrev Alternating (κ : Type*) := Expiring (κ × ℕ) ℕ

namespace Alternating

variable {κ : Type*} [DecidableEq κ]

/-! ### Demands -/

/-- The parity of the window of an instant. -/
def curr (I now : ℕ) : ℕ := now % (I * 2) / I

/-- One more demand is counted after `calls` others, and the other counter is deleted. -/
def count (I : ℕ) (m : Alternating κ) (now : ℕ) (k : κ) (calls : ℕ) : Alternating κ :=
  (m.set (k, curr I now) (calls + 1) (now + (I - 1))).del (k, if curr I now = 0 then 1 else 0)

/-- The demands that the current counter shows. -/
def shown (I : ℕ) (m : Alternating κ) (now : ℕ) (k : κ) : ℕ := (m.get now (k, curr I now)).getD 0

/-- A demand is counted while the counter is below the limit. -/
def demand (I L : ℕ) (m : Alternating κ) (now : ℕ) (k : κ) : Alternating κ × Bool :=
  if shown I m now k < L then (count I m now k (shown I m now k), true) else (m, false)

theorem curr_eq (I now : ℕ) : curr I now = now / I % 2 := Nat.mod_mul_right_div_self ..

theorem count_self (I : ℕ) (m : Alternating κ) (now : ℕ) (k : κ) (calls : ℕ) :
    count I m now k calls (k, curr I now) = some (calls + 1, now + (I - 1)) := by
  have hother : ((k, curr I now) : κ × ℕ) ≠ (k, if curr I now = 0 then 1 else 0) := by
    intro heq
    have hparity := congrArg Prod.snd heq
    simp only at hparity
    split_ifs at hparity <;> omega
  rw [count, Expiring.del_apply, if_neg hother, Expiring.set_apply, if_pos rfl]

/-- The counter of the other parity is deleted. -/
theorem count_other (I : ℕ) (m : Alternating κ) (now : ℕ) (k : κ) (calls : ℕ) {i : ℕ} (hi : i < 2)
    (hne : i ≠ curr I now) : count I m now k calls (k, i) = none := by
  have hcurr := curr_eq I now
  have hparity := Nat.mod_lt (now / I) (Nat.succ_pos 1)
  have hi : i = if curr I now = 0 then 1 else 0 := by
    split_ifs <;> omega
  rw [count, Expiring.del_apply, ← hi, if_pos rfl]

theorem count_ne (I : ℕ) (m : Alternating κ) (now calls i : ℕ) {k k' : κ} (h : k ≠ k') :
    count I m now k' calls (k, i) = m (k, i) := by
  have hkey : ∀ j, ((k, i) : κ × ℕ) ≠ (k', j) := fun j heq => h (congrArg Prod.fst heq)
  rw [count, Expiring.del_apply, if_neg (hkey _), Expiring.set_apply, if_neg (hkey _)]

omit [DecidableEq κ] in
theorem shown_live {I : ℕ} {m : Alternating κ} {now v d : ℕ} {k : κ}
    (h : m (k, now / I % 2) = some (v, d)) (hd : now < d) : shown I m now k = v := by
  rw [shown, curr_eq, Expiring.get_eq_some.mpr ⟨d, h, hd⟩]
  rfl

omit [DecidableEq κ] in
theorem shown_gone {I : ℕ} {m : Alternating κ} {now : ℕ} {k : κ}
    (h : ∀ v d, m (k, now / I % 2) = some (v, d) → d ≤ now) : shown I m now k = 0 := by
  rw [shown, curr_eq]
  cases hget : m.get now (k, now / I % 2) with
  | none => rfl
  | some v =>
      obtain ⟨d, hentry, hd⟩ := Expiring.get_eq_some.mp hget
      exact absurd (h v d hentry) (Nat.not_le.mpr hd)

/-- What a demand leaves on the current counter. -/
theorem demand_entry (I L : ℕ) (m : Alternating κ) (now : ℕ) (k : κ) :
    (demand I L m now k).1 (k, now / I % 2) =
      if shown I m now k < L then some (shown I m now k + 1, now + (I - 1))
      else m (k, now / I % 2) := by
  rw [demand]
  split_ifs
  · rw [← curr_eq]
    exact count_self I m now k _
  · rfl

/-- What a demand leaves on the other counter. -/
theorem demand_other (I L : ℕ) (m : Alternating κ) (now : ℕ) (k : κ) {i : ℕ} (hi : i < 2)
    (hne : i ≠ now / I % 2) :
    (demand I L m now k).1 (k, i) = none ∨ (demand I L m now k).1 (k, i) = m (k, i) := by
  rw [demand]
  split_ifs
  · exact Or.inl (count_other I m now k _ hi (by rwa [curr_eq]))
  · exact Or.inr rfl

theorem demand_snd (I L : ℕ) (m : Alternating κ) (now : ℕ) (k : κ) :
    (demand I L m now k).2 = true ↔ shown I m now k < L := by
  rw [demand]
  split_ifs with h
  · exact ⟨fun _ => h, fun _ => rfl⟩
  · exact ⟨fun hfalse => absurd hfalse (by decide), fun hlt => absurd hlt h⟩

theorem demand_refused {I L : ℕ} {m : Alternating κ} {now : ℕ} {k : κ}
    (h : (demand I L m now k).2 = false) : (demand I L m now k).1 = m := by
  rw [← Bool.not_eq_true, demand_snd] at h
  rw [demand, if_neg h]

end Alternating

/-! ### The demands of one window -/

/-- How many demands came in the first second of a window, in its last one, and between. -/
structure Tally where
  first : ℕ := 0
  between : ℕ := 0
  last : ℕ := 0

namespace Tally

/-- A demand at the instant `now` is added to the window `n`. -/
def add (t : Tally) (I n now : ℕ) : Tally :=
  if now / I ≠ n then t
  else if now = n * I then { t with first := t.first + 1 }
  else if now + 1 = (n + 1) * I then { t with last := t.last + 1 }
  else { t with between := t.between + 1 }

/-- The counter that was opened in the first second is gone in the last one: no demand between the two
was admitted, for there was none, or the first second had used up the limit. -/
def Lapses (t : Tally) (L : ℕ) : Prop := 1 ≤ t.first ∧ (L ≤ t.first ∨ t.between = 0)

/-- More than the limit is admitted. -/
def Exceeds (t : Tally) (L : ℕ) : Prop := t.Lapses L ∧ 1 ≤ t.last ∧ L < t.first + t.last

instance (t : Tally) (L : ℕ) : Decidable (t.Lapses L) := inferInstanceAs (Decidable (_ ∧ _))

instance (t : Tally) (L : ℕ) : Decidable (t.Exceeds L) := inferInstanceAs (Decidable (_ ∧ _))

/-- The demands that are admitted. -/
def admitted (t : Tally) (L : ℕ) : ℕ :=
  if t.Lapses L then min L t.first + min L t.last else min L (t.first + t.between + t.last)

theorem admitted_le_iff (t : Tally) {L : ℕ} (hL : 1 ≤ L) : t.admitted L ≤ L ↔ ¬ t.Exceeds L := by
  rw [admitted, Exceeds]
  split_ifs with hlapses
  · have hfirst := hlapses.1
    constructor
    · rintro hle ⟨-, hlast, hlt⟩
      omega
    · intro hnot
      have hfew : t.last = 0 ∨ t.first + t.last ≤ L := by
        by_contra hcon
        exact hnot ⟨hlapses, by omega, by omega⟩
      omega
  · exact ⟨fun _ hexceeds => hlapses hexceeds.1, fun _ => Nat.min_le_left ..⟩

variable {t : Tally} {I L n now : ℕ}

theorem admitted_nil : Tally.admitted {} L = 0 := by
  rw [admitted, if_neg fun h => absurd h.1 (by decide)]
  exact Nat.min_zero L

theorem admitted_lapsed (h : t.Lapses L) : t.admitted L = min L t.first + min L t.last := if_pos h

theorem admitted_kept (h : ¬ t.Lapses L) :
    t.admitted L = min L (t.first + t.between + t.last) := if_neg h

theorem add_outside (h : now / I ≠ n) : t.add I n now = t := if_pos h

theorem add_first (h : now / I = n) (hnow : now = n * I) :
    t.add I n now = { t with first := t.first + 1 } := by
  rw [add, if_neg (not_not.mpr h), if_pos hnow]

theorem add_last (h : now / I = n) (hnow : now ≠ n * I) (hlast : now + 1 = (n + 1) * I) :
    t.add I n now = { t with last := t.last + 1 } := by
  rw [add, if_neg (not_not.mpr h), if_neg hnow, if_pos hlast]

theorem add_between (h : now / I = n) (hnow : now ≠ n * I) (hlast : now + 1 ≠ (n + 1) * I) :
    t.add I n now = { t with between := t.between + 1 } := by
  rw [add, if_neg (not_not.mpr h), if_neg hnow, if_neg hlast]

/-- A demand after the first second, of a tally that does not lapse. -/
theorem add_open (h : now / I = n) (hnow : now ≠ n * I) (hopen : ¬ t.Lapses L) :
    ¬ (t.add I n now).Lapses L ∧ (t.add I n now).first + (t.add I n now).between +
      (t.add I n now).last = t.first + t.between + t.last + 1 := by
  by_cases hlast : now + 1 = (n + 1) * I
  · rw [add_last h hnow hlast]
    exact ⟨hopen, rfl⟩
  · rw [add_between h hnow hlast]
    refine ⟨fun h => hopen ⟨h.1, h.2.imp_right fun hzero => ?_⟩, ?_⟩
    · exact absurd hzero (Nat.succ_ne_zero _)
    · simp only
      omega

end Tally

/-! ### The counter of one window -/

/-- The demands of the window `n` with the limit `L` stand on the counter of its parity, as far as they
were admitted. -/
inductive Standing (I L n now : ℕ) (entry : Option (ℕ × ℕ)) (t : Tally) : Prop
  /-- There was none; what other windows have left is gone when the window begins. -/
  | untouched (hgone : ∀ v d, entry = some (v, d) → d ≤ n * I) (ht : t = {})
  /-- All that were admitted came in the first second. -/
  | opened (hnow : n * I ≤ now) (hlapses : t.Lapses L) (hlast : t.last = 0)
      (hentry : entry = some (min L t.first, n * I + (I - 1)))
  /-- The counter was renewed, or opened, after the first second: it lasts until the window is over. -/
  | kept (d : ℕ) (hnow : n * I < now) (hlapses : ¬ t.Lapses L) (hd : (n + 1) * I ≤ d)
      (hentry : entry = some (min L (t.first + t.between + t.last), d))
  /-- The counter was opened again in the last second. -/
  | reopened (d : ℕ) (hnow : (n + 1) * I ≤ now + 1) (hlapses : t.Lapses L) (hlast : 1 ≤ t.last)
      (hd : (n + 1) * I ≤ d) (hentry : entry = some (min L t.last, d))
  /-- The window is over. -/
  | passed (hnow : (n + 1) * I ≤ now)

namespace Standing

variable {I L n now : ℕ} {entry : Option (ℕ × ℕ)} {t : Tally}

/-- Time passes. -/
theorem later (h : Standing I L n now entry t) {now' : ℕ} (hle : now ≤ now') :
    Standing I L n now' entry t := by
  cases h with
  | untouched hgone ht => exact .untouched hgone ht
  | opened hnow hlapses hlast hentry => exact .opened (hnow.trans hle) hlapses hlast hentry
  | kept d hnow hlapses hd hentry => exact .kept d (hnow.trans_le hle) hlapses hd hentry
  | reopened d hnow hlapses hlast hd hentry =>
      exact .reopened d (hnow.trans (Nat.succ_le_succ hle)) hlapses hlast hd hentry
  | passed hnow => exact .passed (hnow.trans hle)

/-- An instant of the window lies between its ends. -/
theorem window_bounds (hI : 2 ≤ I) (hn : now / I = n) : n * I ≤ now ∧ now < (n + 1) * I := by
  have hstart := Nat.div_mul_le_self now I
  have hend := Nat.lt_mul_of_div_lt (Nat.lt_succ_self (now / I)) (by omega : 0 < I)
  rw [hn] at hend
  exact ⟨hn ▸ hstart, hend⟩

/-- A demand outside the window. -/
theorem outside (h : Standing I L n now entry t) (hI : 2 ≤ I) (hn : now / I ≠ n)
    {entry' : Option (ℕ × ℕ)}
    (hentry' : now / I % 2 ≠ n % 2 → entry' = none ∨ entry' = entry)
    (hsame : now / I % 2 = n % 2 → entry' = entry ∨ ∃ v, entry' = some (v, now + (I - 1))) :
    Standing I L n now entry' t := by
  rcases Nat.lt_or_gt_of_ne hn with hlt | hgt
  · have hnow : now < n * I := Nat.lt_mul_of_div_lt hlt (by omega)
    cases h with
    | untouched hgone ht =>
        refine .untouched (fun v d hd => ?_) ht
        by_cases hparity : now / I % 2 = n % 2
        · rcases hsame hparity with heq | ⟨w, heq⟩
          · exact hgone v d (heq ▸ hd)
          · have hbefore : now / I + 1 + 1 ≤ n := by omega
            have hspan : now < (now / I + 1) * I := (window_bounds hI rfl).2
            have hmul := Nat.mul_le_mul_right I hbefore
            rw [Nat.succ_mul (now / I + 1)] at hmul
            have hexpires : d = now + (I - 1) :=
              (congrArg Prod.snd (Option.some.inj (heq.symm.trans hd))).symm
            omega
        · rcases hentry' hparity with heq | heq
          · exact absurd (heq.symm.trans hd) (by simp)
          · exact hgone v d (heq ▸ hd)
    | opened hnow' => exact absurd hnow (Nat.not_lt.mpr hnow')
    | kept d hnow' => exact absurd hnow (Nat.not_lt.mpr hnow'.le)
    | reopened d hnow' =>
        rw [Nat.succ_mul] at hnow'
        omega
    | passed hnow' =>
        rw [Nat.succ_mul] at hnow'
        omega
  · refine .passed ?_
    have hmul := Nat.mul_le_mul_right I (Nat.succ_le_of_lt hgt)
    exact hmul.trans (Nat.div_mul_le_self now I)

/-- A demand in the window finds a count and a new entry; both depend on when it came. -/
theorem inside (h : Standing I L n now entry t) (hI : 2 ≤ I) (hL : 1 ≤ L) (hn : now / I = n)
    {shown : ℕ} (hlive : ∀ v d, entry = some (v, d) → now < d → shown = v)
    (hgone : (∀ v d, entry = some (v, d) → d ≤ now) → shown = 0) :
    Standing I L n now (if shown < L then some (shown + 1, now + (I - 1)) else entry)
        (t.add I n now) ∧
      (t.add I n now).admitted L = t.admitted L + if shown < L then 1 else 0 := by
  obtain ⟨hstart, hend⟩ := window_bounds hI hn
  have hwidth : (n + 1) * I = n * I + I := Nat.succ_mul n I
  have hpos : 0 < L := hL
  cases h with
  | untouched hgone' ht =>
      have hshown : shown = 0 := hgone fun v d hd => (hgone' v d hd).trans hstart
      subst ht hshown
      rw [if_pos hpos, if_pos hpos, Tally.admitted_nil]
      by_cases hfirst : now = n * I
      · rw [Tally.add_first hn hfirst]
        have hlapses : Tally.Lapses { first := 1 } L := ⟨Nat.le_refl 1, Or.inr rfl⟩
        have hone : min L 1 = 1 := Nat.min_eq_right hL
        refine ⟨.opened hstart hlapses rfl ?_, ?_⟩
        · rw [hfirst, hone]
        · rw [Tally.admitted_lapsed hlapses, hone, Nat.min_zero]
      · obtain ⟨hopen, hsum⟩ := Tally.add_open (t := {}) (L := L) hn hfirst fun h => absurd h.1 (by decide)
        have hsum : _ = 1 := hsum
        have hone : min L 1 = 1 := Nat.min_eq_right hL
        refine ⟨.kept (now + (I - 1)) (by omega) hopen (by omega) ?_, ?_⟩
        · rw [hsum, hone]
        · rw [Tally.admitted_kept hopen, hsum, hone]
  | opened hnow' hlapses hnone hentry =>
      rw [Tally.admitted_lapsed hlapses, hnone]
      by_cases hlast : now + 1 = (n + 1) * I
      · have hshown : shown = 0 := hgone fun v d hd => by
          cases hentry.symm.trans hd
          omega
        subst hshown
        rw [if_pos hpos, if_pos hpos, Tally.add_last hn (by omega) hlast]
        have hlapses' : Tally.Lapses { t with last := t.last + 1 } L := hlapses
        refine ⟨.reopened (now + (I - 1)) hlast.ge hlapses' (Nat.le_add_left ..) (by omega) ?_, ?_⟩
        · rw [hnone, Nat.min_eq_right hL]
        · rw [Tally.admitted_lapsed hlapses', hnone, Nat.min_zero, Nat.add_zero, Nat.min_eq_right hL]
      · have hshown : shown = min L t.first := hlive _ _ hentry (by omega)
        subst hshown
        by_cases hfirst : now = n * I
        · rw [Tally.add_first hn hfirst]
          have hlapses' : Tally.Lapses { t with first := t.first + 1 } L :=
            ⟨Nat.le_add_left .., hlapses.2.imp_left fun hfull => hfull.trans (Nat.le_succ _)⟩
          refine ⟨.opened hstart hlapses' hnone ?_, ?_⟩
          · split_ifs with hbelow
            · rw [hfirst, Option.some.injEq, Prod.mk.injEq]
              exact ⟨by simp only; omega, rfl⟩
            · rw [hentry, Option.some.injEq, Prod.mk.injEq]
              exact ⟨by simp only; omega, rfl⟩
          · rw [Tally.admitted_lapsed hlapses', hnone]
            split_ifs with hbelow
            · simp only
              omega
            · simp only
              omega
        · rw [Tally.add_between hn hfirst hlast]
          by_cases hbelow : min L t.first < L
          · have hbetween : t.between = 0 := hlapses.2.resolve_left (by omega)
            have hopen : ¬ Tally.Lapses { t with between := t.between + 1 } L := by
              rintro ⟨-, hfull | hzero⟩
              · simp only at hfull
                omega
              · simp only at hzero
                omega
            rw [if_pos hbelow, if_pos hbelow]
            refine ⟨.kept (now + (I - 1)) (by omega) hopen (by omega) ?_, ?_⟩
            · rw [Option.some.injEq, Prod.mk.injEq]
              exact ⟨by simp only; omega, rfl⟩
            · rw [Tally.admitted_kept hopen]
              simp only
              omega
          · rw [if_neg hbelow, if_neg hbelow]
            have hlapses' : Tally.Lapses { t with between := t.between + 1 } L :=
              ⟨hlapses.1, Or.inl (by simp only; omega)⟩
            refine ⟨.opened hstart hlapses' hnone hentry, ?_⟩
            rw [Tally.admitted_lapsed hlapses', hnone]
            simp only
            omega
  | kept d hnow' hopen hd hentry =>
      have hshown : shown = min L (t.first + t.between + t.last) := hlive _ _ hentry (by omega)
      obtain ⟨hopen', hsum⟩ := Tally.add_open hn (by omega) hopen
      rw [Tally.admitted_kept hopen, Tally.admitted_kept hopen', hsum]
      split_ifs with hbelow
      · refine ⟨.kept (now + (I - 1)) hnow' hopen' (by omega) ?_, by omega⟩
        rw [hsum, Option.some.injEq, Prod.mk.injEq]
        exact ⟨by omega, rfl⟩
      · refine ⟨.kept d hnow' hopen' hd ?_, by omega⟩
        rw [hentry, hsum, Option.some.injEq, Prod.mk.injEq]
        exact ⟨by omega, rfl⟩
  | reopened d hnow' hlapses hsome hd hentry =>
      have hshown : shown = min L t.last := hlive _ _ hentry (by omega)
      have hlapses' : Tally.Lapses { t with last := t.last + 1 } L := hlapses
      rw [Tally.add_last hn (by omega) (by omega), Tally.admitted_lapsed hlapses,
        Tally.admitted_lapsed hlapses']
      split_ifs with hbelow
      · refine ⟨.reopened (now + (I - 1)) hnow' hlapses' (Nat.le_add_left ..) (by omega) ?_, ?_⟩
        · rw [Option.some.injEq, Prod.mk.injEq]
          exact ⟨by simp only; omega, rfl⟩
        · simp only
          omega
      · refine ⟨.reopened d hnow' hlapses' (Nat.le_add_left ..) hd ?_, ?_⟩
        · rw [hentry, Option.some.injEq, Prod.mk.injEq]
          exact ⟨by simp only; omega, rfl⟩
        · simp only
          omega
  | passed hnow' => omega

/-- One demand of the name: what is admitted in the window is what its tally says. -/
theorem demand {κ : Type*} [DecidableEq κ] {m : Alternating κ} {k : κ}
    (h : Standing I L n now (m (k, n % 2)) t) (hI : 2 ≤ I) (hL : 1 ≤ L) :
    Standing I L n now ((Alternating.demand I L m now k).1 (k, n % 2)) (t.add I n now) ∧
      (t.add I n now).admitted L = t.admitted L +
        if now / I = n ∧ (Alternating.demand I L m now k).2 = true then 1 else 0 := by
  by_cases hn : now / I = n
  · subst hn
    simp only [Alternating.demand_entry, Alternating.demand_snd, true_and]
    exact h.inside hI hL rfl (fun _ _ => Alternating.shown_live) Alternating.shown_gone
  · rw [Tally.add_outside hn, if_neg fun h => hn h.1]
    refine ⟨h.outside hI hn (fun hparity => ?_) fun hparity => ?_, rfl⟩
    · exact Alternating.demand_other I L m now k (Nat.mod_lt n (Nat.succ_pos 1)) hparity.symm
    · rw [← hparity, Alternating.demand_entry]
      split_ifs
      · exact Or.inr ⟨_, rfl⟩
      · exact Or.inl rfl

end Standing

/-! ### Refusals -/

namespace Alternating

variable {κ : Type*} [DecidableEq κ] {I L now now' T : ℕ} {m : Alternating κ} {k : κ} {h : List ℕ}

/-- What the counters of a name show of the instants of its admitted demands, the last one first: there
is a counter for the window of the last one at most, and as many as it shows came in that window. -/
def Recent (I L : ℕ) (m : Alternating κ) (k : κ) (now : ℕ) (h : List ℕ) : Prop :=
  ∀ i v d, m (k, i) = some (v, d) → ∃ T, h.head? = some T ∧ T ≤ now ∧ d = T + (I - 1) ∧
    i = T / I % 2 ∧ v ≤ L ∧ v ≤ h.length ∧ ∀ t ∈ h.take v, t / I = T / I

/-- The limit was reached at the instant `T`, and nothing was admitted since. -/
def Full (I L : ℕ) (m : Alternating κ) (k : κ) (T : ℕ) : Prop :=
  m (k, T / I % 2) = some (L, T + (I - 1)) ∧ ∀ i ≠ T / I % 2, m (k, i) = none

omit [DecidableEq κ] in
/-- Instants that are less than a window apart. -/
theorem window_le (hI : 0 < I) (hnow : now < T + I) : now / I ≤ T / I + 1 := by
  have hle : now / I ≤ (T + I) / I := Nat.div_le_div_right hnow.le
  rwa [Nat.add_div_right T hI] at hle

/-- A demand is refused as long as the counter that has reached the limit is current and alive. -/
theorem Full.refused_iff (hfull : Full I L m k T) (hI : 0 < I) (hL : 1 ≤ L) (hT : T ≤ now)
    (hnow : now < T + I) :
    (demand I L m now k).2 = false ↔ now / I = T / I ∧ now + 1 < T + I := by
  rw [← Bool.not_eq_true, demand_snd]
  constructor
  · intro hrefused
    by_contra hcon
    have hgone : shown I m now k = 0 := by
      refine shown_gone fun v d hentry => ?_
      by_cases hwindow : now / I = T / I
      · rw [hwindow, hfull.1] at hentry
        cases hentry
        omega
      · have hle : T / I ≤ now / I := Nat.div_le_div_right hT
        have hlt := window_le hI hnow
        rw [hfull.2 _ (by omega)] at hentry
        cases hentry
    omega
  · rintro ⟨hwindow, hbefore⟩
    have hentry : m (k, now / I % 2) = some (L, T + (I - 1)) := by
      rw [hwindow]
      exact hfull.1
    rw [shown_live hentry (by omega)]
    exact Nat.lt_irrefl L

/-- A name that is refused has reached the limit at its last admitted demand. -/
theorem Recent.full (hrecent : Recent I L m k now h) (hL : 1 ≤ L)
    (hrefused : (demand I L m now k).2 = false) :
    ∃ T, h.head? = some T ∧ T ≤ now ∧ Full I L m k T ∧ L ≤ h.length ∧
      ∀ t ∈ h.take L, t / I = T / I := by
  rw [← Bool.not_eq_true, demand_snd, Nat.not_lt, shown] at hrefused
  cases hget : m.get now (k, curr I now) with
  | none =>
      rw [hget, Option.getD_none] at hrefused
      omega
  | some calls =>
      rw [hget, Option.getD_some] at hrefused
      obtain ⟨d, hentry, -⟩ := Expiring.get_eq_some.mp hget
      obtain ⟨T, hhead, hT, rfl, hi, hle, hlength, hsame⟩ := hrecent _ _ _ hentry
      have hcalls : calls = L := Nat.le_antisymm hle hrefused
      subst hcalls
      refine ⟨T, hhead, hT, ⟨hi ▸ hentry, fun i hne => ?_⟩, hlength, hsame⟩
      cases hother : m (k, i) with
      | none => rfl
      | some p =>
          obtain ⟨v, d⟩ := p
          obtain ⟨T', hhead', -, -, hi', -⟩ := hrecent _ _ _ hother
          rw [hhead] at hhead'
          cases hhead'
          exact absurd hi' hne

omit [DecidableEq κ] in
/-- Time passes, and the counters of the name stay. -/
theorem Recent.later (hrecent : Recent I L m k now h) {m' : Alternating κ}
    (hsame : ∀ i, m' (k, i) = m (k, i)) (hle : now ≤ now') : Recent I L m' k now' h := by
  intro i v d hentry
  rw [hsame] at hentry
  obtain ⟨T, hhead, hT, hrest⟩ := hrecent i v d hentry
  exact ⟨T, hhead, hT.trans hle, hrest⟩

omit [DecidableEq κ] in
/-- What the current counter shows are the last demands, and all of the current window. -/
theorem Recent.shown (hrecent : Recent I L m k now h) (hle : now ≤ now') :
    shown I m now' k ≤ h.length ∧ ∀ t ∈ h.take (shown I m now' k), t / I = now' / I := by
  rw [Alternating.shown]
  cases hget : m.get now' (k, curr I now') with
  | none => exact ⟨Nat.zero_le _, fun t ht => by simp at ht⟩
  | some calls =>
      obtain ⟨d, hentry, hlive⟩ := Expiring.get_eq_some.mp hget
      obtain ⟨T, -, hT, rfl, hi, -, hlength, hsame⟩ := hrecent _ _ _ hentry
      have hwindow : now' / I = T / I := by
        rw [curr_eq] at hi
        have hlt : now' / I ≤ T / I + 1 := window_le (by omega) (by omega)
        have hge : T / I ≤ now' / I := Nat.div_le_div_right (hT.trans hle)
        omega
      exact ⟨hlength, fun t ht => (hsame t ht).trans hwindow.symm⟩

/-- A demand that is admitted is put before the others. -/
theorem Recent.demand (hrecent : Recent I L m k now h) (hle : now ≤ now') :
    Recent I L (demand I L m now' k).1 k now'
      (if (Alternating.demand I L m now' k).2 = true then now' :: h else h) := by
  by_cases hbelow : Alternating.shown I m now' k < L
  · have hcount : Alternating.demand I L m now' k =
        (count I m now' k (Alternating.shown I m now' k), true) := if_pos hbelow
    rw [hcount, if_pos rfl]
    intro i v d hentry
    have hentry : count I m now' k (Alternating.shown I m now' k) (k, i) = some (v, d) := hentry
    by_cases hi : i = curr I now'
    · rw [hi, count_self] at hentry
      cases hentry
      obtain ⟨hlength, hsame⟩ := hrecent.shown hle
      refine ⟨now', rfl, Nat.le_refl _, rfl, hi.trans (curr_eq I now'), hbelow,
        Nat.succ_le_succ hlength, fun t ht => ?_⟩
      rcases List.mem_cons.mp ht with rfl | ht
      · rfl
      · exact hsame t ht
    · rcases Expiring.set_cases (Expiring.del_some hentry) with ⟨heq, -, -⟩ | hbefore
      · exact absurd (congrArg Prod.snd heq) hi
      · obtain ⟨T, -, -, -, hparity, -⟩ := hrecent i v d hbefore
        have hnone := count_other I m now' k (Alternating.shown I m now' k) (i := i) (by omega) hi
        exact absurd (hnone.symm.trans hentry) (by simp)
  · have hsame : Alternating.demand I L m now' k = (m, false) := if_neg hbelow
    rw [hsame, if_neg Bool.false_ne_true]
    exact hrecent.later (fun _ => rfl) hle

end Alternating
