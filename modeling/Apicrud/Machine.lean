import Mathlib

/-! # Machines, their runs and their history

A machine reads one event at a time, moves to a new state and gives an output.
Everything that is not determined (clocks, random draws, what a client sends) is part of
the event, so a run is a list of events.

* `run s es` is the state after the events `es`;
* `Along P s es` says that `P` holds of every step of the run, at the state before the step;
* `invariant` and `Along.of_invariant` are the two induction rules every run result uses:
  what a step preserves holds at the end, and what it preserves may be used at every step;
* `outputs s es` lists what the steps put out;
* `total f s es` sums a measure over the steps, `Along.total_le` compares two of them, and
  `Along.total_le_one` is the rule for what happens at most once;
* `withHistory` adds a history variable: it watches the run and never changes it
  (`run_withHistory`, `along_withHistory`). -/

/-- A deterministic machine with states `σ`, events `ε` and outputs `ω`. -/
structure Machine (σ ε ω : Type*) where
  step : σ → ε → σ × ω

namespace Machine

variable {σ ε ω η : Type*} (M : Machine σ ε ω)

/-- The state after one event. -/
def next (s : σ) (e : ε) : σ := (M.step s e).1

/-- The output of one event. -/
def out (s : σ) (e : ε) : ω := (M.step s e).2

/-- The state after a list of events. -/
def run (s : σ) : List ε → σ
  | [] => s
  | e :: es => run (M.next s e) es

/-- `P` holds of every step of the run, taken at the state before the step. -/
def Along (P : σ → ε → Prop) (s : σ) : List ε → Prop
  | [] => True
  | e :: es => P s e ∧ Along P (M.next s e) es

@[simp] theorem run_nil (s : σ) : M.run s [] = s := rfl

@[simp] theorem run_cons (s : σ) (e : ε) (es : List ε) :
    M.run s (e :: es) = M.run (M.next s e) es := rfl

@[simp] theorem along_nil (P : σ → ε → Prop) (s : σ) : M.Along P s [] := trivial

@[simp] theorem along_cons (P : σ → ε → Prop) (s : σ) (e : ε) (es : List ε) :
    M.Along P s (e :: es) ↔ P s e ∧ M.Along P (M.next s e) es := Iff.rfl

/-- The outputs of the run, in order. -/
def outputs (s : σ) : List ε → List ω
  | [] => []
  | e :: es => M.out s e :: outputs (M.next s e) es

@[simp] theorem outputs_nil (s : σ) : M.outputs s [] = [] := rfl

@[simp] theorem outputs_cons (s : σ) (e : ε) (es : List ε) :
    M.outputs s (e :: es) = M.out s e :: M.outputs (M.next s e) es := rfl

/-- The sum of a measure over the steps of the run, each taken at the state before the step. -/
def total (f : σ → ε → ℕ) (s : σ) : List ε → ℕ
  | [] => 0
  | e :: es => f s e + total f (M.next s e) es

@[simp] theorem total_nil (f : σ → ε → ℕ) (s : σ) : M.total f s [] = 0 := rfl

@[simp] theorem total_cons (f : σ → ε → ℕ) (s : σ) (e : ε) (es : List ε) :
    M.total f s (e :: es) = f s e + M.total f (M.next s e) es := rfl

theorem run_append (s : σ) (es₁ es₂ : List ε) :
    M.run s (es₁ ++ es₂) = M.run (M.run s es₁) es₂ := by
  induction es₁ generalizing s with
  | nil => rfl
  | cons e es ih => exact ih (M.next s e)

theorem along_append (P : σ → ε → Prop) (s : σ) (es₁ es₂ : List ε) :
    M.Along P s (es₁ ++ es₂) ↔ M.Along P s es₁ ∧ M.Along P (M.run s es₁) es₂ := by
  induction es₁ generalizing s with
  | nil => simp
  | cons e es ih =>
      simp only [List.cons_append, along_cons, run_cons, ih (M.next s e), and_assoc]

variable {M}

/-- What every step preserves holds at the end of the run. -/
theorem invariant {P : σ → ε → Prop} {I : σ → Prop}
    (hstep : ∀ s e, I s → P s e → I (M.next s e)) {s : σ} {es : List ε}
    (h : M.Along P s es) (h0 : I s) : I (M.run s es) := by
  induction es generalizing s with
  | nil => exact h0
  | cons e es ih => exact ih h.2 (hstep s e h0 h.1)

/-- What every step preserves, whatever the event, holds after any run. -/
theorem invariant_run {I : σ → Prop} (hstep : ∀ s e, I s → I (M.next s e)) {s : σ} (h0 : I s)
    (es : List ε) : I (M.run s es) := by
  induction es generalizing s with
  | nil => exact h0
  | cons e es ih => exact ih (hstep s e h0)

/-- A preserved invariant may be used at every step of the run. -/
theorem Along.of_invariant {P Q : σ → ε → Prop} {I : σ → Prop}
    (hstep : ∀ s e, I s → P s e → I (M.next s e)) (hQ : ∀ s e, I s → P s e → Q s e)
    {s : σ} {es : List ε} (h : M.Along P s es) (h0 : I s) : M.Along Q s es := by
  induction es generalizing s with
  | nil => trivial
  | cons e es ih => exact ⟨hQ s e h0 h.1, ih h.2 (hstep s e h0 h.1)⟩

/-- Two properties of the steps that an invariant makes equivalent, where the first keeps the invariant,
hold along the same runs. -/
theorem Along.iff_of_invariant {F P Q : σ → ε → Prop} {I : σ → Prop}
    (hiff : ∀ s e, I s → F s e → (P s e ↔ Q s e))
    (hstep : ∀ s e, I s → F s e → P s e → I (M.next s e)) {s : σ} {es : List ε}
    (h : M.Along F s es) (h0 : I s) : M.Along P s es ↔ M.Along Q s es := by
  induction es generalizing s with
  | nil => rfl
  | cons e es ih =>
      have hfirst := hiff s e h0 h.1
      exact ⟨fun hP => ⟨hfirst.mp hP.1, (ih h.2 (hstep s e h0 h.1 hP.1)).mp hP.2⟩, fun hQ =>
        ⟨hfirst.mpr hQ.1, (ih h.2 (hstep s e h0 h.1 (hfirst.mpr hQ.1))).mpr hQ.2⟩⟩

theorem Along.imp {P Q : σ → ε → Prop} (hPQ : ∀ s e, P s e → Q s e) {s : σ} {es : List ε}
    (h : M.Along P s es) : M.Along Q s es :=
  h.of_invariant (I := fun _ => True) (fun _ _ _ _ => trivial) (fun s e _ => hPQ s e) trivial

theorem Along.and {P Q : σ → ε → Prop} {s : σ} {es : List ε} (h : M.Along P s es)
    (h' : M.Along Q s es) : M.Along (fun s e => P s e ∧ Q s e) s es := by
  induction es generalizing s with
  | nil => trivial
  | cons e es ih => exact ⟨⟨h.1, h'.1⟩, ih h.2 h'.2⟩

/-- What is at most as large at every step is at most as large in total. -/
theorem Along.total_le {f g : σ → ε → ℕ} {s : σ} {es : List ε}
    (h : M.Along (fun s e => f s e ≤ g s e) s es) : M.total f s es ≤ M.total g s es := by
  induction es generalizing s with
  | nil => exact Nat.le_refl 0
  | cons e es ih => exact Nat.add_le_add h.1 (ih h.2)

/-- What no step measures in states that the steps do not leave is zero in total. -/
theorem Along.total_eq_zero {f : σ → ε → ℕ} {P : σ → ε → Prop} {I : σ → Prop}
    (hstep : ∀ s e, I s → P s e → f s e = 0 ∧ I (M.next s e)) {s : σ} {es : List ε}
    (h : M.Along P s es) (h0 : I s) : M.total f s es = 0 := by
  induction es generalizing s with
  | nil => rfl
  | cons e es ih =>
      obtain ⟨hzero, hnext⟩ := hstep s e h0 h.1
      rw [total_cons, hzero, ih h.2 hnext]

/-- What happens at most once: where it happens, the run gets into states where it no longer does. -/
theorem Along.total_le_one {f : σ → ε → ℕ} {P : σ → ε → Prop} {I Done : σ → Prop}
    (hstep : ∀ s e, I s → P s e → I (M.next s e))
    (hfirst : ∀ s e, I s → P s e → f s e = 0 ∨ (f s e = 1 ∧ Done (M.next s e)))
    (hdone : ∀ s e, I s → Done s → P s e → f s e = 0 ∧ Done (M.next s e)) {s : σ} {es : List ε}
    (h : M.Along P s es) (h0 : I s) : M.total f s es ≤ 1 := by
  induction es generalizing s with
  | nil => exact Nat.zero_le 1
  | cons e es ih =>
      have hnext := hstep s e h0 h.1
      rw [total_cons]
      rcases hfirst s e h0 h.1 with hzero | ⟨hone, hafter⟩
      · rw [hzero, Nat.zero_add]
        exact ih h.2 hnext
      · have hrest : M.total f (M.next s e) es = 0 :=
          h.2.total_eq_zero (I := fun s => I s ∧ Done s)
            (fun s e hs hP => ⟨(hdone s e hs.1 hs.2 hP).1, hstep s e hs.1 hP,
              (hdone s e hs.1 hs.2 hP).2⟩) ⟨hnext, hafter⟩
        omega

/-- The reading of `Along` without recursion: the property holds wherever the run is cut. -/
theorem along_iff {P : σ → ε → Prop} {s : σ} {es : List ε} :
    M.Along P s es ↔ ∀ es₁ e es₂, es = es₁ ++ e :: es₂ → P (M.run s es₁) e := by
  constructor
  · rintro h es₁ e es₂ rfl
    exact ((M.along_append P s es₁ (e :: es₂)).mp h).2.1
  · intro h
    induction es generalizing s with
    | nil => trivial
    | cons e es ih =>
        refine ⟨h [] e es rfl, ih fun es₁ e' es₂ he => ?_⟩
        exact h (e :: es₁) e' es₂ (by rw [he]; rfl)

variable (M)

/-- The machine with a history variable: `record` sees the state before the event. -/
def withHistory (record : η → σ → ε → η) : Machine (σ × η) ε ω where
  step p e := (((M.step p.1 e).1, record p.2 p.1 e), (M.step p.1 e).2)

variable (record : η → σ → ε → η)

@[simp] theorem withHistory_next (p : σ × η) (e : ε) :
    (M.withHistory record).next p e = (M.next p.1 e, record p.2 p.1 e) := rfl

@[simp] theorem withHistory_out (p : σ × η) (e : ε) :
    (M.withHistory record).out p e = M.out p.1 e := rfl

/-- The history variable does not disturb the run. -/
theorem run_withHistory (p : σ × η) (es : List ε) :
    ((M.withHistory record).run p es).1 = M.run p.1 es := by
  induction es generalizing p with
  | nil => rfl
  | cons e es ih => exact ih _

/-- A property of the bare machine holds along its run with or without the history. -/
theorem along_withHistory (P : σ → ε → Prop) (p : σ × η) (es : List ε) :
    (M.withHistory record).Along (fun q e => P q.1 e) p es ↔ M.Along P p.1 es := by
  induction es generalizing p with
  | nil => rfl
  | cons e es ih => exact and_congr_right fun _ => ih _

end Machine
