import Mathlib

/-! # Computations that may stop half way

A computation reads and changes a state, and may raise an exception: what it has changed until then stays
changed.

* `bind_run`, `bind_of_some` and `bind_of_none` run a sequence whose first part is known;
* `bind_eq_some` and `bind_eq_none` invert a run of a sequence, one for each way to end;
* `Keeps R f` says that `f`, however it ends, leads from a state to one that is related to it: the rules
  below put this together from the parts of a program, for any reflexive and transitive relation. -/

/-- A computation: the state it leaves, and the result if it does not raise. -/
def Interruptible (σ α : Type) : Type := σ → σ × Option α

namespace Interruptible

variable {σ α β : Type}

instance : Monad (Interruptible σ) where
  pure a s := (s, some a)
  bind f g s :=
    match f s with
    | (s', some a) => g a s'
    | (s', none) => (s', none)

/-- `raise` -/
def raise : Interruptible σ α := fun s => (s, none)

/-- What is read off the state; it raises where there is nothing. -/
def read (f : σ → Option α) : Interruptible σ α := fun s => (s, f s)

/-- A value, or `raise` where there is none. -/
def ofOption (a : Option α) : Interruptible σ α := fun s => (s, a)

/-- The state is changed. -/
def change (f : σ → σ) : Interruptible σ Unit := fun s => (f s, some ())

/-- `raise` unless the state is as it should be. -/
def ensure (p : σ → Bool) : Interruptible σ Unit := fun s => (s, if p s then some () else none)

variable {f : Interruptible σ α} {g : α → Interruptible σ β} {s s' : σ} {a : α} {b : β}

@[simp] theorem pure_run : (Pure.pure a : Interruptible σ α) s = (s, some a) := rfl

@[simp] theorem raise_run : (raise : Interruptible σ α) s = (s, none) := rfl

@[simp] theorem read_run (f : σ → Option α) : read f s = (s, f s) := rfl

@[simp] theorem ofOption_run (a : Option α) : (ofOption a : Interruptible σ α) s = (s, a) := rfl

@[simp] theorem change_run (f : σ → σ) : change f s = (f s, some ()) := rfl

@[simp] theorem ensure_run (p : σ → Bool) :
    ensure p s = (s, if p s then some () else none) := rfl

theorem bind_run : (f >>= g) s =
    match f s with
    | (s', some a) => g a s'
    | (s', none) => (s', none) := rfl

theorem bind_of_some (h : f s = (s', some a)) : (f >>= g) s = g a s' := by
  rw [bind_run, h]

theorem bind_of_none (h : f s = (s', none)) : (f >>= g) s = (s', none) := by
  rw [bind_run, h]

/-- A sequence gets to its end when both parts do. -/
theorem bind_eq_some : (f >>= g) s = (s', some b) ↔
    ∃ s₁ a, f s = (s₁, some a) ∧ g a s₁ = (s', some b) := by
  rcases hf : f s with ⟨s₁, _ | a⟩
  · rw [bind_of_none hf]
    simp
  · rw [bind_of_some hf]
    simp

/-- A sequence raises when its first part does, or else the second. -/
theorem bind_eq_none : (f >>= g) s = (s', none) ↔
    f s = (s', none) ∨ ∃ s₁ a, f s = (s₁, some a) ∧ g a s₁ = (s', none) := by
  rcases hf : f s with ⟨s₁, _ | a⟩
  · rw [bind_of_none hf]
    simp
  · rw [bind_of_some hf]
    simp

/-! ### What a computation keeps -/

/-- However it ends, it leads to a state that is related to the first one. -/
def Keeps (R : σ → σ → Prop) (f : Interruptible σ α) : Prop := ∀ s, R s (f s).1

namespace Keeps

variable {R : σ → σ → Prop}

theorem pure (hrefl : ∀ s, R s s) (a : α) : Keeps R (Pure.pure a : Interruptible σ α) := hrefl

theorem raise (hrefl : ∀ s, R s s) : Keeps R (raise : Interruptible σ α) := hrefl

theorem read (hrefl : ∀ s, R s s) (f : σ → Option α) : Keeps R (read f) := hrefl

theorem ofOption (hrefl : ∀ s, R s s) (a : Option α) :
    Keeps R (ofOption a : Interruptible σ α) := hrefl

theorem ensure (hrefl : ∀ s, R s s) (p : σ → Bool) : Keeps R (ensure p) := hrefl

theorem change {f : σ → σ} (h : ∀ s, R s (f s)) : Keeps R (change f) := h

theorem bind (htrans : ∀ s₁ s₂ s₃, R s₁ s₂ → R s₂ s₃ → R s₁ s₃) (hf : Keeps R f)
    (hg : ∀ a, Keeps R (g a)) : Keeps R (f >>= g) := by
  intro s
  have hfirst := hf s
  rcases hrun : f s with ⟨s₁, _ | a⟩
  · rw [bind_of_none hrun]
    rw [hrun] at hfirst
    exact hfirst
  · rw [bind_of_some hrun]
    rw [hrun] at hfirst
    exact htrans _ _ _ hfirst (hg a s₁)

theorem foldlM {γ : Type} (hrefl : ∀ s, R s s) (htrans : ∀ s₁ s₂ s₃, R s₁ s₂ → R s₂ s₃ → R s₁ s₃)
    {f : α → γ → Interruptible σ α} {l : List γ} (hf : ∀ a, ∀ c ∈ l, Keeps R (f a c)) (a : α) :
    Keeps R (l.foldlM f a) := by
  induction l generalizing a with
  | nil => exact hrefl
  | cons c l ih =>
      obtain ⟨hc, hl⟩ := List.forall_mem_cons.mp fun c hc => fun a => hf a c hc
      rw [List.foldlM_cons]
      exact bind htrans (hc a) fun a => ih (fun a c hc => hl c hc a) a

end Keeps

end Interruptible
