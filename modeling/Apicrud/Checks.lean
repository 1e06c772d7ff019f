import Mathlib

/-! # Checks that end early

A controller checks a request step by step and answers as soon as a check fails: a computation
in `Except`.  `ensure` is one check, `orElse` what an exception handler answers instead of the
exception, and `bind_eq_ok` takes a passed sequence of checks apart again. -/

namespace Checks

universe u v

variable {ε ε' : Type u} {α β : Type v}

/-- Go on if `p` holds, end with `e` otherwise. -/
def ensure (p : Prop) [Decidable p] (e : ε) : Except ε Unit := if p then .ok () else .error e

/-- An exception handler: what is answered in place of the exception. -/
def orElse (x : Except ε α) (handler : ε → ε') : Except ε' α :=
  match x with
  | .ok a => .ok a
  | .error e => .error (handler e)

@[simp] theorem ensure_eq_ok {p : Prop} [Decidable p] {e : ε} {u : Unit} :
    ensure p e = .ok u ↔ p := by
  unfold ensure
  split_ifs with h <;> simp [h]

@[simp] theorem ensure_eq_error {p : Prop} [Decidable p] {e e' : ε} :
    ensure p e = .error e' ↔ ¬ p ∧ e = e' := by
  unfold ensure
  split_ifs with h <;> simp [h]

theorem bind_eq_ok {x : Except ε α} {f : α → Except ε β} {b : β} :
    (x >>= f) = .ok b ↔ ∃ a, x = .ok a ∧ f a = .ok b := by
  cases x with
  | ok a => exact ⟨fun h => ⟨a, rfl, h⟩, fun ⟨_, h, h'⟩ => by cases h; exact h'⟩
  | error e => exact ⟨fun h => (nomatch h), fun ⟨_, h, _⟩ => (nomatch h)⟩

theorem bind_eq_error {x : Except ε α} {f : α → Except ε β} {e : ε} :
    (x >>= f) = .error e ↔ x = .error e ∨ ∃ a, x = .ok a ∧ f a = .error e := by
  cases x with
  | error e' => simp [bind, Except.bind]
  | ok a => simp [bind, Except.bind]

@[simp] theorem pure_eq_ok {a b : α} : (pure a : Except ε α) = .ok b ↔ a = b := by
  simp [pure, Except.pure]

@[simp] theorem throw_ne_ok {e : ε} {a : α} : (throw e : Except ε α) ≠ .ok a := by
  simp [throw, throwThe, MonadExceptOf.throw]

@[simp] theorem orElse_eq_ok {x : Except ε α} {handler : ε → ε'} {a : α} :
    orElse x handler = .ok a ↔ x = .ok a := by
  cases x <;> simp [orElse]

end Checks
