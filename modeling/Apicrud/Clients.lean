import Apicrud.Machine

/-! # Clients of a shared state

Each of any number of clients runs a program, one atomic command on the shared state at a time.  The
pool of the clients is a machine whose events are turns of single clients: its runs are the
interleavings of their commands, in any order. -/

/-- A program of the clients `ι`: one turn takes the shared and the local state to the next ones. -/
structure Program (ι σ ρ ε ω : Type*) where
  turn : ι → σ → ε → ρ → σ × ρ × ω

/-- The shared state and the local states of the clients. -/
structure Pool (ι σ ρ : Type*) where
  shared : σ
  locals : ι → ρ

/-- It is the turn of a client. -/
structure Turn (ι ε : Type*) where
  client : ι
  event : ε

namespace Program

variable {ι σ ρ ε ω : Type*} [DecidableEq ι] (P : Program ι σ ρ ε ω)

/-- The pool of the clients as a machine. -/
def machine : Machine (Pool ι σ ρ) (Turn ι ε) ω where
  step p t :=
    let r := P.turn t.client p.shared t.event (p.locals t.client)
    (⟨r.1, Function.update p.locals t.client r.2.1⟩, r.2.2)

theorem next_shared (p : Pool ι σ ρ) (t : Turn ι ε) :
    (P.machine.next p t).shared = (P.turn t.client p.shared t.event (p.locals t.client)).1 := rfl

theorem out_eq (p : Pool ι σ ρ) (t : Turn ι ε) :
    P.machine.out p t = (P.turn t.client p.shared t.event (p.locals t.client)).2.2 := rfl

theorem next_self (p : Pool ι σ ρ) (t : Turn ι ε) :
    (P.machine.next p t).locals t.client =
      (P.turn t.client p.shared t.event (p.locals t.client)).2.1 :=
  Function.update_self ..

theorem next_other (p : Pool ι σ ρ) (t : Turn ι ε) {i : ι} (h : i ≠ t.client) :
    (P.machine.next p t).locals i = p.locals i :=
  Function.update_of_ne h _ _

end Program
