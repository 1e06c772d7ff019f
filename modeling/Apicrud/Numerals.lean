import Mathlib

/-! # Numerals over an ascending alphabet

A number in a base, its most significant digit first, with a symbol of an alphabet for each digit.  When the
symbols ascend, the lexicographic order of numerals of the same length is that of the numbers
(`numeral_lt_iff`). -/

/-- Two symbols or more, in ascending order. -/
structure Alphabet (α : Type*) [LT α] where
  symbols : List α
  ascending : symbols.Pairwise (· < ·)
  two_le : 2 ≤ symbols.length

namespace Alphabet

section order

variable {α : Type*} [LT α]

/-- A smaller number in a row of digits of the same length has, symbol by symbol, the smaller text. -/
theorem map_lt_map {b : ℕ} {f : ℕ → α} (hb : 1 < b) (hf : ∀ i j, i < j → j < b → f i < f j)
    {s t : List ℕ} (hlength : s.length = t.length) (hs : ∀ i ∈ s, i < b) (ht : ∀ i ∈ t, i < b)
    (h : Nat.ofDigits b s.reverse < Nat.ofDigits b t.reverse) : s.map f < t.map f := by
  induction s generalizing t with
  | nil =>
      rw [List.eq_nil_of_length_eq_zero hlength.symm] at h
      exact absurd h (lt_irrefl _)
  | cons i s ih =>
      cases t with
      | nil => cases hlength
      | cons j t =>
          have hrest : s.length = t.length := Nat.succ.inj hlength
          obtain ⟨hi, hsrest⟩ := List.forall_mem_cons.mp hs
          obtain ⟨hj, htrest⟩ := List.forall_mem_cons.mp ht
          have hslt : Nat.ofDigits b s.reverse < b ^ t.length := by
            have hlt := Nat.ofDigits_lt_base_pow_length hb fun x hx => hsrest x (List.mem_reverse.mp hx)
            rwa [List.length_reverse, hrest] at hlt
          have htlt : Nat.ofDigits b t.reverse < b ^ t.length := by
            have hlt := Nat.ofDigits_lt_base_pow_length hb fun x hx => htrest x (List.mem_reverse.mp hx)
            rwa [List.length_reverse] at hlt
          simp only [List.reverse_cons, Nat.ofDigits_append, List.length_reverse, hrest,
            Nat.ofDigits_singleton] at h
          rw [List.map_cons, List.map_cons, List.cons_lt_cons_iff]
          rcases Nat.lt_trichotomy i j with hlt | rfl | hgt
          · exact Or.inl (hf i j hlt hj)
          · exact Or.inr ⟨rfl, ih hrest hsrest htrest (by omega)⟩
          · have hstep : b ^ t.length * (j + 1) ≤ b ^ t.length * i := Nat.mul_le_mul_left _ hgt
            rw [Nat.mul_add, Nat.mul_one] at hstep
            omega

end order

variable {α : Type*} [LinearOrder α] (A : Alphabet α)

/-- The number of symbols. -/
def base : ℕ := A.symbols.length

theorem one_lt_base : 1 < A.base := A.two_le

/-- The symbol of a digit. -/
def symbol (i : ℕ) : α :=
  A.symbols.get ⟨i % A.base, Nat.mod_lt i (Nat.zero_lt_of_lt A.one_lt_base)⟩

theorem symbol_lt {i j : ℕ} (hij : i < j) (hj : j < A.base) : A.symbol i < A.symbol j := by
  unfold symbol
  apply List.pairwise_iff_get.mp A.ascending
  rw [Fin.lt_def]
  show i % A.base < j % A.base
  rw [Nat.mod_eq_of_lt hj, Nat.mod_eq_of_lt (hij.trans hj)]
  exact hij

theorem symbol_inj {i j : ℕ} (hi : i < A.base) (hj : j < A.base) (h : A.symbol i = A.symbol j) : i = j := by
  rcases Nat.lt_trichotomy i j with hlt | heq | hgt
  · exact absurd h (A.symbol_lt hlt hj).ne
  · exact heq
  · exact absurd h (A.symbol_lt hgt hi).ne'

/-- The number without leading zeros; nothing for zero. -/
def numeral (n : ℕ) : List α := (Nat.digits A.base n).reverse.map A.symbol

theorem numeral_zero : A.numeral 0 = [] := by simp [numeral]

theorem numeral_pos {n : ℕ} (h : 0 < n) :
    A.numeral n = A.numeral (n / A.base) ++ [A.symbol (n % A.base)] := by
  rw [numeral, Nat.digits_def' A.one_lt_base h, List.reverse_cons, List.map_append]
  rfl

/-- No numeral begins with the symbol of zero. -/
theorem head?_numeral (n : ℕ) : ∀ c ∈ (A.numeral n).head?, c ≠ A.symbol 0 := by
  intro c hc hzero
  by_cases hn : n = 0
  · rw [hn, numeral_zero] at hc
    cases hc
  · have hne : Nat.digits A.base n ≠ [] := Nat.digits_ne_nil_iff_ne_zero.mpr hn
    have hlast := Nat.getLast_digit_ne_zero A.base hn
    rw [numeral, List.head?_map, List.head?_reverse, List.getLast?_eq_some_getLast hne] at hc
    obtain rfl := Option.some.inj hc
    refine hlast (A.symbol_inj ?_ (Nat.zero_lt_of_lt A.one_lt_base) hzero)
    exact Nat.digits_lt_base A.one_lt_base (List.getLast_mem hne)

/-- The number of symbols that a number takes. -/
theorem length_numeral {n k : ℕ} (hlow : A.base ^ k ≤ n) (hhigh : n < A.base ^ (k + 1)) :
    (A.numeral n).length = k + 1 := by
  rw [numeral, List.length_map, List.length_reverse]
  have hge := (Nat.lt_digits_length_iff A.one_lt_base n).mpr hlow
  have hle := (Nat.digits_length_le_iff A.one_lt_base n).mpr hhigh
  omega

/-- Numerals of the same length are ordered as the numbers. -/
theorem numeral_lt {m n : ℕ} (hlength : (A.numeral m).length = (A.numeral n).length) (h : m < n) :
    A.numeral m < A.numeral n := by
  simp only [numeral, List.length_map] at hlength
  refine map_lt_map A.one_lt_base (fun i j => A.symbol_lt) hlength ?_ ?_ ?_
  · exact fun i hi => Nat.digits_lt_base A.one_lt_base (List.mem_reverse.mp hi)
  · exact fun i hi => Nat.digits_lt_base A.one_lt_base (List.mem_reverse.mp hi)
  · rw [List.reverse_reverse, List.reverse_reverse, Nat.ofDigits_digits, Nat.ofDigits_digits]
    exact h

theorem numeral_lt_iff {m n : ℕ} (hlength : (A.numeral m).length = (A.numeral n).length) :
    A.numeral m < A.numeral n ↔ m < n := by
  refine ⟨fun h => ?_, A.numeral_lt hlength⟩
  rcases Nat.lt_trichotomy m n with hlt | rfl | hgt
  · exact hlt
  · exact absurd h (lt_irrefl _)
  · exact absurd (h.trans (A.numeral_lt hlength.symm hgt)) (lt_irrefl _)

end Alphabet
