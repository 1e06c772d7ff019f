import Apicrud.Numerals

/-! # Record ids

`gen_id` writes the number of days since 2018 and a random digit in three characters, before the random part.
The digit is drawn from nine values where eight fit: the ninth is the first of the next day.  So ids of
different days sort by day unless the days follow each other, the first one drew the ninth value and the
second one the first value (`sorts_iff`). -/

namespace Apicrud

namespace GenId

/-- `_int2base` -/
def int2base (A : Alphabet Char) (x : ℕ) : List Char :=
  if _h : x = 0 then [A.symbol 0]
  else (int2base A (x / A.base)).dropWhile (· == A.symbol 0) ++ [A.symbol (x % A.base)]
termination_by x
decreasing_by exact Nat.div_lt_self (Nat.pos_of_ne_zero _h) A.one_lt_base

/-- The default of `chars`. -/
def chars : Alphabet Char where
  symbols := "-0123456789ABCDEFGHIJKLMNOPQRSTUVWXYZ_abcdefghijklmnopqrstuvwxyz".toList
  ascending := by decide +kernel
  two_le := by decide +kernel

/-- The outcomes of the random choices of one call: `randint(0, 8)`, and a character for each place. -/
structure Draws where
  low : ℕ
  low_le : low ≤ 8
  choice : ℕ → Char
  choice_mem : ∀ i, choice i ∈ chars.symbols

/-- The characters after the first three. -/
def Draws.rest (r : Draws) (length : ℕ) : List Char := (List.range (length - 3)).map r.choice

/-- `gen_id`, so many days after 2018-01-01. -/
def genId (length : ℕ) (pre : String) (days : ℕ) (r : Draws) : String :=
  pre ++ String.ofList (int2base chars (days * 8 + r.low)) ++ String.ofList (r.rest length)

/-- Both ids have the given length, and the first one is the smaller. -/
def SortsByDay (length : ℕ) (pre : String) (d₁ d₂ : ℕ) (r₁ r₂ : Draws) : Prop :=
  (genId length pre d₁ r₁).length = pre.length + length ∧
  (genId length pre d₂ r₂).length = pre.length + length ∧
  genId length pre d₁ r₁ < genId length pre d₂ r₂

/-- The digits are those of the number. -/
theorem int2base_eq (A : Alphabet Char) {x : ℕ} (h : 0 < x) : int2base A x = A.numeral x := by
  induction x using Nat.strong_induction_on with
  | _ x ih =>
      rw [int2base, dif_neg (by omega), A.numeral_pos h]
      congr 1
      by_cases hrest : x / A.base = 0
      · rw [hrest, int2base, dif_pos rfl, A.numeral_zero]
        simp
      · rw [ih _ (Nat.div_lt_self h A.one_lt_base) (Nat.pos_of_ne_zero hrest)]
        rw [List.dropWhile_eq_self_iff]
        intro hl hzero
        refine A.head?_numeral (x / A.base) _ ?_ (eq_of_beq hzero)
        rw [List.head?_eq_getElem?]
        exact List.getElem?_eq_getElem hl

theorem base_chars : chars.base = 64 := by decide +kernel

variable {length d d₁ d₂ : ℕ} {pre : String} {r r₁ r₂ : Draws}

theorem length_rest (r : Draws) (length : ℕ) : (r.rest length).length = length - 3 := by
  simp [Draws.rest]

/-- From the 512th day to the 32766th, the day and the drawn digit take three characters. -/
theorem length_numeral_day (hlow : 512 ≤ d) (hhigh : d ≤ 32766) (r : Draws) :
    (chars.numeral (d * 8 + r.low)).length = 3 := by
  have hr := r.low_le
  refine chars.length_numeral (k := 2) ?_ ?_
  · rw [base_chars]
    omega
  · rw [base_chars]
    omega

theorem genId_eq (hlow : 512 ≤ d) (pre : String) (length : ℕ) (r : Draws) :
    genId length pre d r =
      String.ofList (pre.toList ++ (chars.numeral (d * 8 + r.low) ++ r.rest length)) := by
  rw [genId, int2base_eq chars (by omega)]
  apply String.toList_injective
  simp

theorem length_genId (hlow : 512 ≤ d) (hhigh : d ≤ 32766) (hlength : 3 ≤ length) (pre : String)
    (r : Draws) : (genId length pre d r).length = pre.length + length := by
  rw [genId_eq hlow, String.length_ofList, List.length_append, List.length_append,
    length_numeral_day hlow hhigh, length_rest, String.length_toList]
  omega

/-- Texts of the same prefix compare as what follows, and texts of the same length with the text after them by
the first difference. -/
theorem append_lt_append_iff {p a a' b b' : List Char} (h : a.length = a'.length) :
    p ++ (a ++ b) < p ++ (a' ++ b') ↔ a < a' ∨ a = a' ∧ b < b' := by
  induction p with
  | cons c p ih =>
      rw [List.cons_append, List.cons_append, List.cons_lt_cons_iff, ih]
      simp
  | nil =>
      rw [List.nil_append, List.nil_append]
      induction a generalizing a' with
      | nil =>
          rw [List.eq_nil_of_length_eq_zero h.symm]
          simp
      | cons c a ih =>
          cases a' with
          | nil => cases h
          | cons c' a' =>
              rw [List.cons_append, List.cons_append, List.cons_lt_cons_iff, List.cons_lt_cons_iff,
                ih (Nat.succ.inj h), List.cons.injEq]
              tauto

/-- The ids of two days sort by day unless the days follow each other and the drawn digits are the last and
the first; then the characters that follow decide. -/
theorem sorts_iff (length : ℕ) (hlength : 3 ≤ length) (pre : String) (d₁ d₂ : ℕ) (hdays : d₁ < d₂)
    (hlow : 512 ≤ d₁) (hhigh : d₂ ≤ 32766) (r₁ r₂ : Draws) :
    SortsByDay length pre d₁ d₂ r₁ r₂ ↔
      ¬ (d₂ = d₁ + 1 ∧ r₁.low = 8 ∧ r₂.low = 0) ∨ r₁.rest length < r₂.rest length := by
  have hlow₂ : 512 ≤ d₂ := by omega
  have hhigh₁ : d₁ ≤ 32766 := by omega
  have hsame : (chars.numeral (d₁ * 8 + r₁.low)).length = (chars.numeral (d₂ * 8 + r₂.low)).length := by
    rw [length_numeral_day hlow hhigh₁, length_numeral_day hlow₂ hhigh]
  have hless : genId length pre d₁ r₁ < genId length pre d₂ r₂ ↔
      d₁ * 8 + r₁.low < d₂ * 8 + r₂.low ∨
        chars.numeral (d₁ * 8 + r₁.low) = chars.numeral (d₂ * 8 + r₂.low) ∧
          r₁.rest length < r₂.rest length := by
    rw [genId_eq hlow, genId_eq hlow₂, String.lt_iff_toList_lt, String.toList_ofList,
      String.toList_ofList, append_lt_append_iff hsame, chars.numeral_lt_iff hsame]
  unfold SortsByDay
  rw [hless]
  have hr₁ := r₁.low_le
  constructor
  · rintro ⟨-, -, hlt | ⟨-, hrest⟩⟩
    · refine Or.inl fun hend => ?_
      omega
    · exact Or.inr hrest
  · intro h
    refine ⟨length_genId hlow hhigh₁ hlength pre r₁, length_genId hlow₂ hhigh hlength pre r₂, ?_⟩
    by_cases hend : d₂ = d₁ + 1 ∧ r₁.low = 8 ∧ r₂.low = 0
    · have hequal : d₁ * 8 + r₁.low = d₂ * 8 + r₂.low := by omega
      rw [hequal]
      exact Or.inr ⟨rfl, h.resolve_left (not_not.mpr hend)⟩
    · exact Or.inl (by omega)

/-- A digit, and the same character in every place. -/
def sameDraws (low : ℕ) (h : low ≤ 8) : Draws := ⟨low, h, fun _ => 'a', fun _ => by decide +kernel⟩

theorem draws_sort : SortsByDay 8 "x-" 1100 1101 (sameDraws 7 (by decide)) (sameDraws 0 (by decide)) :=
  (sorts_iff 8 (by decide) "x-" 1100 1101 (by decide) (by decide) (by decide) _ _).mpr
    (Or.inl (by decide))

/-- The ninth digit of a day and the first one of the next give the same id. -/
theorem ninth_digit_not_sorted :
    ¬ SortsByDay 8 "x-" 1100 1101 (sameDraws 8 (by decide)) (sameDraws 0 (by decide)) := by
  rintro ⟨-, -, hlt⟩
  have hsame : genId 8 "x-" 1100 (sameDraws 8 (by decide)) = genId 8 "x-" 1101 (sameDraws 0 (by decide)) :=
    rfl
  rw [hsame] at hlt
  exact lt_irrefl _ hlt

end GenId

end Apicrud
