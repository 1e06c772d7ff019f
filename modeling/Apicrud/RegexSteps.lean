import Apicrud.Regex

/-! # One construct of a pattern after another

What a match leaves is told by one law for each construct: a pattern that was read into constructs is taken
apart with them (`mem_ends_seq`, `mem_ends_alt`, `mem_ends_char`, `mem_ends_set`, `mem_ends_eol`).  A bracketed
set that is repeated takes so many characters of the set (`mem_ends_times_set`). -/

namespace Regex

variable {fold : Char → Char} {whole : ℕ} {s r : List Char}

/-- The character is in one of the ranges. -/
def InRanges (ranges : List (Char × Char)) (c : Char) : Prop := ∃ r ∈ ranges, r.1 ≤ c ∧ c ≤ r.2

instance (ranges : List (Char × Char)) (c : Char) : Decidable (InRanges ranges c) :=
  inferInstanceAs (Decidable (∃ r ∈ ranges, _))

@[simp] theorem mem_ends_eps : r ∈ ends fold whole eps s ↔ r = s := by
  rw [ends, List.mem_singleton]

@[simp] theorem mem_ends_seq {a b : Regex} : r ∈ ends fold whole (seq a b) s ↔
    ∃ s', s' ∈ ends fold whole a s ∧ r ∈ ends fold whole b s' := by
  rw [ends, List.mem_flatMap]

@[simp] theorem mem_ends_alt {a b : Regex} : r ∈ ends fold whole (alt a b) s ↔
    r ∈ ends fold whole a s ∨ r ∈ ends fold whole b s := by
  rw [ends, List.mem_append]

@[simp] theorem mem_ends_char {c : Char} :
    r ∈ ends fold whole (char c) s ↔ ∃ x, fold x = fold c ∧ s = x :: r := by
  cases s with
  | nil => simp [ends]
  | cons x s =>
      rw [ends]
      by_cases hx : fold x = fold c
      · rw [if_pos hx, List.mem_singleton]
        constructor
        · rintro rfl
          exact ⟨x, hx, rfl⟩
        · rintro ⟨y, -, hy⟩
          exact (List.cons.inj hy).2.symm
      · rw [if_neg hx]
        constructor
        · intro h
          cases h
        · rintro ⟨y, hy, heq⟩
          cases heq
          exact absurd hy hx

@[simp] theorem mem_ends_any : r ∈ ends fold whole any s ↔ ∃ x, x ≠ '\n' ∧ s = x :: r := by
  cases s with
  | nil => simp [ends]
  | cons x s =>
      rw [ends]
      by_cases hx : x = '\n'
      · rw [if_pos hx]
        constructor
        · intro h
          cases h
        · rintro ⟨y, hy, heq⟩
          cases heq
          exact absurd hx hy
      · rw [if_neg hx, List.mem_singleton]
        constructor
        · rintro rfl
          exact ⟨x, hx, rfl⟩
        · rintro ⟨y, -, hy⟩
          exact (List.cons.inj hy).2.symm

@[simp] theorem mem_ends_set {ranges : List (Char × Char)} : r ∈ ends fold whole (set false ranges) s ↔
    ∃ x, InRanges ranges (fold x) ∧ s = x :: r := by
  cases s with
  | nil => simp [ends]
  | cons x s =>
      have hiff : ((ranges.any fun r => decide (r.1 ≤ fold x) && decide (fold x ≤ r.2)) != false) = true ↔
          InRanges ranges (fold x) := by
        simp [InRanges]
      rw [ends]
      by_cases hx : InRanges ranges (fold x)
      · rw [if_pos (hiff.mpr hx), List.mem_singleton]
        constructor
        · rintro rfl
          exact ⟨x, hx, rfl⟩
        · rintro ⟨y, -, hy⟩
          exact (List.cons.inj hy).2.symm
      · rw [if_neg (mt hiff.mp hx)]
        constructor
        · intro h
          cases h
        · rintro ⟨y, hy, heq⟩
          cases heq
          exact absurd hy hx

@[simp] theorem mem_ends_bol : r ∈ ends fold whole bol s ↔ r = s ∧ s.length = whole := by
  rw [ends]
  by_cases h : s.length = whole
  · simp [h]
  · simp [h]

@[simp] theorem mem_ends_eol : r ∈ ends fold whole eol s ↔ r = s ∧ (s = [] ∨ s = ['\n']) := by
  rw [ends]
  by_cases h : s = [] ∨ s = ['\n']
  · simp [h]
  · simp [h]

/-- A repeated set takes so many characters of it. -/
theorem mem_ends_times_set {ranges : List (Char × Char)} {n : ℕ} :
    r ∈ ends fold whole (times (set false ranges) n) s ↔
      ∃ p, p.length = n ∧ (∀ c ∈ p, InRanges ranges (fold c)) ∧ s = p ++ r := by
  induction n generalizing s with
  | zero =>
      rw [times, mem_ends_eps]
      constructor
      · rintro rfl
        exact ⟨[], rfl, by simp, rfl⟩
      · rintro ⟨p, hp, -, rfl⟩
        rw [List.length_eq_zero_iff.mp hp]
        rfl
  | succ n ih =>
      rw [times, mem_ends_seq]
      constructor
      · rintro ⟨s', hs', hr⟩
        obtain ⟨x, hx, rfl⟩ := mem_ends_set.mp hs'
        obtain ⟨p, hp, hall, rfl⟩ := ih.mp hr
        exact ⟨x :: p, congrArg (· + 1) hp, List.forall_mem_cons.mpr ⟨hx, hall⟩, rfl⟩
      · rintro ⟨p, hp, hall, rfl⟩
        obtain ⟨x, q, rfl⟩ := List.exists_cons_of_length_eq_add_one hp
        obtain ⟨hx, hq⟩ := List.forall_mem_cons.mp hall
        exact ⟨q ++ r, mem_ends_set.mpr ⟨x, hx, rfl⟩,
          ih.mpr ⟨q, Nat.succ.inj hp, hq, rfl⟩⟩

/-- The result of a match, once the pattern is read. -/
theorem isMatch_eq_true {pattern subject : String} {a : Regex} (h : parse pattern = some a) :
    isMatch fold pattern subject = some true ↔
      ∃ r, r ∈ ends fold subject.toList.length a subject.toList := by
  rw [isMatch, h, Option.map_some, Option.some.injEq, Bool.not_eq_true',
    List.isEmpty_eq_false_iff_exists_mem]

/-- A pattern that was read gives a result. -/
theorem isMatch_eq_some {pattern : String} {a : Regex} (h : parse pattern = some a) (subject : String) :
    ∃ b, isMatch fold pattern subject = some b := by
  rw [isMatch, h]
  exact ⟨_, rfl⟩

/-! ### Patterns without anchors -/

/-- What plain characters at the start read as. -/
theorem parse_literal {l tail : List Char} {k : Regex} {m : ℕ} (hl : ∀ c ∈ l, Plain c)
    (htail : NoPostfix tail) (hk : ∀ n, parseSeq (m + n + 1) tail = some (k, []))
    (hm : m ≤ 2 * tail.length) : parse (String.ofList (l ++ tail)) = some (literal l k) := by
  obtain ⟨n, hn⟩ : ∃ n, 3 * (l ++ tail).length + 3 = l.length + (m + n + 1) + 1 := by
    refine ⟨2 * l.length + 3 * tail.length + 1 - m, ?_⟩
    rw [List.length_append]
    omega
  unfold parse
  rw [String.toList_ofList, hn, parseAlt, parseSeq_literal hl htail (hk n)]

/-- Plain characters match the start of a text. -/
theorem match_start {l : List Char} (hl : ∀ c ∈ l, Plain c) (s : List Char) :
    isMatch id (String.ofList l) (String.ofList (l ++ s)) = some true := by
  have hparse := @parse_literal l [] eps 0 hl (fun _ => rfl) (fun _ => by rw [parseSeq])
    (Nat.zero_le _)
  rw [List.append_nil] at hparse
  rw [isMatch_eq_true hparse]
  refine ⟨s, mem_ends_literal.mpr ⟨s, String.toList_ofList, ?_⟩⟩
  exact mem_ends_eps.mpr rfl

end Regex
