import Mathlib

/-! # Regular expressions

The part of the scripting language's `re` that patterns of this size use: characters, `.`,
bracketed sets with ranges, groups, `|`, the anchors `^` and `$`, a backslash before a
character, and the repetitions `*`, `+`, `?`, `{m}`, `{m,}` and `{m,n}`.

`ends` gives the rests of the subject that a match can leave, so a pattern matches at the start
(`re.match`) when it leaves any (`isMatch`).  `parse` reads a pattern; `none` is `re.error`.

Two laws are what developments on top need: a pattern between anchors that is made of plain
characters matches itself and itself before a final line break (`match_literal`), and one that
ends in `.*` matches every continuation without a line break (`match_prefix`). -/

/-- Patterns. -/
inductive Regex where
  | eps
  | char (c : Char)
  | any
  | set (negated : Bool) (ranges : List (Char × Char))
  | seq (a b : Regex)
  | alt (a b : Regex)
  | star (a : Regex)
  | bol
  | eol
deriving DecidableEq, Repr

namespace Regex

/-! ### Matching -/

/-- One pass of a repetition after another; a pass that consumes nothing is not repeated. -/
def iterate (pass : List Char → List (List Char)) : ℕ → List Char → List (List Char)
  | 0, s => [s]
  | n + 1, s => s :: ((pass s).filter fun r => r.length < s.length).flatMap (iterate pass n)

/-- What a match can leave of the subject `s`, in a text of `whole` characters.  Characters are
compared after `fold`, the identity unless case is ignored. -/
def ends (fold : Char → Char) (whole : ℕ) : Regex → List Char → List (List Char)
  | eps, s => [s]
  | char _, [] => []
  | char c, x :: s => if fold x = fold c then [s] else []
  | any, [] => []
  | any, x :: s => if x = '\n' then [] else [s]
  | set _ _, [] => []
  | set negated ranges, x :: s =>
      if (ranges.any fun r => r.1 ≤ fold x && fold x ≤ r.2) != negated then [s] else []
  | seq a b, s => (ends fold whole a s).flatMap (ends fold whole b)
  | alt a b, s => ends fold whole a s ++ ends fold whole b s
  | star a, s => iterate (ends fold whole a) s.length s
  | bol, s => if s.length = whole then [s] else []
  | eol, s => if s = [] ∨ s = ['\n'] then [s] else []

/-- `n` copies of a pattern. -/
def times (a : Regex) : ℕ → Regex
  | 0 => eps
  | n + 1 => seq a (times a n)

/-- Up to `n` copies of a pattern. -/
def upTo (a : Regex) : ℕ → Regex
  | 0 => eps
  | n + 1 => alt (seq a (upTo a n)) eps

/-! ### Reading a pattern -/

/-- A decimal number. -/
def digits : List Char → List Char × List Char := List.span Char.isDigit

def number (ds : List Char) : ℕ := ds.foldl (fun n d => 10 * n + (d.toNat - '0'.toNat)) 0

/-- The repetition after an atom.  A brace that starts no repetition is left alone. -/
def postfix_ (a : Regex) : List Char → Regex × List Char
  | '*' :: cs => (star a, cs)
  | '+' :: cs => (seq a (star a), cs)
  | '?' :: cs => (alt a eps, cs)
  | '{' :: cs =>
      let (lo, rest) := digits cs
      match lo, rest with
      | _ :: _, '}' :: rest => (times a (number lo), rest)
      | _ :: _, ',' :: rest =>
          let (hi, rest) := digits rest
          match hi, rest with
          | [], '}' :: rest => (seq (times a (number lo)) (star a), rest)
          | _ :: _, '}' :: rest =>
              (seq (times a (number lo)) (upTo a (number hi - number lo)), rest)
          | _, _ => (a, '{' :: cs)
      | _, _ => (a, '{' :: cs)
  | cs => (a, cs)

/-- The ranges of a bracketed set. -/
def ranges : List Char → Option (List (Char × Char) × List Char)
  | [] => none
  | ']' :: cs => some ([], cs)
  | [_] => none
  | a :: '-' :: b :: cs =>
      if b = ']' then some ([(a, a), ('-', '-')], cs)
      else (ranges cs).map fun p => ((a, b) :: p.1, p.2)
  | a :: cs => (ranges cs).map fun p => ((a, a) :: p.1, p.2)

mutual

/-- Alternatives. -/
def parseAlt : ℕ → List Char → Option (Regex × List Char)
  | 0, _ => none
  | n + 1, cs =>
      match parseSeq n cs with
      | none => none
      | some (a, '|' :: rest) => (parseAlt n rest).map fun p => (alt a p.1, p.2)
      | some (a, rest) => some (a, rest)

/-- Atoms with their repetitions, up to the end of the group. -/
def parseSeq : ℕ → List Char → Option (Regex × List Char)
  | 0, _ => none
  | _ + 1, [] => some (eps, [])
  | n + 1, c :: cs =>
      if c = '|' ∨ c = ')' then some (eps, c :: cs)
      else
        match parseAtom n c cs with
        | none => none
        | some (a, rest) =>
            let (a, rest) := postfix_ a rest
            (parseSeq n rest).map fun p => (seq a p.1, p.2)

/-- One atom, its first character given. -/
def parseAtom : ℕ → Char → List Char → Option (Regex × List Char)
  | 0, _, _ => none
  | n + 1, c, cs =>
      match c, cs with
      | '.', cs => some (any, cs)
      | '^', cs => some (bol, cs)
      | '$', cs => some (eol, cs)
      | '\\', d :: cs => some (char d, cs)
      | '\\', [] => none
      | '[', '^' :: cs => (ranges cs).map fun p => (set true p.1, p.2)
      | '[', cs => (ranges cs).map fun p => (set false p.1, p.2)
      | '(', cs =>
          match parseAlt n cs with
          | some (a, ')' :: rest) => some (a, rest)
          | _ => none
      | '*', _ => none
      | '+', _ => none
      | '?', _ => none
      | c, cs => some (char c, cs)

end

/-- Reads a whole pattern; `none` is `re.error`. -/
def parse (pattern : String) : Option Regex :=
  match parseAlt (3 * pattern.toList.length + 3) pattern.toList with
  | some (r, []) => some r
  | _ => none

/-- `re.match(pattern, subject)`, where `fold` is how the flags compare characters;
`none` is `re.error`. -/
def isMatch (fold : Char → Char) (pattern subject : String) : Option Bool :=
  (parse pattern).map fun r =>
    !(ends fold subject.toList.length r subject.toList).isEmpty

/-! ### Literal patterns -/

/-- A character that stands for itself wherever it occurs in a pattern. -/
def Plain (c : Char) : Prop := c ∉ ['.', '^', '$', '*', '+', '?', '{', '[', '\\', '|', '(', ')']

instance (c : Char) : Decidable (Plain c) := inferInstanceAs (Decidable (_ ∉ _))

/-- The characters of `l`, then `k`. -/
def literal (l : List Char) (k : Regex) : Regex := l.foldr (fun c r => seq (char c) r) k

/-- No repetition starts here. -/
def NoPostfix (cs : List Char) : Prop := ∀ a, postfix_ a cs = (a, cs)

theorem noPostfix_cons {c : Char} (h : c ∉ ['*', '+', '?', '{']) (cs : List Char) :
    NoPostfix (c :: cs) := by
  intro a
  simp only [List.mem_cons, List.not_mem_nil, or_false, not_or] at h
  obtain ⟨h1, h2, h3, h4⟩ := h
  unfold postfix_
  split <;> simp_all

theorem noPostfix_of_plain {c : Char} (h : Plain c) (cs : List Char) : NoPostfix (c :: cs) := by
  refine noPostfix_cons ?_ cs
  simp only [Plain, List.mem_cons, List.not_mem_nil, or_false, not_or] at h ⊢
  tauto

theorem parseAtom_plain {c : Char} (h : Plain c) (n : ℕ) (cs : List Char) :
    parseAtom (n + 1) c cs = some (char c, cs) := by
  simp only [Plain, List.mem_cons, List.not_mem_nil, or_false, not_or] at h
  obtain ⟨h1, h2, h3, h4, h5, h6, h7, h8, h9, h10, h11, h12⟩ := h
  rw [parseAtom.eq_def]
  simp only
  split <;> simp_all

theorem parseSeq_plain {c : Char} (h : Plain c) {cs : List Char} (hcs : NoPostfix cs) (n : ℕ) :
    parseSeq (n + 2) (c :: cs) =
      (parseSeq (n + 1) cs).map fun p => (seq (char c) p.1, p.2) := by
  have hc : ¬ (c = '|' ∨ c = ')') := by
    simp only [Plain, List.mem_cons, List.not_mem_nil, or_false, not_or] at h
    tauto
  rw [parseSeq, if_neg hc, parseAtom_plain h]
  simp only [hcs (char c)]

/-- Reading plain characters, the induction being on them. -/
theorem parseSeq_literal {l tail : List Char} {k : Regex} {m : ℕ} (hl : ∀ c ∈ l, Plain c)
    (htail : NoPostfix tail) (hk : parseSeq (m + 1) tail = some (k, [])) :
    parseSeq (l.length + (m + 1)) (l ++ tail) = some (literal l k, []) := by
  induction l with
  | nil => simpa [literal] using hk
  | cons c l ih =>
      have hrest : NoPostfix (l ++ tail) := by
        cases l with
        | nil => exact htail
        | cons d l => exact noPostfix_of_plain (hl d (by simp)) _
      have ih := ih fun d hd => hl d (List.mem_cons_of_mem _ hd)
      have hlen : (c :: l).length + (m + 1) = (l.length + m) + 2 := by
        simp only [List.length_cons]; omega
      have hlen' : l.length + m + 1 = l.length + (m + 1) := by omega
      rw [hlen, List.cons_append, parseSeq_plain (hl c (by simp)) hrest, hlen', ih]
      rfl

/-- A literal leaves what follows characters that compare like its own. -/
theorem mem_ends_literal_fold {fold : Char → Char} {whole : ℕ} {l s r : List Char} {k : Regex} :
    r ∈ ends fold whole (literal l k) s ↔
      ∃ p s', s = p ++ s' ∧ p.map fold = l.map fold ∧ r ∈ ends fold whole k s' := by
  induction l generalizing s with
  | nil => simp [literal]
  | cons c l ih =>
      change r ∈ ends fold whole (seq (char c) (literal l k)) s ↔ _
      cases s with
      | nil => simp [ends]
      | cons x s =>
          by_cases hx : fold x = fold c
          · simp only [ends, if_pos hx, List.flatMap_cons, List.flatMap_nil, List.append_nil, ih]
            constructor
            · rintro ⟨p, s', rfl, hp, hr⟩
              exact ⟨x :: p, s', rfl, by rw [List.map_cons, List.map_cons, hx, hp], hr⟩
            · rintro ⟨p, s', hs, hp, hr⟩
              cases p with
              | nil => cases hp
              | cons y p =>
                  rw [List.cons_append, List.cons.injEq] at hs
                  rw [List.map_cons, List.map_cons, List.cons.injEq] at hp
                  exact ⟨p, s', hs.2, hp.2, hr⟩
          · simp only [ends, if_neg hx, List.flatMap_nil, List.not_mem_nil, false_iff]
            rintro ⟨p, s', hs, hp, -⟩
            cases p with
            | nil => cases hp
            | cons y p =>
                rw [List.cons_append, List.cons.injEq] at hs
                rw [List.map_cons, List.map_cons, List.cons.injEq] at hp
                exact hx (hs.1 ▸ hp.1)

theorem mem_ends_literal {l s r : List Char} {k : Regex} {whole : ℕ} :
    r ∈ ends id whole (literal l k) s ↔ ∃ s', s = l ++ s' ∧ r ∈ ends id whole k s' := by
  rw [mem_ends_literal_fold]
  simp only [List.map_id]
  constructor
  · rintro ⟨p, s', hs, rfl, hr⟩
    exact ⟨s', hs, hr⟩
  · rintro ⟨s', hs, hr⟩
    exact ⟨l, s', hs, rfl, hr⟩

/-- What a literal between anchors reads as. -/
theorem parse_anchored {l tail : List Char} {k : Regex} {m : ℕ} (hl : ∀ c ∈ l, Plain c)
    (htail : NoPostfix tail) (hk : ∀ n, parseSeq (m + n + 1) tail = some (k, []))
    (hm : m ≤ 2 * tail.length) :
    parse (String.ofList ('^' :: (l ++ tail))) = some (seq bol (literal l k)) := by
  obtain ⟨n, hn⟩ : ∃ n, 3 * ('^' :: (l ++ tail)).length + 3 =
      (l.length + (m + n + 1)) + 2 := by
    refine ⟨2 * l.length + 3 * tail.length + 3 - m, ?_⟩
    simp only [List.length_cons, List.length_append]
    omega
  have hrest : NoPostfix (l ++ tail) := by
    cases l with
    | nil => exact htail
    | cons d l => exact noPostfix_of_plain (hl d (by simp)) _
  have hseq := parseSeq_literal hl htail (hk n)
  have hlen : l.length + (m + n + 1) = l.length + m + n + 1 := by omega
  unfold parse
  rw [String.toList_ofList, hn, parseAlt, parseSeq, if_neg (by decide)]
  have hatom : parseAtom (l.length + (m + n + 1)) '^' (l ++ tail) = some (bol, l ++ tail) := by
    rw [hlen, parseAtom]
  rw [hatom]
  simp only [hrest bol, hseq, Option.map_some]

/-- A literal between anchors matches itself, and itself before a final line break. -/
theorem match_literal {l : List Char} (hl : ∀ c ∈ l, Plain c) (s : List Char) :
    isMatch id (String.ofList ('^' :: (l ++ ['$']))) (String.ofList s) =
      some (decide (s = l ∨ s = l ++ ['\n'])) := by
  have htail : NoPostfix ['$'] := noPostfix_cons (by decide) []
  have hk : ∀ n, parseSeq (1 + n + 1) ['$'] = some (seq eol eps, []) := fun n => by
    rw [Nat.add_comm 1 n]; rfl
  have hmem : ∀ r, r ∈ ends id s.length (seq bol (literal l (seq eol eps))) s ↔
      s = l ++ r ∧ (r = [] ∨ r = ['\n']) := by
    intro r
    simp only [ends, if_true, List.flatMap_cons, List.flatMap_nil, List.append_nil,
      mem_ends_literal]
    constructor
    · rintro ⟨s', hs, hr⟩
      by_cases h : s' = [] ∨ s' = ['\n']
      · rw [if_pos h, List.flatMap_singleton, List.mem_singleton] at hr
        exact hr ▸ ⟨hs, h⟩
      · simp [h] at hr
    · rintro ⟨hs, hr⟩
      exact ⟨r, hs, by simp [hr]⟩
  rw [isMatch, parse_anchored hl htail hk (by decide), Option.map_some, String.toList_ofList]
  congr 1
  rw [Bool.eq_iff_iff, decide_eq_true_iff, Bool.not_eq_true', List.isEmpty_eq_false_iff_exists_mem]
  constructor
  · rintro ⟨r, hr⟩
    obtain ⟨hs, rfl | rfl⟩ := (hmem r).mp hr
    · exact Or.inl (by simpa using hs)
    · exact Or.inr hs
  · rintro (h | h)
    · exact ⟨[], (hmem []).mpr ⟨by simpa using h, Or.inl rfl⟩⟩
    · exact ⟨['\n'], (hmem _).mpr ⟨h, Or.inr rfl⟩⟩

/-- What is left after anything is any end of a text without line breaks. -/
theorem mem_ends_star_any {fold : Char → Char} {whole : ℕ} {s r : List Char} (hs : '\n' ∉ s) :
    r ∈ ends fold whole (star any) s ↔ r <:+ s := by
  change r ∈ iterate (ends fold whole any) s.length s ↔ r <:+ s
  induction s with
  | nil => simp [iterate]
  | cons x s ih =>
      simp only [List.mem_cons, not_or] at hs
      rw [List.suffix_cons_iff, List.length_cons, iterate, List.mem_cons, ← ih hs.2]
      simp [ends, Ne.symm hs.1]

/-- A literal and then anything matches every continuation without a line break. -/
theorem match_prefix {l : List Char} (hl : ∀ c ∈ l, Plain c) {s : List Char} (hs : '\n' ∉ s) :
    isMatch id (String.ofList ('^' :: (l ++ ['.', '*', '$']))) (String.ofList (l ++ s)) =
      some true := by
  have htail : NoPostfix ['.', '*', '$'] := noPostfix_cons (by decide) _
  have hk : ∀ n, parseSeq (2 + n + 1) ['.', '*', '$'] =
      some (seq (star any) (seq eol eps), []) := fun n => by
    rw [Nat.add_comm 2 n]; rfl
  rw [isMatch, parse_anchored hl htail hk (by decide), Option.map_some, String.toList_ofList]
  congr 1
  rw [Bool.not_eq_true', List.isEmpty_eq_false_iff_exists_mem]
  refine ⟨[], ?_⟩
  simp only [ends, if_true, List.flatMap_cons, List.flatMap_nil, List.append_nil,
    mem_ends_literal]
  refine ⟨s, rfl, List.mem_flatMap.mpr ⟨[], (mem_ends_star_any hs).mpr (List.nil_suffix), by simp⟩⟩

/-! ### Patterns that ignore case -/

/-- Anything, a literal, one character and a literal at the end, in a text without line breaks. -/
theorem exists_ends_wild {fold : Char → Char} {whole : ℕ} {l l' s : List Char} (hs : '\n' ∉ s) :
    (∃ r, r ∈ ends fold whole (seq (star any) (literal l (seq any (literal l' (seq eol eps))))) s) ↔
      ∃ a p x q, s = a ++ (p ++ x :: q) ∧ p.map fold = l.map fold ∧ q.map fold = l'.map fold := by
  constructor
  · rintro ⟨r, hr⟩
    obtain ⟨s₁, hs₁, hr₁⟩ := List.mem_flatMap.mp hr
    obtain ⟨a, rfl⟩ := (mem_ends_star_any hs).mp hs₁
    obtain ⟨p, s₂, rfl, hp, hr₂⟩ := mem_ends_literal_fold.mp hr₁
    cases s₂ with
    | nil => simp [ends] at hr₂
    | cons x s₃ =>
        have hx : x ≠ '\n' := fun h => hs (by simp [h])
        rw [ends, ends, if_neg hx, List.flatMap_singleton] at hr₂
        obtain ⟨q, s₄, rfl, hq, hr₃⟩ := mem_ends_literal_fold.mp hr₂
        have hend : s₄ = [] ∨ s₄ = ['\n'] := by
          by_contra hne
          simp [ends, hne] at hr₃
        rcases hend with rfl | rfl
        · exact ⟨a, p, x, q, by simp, hp, hq⟩
        · exact absurd (by simp) hs
  · rintro ⟨a, p, x, q, rfl, hp, hq⟩
    have hx : x ≠ '\n' := fun h => hs (by simp [h])
    refine ⟨[], List.mem_flatMap.mpr ⟨p ++ x :: q, (mem_ends_star_any hs).mpr ⟨a, rfl⟩, ?_⟩⟩
    refine mem_ends_literal_fold.mpr ⟨p, x :: q, rfl, hp, ?_⟩
    rw [ends, ends, if_neg hx, List.flatMap_singleton]
    exact mem_ends_literal_fold.mpr ⟨q, [], by simp, hq, by simp [ends]⟩

end Regex
