import Mathlib

/-! # String operations of the scripting language

The few string functions the code leans on, on characters, so that they compute:

* `format` is `str.format` with named fields: doubled braces stand for one brace, `{name}`
  for the value of `name`, and anything else in braces raises (`none`);
* `replace` replaces one character by a string, `split` is `str.split` on one character,
  `splitFirst` is `str.split` with `maxsplit=1`;
* `dropChars` removes characters, `strip` removes white space at both ends, `lastThree` is
  the slice `[-3:]`, `capitalize` upper-cases the first letter and lower-cases the rest.

The laws the developments on top use: a text without braces is its own format
(`format_eq_self`), splitting what was joined gives the parts back (`split_join`), joining what was split
gives the text back (`join_split`), and a number is read as it is written (`int_repr`). -/

namespace Text

/-! ### Format -/

/-- `str.format` on characters.  The first argument is the name read so far inside a field. -/
def formatAux (args : List (String × String)) : Option (List Char) → List Char → Option (List Char)
  | none, [] => some []
  | some _, [] => none
  | none, '{' :: '{' :: cs => (formatAux args none cs).map ('{' :: ·)
  | none, '}' :: '}' :: cs => (formatAux args none cs).map ('}' :: ·)
  | none, '{' :: cs => formatAux args (some []) cs
  | none, '}' :: _ => none
  | none, c :: cs => (formatAux args none cs).map (c :: ·)
  | some acc, '}' :: cs =>
      match args.lookup (String.ofList acc.reverse) with
      | some v => (formatAux args none cs).map (v.toList ++ ·)
      | none => none
  | some acc, c :: cs => formatAux args (some (c :: acc)) cs

/-- `template.format(**args)`; `none` where it raises. -/
def format (args : List (String × String)) (template : String) : Option String :=
  (formatAux args none template.toList).map String.ofList

/-- The text holds no brace. -/
def NoBrace (s : String) : Prop := '{' ∉ s.toList ∧ '}' ∉ s.toList

instance (s : String) : Decidable (NoBrace s) := inferInstanceAs (Decidable (_ ∧ _))

theorem formatAux_cons {c : Char} (args : List (String × String)) (cs : List Char)
    (h1 : c ≠ '{') (h2 : c ≠ '}') :
    formatAux args none (c :: cs) = (formatAux args none cs).map (c :: ·) := by
  rw [formatAux.eq_def]
  split <;> simp_all

/-- Characters other than braces are copied. -/
theorem formatAux_append (args : List (String × String)) (l cs : List Char)
    (h1 : '{' ∉ l) (h2 : '}' ∉ l) :
    formatAux args none (l ++ cs) = (formatAux args none cs).map (l ++ ·) := by
  induction l with
  | nil => simp
  | cons c l ih =>
      simp only [List.mem_cons, not_or] at h1 h2
      rw [List.cons_append, formatAux_cons args _ (Ne.symm h1.1) (Ne.symm h2.1), ih h1.2 h2.2,
        Option.map_map]
      rfl

theorem format_eq_self (args : List (String × String)) {s : String} (h : NoBrace s) :
    format args s = some s := by
  have := formatAux_append args s.toList [] h.1 h.2
  rw [List.append_nil] at this
  simp [format, this, formatAux]

/-- The fields of the text have these names, and its other braces are doubled. -/
def Formats (names : List String) (s : String) : Prop :=
  (format (names.map fun name => (name, "")) s).isSome = true

instance (names : List String) (s : String) : Decidable (Formats names s) :=
  inferInstanceAs (Decidable (_ = true))

theorem lookup_isSome_congr {args args' : List (String × String)}
    (h : args.map Prod.fst = args'.map Prod.fst) (name : String) :
    (args.lookup name).isSome = (args'.lookup name).isSome := by
  induction args generalizing args' with
  | nil =>
      rw [List.map_nil, eq_comm, List.map_eq_nil_iff] at h
      rw [h]
  | cons a args ih =>
      cases args' with
      | nil => cases h
      | cons a' args' =>
          rw [List.map_cons, List.map_cons, List.cons.injEq] at h
          obtain ⟨k, v⟩ := a
          obtain ⟨k', v'⟩ := a'
          obtain ⟨hkey, hrest⟩ := h
          simp only at hkey
          subst hkey
          rw [List.lookup_cons, List.lookup_cons]
          cases name == k
          · exact ih hrest
          · rfl

/-- Whether a text formats depends on the names of the fields only. -/
theorem formatAux_isSome_congr {args args' : List (String × String)}
    (h : args.map Prod.fst = args'.map Prod.fst) (acc : Option (List Char)) (cs : List Char) :
    (formatAux args acc cs).isSome = (formatAux args' acc cs).isSome := by
  induction acc, cs using formatAux.induct args with
  | case1 | case2 => rfl
  | case3 cs ih | case4 cs ih =>
      rw [formatAux, formatAux, Option.isSome_map, Option.isSome_map, ih]
  | case5 cs hne ih =>
      rw [formatAux, formatAux, ih]
      all_goals exact hne
  | case6 cs hne =>
      rw [formatAux, formatAux]
      all_goals exact hne
  | case7 c cs _ _ h1 h2 ih =>
      rw [formatAux_cons _ _ h1 h2, formatAux_cons _ _ h1 h2, Option.isSome_map,
        Option.isSome_map, ih]
  | case8 acc cs v hfound ih =>
      have hname := lookup_isSome_congr h (String.ofList acc.reverse)
      rw [hfound, Option.isSome_some, eq_comm, Option.isSome_iff_exists] at hname
      obtain ⟨v', hfound'⟩ := hname
      rw [formatAux, formatAux, hfound, hfound']
      simp only [Option.isSome_map, ih]
  | case9 acc cs hfound =>
      have hname := lookup_isSome_congr h (String.ofList acc.reverse)
      rw [hfound, Option.isSome_none, eq_comm, Option.isSome_eq_false_iff,
        Option.isNone_iff_eq_none] at hname
      rw [formatAux, formatAux, hfound, hname]
  | case10 acc c cs hc ih =>
      rw [formatAux, formatAux, ih]
      all_goals exact hc

theorem format_of_formats {args : List (String × String)} {s : String}
    (h : Formats (args.map Prod.fst) s) : ∃ t, format args s = some t := by
  have hnames : args.map Prod.fst =
      ((args.map Prod.fst).map fun name => (name, "")).map Prod.fst := by simp
  have hsome := formatAux_isSome_congr hnames none s.toList
  rw [← Option.isSome_iff_exists, format, Option.isSome_map, hsome]
  rw [Formats, format, Option.isSome_map] at h
  exact h

/-! ### Joining and splitting -/

/-- `s.replace(c, by)` for one character. -/
def replace (s : String) (c : Char) (by_ : String) : String :=
  String.ofList (s.toList.flatMap fun x => if x = c then by_.toList else [x])

/-- `s.split(c)`. -/
def split (s : String) (c : Char) : List String := (s.toList.splitOn c).map String.ofList

/-- `c.join(parts)`. -/
def join (parts : List String) (c : Char) : String :=
  String.ofList ([c].intercalate (parts.map String.toList))

/-- `s.split(c, maxsplit=1)` in two parts; `none` when the character does not occur. -/
def splitFirst (s : String) (c : Char) : Option (String × String) :=
  match s.toList.dropWhile (· != c) with
  | [] => none
  | _ :: rest => some (String.ofList (s.toList.takeWhile (· != c)), String.ofList rest)

/-- The first separator is the one behind a part that holds none. -/
theorem splitFirst_append {a b : String} {c : Char} (h : c ∉ a.toList) :
    splitFirst (a ++ String.ofList [c] ++ b) c = some (a, b) := by
  have hall : ∀ x ∈ a.toList, (x != c) = true := by
    intro x hx
    exact bne_iff_ne.mpr fun heq => h (heq ▸ hx)
  have hlist : (a ++ String.ofList [c] ++ b).toList = a.toList ++ c :: b.toList := by simp
  unfold splitFirst
  rw [hlist, List.dropWhile_append_of_pos hall, List.takeWhile_append_of_pos hall]
  simp

/-- Splitting what was joined gives the parts back, when none holds the separator. -/
theorem split_join {parts : List String} {c : Char} (hne : parts ≠ [])
    (h : ∀ s ∈ parts, c ∉ s.toList) : split (join parts c) c = parts := by
  have hsplit : ([c].intercalate (parts.map String.toList)).splitOn c = parts.map String.toList :=
    List.splitOn_intercalate c (by simpa using h) (by simpa using hne)
  rw [split, join, String.toList_ofList, hsplit, List.map_map]
  simp [Function.comp_def]

/-- Joining what was split gives the text back. -/
theorem join_split (s : String) (c : Char) : join (split s c) c = s := by
  rw [join, split, List.map_map]
  simp [Function.comp_def]

/-- The text between a part without separators and another is split by itself. -/
theorem split_between {a b : List Char} {c : Char} (s : String) (ha : c ∉ a) (hb : c ∉ b) :
    split (String.ofList (a ++ c :: (s.toList ++ c :: b))) c =
      String.ofList a :: (split s c ++ [String.ofList b]) := by
  rw [split, String.toList_ofList, List.splitOn_append_cons_self_of_not_mem ha,
    List.splitOn_append_cons_self, List.splitOn_eq_singleton hb]
  simp [split]

/-- There is one part more than separators. -/
theorem length_split (s : String) (c : Char) : (split s c).length = s.toList.count c + 1 := by
  rw [split, List.length_map]
  induction s.toList with
  | nil => rfl
  | cons x xs ih =>
      rw [List.splitOn_cons_eq_if_modifyHead, List.count_cons]
      split_ifs with hx
      · rw [List.length_cons, ih]
      · rw [List.length_modifyHead, ih]

/-- A text with one separator has two parts. -/
theorem split_append {u d : List Char} {c : Char} (hu : c ∉ u) (hd : c ∉ d) :
    split (String.ofList (u ++ c :: d)) c = [String.ofList u, String.ofList d] := by
  have hjoin : join [String.ofList u, String.ofList d] c = String.ofList (u ++ c :: d) := by
    simp [join]
  rw [← hjoin]
  refine split_join (by simp) fun s hs => ?_
  rcases List.mem_cons.mp hs with rfl | hs
  · rwa [String.toList_ofList]
  · rw [List.mem_singleton.mp hs]
    rwa [String.toList_ofList]

/-- The first part of a text is what stands before the first separator. -/
theorem splitOn_head? (l : List Char) (c : Char) :
    (l.splitOn c).head? = some (l.takeWhile (· ≠ c)) := by
  induction l with
  | nil => rfl
  | cons x l ih =>
      rw [List.splitOn_cons_eq_if_modifyHead]
      by_cases hx : x = c
      · simp [hx]
      · rw [if_neg (by simpa using hx), List.head?_modifyHead, ih, List.takeWhile_cons_of_pos (by simpa using hx)]
        rfl

theorem split_headD (l : List Char) (c : Char) :
    (split (String.ofList l) c).headD "" = String.ofList (l.takeWhile (· ≠ c)) := by
  rw [split, String.toList_ofList, List.headD_eq_head?_getD, List.head?_map, splitOn_head?]
  rfl

theorem replace_empty (l : List Char) (c : Char) :
    replace (String.ofList l) c "" = String.ofList (l.filter (· ≠ c)) := by
  unfold replace
  rw [String.toList_ofList (l := l)]
  refine congrArg String.ofList ?_
  induction l with
  | nil => rfl
  | cons x l ih =>
      rw [List.flatMap_cons, ih]
      by_cases hx : x = c
      · simp [hx]
      · simp [hx]

/-! ### Characters -/

/-- The text without the given characters. -/
def dropChars (s : String) (cs : List Char) : String :=
  String.ofList (s.toList.filter fun c => !cs.contains c)

/-- `s.strip()`. -/
def strip (s : String) : String :=
  String.ofList ((s.toList.dropWhile Char.isWhitespace).reverse.dropWhile Char.isWhitespace).reverse

/-- The number that groups of digits make, with an underscore between two of them. -/
def digits (cs : List Char) : Option ℕ :=
  if (cs.splitOn '_').all fun group => !group.isEmpty && group.all Char.isDigit then
    some ((cs.filter Char.isDigit).foldl (fun n c => 10 * n + (c.toNat - 48)) 0)
  else none

/-- `int(s)`; `none` where it raises `ValueError`. -/
def int (s : String) : Option ℤ :=
  match (strip s).toList with
  | '-' :: cs => (digits cs).map fun n => -(n : ℤ)
  | '+' :: cs => (digits cs).map fun n => (n : ℤ)
  | cs => (digits cs).map fun n => (n : ℤ)

/-- Without white space there is nothing to strip. -/
theorem strip_eq_self {cs : List Char} (h : ∀ c ∈ cs, c.isWhitespace = false) :
    strip (String.ofList cs) = String.ofList cs := by
  have hdrop : ∀ l : List Char, (∀ c ∈ l, c.isWhitespace = false) → l.dropWhile Char.isWhitespace = l := by
    intro l hl
    cases l with
    | nil => rfl
    | cons c l => rw [List.dropWhile_cons_of_neg (by simp [hl c List.mem_cons_self])]
  rw [strip, String.toList_ofList, hdrop cs h,
    hdrop cs.reverse (fun c hc => h c (List.mem_reverse.mp hc)), List.reverse_reverse]

/-- Decimal digits are read as their number. -/
theorem int_of_digits {cs : List Char} (hne : cs ≠ []) (h : ∀ c ∈ cs, c.isDigit = true) :
    int (String.ofList cs) = some (Nat.ofDigitChars 10 cs 0 : ℤ) := by
  have hne_of : ∀ c ∈ cs, ∀ x : Char, x.isDigit = false → c ≠ x := by
    rintro c hc x hx rfl
    rw [h c hc] at hx
    cases hx
  have hspace : ∀ c ∈ cs, c.isWhitespace = false := by
    intro c hc
    simp [Char.isWhitespace, hne_of c hc]
  have hgroup : cs.splitOn '_' = [cs] := by
    have hsplit : (['_'].intercalate [cs]).splitOn '_' = [cs] :=
      List.splitOn_intercalate '_' (by simpa using fun hc => hne_of '_' hc '_' (by decide) rfl) (by simp)
    have hjoin : ['_'].intercalate [cs] = cs := by simp
    rwa [hjoin] at hsplit
  have hdigits : digits cs = some (Nat.ofDigitChars 10 cs 0) := by
    have hall : ([cs].all fun group => !group.isEmpty && group.all Char.isDigit) = true := by
      simpa [hne] using h
    rw [digits, hgroup, if_pos hall, List.filter_eq_self.mpr h]
    rfl
  unfold int
  rw [strip_eq_self hspace, String.toList_ofList]
  split
  · exact absurd rfl (hne_of '-' List.mem_cons_self '-' (by decide))
  · exact absurd rfl (hne_of '+' List.mem_cons_self '+' (by decide))
  · rw [hdigits]
    rfl

theorem int_repr (n : ℕ) : int (Nat.repr n) = some (n : ℤ) := by
  have hdigit : ∀ c ∈ Nat.toDigits 10 n, c.isDigit = true :=
    fun c hc => Nat.isDigit_of_mem_toDigits (by decide) (by decide) hc
  have hrepr : Nat.repr n = String.ofList (Nat.toDigits 10 n) := by
    rw [← Nat.toList_repr, String.ofList_toList]
  rw [hrepr, int_of_digits (by simp) hdigit, Nat.ofDigitChars_toDigits (by decide) (by decide)]

/-- `s[-3:]`. -/
def lastThree (s : String) : String := String.ofList (s.toList.drop (s.toList.length - 3))

/-- `s[:8]`. -/
def firstEight (s : String) : String := String.ofList (s.toList.take 8)

/-- `s.capitalize()`. -/
def capitalize (s : String) : String :=
  match s.toList with
  | [] => ""
  | c :: cs => String.ofList (c.toUpper :: cs.map Char.toLower)

/-- `part in s`. -/
def Contains (s part : String) : Prop := part.toList <:+: s.toList

instance (s part : String) : Decidable (Contains s part) :=
  inferInstanceAs (Decidable (part.toList <:+: s.toList))

end Text
