import Apicrud.Base64Url
import Apicrud.RegexSteps

/-! # Names of uploads

`get_upload_url` shortens the name of a file that is a UUID of version 4 and `.jpeg`: the bytes of the UUID
are written in Base64.  Which names these are is told by a regular expression on the lower-cased name, and
the UUID is what `strip` leaves of the name.

The expression is not anchored at the end and its dot stands for any character, and `strip` also takes off a
digit `e` of the UUID.  So the renaming does what it should just for the names that the expression does
not match and for those that are a UUID and `.jpeg`, with another digit than `e` at both ends:
`rename_iff`. -/

namespace Apicrud

/-! ### The UUID of a text -/

/-- A hexadecimal digit. -/
def IsHex (c : Char) : Prop :=
  ('0' ≤ c ∧ c ≤ '9') ∨ ('a' ≤ c ∧ c ≤ 'f') ∨ ('A' ≤ c ∧ c ≤ 'F')

instance (c : Char) : Decidable (IsHex c) := inferInstanceAs (Decidable (_ ∨ _))

/-- The value of a hexadecimal digit. -/
def hexDigit (c : Char) : ℕ :=
  if c ≤ '9' then c.toNat - 48 else if c ≤ 'F' then c.toNat - 55 else c.toNat - 87

/-- The value of hexadecimal digits. -/
def hexValue (cs : List Char) : ℕ := cs.foldl (fun n c => 16 * n + hexDigit c) 0

/-- What a character becomes in `str.lower`: an ASCII character its own small letter, and of the others only
a letter i with a dot and the sign for kelvin become ASCII characters, `i` and `k`. -/
def Lowers (c : Char) (p : List Char) : Prop :=
  if c.toNat < 128 then p = [c.toLower] else p ≠ [] ∧ ∀ x ∈ p, x.toNat < 128 → x = 'i' ∨ x = 'k'

/-- Functions of the standard library. -/
structure UnicodeLib where
  /-- `str.lower` -/
  lower : String → String
  lower_spec : ∀ s, ∃ ps, List.Forall₂ Lowers s.toList ps ∧ (lower s).toList = ps.flatten
  /-- `int(text, 16)`; `none` where it raises -/
  int16 : List Char → Option ℕ
  int16_spec : ∀ cs, cs ≠ [] → (∀ c ∈ cs, IsHex c) → int16 cs = some (hexValue cs)

/-- `text.replace(sub, '')`, with what is left to skip of an occurrence. -/
def removeFrom (sub : List Char) : ℕ → List Char → List Char
  | _, [] => []
  | skip + 1, _ :: cs => removeFrom sub skip cs
  | 0, c :: cs =>
      if sub.isPrefixOf (c :: cs) then removeFrom sub (sub.length - 1) cs else c :: removeFrom sub 0 cs

/-- `text.strip(chars)` -/
def stripChars (chars text : List Char) : List Char :=
  (text.rdropWhile fun c => decide (c ∈ chars)).dropWhile fun c => decide (c ∈ chars)

/-- `uuid.UUID(text).int`; `none` where it raises. -/
def uuid (lib : UnicodeLib) (text : List Char) : Option ℕ :=
  let hex := removeFrom ['u', 'u', 'i', 'd', ':'] 0 (removeFrom ['u', 'r', 'n', ':'] 0 text)
  let hex := (stripChars ['\x7b', '\x7d'] hex).filter (· ≠ '-')
  if hex.length ≠ 32 then none else (lib.int16 hex).filter (· < 2 ^ 128)

/-- The renaming of `StorageAPI.get_upload_url`; `none` where it raises. -/
def rename (lib : UnicodeLib) (name : String) : Option String :=
  match Regex.isMatch id "^[a-f0-9]{8}-?[a-f0-9]{4}-?4[a-f0-9]{3}-?[89ab][a-f0-9]{3}-?[a-f0-9]{12}.jpeg"
      (lib.lower name) with
  | none => none
  | some false => some name
  | some true => (uuid lib (stripChars ['.', 'j', 'p', 'e', 'g'] name.toList)).map fun v =>
      String.ofList (Base64.unpadded (Base64.toBytes 16 v)) ++ ".jpeg"

/-! ### What should be renamed -/

/-- The text of a UUID of version 4, with or without each of its hyphens. -/
structure UuidText where
  a : List Char
  b : List Char
  c : List Char
  variant : Char
  d : List Char
  e : List Char
  hyphens : Fin 4 → Bool
  lengths : a.length = 8 ∧ b.length = 4 ∧ c.length = 3 ∧ d.length = 3 ∧ e.length = 12
  hex : ∀ x ∈ a ++ b ++ c ++ d ++ e, IsHex x
  variant_mem : variant ∈ ['8', '9', 'a', 'b', 'A', 'B']

namespace UuidText

/-- A hyphen, or none. -/
def hyphen (u : UuidText) (i : Fin 4) : List Char := if u.hyphens i then ['-'] else []

/-- The characters. -/
def text (u : UuidText) : List Char :=
  u.a ++ (u.hyphen 0 ++ (u.b ++ (u.hyphen 1 ++ ('4' :: (u.c ++ (u.hyphen 2 ++ (u.variant ::
    (u.d ++ (u.hyphen 3 ++ u.e)))))))))

/-- The thirty-two digits. -/
def digits (u : UuidText) : List Char := u.a ++ (u.b ++ ('4' :: (u.c ++ (u.variant :: (u.d ++ u.e)))))

end UuidText

/-- The name is that of a UUID. -/
def IsUuidName (name : String) (u : UuidText) : Prop := name.toList = u.text ++ ['.', 'j', 'p', 'e', 'g']

/-- The renaming gives a result; the name of a UUID gets one that ends in `.jpeg` and from whose first part
the UUID is read back, and any other name is left as it is. -/
def RenamedWell (lib : UnicodeLib) (name : String) : Prop :=
  ∃ result, rename lib name = some result ∧
    (∀ u, IsUuidName name u → ∃ first, result = String.ofList first ++ ".jpeg" ∧
      (Base64.urlsafeDecode (first ++ ['=', '='])).map Base64.ofBytes = some (hexValue u.digits)) ∧
    ((∀ u, ¬ IsUuidName name u) → result = name)

/-! ### Characters -/

theorem IsHex.ascii {c : Char} (h : IsHex c) : c.toNat < 128 := by
  simp only [IsHex, Char.le_def, UInt32.le_iff_toNat_le, Char.toNat_val, Char.reduceToNat] at h
  omega

/-- What holds of the hexadecimal digits can be checked one by one. -/
theorem IsHex.forall (P : Char → Prop) (hall : ∀ n : Fin 128, IsHex (Char.ofNat n) → P (Char.ofNat n))
    {c : Char} (h : IsHex c) : P c := by
  have hchar := hall ⟨c.toNat, h.ascii⟩
  rw [Char.ofNat_toNat] at hchar
  exact hchar h

theorem IsHex.lower {c : Char} (h : IsHex c) : Regex.InRanges [('a', 'f'), ('0', '9')] c.toLower :=
  IsHex.forall (fun c => Regex.InRanges [('a', 'f'), ('0', '9')] c.toLower) (by decide +kernel) h

/-- A hexadecimal digit is no hyphen, colon or brace, and of the characters of `.jpeg` only an `e`. -/
theorem IsHex.ne {c : Char} (h : IsHex c) : c ≠ '-' ∧ c ≠ ':' ∧ c ∉ ['\x7b', '\x7d'] ∧
    (c ∈ ['.', 'j', 'p', 'e', 'g'] → c = 'e') :=
  IsHex.forall (fun c => c ≠ '-' ∧ c ≠ ':' ∧ c ∉ ['\x7b', '\x7d'] ∧
    (c ∈ ['.', 'j', 'p', 'e', 'g'] → c = 'e')) (by decide +kernel) h

theorem IsHex.digit_lt {c : Char} (h : IsHex c) : hexDigit c < 16 :=
  IsHex.forall (fun c => hexDigit c < 16) (by decide +kernel) h

theorem hexValue_lt {cs : List Char} (h : ∀ c ∈ cs, IsHex c) : hexValue cs < 16 ^ cs.length := by
  induction cs using List.reverseRecOn with
  | nil => decide
  | append_singleton cs c ih =>
      have hprefix := ih fun x hx => h x (List.mem_append_left _ hx)
      have hdigit := (h c (List.mem_append_right _ List.mem_cons_self)).digit_lt
      rw [hexValue] at hprefix
      rw [hexValue, List.foldl_append, List.length_append, List.length_singleton, pow_succ,
        List.foldl_cons, List.foldl_nil]
      omega

/-- The small letters of an ASCII text. -/
theorem lower_ascii (lib : UnicodeLib) {s : String} (h : ∀ c ∈ s.toList, c.toNat < 128) :
    (lib.lower s).toList = s.toList.map Char.toLower := by
  obtain ⟨ps, hps, hlower⟩ := lib.lower_spec s
  rw [hlower]
  clear hlower
  generalize s.toList = cs at h hps ⊢
  induction hps with
  | nil => rfl
  | cons hc hps ih =>
      obtain ⟨hfirst, hrest⟩ := List.forall_mem_cons.mp h
      rw [Lowers, if_pos hfirst] at hc
      rw [hc, List.flatten_cons, ih hrest]
      rfl

/-- ASCII characters other than `i` and `k` at the start of a lower-cased text each come from a character
of their own. -/
theorem length_le_of_lowers {cs : List Char} {ps : List (List Char)} (hps : List.Forall₂ Lowers cs ps)
    {q r : List Char} (h : ps.flatten = q ++ r)
    (hq : ∀ x ∈ q, x.toNat < 128 ∧ x ≠ 'i' ∧ x ≠ 'k') : q.length ≤ cs.length := by
  induction hps generalizing q with
  | nil =>
      rw [List.flatten_nil] at h
      rw [(List.append_eq_nil_iff.mp h.symm).1]
  | cons hc hps ih =>
      rename_i c p cs ps
      cases q with
      | nil => exact Nat.zero_le _
      | cons x q =>
          obtain ⟨hx, hrest⟩ := List.forall_mem_cons.mp hq
          rw [Lowers] at hc
          split_ifs at hc with hascii
          · rw [hc, List.flatten_cons, List.cons_append, List.nil_append, List.cons_append] at h
            exact Nat.succ_le_succ (ih (List.cons.inj h).2 hrest)
          · obtain ⟨y, p, rfl⟩ := List.exists_cons_of_ne_nil hc.1
            rw [List.flatten_cons, List.cons_append, List.cons_append] at h
            have hik := hc.2 y List.mem_cons_self
            rw [(List.cons.inj h).1] at hik
            exact absurd (hik hx.1) (not_or.mpr hx.2)

/-! ### What `strip` and `uuid.UUID` make of a text -/

theorem removeFrom_eq_self {sub text : List Char} {c : Char} (hc : c ∈ sub) (h : c ∉ text) :
    removeFrom sub 0 text = text := by
  induction text with
  | nil => rfl
  | cons x text ih =>
      have hprefix : sub.isPrefixOf (x :: text) ≠ true := fun hsub =>
        h ((List.isPrefixOf_iff_prefix.mp hsub).subset hc)
      rw [removeFrom, if_neg hprefix, ih fun hmem => h (List.mem_cons_of_mem x hmem)]

/-- Nothing is stripped from a text that has other characters at both ends. -/
theorem stripChars_eq_self {chars text : List Char} (hfirst : ∀ c ∈ text.head?, c ∉ chars)
    (hlast : ∀ c ∈ text.getLast?, c ∉ chars) : stripChars chars text = text := by
  have hright : (text.rdropWhile fun c => decide (c ∈ chars)) = text := by
    rw [List.rdropWhile_eq_self_iff]
    intro hl
    simpa using hlast _ (List.getLast?_eq_some_getLast hl)
  rw [stripChars, hright, List.dropWhile_eq_self_iff]
  intro hl
  simpa using hfirst text[0] (List.head?_eq_getElem? ▸ List.getElem?_eq_getElem hl)

/-- Characters at the end are stripped all together. -/
theorem stripChars_append {chars text tail : List Char} (h : ∀ c ∈ tail, c ∈ chars) :
    stripChars chars (text ++ tail) = stripChars chars text := by
  have hright : ((text ++ tail).rdropWhile fun c => decide (c ∈ chars)) =
      text.rdropWhile fun c => decide (c ∈ chars) := by
    rw [List.rdropWhile, List.reverse_append, List.dropWhile_append_of_pos
      (fun c hc => decide_eq_true (h c (List.mem_reverse.mp hc)))]
    rfl
  rw [stripChars, hright, stripChars]

theorem stripChars_sublist (chars text : List Char) : (stripChars chars text).Sublist text :=
  (List.dropWhile_sublist _).trans (List.rdropWhile_prefix _ _).sublist

/-- A text without colons and braces is a UUID if it has thirty-two digits. -/
theorem uuid_eq (lib : UnicodeLib) {text : List Char} (h : ∀ c ∈ text, IsHex c ∨ c = '-') :
    uuid lib text = if (text.filter (· ≠ '-')).length = 32 then some (hexValue (text.filter (· ≠ '-')))
      else none := by
  have hcolon : ':' ∉ text := by
    intro hc
    rcases h _ hc with hhex | heq
    · exact hhex.ne.2.1 rfl
    · cases heq
  have hbrace : ∀ c ∈ text, c ∉ ['\x7b', '\x7d'] := by
    intro c hc
    rcases h c hc with hhex | rfl
    · exact hhex.ne.2.2.1
    · decide
  have hstrip : stripChars ['\x7b', '\x7d'] text = text :=
    stripChars_eq_self (fun c hc => hbrace c (List.mem_of_mem_head? hc))
      fun c hc => hbrace c (List.mem_of_getLast? hc)
  have hhex : ∀ c ∈ text.filter (· ≠ '-'), IsHex c := by
    intro c hc
    obtain ⟨hmem, hne⟩ := List.mem_filter.mp hc
    exact (h c hmem).resolve_right (of_decide_eq_true hne)
  rw [uuid, removeFrom_eq_self (by decide : ':' ∈ ['u', 'r', 'n', ':']) hcolon,
    removeFrom_eq_self (by decide : ':' ∈ ['u', 'u', 'i', 'd', ':']) hcolon]
  simp only [hstrip]
  by_cases hlength : (text.filter (· ≠ '-')).length = 32
  · have hne : text.filter (· ≠ '-') ≠ [] := List.ne_nil_of_length_eq_add_one hlength
    have hlt : hexValue (text.filter (· ≠ '-')) < 2 ^ 128 := by
      have hle := hexValue_lt hhex
      rw [hlength] at hle
      exact hle.trans_eq (by norm_num)
    rw [if_neg (not_not.mpr hlength), if_pos hlength, lib.int16_spec _ hne hhex, Option.filter_some,
      if_pos (decide_eq_true hlt)]
  · rw [if_pos hlength, if_neg hlength]

namespace UuidText

variable (u : UuidText)

theorem hyphen_eq (i : Fin 4) : u.hyphen i = [] ∨ u.hyphen i = ['-'] := by
  unfold hyphen
  split
  · exact Or.inr rfl
  · exact Or.inl rfl

theorem filter_hyphen (i : Fin 4) : (u.hyphen i).filter (· ≠ '-') = [] := by
  rcases u.hyphen_eq i with h | h <;> rw [h] <;> rfl

theorem variant_hex : IsHex u.variant := by
  have hmem := u.variant_mem
  simp only [List.mem_cons, List.not_mem_nil, or_false] at hmem
  rcases hmem with h | h | h | h | h | h <;> rw [h] <;> decide

theorem hex_digits : ∀ c ∈ u.digits, IsHex c := by
  intro c hc
  have hhex := u.hex c
  simp only [digits, List.mem_append, List.mem_cons] at hc hhex
  rcases hc with hc | hc | rfl | hc | rfl | hc | hc
  · exact hhex (by simp [hc])
  · exact hhex (by simp [hc])
  · decide
  · exact hhex (by simp [hc])
  · exact u.variant_hex
  · exact hhex (by simp [hc])
  · exact hhex (by simp [hc])

theorem length_digits : u.digits.length = 32 := by
  obtain ⟨ha, hb, hc, hd, he⟩ := u.lengths
  simp only [digits, List.length_append, List.length_cons, ha, hb, hc, hd, he]

/-- Without the hyphens the digits are left. -/
theorem filter_text : u.text.filter (· ≠ '-') = u.digits := by
  have hkeep : ∀ l : List Char, (∀ c ∈ l, c ∈ u.digits) → l.filter (· ≠ '-') = l := by
    intro l hl
    rw [List.filter_eq_self]
    exact fun c hc => decide_eq_true (u.hex_digits c (hl c hc)).ne.1
  have hparts := hkeep u.digits fun c hc => hc
  simp only [digits, List.filter_append, List.filter_cons] at hparts ⊢
  simp only [text, List.filter_append, List.filter_cons, filter_hyphen, List.nil_append]
  exact hparts

theorem text_chars : ∀ c ∈ u.text, IsHex c ∨ c = '-' := by
  intro c hc
  by_cases hhyphen : c = '-'
  · exact Or.inr hhyphen
  · refine Or.inl (u.hex_digits c ?_)
    rw [← u.filter_text]
    exact List.mem_filter.mpr ⟨hc, decide_eq_true hhyphen⟩

theorem a_ne_nil : u.a ≠ [] := List.ne_nil_of_length_eq_add_one u.lengths.1

theorem e_ne_nil : u.e ≠ [] := List.ne_nil_of_length_eq_add_one u.lengths.2.2.2.2

theorem head?_text : u.text.head? = u.digits.head? := by
  rw [text, digits, List.head?_append_of_ne_nil _ u.a_ne_nil, List.head?_append_of_ne_nil _ u.a_ne_nil]

theorem getLast?_text : u.text.getLast? = u.digits.getLast? := by
  have hlast := List.getLast?_eq_some_getLast u.e_ne_nil
  simp [text, digits, List.getLast?_append, List.getLast?_cons, hlast]

end UuidText

/-! ### Which names the expression matches -/

section Expression

open Regex

/-- A digit of the expression. -/
def hexSet : Regex := set false [('a', 'f'), ('0', '9')]

/-- A hyphen that may be missing. -/
def hyphenPattern : Regex := alt (char '-') eps

/-- The expression, as it is read. -/
def namePattern : Regex :=
  seq bol (seq (times hexSet 8) (seq hyphenPattern (seq (times hexSet 4) (seq hyphenPattern
    (seq (char '4') (seq (times hexSet 3) (seq hyphenPattern
      (seq (set false [('8', '8'), ('9', '9'), ('a', 'a'), ('b', 'b')]) (seq (times hexSet 3)
        (seq hyphenPattern (seq (times hexSet 12) (seq any
          (seq (char 'j') (seq (char 'p') (seq (char 'e') (seq (char 'g') eps))))))))))))))))

theorem parse_namePattern :
    parse "^[a-f0-9]{8}-?[a-f0-9]{4}-?4[a-f0-9]{3}-?[89ab][a-f0-9]{3}-?[a-f0-9]{12}.jpeg" =
      some namePattern := by
  decide +kernel

variable {whole n : ℕ} {s r : List Char}

theorem mem_ends_hyphen : r ∈ ends id whole hyphenPattern s ↔ s = '-' :: r ∨ s = r := by
  simp [hyphenPattern, eq_comm]

/-- Small and capital digits are matched when they are lower-cased. -/
theorem mem_ends_lower {ds : List Char} (hlength : ds.length = n) (hhex : ∀ c ∈ ds, IsHex c) :
    r ∈ ends id whole (times hexSet n) (ds.map Char.toLower ++ r) := by
  refine mem_ends_times_set.mpr ⟨ds.map Char.toLower, by rw [List.length_map, hlength], ?_, rfl⟩
  intro c hc
  obtain ⟨x, hx, rfl⟩ := List.mem_map.mp hc
  exact (hhex x hx).lower

theorem mem_ends_lowerHyphen (u : UuidText) (i : Fin 4) :
    r ∈ ends id whole hyphenPattern ((u.hyphen i).map Char.toLower ++ r) := by
  rw [mem_ends_hyphen]
  rcases u.hyphen_eq i with h | h
  · exact Or.inr (by rw [h]; rfl)
  · exact Or.inl (by rw [h]; rfl)

/-- From `s` to `t` so many characters are taken, ASCII characters other than `i` and `k`. -/
def Takes (n : ℕ) (s t : List Char) : Prop :=
  ∃ q, n ≤ q.length ∧ (∀ x ∈ q, x.toNat < 128 ∧ x ≠ 'i' ∧ x ≠ 'k') ∧ s = q ++ t

theorem Takes.trans {m n : ℕ} {s t r : List Char} (h : Takes m s t) (h' : Takes n t r) :
    Takes (m + n) s r := by
  obtain ⟨q, hm, hq, rfl⟩ := h
  obtain ⟨q', hn, hq', rfl⟩ := h'
  refine ⟨q ++ q', ?_, fun x hx => ?_, (List.append_assoc ..).symm⟩
  · rw [List.length_append]
    exact Nat.add_le_add hm hn
  · exact (List.mem_append.mp hx).elim (hq x) (hq' x)

theorem takes_cons {c : Char} (h : c.toNat < 128 ∧ c ≠ 'i' ∧ c ≠ 'k') (s : List Char) :
    Takes 1 (c :: s) s :=
  ⟨[c], le_refl 1, fun x hx => by rwa [List.mem_singleton.mp hx], rfl⟩

theorem takes_digits (h : r ∈ ends id whole (times hexSet n) s) : Takes n s r := by
  obtain ⟨q, hlength, hset, rfl⟩ := mem_ends_times_set.mp h
  refine ⟨q, hlength.ge, fun c hc => ?_, rfl⟩
  have hrange : 97 ≤ c.toNat ∧ c.toNat ≤ 102 ∨ 48 ≤ c.toNat ∧ c.toNat ≤ 57 := by
    simpa [InRanges, Char.le_def, UInt32.le_iff_toNat_le] using hset c hc
  refine ⟨by omega, ?_, ?_⟩
  · rintro rfl
    simp at hrange
  · rintro rfl
    simp at hrange

theorem takes_hyphen (h : r ∈ ends id whole hyphenPattern s) : Takes 0 s r := by
  rcases mem_ends_hyphen.mp h with rfl | rfl
  · exact ⟨['-'], Nat.zero_le _, by simp, rfl⟩
  · exact ⟨[], le_refl 0, by simp, rfl⟩

theorem takes_version (h : r ∈ ends id whole (char '4') s) : Takes 1 s r := by
  obtain ⟨c, hc, rfl⟩ := mem_ends_char.mp h
  exact takes_cons (by rw [show c = '4' from hc]; decide) r

theorem takes_variant
    (h : r ∈ ends id whole (set false [('8', '8'), ('9', '9'), ('a', 'a'), ('b', 'b')]) s) :
    Takes 1 s r := by
  obtain ⟨c, hc, rfl⟩ := mem_ends_set.mp h
  have hrange : (c.toNat = 56 ∨ c.toNat = 57) ∨ c.toNat = 97 ∨ c.toNat = 98 := by
    simp only [InRanges, List.mem_cons, List.not_mem_nil, or_false, exists_eq_or_imp, exists_eq_left,
      Char.le_def, UInt32.le_iff_toNat_le, Char.toNat_val, Char.reduceToNat, id] at hc
    omega
  refine takes_cons ⟨by omega, ?_, ?_⟩ r
  · rintro rfl
    simp at hrange
  · rintro rfl
    simp at hrange

end Expression

/-- The name of a UUID is matched. -/
theorem match_of_uuid (lib : UnicodeLib) {name : String} {u : UuidText} (h : IsUuidName name u) :
    Regex.isMatch id "^[a-f0-9]{8}-?[a-f0-9]{4}-?4[a-f0-9]{3}-?[89ab][a-f0-9]{3}-?[a-f0-9]{12}.jpeg"
      (lib.lower name) = some true := by
  have hascii : ∀ c ∈ name.toList, c.toNat < 128 := by
    intro c hc
    rw [h, List.mem_append] at hc
    rcases hc with hc | hc
    · rcases u.text_chars c hc with hhex | rfl
      · exact hhex.ascii
      · decide
    · simp only [List.mem_cons, List.not_mem_nil, or_false] at hc
      rcases hc with rfl | rfl | rfl | rfl | rfl <;> decide
  have hvariant : Regex.InRanges [('8', '8'), ('9', '9'), ('a', 'a'), ('b', 'b')] u.variant.toLower := by
    have hmem := u.variant_mem
    simp only [List.mem_cons, List.not_mem_nil, or_false] at hmem
    rcases hmem with h | h | h | h | h | h <;> rw [h] <;> decide
  obtain ⟨ha, hb, hc, hd, he⟩ := u.lengths
  have hhex := u.hex
  simp only [List.mem_append] at hhex
  rw [Regex.isMatch_eq_true parse_namePattern, lower_ascii lib hascii, h, UuidText.text]
  simp only [List.map_append, List.map_cons, List.append_assoc, List.cons_append]
  simp only [namePattern, Regex.mem_ends_seq]
  have hdigits : ∀ ds : List Char, (∀ c ∈ ds, c ∈ u.a ∨ c ∈ u.b ∨ c ∈ u.c ∨ c ∈ u.d ∨ c ∈ u.e) →
      ∀ c ∈ ds, IsHex c := fun ds hds c hc => hhex c (by simpa [or_assoc] using hds c hc)
  exact ⟨[], _, Regex.mem_ends_bol.mpr ⟨rfl, by simp⟩,
    _, mem_ends_lower ha (hdigits u.a fun c hc => by simp [hc]), _, mem_ends_lowerHyphen u 0,
    _, mem_ends_lower hb (hdigits u.b fun c hc => by simp [hc]), _, mem_ends_lowerHyphen u 1,
    _, Regex.mem_ends_char.mpr ⟨_, rfl, rfl⟩,
    _, mem_ends_lower hc (hdigits u.c fun c hc => by simp [hc]), _, mem_ends_lowerHyphen u 2,
    _, Regex.mem_ends_set.mpr ⟨_, hvariant, rfl⟩,
    _, mem_ends_lower hd (hdigits u.d fun c hc => by simp [hc]), _, mem_ends_lowerHyphen u 3,
    _, mem_ends_lower he (hdigits u.e fun c hc => by simp [hc]),
    _, Regex.mem_ends_any.mpr ⟨_, by decide, rfl⟩, _, Regex.mem_ends_char.mpr ⟨_, rfl, rfl⟩,
    _, Regex.mem_ends_char.mpr ⟨_, rfl, rfl⟩, _, Regex.mem_ends_char.mpr ⟨_, rfl, rfl⟩,
    _, Regex.mem_ends_char.mpr ⟨_, rfl, rfl⟩, Regex.mem_ends_eps.mpr rfl⟩

/-- A name that is matched has thirty-two characters at least. -/
theorem length_of_match (lib : UnicodeLib) {name : String}
    (h : Regex.isMatch id "^[a-f0-9]{8}-?[a-f0-9]{4}-?4[a-f0-9]{3}-?[89ab][a-f0-9]{3}-?[a-f0-9]{12}.jpeg"
      (lib.lower name) = some true) : 32 ≤ name.toList.length := by
  obtain ⟨ps, hps, hlower⟩ := lib.lower_spec name
  obtain ⟨r, hr⟩ := (Regex.isMatch_eq_true parse_namePattern).mp h
  simp only [namePattern, Regex.mem_ends_seq] at hr
  obtain ⟨s0, h0, s1, h1, s2, h2, s3, h3, s4, h4, s5, h5, s6, h6, s7, h7, s8, h8, s9, h9, s10, h10,
    s11, h11, -⟩ := hr
  obtain ⟨rfl, -⟩ := Regex.mem_ends_bol.mp h0
  have hvariant := ((takes_version h5).trans ((takes_digits h6).trans (takes_hyphen h7))).trans
    (takes_variant h8)
  have hrest := (takes_digits h9).trans ((takes_hyphen h10).trans (takes_digits h11))
  obtain ⟨q, hlength, hq, htext⟩ := (takes_digits h1).trans ((takes_hyphen h2).trans
    ((takes_digits h3).trans ((takes_hyphen h4).trans (hvariant.trans hrest))))
  exact hlength.trans (length_le_of_lowers hps (hlower.symm.trans htext) hq)

/-! ### When the renaming does what it should -/

namespace UuidText

variable (u : UuidText)

/-- Neither end is a small letter `e`. -/
def PlainEnds : Prop := u.digits.head? ≠ some 'e' ∧ u.digits.getLast? ≠ some 'e'

instance : Decidable u.PlainEnds := inferInstanceAs (Decidable (_ ∧ _))

theorem head?_mem {c : Char} (h : c ∈ u.text.head?) : IsHex c := by
  rw [u.head?_text] at h
  exact u.hex_digits c (List.mem_of_mem_head? h)

theorem getLast?_mem {c : Char} (h : c ∈ u.text.getLast?) : IsHex c := by
  rw [u.getLast?_text] at h
  exact u.hex_digits c (List.mem_of_getLast? h)

/-- With other ends than `e` just `.jpeg` is taken off. -/
theorem strip_plain (h : u.PlainEnds) :
    stripChars ['.', 'j', 'p', 'e', 'g'] (u.text ++ ['.', 'j', 'p', 'e', 'g']) = u.text := by
  rw [stripChars_append fun c hc => hc]
  refine stripChars_eq_self (fun c hc hmem => h.1 ?_) fun c hc hmem => h.2 ?_
  · rw [← u.head?_text, ← (u.head?_mem hc).ne.2.2.2 hmem]
    exact hc
  · rw [← u.getLast?_text, ← (u.getLast?_mem hc).ne.2.2.2 hmem]
    exact hc

/-- Otherwise a digit is taken off too. -/
theorem strip_short (h : ¬ u.PlainEnds) : ((stripChars ['.', 'j', 'p', 'e', 'g']
    (u.text ++ ['.', 'j', 'p', 'e', 'g'])).filter (· ≠ '-')).length < 32 := by
  have htext := u.filter_text
  have hlength := u.length_digits
  rw [stripChars_append fun c hc => hc]
  rw [PlainEnds, not_and_or, not_not, not_not, ← u.head?_text, ← u.getLast?_text] at h
  rcases h with h | h
  · obtain ⟨w, hw⟩ := List.head?_eq_some_iff.mp h
    have hsub : (stripChars ['.', 'j', 'p', 'e', 'g'] u.text).Sublist w := by
      have hprefix := List.rdropWhile_prefix (fun c => decide (c ∈ ['.', 'j', 'p', 'e', 'g'])) u.text
      rw [stripChars]
      rw [hw] at hprefix ⊢
      rcases List.prefix_cons_iff.mp hprefix with hnil | ⟨w', hw', hprefix'⟩
      · rw [hnil]
        exact List.nil_sublist w
      · rw [hw', List.dropWhile_cons_of_pos (by decide)]
        exact (List.dropWhile_sublist _).trans hprefix'.sublist
    have hle := (hsub.filter (· ≠ '-')).length_le
    rw [hw, List.filter_cons_of_pos (by decide)] at htext
    rw [← htext, List.length_cons] at hlength
    omega
  · obtain ⟨w, hw⟩ := List.getLast?_eq_some_iff.mp h
    have hsub : (stripChars ['.', 'j', 'p', 'e', 'g'] u.text).Sublist w := by
      rw [stripChars, hw, List.rdropWhile_concat_pos _ _ _ (by decide)]
      exact (List.dropWhile_sublist _).trans (List.rdropWhile_prefix _ _).sublist
    have hle := (hsub.filter (· ≠ '-')).length_le
    rw [hw, List.filter_append, List.filter_cons_of_pos (by decide)] at htext
    rw [← htext, List.length_append, List.length_cons] at hlength
    omega

end UuidText

/-- A name that is matched is replaced by one of twenty-seven characters. -/
theorem length_of_renamed {lib : UnicodeLib} {name result : String} (h : rename lib name = some result)
    (hmatch : Regex.isMatch id
      "^[a-f0-9]{8}-?[a-f0-9]{4}-?4[a-f0-9]{3}-?[89ab][a-f0-9]{3}-?[a-f0-9]{12}.jpeg"
      (lib.lower name) = some true) : result.toList.length = 27 := by
  rw [rename, hmatch] at h
  obtain ⟨v, -, rfl⟩ := Option.map_eq_some_iff.mp h
  have hbytes : (Base64.toBytes 16 v).length = 3 * 5 + 1 := Base64.length_toBytes 16 v
  simp [(Base64.unpadded_eq hbytes).1]

/-- What is made of the name of a UUID. -/
theorem rename_uuid (lib : UnicodeLib) {name : String} {u : UuidText} (h : IsUuidName name u) :
    rename lib name = if u.PlainEnds then
      some (String.ofList (Base64.unpadded (Base64.toBytes 16 (hexValue u.digits))) ++ ".jpeg") else none := by
  have hchars : ∀ c ∈ stripChars ['.', 'j', 'p', 'e', 'g'] (u.text ++ ['.', 'j', 'p', 'e', 'g']),
      IsHex c ∨ c = '-' := by
    rw [stripChars_append fun c hc => hc]
    exact fun c hc => u.text_chars c ((stripChars_sublist _ _).subset hc)
  rw [rename, match_of_uuid lib h, h]
  simp only
  rw [uuid_eq lib hchars]
  by_cases hends : u.PlainEnds
  · rw [u.strip_plain hends, u.filter_text, if_pos u.length_digits, if_pos hends, Option.map_some]
  · rw [if_neg (u.strip_short hends).ne, if_neg hends, Option.map_none]

/-- The renaming does what it should just for the names that the expression does not match, and for those
of a UUID with another digit than `e` at both ends. -/
theorem rename_iff (lib : UnicodeLib) (name : String) : RenamedWell lib name ↔
    Regex.isMatch id "^[a-f0-9]{8}-?[a-f0-9]{4}-?4[a-f0-9]{3}-?[89ab][a-f0-9]{3}-?[a-f0-9]{12}.jpeg"
      (lib.lower name) = some false ∨ ∃ u, IsUuidName name u ∧ u.PlainEnds := by
  obtain ⟨matched, hmatched⟩ := @Regex.isMatch_eq_some id _ _ parse_namePattern (lib.lower name)
  cases matched with
  | false =>
      have hrename : rename lib name = some name := by rw [rename, hmatched]
      refine iff_of_true ⟨name, hrename, fun u hu => ?_, fun _ => rfl⟩ (Or.inl hmatched)
      have hmatch := match_of_uuid lib hu
      rw [hmatched] at hmatch
      cases hmatch
  | true =>
      constructor
      · rintro ⟨result, hresult, -, hother⟩
        by_cases huuid : ∃ u, IsUuidName name u
        · obtain ⟨u, hu⟩ := huuid
          rw [rename_uuid lib hu] at hresult
          refine Or.inr ⟨u, hu, ?_⟩
          by_contra hends
          rw [if_neg hends] at hresult
          cases hresult
        · have hsame := hother (not_exists.mp huuid)
          have hshort := length_of_renamed hresult hmatched
          have hlong := length_of_match lib hmatched
          rw [hsame] at hshort
          omega
      · rintro (hfalse | ⟨u, hu, hends⟩)
        · rw [hmatched] at hfalse
          cases hfalse
        · refine ⟨_, (rename_uuid lib hu).trans (if_pos hends), fun u' hu' => ⟨_, rfl, ?_⟩,
            fun hnone => absurd hu (hnone u)⟩
          have hdigits : u'.digits = u.digits := by
            rw [← u'.filter_text, ← u.filter_text, List.append_cancel_right (hu'.symm.trans hu)]
          have hlt : hexValue u.digits < 256 ^ 16 := by
            have hle := hexValue_lt u.hex_digits
            rw [u.length_digits] at hle
            exact hle.trans_eq (by norm_num)
          have hbytes : (Base64.toBytes 16 (hexValue u.digits)).length = 3 * 5 + 1 :=
            Base64.length_toBytes 16 _
          rw [Base64.urlsafeDecode_unpadded hbytes, Option.map_some, Base64.ofBytes_toBytes hlt, hdigits]

/-- So the names of distinct UUIDs are distinct. -/
theorem RenamedWell.injective {lib : UnicodeLib} {name name' : String} {u u' : UuidText}
    (hu : IsUuidName name u) (hu' : IsUuidName name' u') (h : RenamedWell lib name)
    (h' : RenamedWell lib name') (heq : rename lib name = rename lib name') :
    hexValue u.digits = hexValue u'.digits := by
  obtain ⟨result, hresult, hdecode, -⟩ := h
  obtain ⟨result', hresult', hdecode', -⟩ := h'
  obtain ⟨first, hfirst, hvalue⟩ := hdecode u hu
  obtain ⟨first', hfirst', hvalue'⟩ := hdecode' u' hu'
  have hsame : result = result' := Option.some.inj (hresult.symm.trans (heq.trans hresult'))
  have hchars := congrArg String.toList (hfirst.symm.trans (hsame.trans hfirst'))
  simp only [String.toList_append, String.toList_ofList] at hchars
  rw [List.append_cancel_right hchars] at hvalue
  exact Option.some.inj (hvalue.symm.trans hvalue')

/-- Letters beyond ASCII are left as they are. -/
def asciiLib : UnicodeLib where
  lower s := String.ofList (s.toList.map Char.toLower)
  lower_spec s := by
    refine ⟨s.toList.map fun c => [c.toLower], ?_, ?_⟩
    · rw [List.forall₂_map_right_iff, List.forall₂_same]
      intro c _
      rw [Lowers]
      split_ifs with hascii
      · rfl
      · have hlarge : ¬ (c.val ≥ 'A'.val ∧ c.val ≤ 'Z'.val) := by
          rintro ⟨-, hle⟩
          have hnat : c.toNat ≤ 90 := UInt32.le_iff_toNat_le.mp hle
          omega
        refine ⟨List.cons_ne_nil _ _, fun x hx hlt => ?_⟩
        rw [List.mem_singleton.mp hx, Char.toLower, dif_neg hlarge] at hlt
        exact absurd hlt hascii
    · rw [String.toList_ofList, ← List.flatMap_def, List.map_eq_flatMap]
  int16 cs := if cs.all fun c => decide (IsHex c) then some (hexValue cs) else none
  int16_spec cs _ h := if_pos (List.all_eq_true.mpr fun c hc => decide_eq_true (h c hc))

/-- A UUID that begins with an `e` loses it, and is none any more. -/
theorem leading_e_not_renamed :
    ¬ RenamedWell asciiLib "e2a8f0c4-1b3d-4f5a-9c7e-0123456789ab.jpeg" := by
  rintro ⟨result, hresult, -⟩
  have hnone : rename asciiLib "e2a8f0c4-1b3d-4f5a-9c7e-0123456789ab.jpeg" = none := by decide +kernel
  rw [hnone] at hresult
  cases hresult

end Apicrud
