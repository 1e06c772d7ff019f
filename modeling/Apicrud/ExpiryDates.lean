import Apicrud.Context
import Apicrud.RegexSteps

/-! # Dates of expiry

`_fromdate` reads a date, a timestamp, or a timestamp with fractions of a second.  A date is told by a
regular expression and stands for the last second of its day; the rest is left to `strptime`, which is
modelled for fields of fixed width (`readFormat`).

The expression has `[0-2][1-9]` for the days up to the thirtieth, and so no tenth and no twentieth: what is
read is what is written, unless it is the date of such a day (`fromdate_iff`). -/

namespace Apicrud

/-! ### Instants -/

/-- An object `datetime`. -/
structure Instant where
  year : ℕ
  month : ℕ
  day : ℕ
  hour : ℕ := 0
  minute : ℕ := 0
  second : ℕ := 0
  microsecond : ℕ := 0
deriving DecidableEq, Repr

/-- The days of a month. -/
def daysIn (year month : ℕ) : ℕ :=
  if month = 2 then if year % 4 = 0 ∧ (year % 100 ≠ 0 ∨ year % 400 = 0) then 29 else 28
  else if month ∈ [4, 6, 9, 11] then 30 else 31

/-- There is such an instant. -/
structure Instant.Valid (t : Instant) : Prop where
  year : 1 ≤ t.year ∧ t.year ≤ 9999
  month : 1 ≤ t.month ∧ t.month ≤ 12
  day : 1 ≤ t.day ∧ t.day ≤ daysIn t.year t.month
  hour : t.hour < 24
  minute : t.minute < 60
  second : t.second < 60

instance (t : Instant) : Decidable t.Valid :=
  decidable_of_iff ((1 ≤ t.year ∧ t.year ≤ 9999) ∧ (1 ≤ t.month ∧ t.month ≤ 12) ∧
      (1 ≤ t.day ∧ t.day ≤ daysIn t.year t.month) ∧ t.hour < 24 ∧ t.minute < 60 ∧ t.second < 60)
    ⟨fun ⟨h1, h2, h3, h4, h5, h6⟩ => ⟨h1, h2, h3, h4, h5, h6⟩,
      fun ⟨h1, h2, h3, h4, h5, h6⟩ => ⟨h1, h2, h3, h4, h5, h6⟩⟩

/-! ### Reading -/

/-- The number that digits make. -/
def value (ds : List Char) : ℕ := ds.foldl (fun n c => 10 * n + (c.toNat - '0'.toNat)) 0

/-- So many digits. -/
def Digits (k : ℕ) (ds : List Char) : Prop := ds.length = k ∧ ∀ c ∈ ds, c.isDigit = true

/-- A field of fixed width, and what follows it. -/
def number (k : ℕ) (text : List Char) : Option (ℕ × List Char) :=
  if (text.take k).length = k ∧ (text.take k).all Char.isDigit = true then
    some (value (text.take k), text.drop k)
  else none

/-- The fraction of a second in microseconds, and what follows it. -/
def fraction (text : List Char) : Option (ℕ × List Char) :=
  let ds := (text.takeWhile Char.isDigit).take 6
  if ds ≠ [] then some (value ds * 10 ^ (6 - ds.length), text.drop ds.length) else none

/-- The directives of fixed width: how wide a field is, and what it sets. -/
def fieldOf (directive : Char) : Option (ℕ × (Instant → ℕ → Instant)) :=
  if directive = 'Y' then some (4, fun t n => { t with year := n })
  else if directive = 'm' then some (2, fun t n => { t with month := n })
  else if directive = 'd' then some (2, fun t n => { t with day := n })
  else if directive = 'H' then some (2, fun t n => { t with hour := n })
  else if directive = 'M' then some (2, fun t n => { t with minute := n })
  else if directive = 'S' then some (2, fun t n => { t with second := n })
  else none

/-- A field of a format, and what follows it. -/
def readField (directive : Char) (text : List Char) (t : Instant) : Option (Instant × List Char) :=
  match fieldOf directive with
  | some (width, set) => (number width text).map fun r => (set t r.1, r.2)
  | none =>
      if directive = 'f' then (fraction text).map fun r => ({ t with microsecond := r.1 }, r.2) else none

/-- The fields of a text, in a format of `strptime`. -/
def readFormat : List Char → List Char → Instant → Option Instant
  | [], text, t => if text = [] then some t else none
  | c :: f, text, t =>
      if c = '%' then
        match f with
        | [] => none
        | directive :: f => (readField directive text t).bind fun r => readFormat f r.2 r.1
      else
        match text with
        | [] => none
        | x :: text => if x = c then readFormat f text t else none

/-- `datetime.strptime(text, format)`; `none` where it raises. -/
def strptime (text format : String) : Option Instant :=
  (readFormat format.toList text.toList ⟨1900, 1, 1, 0, 0, 0, 0⟩).filter fun t => decide t.Valid

/-- `BasicCRUD._fromdate`, for any `strptime`; `none` where it raises. -/
def fromdate {τ : Type*} (strptime : String → String → Option τ) (date : String) : Option τ :=
  match Regex.isMatch id "^2[0-9]{3}-((0[1-9])|(1[0-2]))-([0-2][1-9]|3[0-1])$" date with
  | none => none
  | some short =>
      let exp := if short then date ++ "T23:59:59Z" else date
      match strptime exp "%Y-%m-%dT%H:%M:%S.%fZ" with
      | some t => some t
      | none => strptime exp "%Y-%m-%dT%H:%M:%SZ"

/-- It is the function that the requests use. -/
theorem Lib.fromdate_eq (lib : Lib) (date : String) :
    lib.fromdate date = Apicrud.fromdate lib.strptime date := by
  unfold Lib.fromdate Apicrud.fromdate
  cases Regex.isMatch id "^2[0-9]{3}-((0[1-9])|(1[0-2]))-([0-2][1-9]|3[0-1])$" date with
  | none => rfl
  | some short =>
      simp only
      cases lib.strptime (if short = true then date ++ "T23:59:59Z" else date)
          "%Y-%m-%dT%H:%M:%S.%fZ" with
      | some t => rfl
      | none => rfl

/-! ### What is written -/

/-- The digits of a date. -/
structure DateDigits where
  year : List Char
  month : List Char
  day : List Char
  year_digits : Digits 4 year
  month_digits : Digits 2 month
  day_digits : Digits 2 day

/-- The digits of a time of day. -/
structure TimeDigits where
  hour : List Char
  minute : List Char
  second : List Char
  hour_digits : Digits 2 hour
  minute_digits : Digits 2 minute
  second_digits : Digits 2 second

/-- `YYYY-MM-DD` -/
def DateDigits.text (d : DateDigits) : List Char := d.year ++ '-' :: (d.month ++ '-' :: d.day)

/-- `hh:mm:ss` -/
def TimeDigits.text (c : TimeDigits) : List Char := c.hour ++ ':' :: (c.minute ++ ':' :: c.second)

/-- The instant that is written. -/
def instant (d : DateDigits) (c : TimeDigits) (microsecond : ℕ) : Instant :=
  ⟨value d.year, value d.month, value d.day, value c.hour, value c.minute, value c.second, microsecond⟩

/-- The last second of a day. -/
def endOfDay (d : DateDigits) : Instant := ⟨value d.year, value d.month, value d.day, 23, 59, 59, 0⟩

/-- A date of the third millennium, for the last second of its day. -/
def IsDate (s : String) (t : Instant) : Prop :=
  ∃ d : DateDigits, s.toList = d.text ∧ t = endOfDay d ∧ t.Valid ∧ 2000 ≤ t.year ∧ t.year ≤ 2999

/-- A timestamp. -/
def IsTimestamp (s : String) (t : Instant) : Prop :=
  ∃ (d : DateDigits) (c : TimeDigits), s.toList = d.text ++ 'T' :: (c.text ++ ['Z']) ∧
    t = instant d c 0 ∧ t.Valid

/-- A timestamp with one to six digits for the fraction of the second. -/
def IsFraction (s : String) (t : Instant) : Prop :=
  ∃ (d : DateDigits) (c : TimeDigits) (fs : List Char), (1 ≤ fs.length ∧ fs.length ≤ 6) ∧
    (∀ x ∈ fs, x.isDigit = true) ∧ s.toList = d.text ++ 'T' :: (c.text ++ '.' :: (fs ++ ['Z'])) ∧
    t = instant d c (value fs * 10 ^ (6 - fs.length)) ∧ t.Valid

/-- What the text says. -/
def Written (s : String) (t : Instant) : Prop := IsDate s t ∨ IsTimestamp s t ∨ IsFraction s t

/-- The date of a tenth or a twentieth. -/
def TenthOrTwentieth (s : String) : Prop :=
  ∃ t, IsDate s t ∧ (t.day = 10 ∨ t.day = 20)

/-! ### What is read -/

theorem number_eq_some {k n : ℕ} {text rest : List Char} : number k text = some (n, rest) ↔
    ∃ ds, Digits k ds ∧ text = ds ++ rest ∧ n = value ds := by
  unfold number
  constructor
  · intro h
    split_ifs at h with hdigits
    cases h
    exact ⟨text.take k, ⟨hdigits.1, List.all_eq_true.mp hdigits.2⟩, (List.take_append_drop k text).symm, rfl⟩
  · rintro ⟨ds, ⟨hlength, hdigits⟩, rfl, rfl⟩
    rw [List.take_left' hlength, List.drop_left' hlength,
      if_pos ⟨hlength, List.all_eq_true.mpr hdigits⟩]

theorem fraction_eq_some {n : ℕ} {text : List Char} : fraction text = some (n, ['Z']) ↔
    ∃ fs, (1 ≤ fs.length ∧ fs.length ≤ 6) ∧ (∀ x ∈ fs, x.isDigit = true) ∧ text = fs ++ ['Z'] ∧
      n = value fs * 10 ^ (6 - fs.length) := by
  unfold fraction
  constructor
  · intro h
    simp only at h
    split_ifs at h with hne
    obtain ⟨hn, hrest⟩ := Prod.mk.inj (Option.some.inj h)
    refine ⟨(text.takeWhile Char.isDigit).take 6, ⟨List.length_pos_iff.mpr hne, List.length_take_le ..⟩,
      fun x hx => List.mem_takeWhile_imp (List.mem_of_mem_take hx), ?_, hn.symm⟩
    have hprefix : (text.takeWhile Char.isDigit).take 6 <+: text :=
      (List.take_prefix ..).trans (List.takeWhile_prefix _)
    conv_lhs => rw [← List.take_append_drop ((text.takeWhile Char.isDigit).take 6).length text]
    rw [hrest, ← List.prefix_iff_eq_take.mp hprefix]
  · rintro ⟨fs, ⟨hpos, hle⟩, hdigits, rfl, rfl⟩
    have hwhile : (fs ++ ['Z']).takeWhile Char.isDigit = fs := by
      rw [List.takeWhile_append_of_pos hdigits, List.takeWhile_cons_of_neg (by decide), List.append_nil]
    have hne : fs ≠ [] := List.length_pos_iff.mp hpos
    simp only [hwhile, List.take_of_length_le hle, ne_eq, hne, not_false_eq_true, if_true,
      List.drop_left]

section Formats

variable {f text : List Char} {t r : Instant}

theorem readFormat_nil : readFormat [] text t = some r ↔ text = [] ∧ t = r := by
  rw [readFormat.eq_def]
  by_cases h : text = []
  · simp [h]
  · simp [h]

theorem readFormat_literal {c : Char} (hc : c ≠ '%') : readFormat (c :: f) text t = some r ↔
    ∃ rest, text = c :: rest ∧ readFormat f rest t = some r := by
  rw [readFormat.eq_def]
  simp only [if_neg hc]
  cases text with
  | nil => simp
  | cons x text =>
      by_cases hx : x = c
      · simp [hx]
      · simp [hx]

theorem readFormat_percent {directive : Char} : readFormat ('%' :: directive :: f) text t = some r ↔
    ∃ t' rest, readField directive text t = some (t', rest) ∧ readFormat f rest t' = some r := by
  rw [readFormat.eq_def]
  simp only [if_true, Option.bind_eq_some_iff, Prod.exists]

theorem readFormat_field {directive : Char} {k : ℕ} {set : Instant → ℕ → Instant}
    (h : fieldOf directive = some (k, set)) : readFormat ('%' :: directive :: f) text t = some r ↔
      ∃ ds, Digits k ds ∧ ∃ rest, text = ds ++ rest ∧ readFormat f rest (set t (value ds)) = some r := by
  rw [readFormat_percent]
  simp only [readField, h, Option.map_eq_some_iff]
  constructor
  · rintro ⟨-, -, ⟨⟨n, rest⟩, hnumber, rfl, rfl⟩, hread⟩
    obtain ⟨ds, hdigits, htext, rfl⟩ := number_eq_some.mp hnumber
    exact ⟨ds, hdigits, rest, htext, hread⟩
  · rintro ⟨ds, hdigits, rest, htext, hread⟩
    exact ⟨_, _, ⟨_, number_eq_some.mpr ⟨ds, hdigits, htext, rfl⟩, rfl⟩, hread⟩

/-- The date and the time of day, before what a format goes on with. -/
theorem readFormat_dateTime :
    readFormat ('%' :: 'Y' :: '-' :: '%' :: 'm' :: '-' :: '%' :: 'd' :: 'T' :: '%' :: 'H' :: ':' ::
      '%' :: 'M' :: ':' :: '%' :: 'S' :: f) text ⟨1900, 1, 1, 0, 0, 0, 0⟩ = some r ↔
    ∃ (d : DateDigits) (c : TimeDigits) (rest : List Char), text = d.text ++ 'T' :: (c.text ++ rest) ∧
      readFormat f rest (instant d c 0) = some r := by
  constructor
  · intro h
    obtain ⟨year, hyear, _, rfl, h1⟩ := (readFormat_field rfl).mp h
    obtain ⟨_, rfl, h2⟩ := (readFormat_literal (by decide)).mp h1
    obtain ⟨month, hmonth, _, rfl, h3⟩ := (readFormat_field rfl).mp h2
    obtain ⟨_, rfl, h4⟩ := (readFormat_literal (by decide)).mp h3
    obtain ⟨day, hday, _, rfl, h5⟩ := (readFormat_field rfl).mp h4
    obtain ⟨_, rfl, h6⟩ := (readFormat_literal (by decide)).mp h5
    obtain ⟨hour, hhour, _, rfl, h7⟩ := (readFormat_field rfl).mp h6
    obtain ⟨_, rfl, h8⟩ := (readFormat_literal (by decide)).mp h7
    obtain ⟨minute, hminute, _, rfl, h9⟩ := (readFormat_field rfl).mp h8
    obtain ⟨_, rfl, h10⟩ := (readFormat_literal (by decide)).mp h9
    obtain ⟨second, hsecond, rest, rfl, h11⟩ := (readFormat_field rfl).mp h10
    exact ⟨⟨year, month, day, hyear, hmonth, hday⟩, ⟨hour, minute, second, hhour, hminute, hsecond⟩, rest,
      by simp [DateDigits.text, TimeDigits.text], h11⟩
  · rintro ⟨d, c, rest, rfl, h⟩
    have htext : d.text ++ 'T' :: (c.text ++ rest) = d.year ++ '-' :: (d.month ++ '-' :: (d.day ++ 'T' ::
        (c.hour ++ ':' :: (c.minute ++ ':' :: (c.second ++ rest))))) := by
      simp [DateDigits.text, TimeDigits.text]
    rw [htext]
    refine (readFormat_field rfl).mpr ⟨_, d.year_digits, _, rfl, ?_⟩
    refine (readFormat_literal (by decide)).mpr ⟨_, rfl, ?_⟩
    refine (readFormat_field rfl).mpr ⟨_, d.month_digits, _, rfl, ?_⟩
    refine (readFormat_literal (by decide)).mpr ⟨_, rfl, ?_⟩
    refine (readFormat_field rfl).mpr ⟨_, d.day_digits, _, rfl, ?_⟩
    refine (readFormat_literal (by decide)).mpr ⟨_, rfl, ?_⟩
    refine (readFormat_field rfl).mpr ⟨_, c.hour_digits, _, rfl, ?_⟩
    refine (readFormat_literal (by decide)).mpr ⟨_, rfl, ?_⟩
    refine (readFormat_field rfl).mpr ⟨_, c.minute_digits, _, rfl, ?_⟩
    refine (readFormat_literal (by decide)).mpr ⟨_, rfl, ?_⟩
    exact (readFormat_field rfl).mpr ⟨_, c.second_digits, _, rfl, h⟩

end Formats

/-- A timestamp is read as it is written. -/
theorem strptime_timestamp {s : String} {t : Instant} :
    strptime s "%Y-%m-%dT%H:%M:%SZ" = some t ↔ IsTimestamp s t := by
  have hformat : "%Y-%m-%dT%H:%M:%SZ".toList = '%' :: 'Y' :: '-' :: '%' :: 'm' :: '-' :: '%' :: 'd' ::
      'T' :: '%' :: 'H' :: ':' :: '%' :: 'M' :: ':' :: '%' :: 'S' :: ['Z'] := by simp
  rw [strptime, hformat, Option.filter_eq_some_iff, readFormat_dateTime, decide_eq_true_iff]
  constructor
  · rintro ⟨⟨d, c, rest, htext, hread⟩, hvalid⟩
    obtain ⟨rest', rfl, hread⟩ := (readFormat_literal (by decide)).mp hread
    obtain ⟨rfl, rfl⟩ := readFormat_nil.mp hread
    exact ⟨d, c, htext, rfl, hvalid⟩
  · rintro ⟨d, c, htext, rfl, hvalid⟩
    refine ⟨⟨d, c, ['Z'], htext, ?_⟩, hvalid⟩
    exact (readFormat_literal (by decide)).mpr ⟨[], rfl, readFormat_nil.mpr ⟨rfl, rfl⟩⟩

/-- So is one with a fraction. -/
theorem strptime_fraction {s : String} {t : Instant} :
    strptime s "%Y-%m-%dT%H:%M:%S.%fZ" = some t ↔ IsFraction s t := by
  have hformat : "%Y-%m-%dT%H:%M:%S.%fZ".toList = '%' :: 'Y' :: '-' :: '%' :: 'm' :: '-' :: '%' :: 'd' ::
      'T' :: '%' :: 'H' :: ':' :: '%' :: 'M' :: ':' :: '%' :: 'S' :: ['.', '%', 'f', 'Z'] := by simp
  have hfield : ∀ text t, readField 'f' text t =
      (fraction text).map fun r => ({ t with microsecond := r.1 }, r.2) := fun _ _ => rfl
  rw [strptime, hformat, Option.filter_eq_some_iff, readFormat_dateTime, decide_eq_true_iff]
  constructor
  · rintro ⟨⟨d, c, rest, htext, hread⟩, hvalid⟩
    obtain ⟨rest, rfl, hread⟩ := (readFormat_literal (by decide)).mp hread
    obtain ⟨t', rest', hfraction, hread⟩ := readFormat_percent.mp hread
    obtain ⟨_, rfl, hread⟩ := (readFormat_literal (by decide)).mp hread
    obtain ⟨rfl, rfl⟩ := readFormat_nil.mp hread
    rw [hfield, Option.map_eq_some_iff] at hfraction
    obtain ⟨⟨n, rest'⟩, hfraction, heq⟩ := hfraction
    cases heq
    obtain ⟨fs, hlength, hdigits, rfl, rfl⟩ := fraction_eq_some.mp hfraction
    exact ⟨d, c, fs, hlength, hdigits, htext, rfl, hvalid⟩
  · rintro ⟨d, c, fs, hlength, hdigits, htext, rfl, hvalid⟩
    refine ⟨⟨d, c, _, htext, (readFormat_literal (by decide)).mpr ⟨_, rfl, ?_⟩⟩, hvalid⟩
    refine readFormat_percent.mpr ⟨_, ['Z'], ?_, (readFormat_literal (by decide)).mpr
      ⟨[], rfl, readFormat_nil.mpr ⟨rfl, rfl⟩⟩⟩
    rw [hfield, fraction_eq_some.mpr ⟨fs, hlength, hdigits, rfl, rfl⟩]
    rfl

/-! ### Which dates the expression knows -/

theorem isDigit_iff (c : Char) : c.isDigit = true ↔ 48 ≤ c.toNat ∧ c.toNat ≤ 57 := by
  simp [Char.isDigit, UInt32.le_iff_toNat_le]

theorem inRanges_iff {a b c : Char} : Regex.InRanges [(a, b)] c ↔ a.toNat ≤ c.toNat ∧ c.toNat ≤ b.toNat := by
  simp [Regex.InRanges, Char.le_def, UInt32.le_iff_toNat_le]

theorem char_eq_iff {a c : Char} : c = a ↔ c.toNat = a.toNat := Char.toNat_inj.symm

theorem value_two (a b : Char) : value [a, b] = 10 * (a.toNat - 48) + (b.toNat - 48) := by
  simp [value]

theorem digits_two_iff {ds : List Char} : Digits 2 ds ↔ ∃ a b, ds = [a, b] ∧
    (48 ≤ a.toNat ∧ a.toNat ≤ 57) ∧ 48 ≤ b.toNat ∧ b.toNat ≤ 57 := by
  constructor
  · rintro ⟨hlength, hdigits⟩
    obtain ⟨a, b, rfl⟩ := List.length_eq_two.mp hlength
    exact ⟨a, b, rfl, (isDigit_iff a).mp (hdigits a (by simp)), (isDigit_iff b).mp (hdigits b (by simp))⟩
  · rintro ⟨a, b, rfl, ha, hb⟩
    refine ⟨rfl, fun c hc => ?_⟩
    rcases List.mem_pair.mp hc with rfl | rfl
    · exact (isDigit_iff c).mpr ha
    · exact (isDigit_iff c).mpr hb

section Expression

open Regex

/-- The month of the expression. -/
def monthPattern : Regex :=
  alt (seq (seq (char '0') (seq (set false [('1', '9')]) eps)) eps)
    (seq (seq (char '1') (seq (set false [('0', '2')]) eps)) eps)

/-- The day of the expression. -/
def dayPattern : Regex :=
  alt (seq (set false [('0', '2')]) (seq (set false [('1', '9')]) eps))
    (seq (char '3') (seq (set false [('0', '1')]) eps))

/-- The expression, as it is read. -/
def datePattern : Regex :=
  seq bol (seq (char '2') (seq (times (set false [('0', '9')]) 3)
    (seq (char '-') (seq monthPattern (seq (char '-') (seq dayPattern (seq eol eps)))))))

theorem parse_datePattern :
    parse "^2[0-9]{3}-((0[1-9])|(1[0-2]))-([0-2][1-9]|3[0-1])$" = some datePattern := by
  decide +kernel

variable {whole : ℕ} {s r : List Char}

/-- The months are all there. -/
theorem mem_ends_month : r ∈ ends id whole monthPattern s ↔
    ∃ ds, Digits 2 ds ∧ (1 ≤ value ds ∧ value ds ≤ 12) ∧ s = ds ++ r := by
  simp only [monthPattern, mem_ends_alt, mem_ends_seq, mem_ends_char, mem_ends_set, mem_ends_eps,
    inRanges_iff, digits_two_iff, id, char_eq_iff, Char.reduceToNat]
  constructor
  · rintro (⟨_, ⟨_, ⟨a, ha, rfl⟩, _, ⟨b, hb, rfl⟩, rfl⟩, rfl⟩ | ⟨_, ⟨_, ⟨a, ha, rfl⟩, _, ⟨b, hb, rfl⟩, rfl⟩, rfl⟩)
    · exact ⟨[a, b], ⟨a, b, rfl, by omega, by omega⟩, by rw [value_two]; omega, rfl⟩
    · exact ⟨[a, b], ⟨a, b, rfl, by omega, by omega⟩, by rw [value_two]; omega, rfl⟩
  · rintro ⟨_, ⟨a, b, rfl, ha, hb⟩, hvalue, rfl⟩
    rw [value_two] at hvalue
    rcases Nat.lt_or_ge a.toNat 49 with hzero | hone
    · exact Or.inl ⟨_, ⟨_, ⟨a, by omega, rfl⟩, _, ⟨b, by omega, rfl⟩, rfl⟩, rfl⟩
    · exact Or.inr ⟨_, ⟨_, ⟨a, by omega, rfl⟩, _, ⟨b, by omega, rfl⟩, rfl⟩, rfl⟩

/-- Of the days, the tenth and the twentieth are missing. -/
theorem mem_ends_day : r ∈ ends id whole dayPattern s ↔ ∃ ds, Digits 2 ds ∧
    (1 ≤ value ds ∧ value ds ≤ 31 ∧ value ds ≠ 10 ∧ value ds ≠ 20) ∧ s = ds ++ r := by
  simp only [dayPattern, mem_ends_alt, mem_ends_seq, mem_ends_char, mem_ends_set, mem_ends_eps,
    inRanges_iff, digits_two_iff, id, char_eq_iff, Char.reduceToNat]
  constructor
  · rintro (⟨_, ⟨a, ha, rfl⟩, _, ⟨b, hb, rfl⟩, rfl⟩ | ⟨_, ⟨a, ha, rfl⟩, _, ⟨b, hb, rfl⟩, rfl⟩)
    · exact ⟨[a, b], ⟨a, b, rfl, by omega, by omega⟩, by rw [value_two]; omega, rfl⟩
    · exact ⟨[a, b], ⟨a, b, rfl, by omega, by omega⟩, by rw [value_two]; omega, rfl⟩
  · rintro ⟨_, ⟨a, b, rfl, ha, hb⟩, hvalue, rfl⟩
    rw [value_two] at hvalue
    rcases Nat.lt_or_ge a.toNat 51 with hlow | hthirty
    · exact Or.inl ⟨_, ⟨a, by omega, rfl⟩, _, ⟨b, by omega, rfl⟩, rfl⟩
    · exact Or.inr ⟨_, ⟨a, by omega, rfl⟩, _, ⟨b, by omega, rfl⟩, rfl⟩

/-- The first digit tells the millennium. -/
theorem value_year {ys : List Char} (h : Digits 3 ys) (c : Char) : ∃ n < 1000,
    value (c :: ys) = 1000 * (c.toNat - 48) + n := by
  obtain ⟨hlength, hdigits⟩ := h
  obtain ⟨x, y, z, rfl⟩ := List.length_eq_three.mp hlength
  have hx := (isDigit_iff x).mp (hdigits x (by simp))
  have hy := (isDigit_iff y).mp (hdigits y (by simp))
  have hz := (isDigit_iff z).mp (hdigits z (by simp))
  refine ⟨100 * (x.toNat - 48) + 10 * (y.toNat - 48) + (z.toNat - 48), by omega, ?_⟩
  simp [value]
  omega

/-- What the expression matches: a date that may be one, of another day than a tenth or a twentieth; a line
break may follow. -/
theorem isMatch_date (text : String) :
    isMatch id "^2[0-9]{3}-((0[1-9])|(1[0-2]))-([0-2][1-9]|3[0-1])$" text = some true ↔
      ∃ d : DateDigits, (2000 ≤ value d.year ∧ value d.year ≤ 2999) ∧
        (1 ≤ value d.month ∧ value d.month ≤ 12) ∧
        (1 ≤ value d.day ∧ value d.day ≤ 31 ∧ value d.day ≠ 10 ∧ value d.day ≠ 20) ∧
        (text.toList = d.text ∨ text.toList = d.text ++ ['\n']) := by
  rw [isMatch_eq_true parse_datePattern]
  simp only [datePattern, mem_ends_seq, mem_ends_bol, mem_ends_char, mem_ends_times_set, mem_ends_month,
    mem_ends_day, mem_ends_eol, mem_ends_eps, inRanges_iff, id, char_eq_iff, Char.reduceToNat]
  constructor
  · rintro ⟨_, _, ⟨rfl, -⟩, _, ⟨two, htwo, htext⟩, _, ⟨ys, hys, hdigits, rfl⟩, _, ⟨dash, hdash, rfl⟩,
      _, ⟨ms, hms, hmonth, rfl⟩, _, ⟨dash', hdash', rfl⟩, _, ⟨ds, hds, hday, rfl⟩, _, ⟨rfl, hend⟩, -⟩
    have hyear : Digits 3 ys := ⟨hys, fun c hc => (isDigit_iff c).mpr (hdigits c hc)⟩
    have hfour : Digits 4 (two :: ys) :=
      ⟨congrArg (· + 1) hys, List.forall_mem_cons.mpr ⟨(isDigit_iff two).mpr (by omega), hyear.2⟩⟩
    obtain ⟨n, hn, hvalue⟩ := value_year hyear two
    obtain rfl : dash = '-' := Char.toNat_inj.mp hdash
    obtain rfl : dash' = '-' := Char.toNat_inj.mp hdash'
    refine ⟨⟨two :: ys, ms, ds, hfour, hms, hds⟩, ?_, hmonth, hday, ?_⟩
    · show 2000 ≤ value (two :: ys) ∧ value (two :: ys) ≤ 2999
      omega
    · rw [htext]
      rcases hend with rfl | rfl <;> simp [DateDigits.text]
  · rintro ⟨d, hyear, hmonth, hday, htext⟩
    obtain ⟨hlength, hdigits⟩ := d.year_digits
    obtain ⟨two, ys, hys⟩ := List.exists_cons_of_length_eq_add_one hlength
    rw [hys] at hlength hdigits hyear
    obtain ⟨htwo, hrest⟩ := List.forall_mem_cons.mp hdigits
    have hthree : Digits 3 ys := ⟨Nat.succ.inj hlength, hrest⟩
    obtain ⟨n, hn, hvalue⟩ := value_year hthree two
    have hrange := (isDigit_iff two).mp htwo
    obtain ⟨tail, htail, hlist⟩ : ∃ tail, (tail = [] ∨ tail = ['\n']) ∧
        text.toList = two :: (ys ++ '-' :: (d.month ++ '-' :: (d.day ++ tail))) := by
      rcases htext with htext | htext
      · exact ⟨[], Or.inl rfl, by rw [htext, DateDigits.text, hys]; simp⟩
      · exact ⟨['\n'], Or.inr rfl, by rw [htext, DateDigits.text, hys]; simp⟩
    exact ⟨tail, _, ⟨rfl, trivial⟩, _, ⟨two, by omega, hlist⟩, _,
      ⟨ys, hthree.1, fun c hc => (isDigit_iff c).mp (hrest c hc), rfl⟩, _, ⟨'-', rfl, rfl⟩, _,
      ⟨d.month, d.month_digits, hmonth, rfl⟩, _, ⟨'-', rfl, rfl⟩, _, ⟨d.day, d.day_digits, hday, rfl⟩, _,
      ⟨rfl, htail⟩, rfl⟩

end Expression

/-! ### What is read is what is written -/

theorem DateDigits.length_text (d : DateDigits) : d.text.length = 10 := by
  simp [text, d.year_digits.1, d.month_digits.1, d.day_digits.1]

theorem TimeDigits.length_text (c : TimeDigits) : c.text.length = 8 := by
  simp [text, c.hour_digits.1, c.minute_digits.1, c.second_digits.1]

/-- The fields of a date can be told from its text. -/
theorem DateDigits.text_inj {d d' : DateDigits} {r r' : List Char} (h : d.text ++ r = d'.text ++ r') :
    (d.year = d'.year ∧ d.month = d'.month ∧ d.day = d'.day) ∧ r = r' := by
  obtain ⟨htext, hrest⟩ := List.append_inj h (d.length_text.trans d'.length_text.symm)
  obtain ⟨hyear, htail⟩ := List.append_inj htext (d.year_digits.1.trans d'.year_digits.1.symm)
  obtain ⟨hmonth, hday⟩ := List.append_inj (List.cons.inj htail).2
    (d.month_digits.1.trans d'.month_digits.1.symm)
  exact ⟨⟨hyear, hmonth, (List.cons.inj hday).2⟩, hrest⟩

/-- So can those of a time of day. -/
theorem TimeDigits.text_inj {c c' : TimeDigits} {r r' : List Char} (h : c.text ++ r = c'.text ++ r') :
    c.hour = c'.hour ∧ c.minute = c'.minute ∧ c.second = c'.second := by
  obtain ⟨htext, -⟩ := List.append_inj h (c.length_text.trans c'.length_text.symm)
  obtain ⟨hhour, htail⟩ := List.append_inj htext (c.hour_digits.1.trans c'.hour_digits.1.symm)
  obtain ⟨hminute, hsecond⟩ := List.append_inj (List.cons.inj htail).2
    (c.minute_digits.1.trans c'.minute_digits.1.symm)
  exact ⟨hhour, hminute, (List.cons.inj hsecond).2⟩

section Lengths

variable {s : String} {t : Instant}

theorem IsDate.length (h : IsDate s t) : s.toList.length = 10 := by
  obtain ⟨d, htext, -⟩ := h
  rw [htext, d.length_text]

theorem IsTimestamp.length (h : IsTimestamp s t) : s.toList.length = 20 := by
  obtain ⟨d, c, htext, -⟩ := h
  simp [htext, d.length_text, c.length_text]

theorem IsFraction.length (h : IsFraction s t) : 22 ≤ s.toList.length := by
  obtain ⟨d, c, fs, ⟨hpos, -⟩, -, htext, -⟩ := h
  simp only [htext, List.length_append, d.length_text, List.length_cons, c.length_text, List.length_nil]
  omega

end Lengths

/-- `23:59:59` -/
def lastSecond : TimeDigits where
  hour := ['2', '3']
  minute := ['5', '9']
  second := ['5', '9']
  hour_digits := ⟨rfl, by simp⟩
  minute_digits := ⟨rfl, by simp⟩
  second_digits := ⟨rfl, by simp⟩

/-- The text that is read for a date. -/
theorem isTimestamp_endOfDay {s : String} {d : DateDigits} (h : s.toList = d.text) (t : Instant) :
    IsTimestamp (s ++ "T23:59:59Z") t ↔ t = endOfDay d ∧ t.Valid := by
  have hlist : (s ++ "T23:59:59Z").toList = d.text ++ 'T' :: (lastSecond.text ++ ['Z']) := by
    simp [h, TimeDigits.text, lastSecond]
  constructor
  · rintro ⟨d', c, htext, rfl, hvalid⟩
    obtain ⟨⟨hyear, hmonth, hday⟩, hrest⟩ := DateDigits.text_inj (htext.symm.trans hlist)
    obtain ⟨hhour, hminute, hsecond⟩ := TimeDigits.text_inj (List.cons.inj hrest).2
    refine ⟨?_, hvalid⟩
    rw [instant, hyear, hmonth, hday, hhour, hminute, hsecond]
    rfl
  · rintro ⟨rfl, hvalid⟩
    exact ⟨d, lastSecond, hlist, rfl, hvalid⟩

/-- The two attempts read a timestamp, with a fraction or without; for a date its last second is added. -/
theorem fromdate_eq_some {s : String} {short : Bool}
    (h : Regex.isMatch id "^2[0-9]{3}-((0[1-9])|(1[0-2]))-([0-2][1-9]|3[0-1])$" s = some short)
    (t : Instant) : fromdate strptime s = some t ↔
      IsTimestamp (if short then s ++ "T23:59:59Z" else s) t ∨
        IsFraction (if short then s ++ "T23:59:59Z" else s) t := by
  unfold fromdate
  rw [h]
  simp only
  generalize (if short = true then s ++ "T23:59:59Z" else s) = exp
  rw [← strptime_timestamp, ← strptime_fraction]
  cases hfraction : strptime exp "%Y-%m-%dT%H:%M:%S.%fZ" with
  | none => simp
  | some t' =>
      have hnone : strptime exp "%Y-%m-%dT%H:%M:%SZ" ≠ some t := by
        intro htimestamp
        have h20 := (strptime_timestamp.mp htimestamp).length
        have h22 := (strptime_fraction.mp hfraction).length
        omega
      simp [hnone]

/-- A date of the third millennium that the expression does not match is of a tenth or a twentieth. -/
theorem IsDate.day_of_not_match {s : String} {t : Instant} (h : IsDate s t)
    (hmatch : Regex.isMatch id "^2[0-9]{3}-((0[1-9])|(1[0-2]))-([0-2][1-9]|3[0-1])$" s ≠ some true) :
    t.day = 10 ∨ t.day = 20 := by
  obtain ⟨d, htext, rfl, hvalid, hyear⟩ := h
  have hday := hvalid.day
  have hmonth : daysIn (endOfDay d).year (endOfDay d).month ≤ 31 := by
    unfold daysIn
    split_ifs <;> omega
  by_contra hother
  push Not at hother
  exact hmatch ((isMatch_date s).mpr ⟨d, hyear, hvalid.month,
    ⟨hday.1, hday.2.trans hmonth, hother.1, hother.2⟩, Or.inl htext⟩)

/-- What is read of a text is what it says, just when it is not the date of a tenth or a twentieth. -/
theorem fromdate_iff (s : String) :
    (∀ t, fromdate strptime s = some t ↔ Written s t) ↔ ¬ TenthOrTwentieth s := by
  obtain ⟨short, hshort⟩ := @Regex.isMatch_eq_some id _ _ parse_datePattern s
  have hread := fromdate_eq_some hshort
  cases short with
  | false =>
      have hother : ∀ t, IsDate s t → t.day = 10 ∨ t.day = 20 :=
        fun t ht => ht.day_of_not_match fun hmatch => by rw [hshort] at hmatch; cases hmatch
      constructor
      · rintro h ⟨t, ht, -⟩
        rcases (hread t).mp ((h t).mpr (Or.inl ht)) with hstamp | hstamp
        · exact absurd (ht.length.symm.trans hstamp.length) (by decide)
        · have hten := ht.length
          have hmore := hstamp.length
          simp only [Bool.false_eq_true, if_false] at hmore
          omega
      · intro h t
        have hnot : ¬ IsDate s t := fun ht => h ⟨t, ht, hother t ht⟩
        rw [hread t, Written]
        simp [hnot]
  | true =>
      obtain ⟨d, hyear, hmonth, hday, htext⟩ := (isMatch_date s).mp hshort
      simp only [if_true] at hread
      rcases htext with htext | htext
      · have hten : s.toList.length = 10 := htext ▸ d.length_text
        have hexp : (s ++ "T23:59:59Z").toList.length = 20 := by simp [hten]
        refine iff_of_true (fun t => ?_) ?_
        · rw [hread t, isTimestamp_endOfDay htext]
          constructor
          · rintro (⟨rfl, hvalid⟩ | hfraction)
            · exact Or.inl ⟨d, htext, rfl, hvalid, hyear⟩
            · have hmore := hfraction.length
              omega
          · rintro (⟨d', htext', rfl, hvalid, -⟩ | hstamp | hfraction)
            · obtain ⟨⟨hy, hm, hd⟩, -⟩ := DateDigits.text_inj
                (congrArg (· ++ []) (htext'.symm.trans htext))
              refine Or.inl ⟨?_, hvalid⟩
              rw [endOfDay, hy, hm, hd]
              rfl
            · have hmore := hstamp.length
              omega
            · have hmore := hfraction.length
              omega
        · rintro ⟨t, ⟨d', htext', rfl, -⟩, hten'⟩
          obtain ⟨⟨-, -, hd⟩, -⟩ := DateDigits.text_inj (congrArg (· ++ []) (htext'.symm.trans htext))
          rw [endOfDay, hd] at hten'
          exact hten'.elim hday.2.2.1 hday.2.2.2
      · have heleven : s.toList.length = 11 := by simp [htext, d.length_text]
        have hexp : (s ++ "T23:59:59Z").toList.length = 21 := by simp [heleven]
        have hdate : ∀ t, ¬ IsDate s t := fun t ht => by
          have hten := ht.length
          omega
        refine iff_of_true (fun t => ?_) fun ⟨t, ht, _⟩ => hdate t ht
        rw [hread t]
        constructor
        · rintro (hstamp | hfraction)
          · have hmore := hstamp.length
            omega
          · have hmore := hfraction.length
            omega
        · rintro (hd | hstamp | hfraction)
          · exact absurd hd (hdate t)
          · have hmore := hstamp.length
            omega
          · have hmore := hfraction.length
            omega

example : fromdate strptime "2021-02-28" = some ⟨2021, 2, 28, 23, 59, 59, 0⟩ := by decide +kernel

/-- The tenth of June is written, and not read. -/
theorem tenth_not_read : ¬ ∀ t, fromdate strptime "2021-06-10" = some t ↔ Written "2021-06-10" t := by
  intro h
  have hnone : fromdate strptime "2021-06-10" = none := by decide +kernel
  have hdate : IsDate "2021-06-10" ⟨2021, 6, 10, 23, 59, 59, 0⟩ :=
    ⟨⟨['2', '0', '2', '1'], ['0', '6'], ['1', '0'], ⟨rfl, by simp⟩, ⟨rfl, by simp⟩, ⟨rfl, by simp⟩⟩,
      by simp [DateDigits.text], rfl, by decide, by decide, by decide⟩
  have hread := (h _).mpr (Or.inl hdate)
  rw [hnone] at hread
  cases hread

end Apicrud
