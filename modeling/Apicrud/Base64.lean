import Mathlib

/-! # Base64

The standard library's `b64encode` and `b64decode`: three bytes are written as four characters of the
alphabet, a shorter last group is padded, and the decoder reads six bits at a time.  It passes over
characters that are not of the alphabet, stops at a padding that completes a group, and raises (`none`)
where the text ends within a group.

Reading back what was written gives the bytes (`decode_encode`). -/

namespace Base64

/-! ### The alphabet -/

/-- The sixty-four characters, in the order of their values. -/
def alphabet : List Char :=
  "ABCDEFGHIJKLMNOPQRSTUVWXYZabcdefghijklmnopqrstuvwxyz0123456789+/".toList

/-- The character of six bits. -/
def digit (v : ℕ) : Char := alphabet.getD v 'A'

/-- The six bits of a character of the alphabet. -/
def value (c : Char) : Option ℕ :=
  if c ∈ alphabet then some (alphabet.idxOf c) else none

theorem value_digit {v : ℕ} (h : v < 64) : value (digit v) = some v := by
  have hall : ∀ i : Fin 64, value (digit i) = some i.1 := by decide +kernel
  exact hall ⟨v, h⟩

theorem digit_ne_pad {v : ℕ} (h : v < 64) : digit v ≠ '=' := by
  have hall : ∀ i : Fin 64, digit i ≠ '=' := by decide +kernel
  exact hall ⟨v, h⟩

/-! ### Writing and reading -/

/-- `b64encode` -/
def encode : List UInt8 → List Char
  | [] => []
  | [a] => [digit (a.toNat / 4), digit (a.toNat % 4 * 16), '=', '=']
  | [a, b] =>
      [digit (a.toNat / 4), digit (a.toNat % 4 * 16 + b.toNat / 16), digit (b.toNat % 16 * 4), '=']
  | a :: b :: c :: bs =>
      digit (a.toNat / 4) :: digit (a.toNat % 4 * 16 + b.toNat / 16) ::
        digit (b.toNat % 16 * 4 + c.toNat / 64) :: digit (c.toNat % 64) :: encode bs

/-- The decoder within a group: the characters read of it, the bits left over, and the paddings seen. -/
def decodeFrom : List Char → ℕ → ℕ → ℕ → Option (List UInt8)
  | [], quad, _, _ => if quad = 0 then some [] else none
  | c :: cs, quad, left, pads =>
      if c = '=' then
        if 2 ≤ quad then
          if 4 ≤ quad + (pads + 1) then some [] else decodeFrom cs quad left (pads + 1)
        else decodeFrom cs quad left pads
      else
        match value c with
        | none => decodeFrom cs quad left pads
        | some v =>
            match quad with
            | 0 => decodeFrom cs 1 v 0
            | 1 => (decodeFrom cs 2 (v % 16) 0).map (UInt8.ofNat (left * 4 + v / 16) :: ·)
            | 2 => (decodeFrom cs 3 (v % 4) 0).map (UInt8.ofNat (left * 16 + v / 4) :: ·)
            | _ => (decodeFrom cs 0 0 0).map (UInt8.ofNat (left * 64 + v) :: ·)

/-- `b64decode` -/
def decode (cs : List Char) : Option (List UInt8) := decodeFrom cs 0 0 0

/-! ### Reading back -/

section Digits

variable {v left pads : ℕ} (h : v < 64) (cs : List Char)
include h

theorem decodeFrom_first : decodeFrom (digit v :: cs) 0 left pads = decodeFrom cs 1 v 0 := by
  rw [decodeFrom, if_neg (digit_ne_pad h), value_digit h]
  rfl

theorem decodeFrom_second : decodeFrom (digit v :: cs) 1 left pads =
    (decodeFrom cs 2 (v % 16) 0).map (UInt8.ofNat (left * 4 + v / 16) :: ·) := by
  rw [decodeFrom, if_neg (digit_ne_pad h), value_digit h]
  rfl

theorem decodeFrom_third : decodeFrom (digit v :: cs) 2 left pads =
    (decodeFrom cs 3 (v % 4) 0).map (UInt8.ofNat (left * 16 + v / 4) :: ·) := by
  rw [decodeFrom, if_neg (digit_ne_pad h), value_digit h]
  rfl

theorem decodeFrom_fourth : decodeFrom (digit v :: cs) 3 left pads =
    (decodeFrom cs 0 0 0).map (UInt8.ofNat (left * 64 + v) :: ·) := by
  rw [decodeFrom, if_neg (digit_ne_pad h), value_digit h]
  rfl

end Digits

/-- What was written is read back, group by group. -/
theorem decode_encode (bs : List UInt8) : decode (encode bs) = some bs := by
  unfold decode
  induction bs using encode.induct with
  | case1 => rfl
  | case2 a =>
      have ha := a.toNat_lt
      rw [encode, decodeFrom_first (by omega), decodeFrom_second (by omega)]
      have hbyte : a.toNat / 4 * 4 + a.toNat % 4 * 16 / 16 = a.toNat := by omega
      rw [hbyte, UInt8.ofNat_toNat]
      rfl
  | case3 a b =>
      have ha := a.toNat_lt
      have hb := b.toNat_lt
      rw [encode, decodeFrom_first (by omega), decodeFrom_second (by omega),
        decodeFrom_third (by omega)]
      have hfirst : a.toNat / 4 * 4 + (a.toNat % 4 * 16 + b.toNat / 16) / 16 = a.toNat := by omega
      have hsecond : (a.toNat % 4 * 16 + b.toNat / 16) % 16 * 16 + b.toNat % 16 * 4 / 4 = b.toNat := by
        omega
      rw [hfirst, hsecond, UInt8.ofNat_toNat, UInt8.ofNat_toNat]
      rfl
  | case4 a b c bs ih =>
      have ha := a.toNat_lt
      have hb := b.toNat_lt
      have hc := c.toNat_lt
      rw [encode, decodeFrom_first (by omega), decodeFrom_second (by omega),
        decodeFrom_third (by omega), decodeFrom_fourth (by omega), ih]
      have hfirst : a.toNat / 4 * 4 + (a.toNat % 4 * 16 + b.toNat / 16) / 16 = a.toNat := by omega
      have hsecond : (a.toNat % 4 * 16 + b.toNat / 16) % 16 * 16 +
          (b.toNat % 16 * 4 + c.toNat / 64) / 4 = b.toNat := by omega
      have hthird : (b.toNat % 16 * 4 + c.toNat / 64) % 4 * 64 + c.toNat % 64 = c.toNat := by omega
      rw [hfirst, hsecond, hthird, UInt8.ofNat_toNat, UInt8.ofNat_toNat, UInt8.ofNat_toNat]
      rfl

/-! ### Texts -/

/-- `text.encode('utf8')` -/
def utf8 (text : String) : List UInt8 := text.toList.flatMap String.utf8EncodeChar

/-- `b64encode(bytes(text, 'utf8')).decode('ascii')` -/
def ofText (text : String) : String :=
  String.ofList (encode (text.toList.flatMap String.utf8EncodeChar))

/-- `bytes.decode('ascii')`; `none` where it raises. -/
def ascii (bs : List UInt8) : Option String :=
  if bs.all (· < 128) then some (String.ofList (bs.map fun b => Char.ofNat b.toNat)) else none

/-- `b64decode(bytes(text, 'utf8')).decode('ascii')`; `none` where it raises. -/
def toText (text : String) : Option String := (decode text.toList).bind ascii

theorem utf8EncodeChar_of_lt {c : Char} (h : c.toNat < 128) :
    String.utf8EncodeChar c = [UInt8.ofNat c.toNat] := by
  have hle : c.val.toNat ≤ 127 := Nat.le_of_lt_succ h
  rw [String.utf8EncodeChar]
  simp only [hle, if_true]
  rfl

/-- The bytes of an ASCII text are its characters. -/
theorem utf8_of_ascii {text : String} (h : ∀ c ∈ text.toList, c.toNat < 128) :
    utf8 text = text.toList.map fun c => UInt8.ofNat c.toNat := by
  rw [utf8, List.map_eq_flatMap]
  exact List.flatMap_congr fun c hc => utf8EncodeChar_of_lt (h c hc)

/-- An ASCII text is read back. -/
theorem toText_ofText {text : String} (h : ∀ c ∈ text.toList, c.toNat < 128) :
    toText (ofText text) = some text := by
  have hascii : (text.toList.map fun c => UInt8.ofNat c.toNat).all (· < 128) = true := by
    rw [List.all_map, List.all_eq_true]
    intro c hc
    have hlt := h c hc
    rw [Function.comp_apply, decide_eq_true_eq, UInt8.lt_iff_toNat_lt, UInt8.toNat_ofNat']
    exact lt_of_le_of_lt (Nat.mod_le _ _) hlt
  have hchars : (text.toList.map fun c => UInt8.ofNat c.toNat).map (fun b => Char.ofNat b.toNat) =
      text.toList := by
    rw [List.map_map]
    refine (List.map_congr_left fun c hc => ?_).trans (List.map_id _)
    have hlt := h c hc
    have hmod : c.toNat % 2 ^ 8 = c.toNat := Nat.mod_eq_of_lt (by omega)
    rw [Function.comp_apply, UInt8.toNat_ofNat', hmod, Char.ofNat_toNat, id_eq]
  rw [toText, ofText, String.toList_ofList, ← utf8, utf8_of_ascii h, decode_encode, Option.bind_some, ascii, if_pos hascii,
    hchars, String.ofList_toList]

example : ofText "cursor:10" = "Y3Vyc29yOjEw" := by decide +kernel

end Base64
