import Apicrud.Base64

/-! # Base64 for addresses, and numbers of fixed width

`urlsafe_b64encode` has a hyphen and an underscore in place of the plus sign and the slash; what it writes
is read back by `urlsafe_b64decode` (`urlsafeDecode_encode`), and also when the padding was taken off and is
added again (`urlsafeDecode_unpadded`).  A number below `256 ^ k` is read back from its `k` bytes
(`ofBytes_toBytes`). -/

namespace Base64

/-! ### The alphabet for addresses -/

/-- `maketrans(b'+/', b'-_')` -/
def toUrl (c : Char) : Char := if c = '+' then '-' else if c = '/' then '_' else c

/-- `maketrans(b'-_', b'+/')` -/
def fromUrl (c : Char) : Char := if c = '-' then '+' else if c = '_' then '/' else c

/-- `urlsafe_b64encode` -/
def urlsafeEncode (bs : List UInt8) : List Char := (encode bs).map toUrl

/-- `urlsafe_b64decode` -/
def urlsafeDecode (cs : List Char) : Option (List UInt8) := decode (cs.map fromUrl)

theorem exists_digit {c : Char} (h : c ∈ alphabet) : ∃ i : Fin 64, digit i = c := by
  obtain ⟨i, hi, rfl⟩ := List.getElem_of_mem h
  have hlength : alphabet.length = 64 := by decide +kernel
  refine ⟨⟨i, hi.trans_eq hlength⟩, ?_⟩
  rw [digit, List.getD_eq_getElem?_getD, List.getElem?_eq_getElem hi, Option.getD_some]

theorem fromUrl_toUrl {c : Char} (h : c ∈ alphabet ∨ c = '=') : fromUrl (toUrl c) = c := by
  have hall : ∀ i : Fin 64, fromUrl (toUrl (digit i)) = digit i := by decide +kernel
  rcases h with h | rfl
  · obtain ⟨i, rfl⟩ := exists_digit h
    exact hall i
  · decide

theorem toUrl_ne_pad {c : Char} (h : c ∈ alphabet) : toUrl c ≠ '=' := by
  have hall : ∀ i : Fin 64, toUrl (digit i) ≠ '=' := by decide +kernel
  obtain ⟨i, rfl⟩ := exists_digit h
  exact hall i

theorem digit_mem {v : ℕ} (h : v < 64) : digit v ∈ alphabet := by
  have hall : ∀ i : Fin 64, digit i ∈ alphabet := by decide +kernel
  exact hall ⟨v, h⟩

/-! ### Padding -/

/-- A byte more than some groups of three: the characters, and two paddings. -/
theorem encode_padded {k : ℕ} {bs : List UInt8} (h : bs.length = 3 * k + 1) :
    ∃ cs, encode bs = cs ++ ['=', '='] ∧ cs.length = 4 * k + 2 ∧ ∀ c ∈ cs, c ∈ alphabet := by
  induction k generalizing bs with
  | zero =>
      obtain ⟨a, rfl⟩ := List.length_eq_one_iff.mp h
      have ha := a.toNat_lt
      refine ⟨[digit (a.toNat / 4), digit (a.toNat % 4 * 16)], rfl, rfl, fun c hc => ?_⟩
      rcases List.mem_pair.mp hc with rfl | rfl
      · exact digit_mem (by omega)
      · exact digit_mem (by omega)
  | succ k ih =>
      match bs, h with
      | a :: b :: c :: bs, h =>
          have ha := a.toNat_lt
          have hb := b.toNat_lt
          have hc := c.toNat_lt
          simp only [List.length_cons] at h
          obtain ⟨cs, hcs, hlength, hmem⟩ := ih (by omega : bs.length = 3 * k + 1)
          refine ⟨digit (a.toNat / 4) :: digit (a.toNat % 4 * 16 + b.toNat / 16) ::
            digit (b.toNat % 16 * 4 + c.toNat / 64) :: digit (c.toNat % 64) :: cs, ?_, ?_, ?_⟩
          · rw [encode, hcs]
            rfl
          · simp only [List.length_cons, hlength]
            omega
          · simp only [List.forall_mem_cons]
            exact ⟨digit_mem (by omega), digit_mem (by omega), digit_mem (by omega),
              digit_mem (by omega), hmem⟩

/-- `urlsafe_b64encode(..).rstrip(b'=')` -/
def unpadded (bs : List UInt8) : List Char := (urlsafeEncode bs).rdropWhile fun c => decide (c = '=')

/-- What is left when two paddings are taken off. -/
theorem unpadded_eq {k : ℕ} {bs : List UInt8} (h : bs.length = 3 * k + 1) :
    (unpadded bs).length = 4 * k + 2 ∧ unpadded bs ++ ['=', '='] = urlsafeEncode bs := by
  obtain ⟨cs, hcs, hlength, hmem⟩ := encode_padded h
  have hencode : urlsafeEncode bs = cs.map toUrl ++ ['='] ++ ['='] := by
    rw [urlsafeEncode, hcs, List.map_append, List.append_assoc]
    rfl
  have hnot : (cs.map toUrl).rdropWhile (fun c => decide (c = '=')) = cs.map toUrl := by
    rw [List.rdropWhile_eq_self_iff]
    intro hl
    rw [List.getLast_map]
    simpa using toUrl_ne_pad (hmem _ (List.getLast_mem _))
  have heq : unpadded bs = cs.map toUrl := by
    rw [unpadded, hencode, List.rdropWhile_concat_pos _ _ _ (by simp),
      List.rdropWhile_concat_pos _ _ _ (by simp), hnot]
  rw [heq, List.length_map, hencode, List.append_assoc]
  exact ⟨hlength, rfl⟩

/-- What was written is read back, with the padding added again. -/
theorem urlsafeDecode_unpadded {k : ℕ} {bs : List UInt8} (h : bs.length = 3 * k + 1) :
    urlsafeDecode (unpadded bs ++ ['=', '=']) = some bs := by
  obtain ⟨cs, hcs, -, hmem⟩ := encode_padded h
  have hback : (encode bs).map (fromUrl ∘ toUrl) = encode bs := by
    refine (List.map_congr_left fun c hc => ?_).trans (List.map_id _)
    rw [hcs, List.mem_append] at hc
    rcases hc with hc | hc
    · exact fromUrl_toUrl (Or.inl (hmem c hc))
    · simp only [List.mem_cons, List.not_mem_nil, or_false, or_self] at hc
      exact fromUrl_toUrl (Or.inr hc)
  rw [(unpadded_eq h).2, urlsafeDecode, urlsafeEncode, List.map_map, hback, decode_encode]

/-! ### Numbers of fixed width -/

/-- The bytes of a number, the highest one first. -/
def toBytes : ℕ → ℕ → List UInt8
  | 0, _ => []
  | k + 1, v => toBytes k (v / 256) ++ [UInt8.ofNat v]

/-- The number of some bytes. -/
def ofBytes (bs : List UInt8) : ℕ := bs.foldl (fun n b => 256 * n + b.toNat) 0

theorem length_toBytes (k v : ℕ) : (toBytes k v).length = k := by
  induction k generalizing v with
  | zero => rfl
  | succ k ih => rw [toBytes, List.length_append, ih, List.length_singleton]

theorem ofBytes_toBytes {k v : ℕ} (h : v < 256 ^ k) : ofBytes (toBytes k v) = v := by
  induction k generalizing v with
  | zero =>
      rw [pow_zero, Nat.lt_one_iff] at h
      rw [h]
      rfl
  | succ k ih =>
      have hdiv : v / 256 < 256 ^ k := by
        rw [Nat.div_lt_iff_lt_mul (by decide), ← pow_succ]
        exact h
      have hprefix := ih hdiv
      rw [ofBytes] at hprefix
      rw [toBytes, ofBytes, List.foldl_append, hprefix, List.foldl_cons, List.foldl_nil, UInt8.toNat_ofNat']
      omega

end Base64
