import Apicrud.Base64

/-! # Encryption of texts and of bytes

`AESEncrypt` fills up a text to whole blocks, encrypts its bytes with AES-CBC and writes the result in
Base64, the initialization vector first.  `AESEncryptBin` does the same with bytes, and leaves out the
Base64.

The filling of a text is counted in characters and the blocks in bytes, so a text is encrypted only if it
has as many bytes as characters modulo sixteen: `roundTrips_iff`.  Bytes always are
(`AESEncryptBin.decrypt_encrypt`), and so are texts of ASCII characters (`roundTrips_of_ascii`). -/

namespace Apicrud

/-! ### What is encrypted with -/

/-- Whole blocks of sixteen bytes. -/
abbrev Blocks := {bs : List UInt8 // bs.length % 16 = 0}

/-- What is drawn by `get_random_bytes(AES.block_size)`. -/
abbrev InitVector := {bs : List UInt8 // bs.length = 16}

/-- The hash and the cipher, which are not part of the repository.  With one key and one initialization
vector AES-CBC is a bijection on whole blocks. -/
structure Cryptodome where
  sha256 : List UInt8 → List UInt8
  cbc : List UInt8 → InitVector → Blocks ≃ Blocks

namespace Cryptodome

variable (lib : Cryptodome)

/-- `AES.new(key, AES.MODE_CBC, iv).encrypt`; `none` where one of the two raises. -/
def encrypt (key iv bs : List UInt8) : Option (List UInt8) :=
  if hiv : iv.length = 16 then
    if hbs : bs.length % 16 = 0 then some (lib.cbc key ⟨iv, hiv⟩ ⟨bs, hbs⟩).1 else none
  else none

/-- `AES.new(key, AES.MODE_CBC, iv).decrypt`; `none` where one of the two raises. -/
def decrypt (key iv bs : List UInt8) : Option (List UInt8) :=
  if hiv : iv.length = 16 then
    if hbs : bs.length % 16 = 0 then some ((lib.cbc key ⟨iv, hiv⟩).symm ⟨bs, hbs⟩).1 else none
  else none

variable {lib}

theorem encrypt_isSome_iff {key bs : List UInt8} (iv : InitVector) :
    (lib.encrypt key iv bs).isSome = true ↔ bs.length % 16 = 0 := by
  rw [encrypt, dif_pos iv.2]
  by_cases hbs : bs.length % 16 = 0
  · rw [dif_pos hbs]
    exact iff_of_true rfl hbs
  · rw [dif_neg hbs]
    exact iff_of_false Bool.false_ne_true hbs

theorem decrypt_encrypt {key bs enc : List UInt8} {iv : InitVector}
    (h : lib.encrypt key iv bs = some enc) : lib.decrypt key iv enc = some bs := by
  have hbs : bs.length % 16 = 0 :=
    (encrypt_isSome_iff iv).mp (Option.isSome_iff_exists.mpr ⟨enc, h⟩)
  rw [encrypt, dif_pos iv.2, dif_pos hbs, Option.some.injEq] at h
  subst h
  have hblocks := (lib.cbc key iv ⟨bs, hbs⟩).2
  rw [decrypt, dif_pos iv.2, dif_pos hblocks, Equiv.symm_apply_apply]

end Cryptodome

/-! ### Filling up -/

/-- `BLOCK_SIZE - len(s) % BLOCK_SIZE` -/
def addmore (length : ℕ) : ℕ := 16 - length % 16

/-- `s[:-s[-1]]`; `none` where there is no last byte. -/
def unpad (bs : List UInt8) : Option (List UInt8) :=
  bs.getLast?.map fun b => if b = 0 then [] else bs.take (bs.length - b.toNat)

theorem addmore_pos (length : ℕ) : 0 < addmore length := by
  unfold addmore
  omega

theorem addmore_le (length : ℕ) : addmore length ≤ 16 := Nat.sub_le _ _

/-- A byte holds the number of bytes that are added. -/
theorem toNat_addmore (length : ℕ) : (UInt8.ofNat (addmore length)).toNat = addmore length := by
  have hle := addmore_le length
  rw [UInt8.toNat_ofNat']
  omega

/-- The last byte is one that was added. -/
theorem getLast?_append_addmore (bs : List UInt8) (length : ℕ) :
    (bs ++ List.replicate (addmore length) (UInt8.ofNat (addmore length))).getLast? =
      some (UInt8.ofNat (addmore length)) := by
  rw [List.getLast?_append, List.getLast?_replicate, if_neg (addmore_pos length).ne', Option.some_or]

/-- What was added is taken off, whatever length it was computed from. -/
theorem unpad_append (bs : List UInt8) (length : ℕ) :
    unpad (bs ++ List.replicate (addmore length) (UInt8.ofNat (addmore length))) = some bs := by
  have hne : UInt8.ofNat (addmore length) ≠ 0 := by
    intro h
    have hbyte := toNat_addmore length
    rw [h] at hbyte
    exact absurd hbyte (addmore_pos length).ne
  rw [unpad, getLast?_append_addmore, Option.map_some, if_neg hne, toNat_addmore, List.length_append,
    List.length_replicate, Nat.add_sub_cancel, List.take_left]

/-! ### Bytes -/

/-- `AESEncryptBin` -/
structure AESEncryptBin where
  privateKey : List UInt8

namespace AESEncryptBin

variable (lib : Cryptodome) (aes : AESEncryptBin)

/-- `AESEncryptBin.__init__` -/
def init (secret : String) : AESEncryptBin := ⟨lib.sha256 (Base64.utf8 secret)⟩

/-- `AESEncryptBin._pad` -/
def pad (s : List UInt8) : List UInt8 :=
  s ++ List.replicate (addmore s.length) (UInt8.ofNat (addmore s.length))

/-- `AESEncryptBin.encrypt`, with the initialization vector that is drawn. -/
def encrypt (iv : InitVector) (raw : List UInt8) : Option (List UInt8) :=
  (lib.encrypt aes.privateKey iv (pad raw)).map (iv.1 ++ ·)

/-- `AESEncryptBin.decrypt` -/
def decrypt (enc : List UInt8) : Option (List UInt8) :=
  (lib.decrypt aes.privateKey (enc.take 16) (enc.drop 16)).bind unpad

/-- `decrypt` finds what it takes apart: a whole initialization vector, a last byte of the plaintext, and
no fewer bytes before its end than this one says are to be taken off. -/
def ReadsWithin (enc : List UInt8) : Prop :=
  16 ≤ enc.length ∧ ∃ plain last,
    lib.decrypt aes.privateKey (enc.take 16) (enc.drop 16) = some plain ∧
      plain.getLast? = some last ∧ 0 < last.toNat ∧ last.toNat ≤ plain.length

variable {lib aes}

theorem length_pad (s : List UInt8) : (pad s).length = s.length + addmore s.length := by
  rw [pad, List.length_append, List.length_replicate]

/-- The cipher is given a positive number of whole blocks: a whole block more where nothing is missing. -/
theorem length_pad_blocks (s : List UInt8) : (pad s).length = 16 * (s.length / 16 + 1) := by
  rw [length_pad]
  unfold addmore
  omega

/-- All bytes are encrypted; the cipher's part is decrypted to what it was given. -/
theorem encrypt_eq (iv : InitVector) (raw : List UInt8) :
    ∃ enc, lib.encrypt aes.privateKey iv (pad raw) = some enc ∧
      aes.encrypt lib iv raw = some (iv.1 ++ enc) ∧
      lib.decrypt aes.privateKey ((iv.1 ++ enc).take 16) ((iv.1 ++ enc).drop 16) = some (pad raw) := by
  have hblocks : (pad raw).length % 16 = 0 := by
    rw [length_pad_blocks]
    omega
  obtain ⟨enc, henc⟩ := Option.isSome_iff_exists.mp
    ((@Cryptodome.encrypt_isSome_iff lib aes.privateKey (pad raw) iv).mpr hblocks)
  refine ⟨enc, henc, by rw [encrypt, henc, Option.map_some], ?_⟩
  rw [List.take_left' iv.2, List.drop_left' iv.2, Cryptodome.decrypt_encrypt henc]

/-- All bytes are encrypted, and decrypted to what they were. -/
theorem decrypt_encrypt (iv : InitVector) (raw : List UInt8) :
    ∃ enc, aes.encrypt lib iv raw = some enc ∧ aes.decrypt lib enc = some raw := by
  obtain ⟨enc, -, hencrypt, hdecrypt⟩ := encrypt_eq iv raw
  refine ⟨iv.1 ++ enc, hencrypt, ?_⟩
  rw [decrypt, hdecrypt, Option.bind_some, pad, unpad_append]

theorem readsWithin_encrypt {iv : InitVector} {raw enc : List UInt8}
    (h : aes.encrypt lib iv raw = some enc) : aes.ReadsWithin lib enc := by
  obtain ⟨enc', -, hencrypt, hdecrypt⟩ := encrypt_eq iv raw
  obtain rfl : iv.1 ++ enc' = enc := Option.some.inj (hencrypt.symm.trans h)
  refine ⟨?_, pad raw, UInt8.ofNat (addmore raw.length), hdecrypt, getLast?_append_addmore raw _, ?_, ?_⟩
  · rw [List.length_append, iv.2]
    omega
  · rw [toNat_addmore]
    exact addmore_pos _
  · rw [toNat_addmore, length_pad]
    omega

/-- Bytes of any length round-trip: the cipher is given whole blocks, one at least, and what comes out is
taken apart within its bounds and decrypted to the bytes. -/
theorem roundTrip (lib : Cryptodome) (aes : AESEncryptBin) (iv : InitVector) (raw : List UInt8) :
    (∃ n, 0 < n ∧ (pad raw).length = 16 * n) ∧
      ∃ enc, aes.encrypt lib iv raw = some enc ∧ aes.ReadsWithin lib enc ∧
        aes.decrypt lib enc = some raw := by
  refine ⟨⟨raw.length / 16 + 1, Nat.succ_pos _, length_pad_blocks raw⟩, ?_⟩
  obtain ⟨enc, hencrypt, hdecrypt⟩ := @decrypt_encrypt lib aes iv raw
  exact ⟨enc, hencrypt, readsWithin_encrypt hencrypt, hdecrypt⟩

end AESEncryptBin

/-! ### Texts -/

/-- `AESEncrypt` -/
structure AESEncrypt where
  privateKey : List UInt8

namespace AESEncrypt

variable (lib : Cryptodome) (aes : AESEncrypt)

/-- `AESEncrypt.__init__` -/
def init (secret : String) : AESEncrypt := ⟨lib.sha256 (Base64.utf8 secret)⟩

/-- `AESEncrypt._pad`: the length is the number of characters. -/
def pad (s : String) : String :=
  String.ofList (s.toList ++ List.replicate (addmore s.length) (Char.ofNat (addmore s.length)))

/-- `AESEncrypt.encrypt`, with the initialization vector that is drawn. -/
def encrypt (iv : InitVector) (raw : String) : Option (List Char) :=
  (lib.encrypt aes.privateKey iv (Base64.utf8 (pad raw))).map fun bs => Base64.encode (iv.1 ++ bs)

/-- `AESEncrypt.decrypt` -/
def decrypt (enc : List Char) : Option (List UInt8) :=
  (Base64.decode enc).bind fun bs =>
    (lib.decrypt aes.privateKey (bs.take 16) (bs.drop 16)).bind unpad

/-- A text is encrypted, and what it is decrypted to is its bytes. -/
def RoundTrips (iv : InitVector) (s : String) : Prop :=
  ∃ enc, aes.encrypt lib iv s = some enc ∧ aes.decrypt lib enc = some (Base64.utf8 s)

variable {lib aes}

/-- The bytes of a text that is filled up: each character that is added is one byte. -/
theorem utf8_pad (s : String) : Base64.utf8 (pad s) = Base64.utf8 s ++
    List.replicate (addmore s.length) (UInt8.ofNat (addmore s.length)) := by
  have hle : addmore s.length < 17 := by unfold addmore; omega
  have hall : ∀ i : Fin 17, (Char.ofNat i).toNat = i := by decide +kernel
  have hchar : (Char.ofNat (addmore s.length)).toNat = addmore s.length := hall ⟨_, hle⟩
  have hbyte := Base64.utf8EncodeChar_of_lt (hchar.trans_lt (hle.trans (by omega)))
  rw [hchar] at hbyte
  rw [Base64.utf8, pad, String.toList_ofList, List.flatMap_append, Base64.utf8, List.flatMap_replicate,
    hbyte, List.flatten_replicate_singleton]

/-- A text is encrypted if its bytes are as many as its characters, modulo sixteen. -/
theorem encrypt_isSome_iff (iv : InitVector) (s : String) :
    (aes.encrypt lib iv s).isSome = true ↔ (Base64.utf8 s).length % 16 = s.length % 16 := by
  have hlength : (Base64.utf8 (pad s)).length = (Base64.utf8 s).length + addmore s.length := by
    rw [utf8_pad, List.length_append, List.length_replicate]
  rw [encrypt, Option.isSome_map, Cryptodome.encrypt_isSome_iff, hlength]
  unfold addmore
  omega

/-- What is encrypted is decrypted to its bytes. -/
theorem decrypt_encrypt {iv : InitVector} {s : String} {enc : List Char}
    (h : aes.encrypt lib iv s = some enc) : aes.decrypt lib enc = some (Base64.utf8 s) := by
  obtain ⟨bs, hbs, rfl⟩ := Option.map_eq_some_iff.mp h
  rw [decrypt, Base64.decode_encode, Option.bind_some, List.take_left' iv.2, List.drop_left' iv.2,
    Cryptodome.decrypt_encrypt hbs, Option.bind_some, utf8_pad, unpad_append]

/-- A text round-trips if its bytes are as many as its characters, modulo sixteen. -/
theorem roundTrips_iff (iv : InitVector) (s : String) :
    aes.RoundTrips lib iv s ↔ (Base64.utf8 s).length % 16 = s.length % 16 := by
  rw [← @encrypt_isSome_iff lib aes iv s, Option.isSome_iff_exists]
  constructor
  · rintro ⟨enc, henc, -⟩
    exact ⟨enc, henc⟩
  · rintro ⟨enc, henc⟩
    exact ⟨enc, henc, decrypt_encrypt henc⟩

/-- One letter of two bytes is filled up to seventeen bytes. -/
theorem accented_not_encrypted :
    ¬ AESEncrypt.RoundTrips ⟨id, fun _ _ => Equiv.refl Blocks⟩
      (AESEncrypt.init ⟨id, fun _ _ => Equiv.refl Blocks⟩ "secret")
      ⟨List.replicate 16 0, rfl⟩ "é" := by
  rintro ⟨enc, henc, -⟩
  have hlength := (encrypt_isSome_iff _ "é").mp (Option.isSome_iff_exists.mpr ⟨enc, henc⟩)
  exact absurd hlength (by decide +kernel)

end AESEncrypt

/-- Texts of ASCII characters, such as `json.dumps` writes, round-trip. -/
theorem AESEncrypt.roundTrips_of_ascii (lib : Cryptodome) (aes : AESEncrypt) (iv : InitVector)
    {s : String} (h : ∀ c ∈ s.toList, c.toNat < 128) :
    ∃ enc, aes.encrypt lib iv s = some enc ∧ aes.decrypt lib enc = some (Base64.utf8 s) := by
  have hlength : (Base64.utf8 s).length = s.length := by
    rw [Base64.utf8_of_ascii h, List.length_map, String.length_toList]
  obtain ⟨enc, henc⟩ := Option.isSome_iff_exists.mp
    ((@encrypt_isSome_iff lib aes iv s).mpr (congrArg (· % 16) hlength))
  exact ⟨enc, henc, decrypt_encrypt henc⟩

end Apicrud
