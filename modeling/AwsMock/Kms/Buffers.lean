import AwsMock.Core.Base64Integers
import AwsMock.Core.SignatureText

/-! # Symmetric encryption in memory

`EncryptPlaintext` and `DecryptPlaintext` for a symmetric key, with the memory that they and the
functions of `CryptoUtils` below them allot: twice the length of the plaintext for the
ciphertext, and a block more than the plaintext where the ciphertext is made.
-/

namespace AwsMock.Kms

open Foundation Machine Crypto

/-- The cipher of the crypto library with its fixed initial vector: what one update writes for
a text, and what the final call writes after it. -/
structure Evp where
  encryptUpdate : Bytes → Bytes → Bytes
  encryptFinal : Bytes → Bytes → Bytes
  decryptUpdate : Bytes → Bytes → Bytes
  decryptFinal : Bytes → Bytes → Bytes

namespace Evp

variable (evp : Evp)

def encrypt (key plaintext : Bytes) : Bytes :=
  evp.encryptUpdate key plaintext ++ evp.encryptFinal key plaintext

/-- An update writes the blocks that are full and the final call one block with padding, and
decryption gives back the plaintext. -/
structure IsLawful : Prop where
  length_encryptUpdate (key plaintext : Bytes) : key.length = 32 →
    (evp.encryptUpdate key plaintext).length = plaintext.length / 16 * 16
  length_encryptFinal (key plaintext : Bytes) : key.length = 32 →
    (evp.encryptFinal key plaintext).length = 16
  decrypt_encrypt (key plaintext : Bytes) : key.length = 32 →
    evp.decryptUpdate key (evp.encrypt key plaintext) ++
      evp.decryptFinal key (evp.encrypt key plaintext) = plaintext

end Evp

/-! ## The functions of `CryptoUtils` -/

/-- `OPENSSL_hexstr2buf`: pairs of digits, which colons may separate. -/
def hexstr2buf : Bytes → Option Bytes
  | [] => some []
  | [c] => if c = 58 then some [] else none
  | high :: low :: rest =>
    if high = 58 then hexstr2buf (low :: rest)
    else do
      let high ← Bytes.hexValue high
      let low ← Bytes.hexValue low
      return (high * 16 + low) :: (← hexstr2buf rest)

def hexDecode (hex out : Bytes) : Run Bytes :=
  match hexstr2buf hex with
  | none => .error .outOfRange
  | some bytes => do
      let out ← write out 0 bytes
      write out bytes.length [0]

section Encryption

variable (evp : Evp)

def aes256EncryptString (plaintext : Bytes) (length : Int) (key out : Bytes) :
    Run (Bytes × Int) := do
  let size ← int (length + 16)
  let first := evp.encryptUpdate key (plaintext.take length.toNat)
  let last := evp.encryptFinal key (plaintext.take length.toNat)
  let ciphertext ← write (allocate 0 size) 0 first
  let ciphertext ← write ciphertext first.length last
  let total ← int (first.length + last.length)
  let out ← write out 0 (ciphertext.take total.toNat)
  return (out, total)

def aes256DecryptString (ciphertext : Bytes) (length : Int) (key out : Bytes) :
    Run (Bytes × Int) := do
  let size ← int (length + 16)
  let first := evp.decryptUpdate key (ciphertext.take length.toNat)
  let last := evp.decryptFinal key (ciphertext.take length.toNat)
  let plaintext ← write (allocate 0 size) 0 first
  let plaintext ← write plaintext first.length last
  let total ← int (first.length + last.length)
  let out ← write out 0 (plaintext.take total.toNat)
  return (out, total)

/-! ## The functions of the service -/

/-- `EncryptPlaintext` for `SYMMETRIC_DEFAULT`. The key is given as the key entity has it. -/
def encryptPlaintext (aes256Key plainText : Bytes) : Run Bytes := do
  let rawKey ← hexDecode aes256Key (allocate 0 (aes256Key.length * 2))
  let rawPlaintext ← base64DecodeString plainText
  let plaintextLen := toInt rawPlaintext.length
  let size ← int (plaintextLen * 2)
  let (rawCiphertext, plaintextLen) ←
    aes256EncryptString evp rawPlaintext plaintextLen (rawKey.take 32) (allocate 0 size)
  base64EncodeString (rawCiphertext.take plaintextLen.toNat)

def decryptPlaintext (aes256Key ciphertext : Bytes) : Run Bytes := do
  let rawKey ← hexDecode aes256Key (allocate 0 (aes256Key.length * 2))
  let rawCiphertext ← base64DecodeString ciphertext
  let ciphertextLen := toInt rawCiphertext.length
  let size ← int (ciphertextLen * 2)
  let (rawPlaintext, ciphertextLen) ←
    aes256DecryptString evp rawCiphertext ciphertextLen (rawKey.take 32) (allocate 0 size)
  base64EncodeString (rawPlaintext.take ciphertextLen.toNat)

end Encryption

/-! ## What is written -/

section Writing

variable {evp : Evp} {key plaintext out : Bytes}

theorem hexstr2buf_hexEncode (bytes : Bytes) : hexstr2buf (hexEncode bytes) = some bytes := by
  induction bytes with
  | nil => rfl
  | cons b bytes ih =>
    obtain ⟨hhigh, hlow, hsum⟩ := hexValue_hexDigit false b
    have hcolon : hexDigit false (b / 16) ≠ 58 := by
      intro heq
      rw [heq] at hhigh
      cases hhigh
    have hcons : hexEncode (b :: bytes) =
        hexDigit false (b / 16) :: hexDigit false (b % 16) :: hexEncode bytes := rfl
    rw [hcons, hexstr2buf, if_neg hcolon, hhigh, hlow, ih]
    change some ((b / 16 * 16 + b % 16) :: bytes) = _
    rw [hsum]

theorem hexDecode_hexEncode (key : Bytes) (hne : key ≠ []) :
    ∃ rest, hexDecode (hexEncode key) (allocate 0 ((hexEncode key).length * 2)) =
      .ok (key ++ rest) := by
  have hpos := List.length_pos_iff.mpr hne
  have hlength : (hexEncode key).length = 2 * key.length := by
    rw [hexEncode, List.length_flatMap]
    simp [Nat.mul_comm]
  have hroom : (allocate (0 : UInt8) (((hexEncode key).length : Int) * 2)).length =
      4 * key.length := by
    rw [length_allocate, hlength]
    omega
  have hrest : [(0 : UInt8)].length ≤
      ((allocate (0 : UInt8) (((hexEncode key).length : Int) * 2)).drop key.length).length := by
    rw [List.length_drop, hroom, List.length_singleton]
    omega
  rw [hexDecode, hexstr2buf_hexEncode]
  dsimp only
  rw [write_start (by omega), ok_bind, write_append hrest, List.append_assoc]
  exact ⟨_, rfl⟩

theorem Evp.IsLawful.length_encrypt (hlawful : evp.IsLawful) (hkey : key.length = 32) :
    (evp.encrypt key plaintext).length = plaintext.length / 16 * 16 + 16 := by
  rw [Evp.encrypt, List.length_append, hlawful.length_encryptUpdate _ _ hkey,
    hlawful.length_encryptFinal _ _ hkey]

theorem aes256EncryptString_eq (hlawful : evp.IsLawful) (hkey : key.length = 32)
    (hle : plaintext.length ≤ 536870910) :
    aes256EncryptString evp plaintext plaintext.length key out =
      if plaintext.length / 16 * 16 + 16 ≤ out.length then
        .ok (evp.encrypt key plaintext ++ out.drop (evp.encrypt key plaintext).length,
          (evp.encrypt key plaintext).length)
      else .error .outOfRange := by
  have hfirst := hlawful.length_encryptUpdate key plaintext hkey
  have hlast := hlawful.length_encryptFinal key plaintext hkey
  have hlength := @Evp.IsLawful.length_encrypt evp key plaintext hlawful hkey
  have hroom : (allocate (0 : UInt8) ((plaintext.length : Int) + 16)).length =
      plaintext.length + 16 := by
    rw [length_allocate]
    omega
  have htotal : (((evp.encryptUpdate key plaintext).length : Int) +
      (evp.encryptFinal key plaintext).length).toNat = (evp.encrypt key plaintext).length := by
    rw [hlength, hfirst, hlast]
    omega
  rw [aes256EncryptString, int_of_fits ⟨by omega, by omega⟩, ok_bind]
  dsimp only
  rw [Int.toNat_natCast, List.take_length, write_start (by omega), ok_bind,
    write_append (by rw [List.length_drop]; omega), ok_bind,
    int_of_fits ⟨by omega, by omega⟩, ok_bind, htotal, ← Evp.encrypt, List.take_left]
  split
  next hfits =>
    rw [write_start (by omega), ok_bind]
    congr 2
    rw [hlength, hfirst, hlast]
    omega
  next hnot =>
    rw [write, if_neg (by omega)]
    rfl

theorem aes256DecryptString_encrypt (hlawful : evp.IsLawful) (hkey : key.length = 32)
    (hle : (evp.encrypt key plaintext).length ≤ 536870910)
    (hout : plaintext.length ≤ out.length) :
    aes256DecryptString evp (evp.encrypt key plaintext) (evp.encrypt key plaintext).length key out =
      .ok (plaintext ++ out.drop plaintext.length, plaintext.length) := by
  have hlength := @Evp.IsLawful.length_encrypt evp key plaintext hlawful hkey
  have hdecrypt := hlawful.decrypt_encrypt key plaintext hkey
  have hsum := congrArg List.length hdecrypt
  rw [List.length_append] at hsum
  have hroom : (allocate (0 : UInt8) (((evp.encrypt key plaintext).length : Int) + 16)).length =
      (evp.encrypt key plaintext).length + 16 := by
    rw [length_allocate]
    omega
  have htotal : (((evp.decryptUpdate key (evp.encrypt key plaintext)).length : Int) +
      (evp.decryptFinal key (evp.encrypt key plaintext)).length).toNat = plaintext.length := by
    omega
  rw [aes256DecryptString, int_of_fits ⟨by omega, by omega⟩, ok_bind]
  dsimp only
  rw [Int.toNat_natCast, List.take_length, write_start (by omega), ok_bind,
    write_append (by rw [List.length_drop]; omega), ok_bind,
    int_of_fits ⟨by omega, by omega⟩, ok_bind, htotal, hdecrypt, List.take_left,
    write_start hout, ok_bind]
  congr 2
  omega

theorem rawKey_eq (hkey : key.length = 32) :
    ∃ rawKey, hexDecode (hexEncode key) (allocate 0 ((hexEncode key).length * 2)) = .ok rawKey ∧
      rawKey.take 32 = key := by
  have hne : key ≠ [] := by
    intro heq
    rw [heq] at hkey
    cases hkey
  obtain ⟨rest, hdecode⟩ := hexDecode_hexEncode key hne
  exact ⟨_, hdecode, hkey ▸ List.take_left⟩

theorem encryptPlaintext_eq (hlawful : evp.IsLawful) (hkey : key.length = 32)
    (hle : plaintext.length ≤ 536870910) :
    encryptPlaintext evp (hexEncode key) (base64Encode plaintext) =
      if 8 ≤ plaintext.length then .ok (encodeBlock (evp.encrypt key plaintext))
      else .error .outOfRange := by
  obtain ⟨rawKey, hdecode, hraw⟩ := rawKey_eq hkey
  have hlength := @Evp.IsLawful.length_encrypt evp key plaintext hlawful hkey
  have hroom : (allocate (0 : UInt8) ((plaintext.length : Int) * 2)).length =
      2 * plaintext.length := by
    rw [length_allocate]
    omega
  have hiff : plaintext.length / 16 * 16 + 16 ≤
      (allocate (0 : UInt8) ((plaintext.length : Int) * 2)).length ↔ 8 ≤ plaintext.length := by
    omega
  rw [encryptPlaintext, hdecode, ok_bind, base64Encode, base64DecodeString_encodeBlock hle, ok_bind]
  dsimp only
  rw [toInt_of_lt (by omega), int_of_fits ⟨by omega, by omega⟩, ok_bind, hraw,
    aes256EncryptString_eq hlawful hkey hle]
  simp only [hiff]
  split
  next =>
    rw [ok_bind]
    dsimp only
    rw [Int.toNat_natCast, List.take_left, base64EncodeString_of_le (by omega)]
  next => rfl

theorem decryptPlaintext_eq (hlawful : evp.IsLawful) (hkey : key.length = 32)
    (hle : (evp.encrypt key plaintext).length ≤ 536870910) :
    decryptPlaintext evp (hexEncode key) (encodeBlock (evp.encrypt key plaintext)) =
      .ok (base64Encode plaintext) := by
  obtain ⟨rawKey, hdecode, hraw⟩ := rawKey_eq hkey
  have hlength := @Evp.IsLawful.length_encrypt evp key plaintext hlawful hkey
  have hroom : (allocate (0 : UInt8) (((evp.encrypt key plaintext).length : Int) * 2)).length =
      2 * (evp.encrypt key plaintext).length := by
    rw [length_allocate]
    omega
  rw [decryptPlaintext, hdecode, ok_bind, base64DecodeString_encodeBlock hle, ok_bind]
  dsimp only
  rw [toInt_of_lt (by omega), int_of_fits ⟨by omega, by omega⟩, ok_bind, hraw,
    aes256DecryptString_encrypt hlawful hkey hle (by omega), ok_bind]
  dsimp only
  rw [Int.toNat_natCast, List.take_left, base64EncodeString_of_le (by omega), base64Encode]

end Writing

/-! ## A block cipher with padding -/

section Masks

variable (mask : Bytes)

def padded (text : Bytes) : Bytes :=
  text ++ List.replicate (16 - text.length % 16) (UInt8.ofNat (16 - text.length % 16))

def masked (text : Bytes) : Bytes := text.mapIdx fun i b => b ^^^ mask.getD (i % 16) 0

def unpadded (text : Bytes) : Bytes := text.take (text.length - (text.getLastD 0).toNat)

/-- The cipher does what the library does for the key and the text that the mask belongs to. -/
def maskedEvp : Evp where
  encryptUpdate _ text := (masked mask (padded text)).take (text.length / 16 * 16)
  encryptFinal _ text := (masked mask (padded text)).drop (text.length / 16 * 16)
  decryptUpdate _ text := (unpadded (masked mask text)).take (text.length - 16)
  decryptFinal _ text := (unpadded (masked mask text)).drop (text.length - 16)

variable (text : Bytes)

theorem length_padded : (padded text).length = text.length / 16 * 16 + 16 := by
  rw [padded, List.length_append, List.length_replicate]
  omega

theorem unpadded_padded : unpadded (padded text) = text := by
  have hpos : 16 - text.length % 16 = 15 - text.length % 16 + 1 := by omega
  have hlast : (padded text).getLastD 0 = UInt8.ofNat (16 - text.length % 16) := by
    rw [padded, hpos, List.replicate_succ', ← List.append_assoc]
    exact List.getLastD_concat
  have hnat : (UInt8.ofNat (16 - text.length % 16)).toNat = 16 - text.length % 16 := by
    rw [UInt8.toNat_ofNat']
    omega
  rw [unpadded, hlast, hnat, length_padded,
    show text.length / 16 * 16 + 16 - (16 - text.length % 16) = text.length by omega, padded,
    List.take_left]

theorem masked_masked : masked mask (masked mask text) = text := by
  refine List.ext_getElem (by simp [masked]) ?_
  intro i hleft hright
  simp [masked, UInt8.xor_assoc]

theorem maskedEvp_encrypt (key text : Bytes) :
    (maskedEvp mask).encrypt key text = masked mask (padded text) :=
  List.take_append_drop _ _

theorem maskedEvp_isLawful : (maskedEvp mask).IsLawful where
  length_encryptUpdate key text _ := by
    change ((masked mask (padded text)).take _).length = _
    rw [List.length_take, masked, List.length_mapIdx, length_padded]
    omega
  length_encryptFinal key text _ := by
    change ((masked mask (padded text)).drop _).length = _
    rw [List.length_drop, masked, List.length_mapIdx, length_padded]
    omega
  decrypt_encrypt key text _ := by
    rw [maskedEvp_encrypt]
    change List.take _ (unpadded _) ++ List.drop _ (unpadded _) = _
    rw [List.take_append_drop, masked_masked, unpadded_padded]

end Masks

/-- Under a key of ones the empty text becomes the block `a9a2…0455`. -/
def emptyMask : Bytes :=
  [185, 178, 46, 198, 76, 192, 191, 147, 52, 191, 158, 38, 182, 4, 20, 69]

/-- Under a key of ones the text `awsmock!` becomes the block `a3d2…8715`. -/
def nameMask : Bytes :=
  [194, 165, 66, 27, 75, 127, 255, 71, 54, 116, 248, 179, 183, 40, 143, 29]

/-! ## Encryption and decryption -/

section Trips

variable {evp : Evp} {key plaintext : Bytes}

/-- Both functions end without a fault, and the plaintext is what comes out. -/
def Encrypts (evp : Evp) (key plaintext : Bytes) : Prop :=
  ∃ ciphertext, encryptPlaintext evp (hexEncode key) (base64Encode plaintext) = .ok ciphertext ∧
    decryptPlaintext evp (hexEncode key) ciphertext = .ok (base64Encode plaintext)

theorem length_of_decryptPlaintext {ciphertext result : Bytes}
    (hok : decryptPlaintext evp key ciphertext = .ok result) : result.length < 2147483648 := by
  obtain ⟨rawKey, -, hok⟩ := bind_eq_ok.mp hok
  obtain ⟨rawCiphertext, -, hok⟩ := bind_eq_ok.mp hok
  obtain ⟨size, -, hok⟩ := bind_eq_ok.mp hok
  obtain ⟨⟨rawPlaintext, length⟩, -, hok⟩ := bind_eq_ok.mp hok
  dsimp only at hok
  by_cases hnil : rawPlaintext.take length.toNat = []
  · rw [hnil] at hok
    obtain rfl := Except.ok.inj hok
    decide
  · exact (length_base64EncodeString hnil hok).1

/-- Plaintexts of less than eight bytes do not have the room that their block needs, and at the
other end the lengths are no integers. -/
theorem encrypts_iff (hlawful : evp.IsLawful) (hkey : key.length = 32) :
    Encrypts evp key plaintext ↔ 8 ≤ plaintext.length ∧ plaintext.length ≤ 536870895 := by
  have hlength := @Evp.IsLawful.length_encrypt evp key plaintext hlawful hkey
  constructor
  · rintro ⟨ciphertext, hencrypt, hdecrypt⟩
    have hlt := length_of_decryptPlaintext hdecrypt
    rw [base64Encode] at hlt
    have hle : plaintext.length ≤ 536870910 := by
      obtain ⟨rawKey, -, hencrypt⟩ := bind_eq_ok.mp hencrypt
      obtain ⟨rawPlaintext, hdecode, -⟩ := bind_eq_ok.mp hencrypt
      exact le_of_base64DecodeString hlt hdecode
    rw [encryptPlaintext_eq hlawful hkey hle] at hencrypt
    split at hencrypt
    next height =>
      obtain rfl := Except.ok.inj hencrypt
      refine ⟨height, ?_⟩
      have hblock : (encodeBlock (evp.encrypt key plaintext)).length < 2147483648 :=
        length_encodeBlock_lt (Int.le_refl _) (by rw [hlength]; omega)
      obtain ⟨rawKey, -, hdecrypt⟩ := bind_eq_ok.mp hdecrypt
      obtain ⟨rawCiphertext, hdecode, -⟩ := bind_eq_ok.mp hdecrypt
      have hcipher := le_of_base64DecodeString hblock hdecode
      omega
    next => cases hencrypt
  · rintro ⟨height, hle⟩
    refine ⟨_, (encryptPlaintext_eq hlawful hkey (by omega)).trans (if_pos height), ?_⟩
    exact decryptPlaintext_eq hlawful hkey (by omega)

end Trips

theorem encrypts_name :
    Encrypts (maskedEvp nameMask) (List.replicate 32 1) [97, 119, 115, 109, 111, 99, 107, 33] ↔
      8 ≤ 8 ∧ 8 ≤ 536870895 :=
  encrypts_iff (maskedEvp_isLawful nameMask) rfl

/-- The block of an empty text is written into memory for twice its length. -/
theorem not_encrypts_empty :
    ¬∀ (evp : Evp), evp.IsLawful → ∀ key plaintext : Bytes, key.length = 32 →
      Encrypts evp key plaintext := by
  intro hall
  obtain ⟨ciphertext, hencrypt, -⟩ :=
    hall (maskedEvp emptyMask) (maskedEvp_isLawful emptyMask) (List.replicate 32 1) [] rfl
  rw [encryptPlaintext_eq (maskedEvp_isLawful emptyMask) rfl (by decide)] at hencrypt
  cases hencrypt

end AwsMock.Kms
