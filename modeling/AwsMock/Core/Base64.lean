import AwsMock.Core.Http
import Mathlib.Data.List.DropRight

/-! # Base64

`Base64Encode` and `Base64Decode` of `CryptoUtils`, with the block functions of the crypto
library that they call. The decoder works on a C string, allots three bytes for every four
characters and takes off as many as there are padding characters.
-/

namespace AwsMock.Crypto

/-! ## Block functions -/

def alphabet : Bytes :=
  ascii "ABCDEFGHIJKLMNOPQRSTUVWXYZabcdefghijklmnopqrstuvwxyz0123456789+/"

def encodeSextet (n : Nat) : UInt8 := alphabet.getD n 61

/-- The sextet of a character; the padding character stands for zero. -/
def decodeSextet (c : UInt8) : Option Nat :=
  if c = 61 then some 0 else alphabet.findIdx? (· = c)

/-- `EVP_EncodeBlock`. -/
def encodeBlock : Bytes → Bytes
  | [] => []
  | [a] => [encodeSextet (a.toNat / 4), encodeSextet (a.toNat % 4 * 16), 61, 61]
  | [a, b] =>
    [encodeSextet (a.toNat / 4), encodeSextet (a.toNat % 4 * 16 + b.toNat / 16),
      encodeSextet (b.toNat % 16 * 4), 61]
  | a :: b :: c :: rest =>
    encodeSextet (a.toNat / 4) :: encodeSextet (a.toNat % 4 * 16 + b.toNat / 16) ::
      encodeSextet (b.toNat % 16 * 4 + c.toNat / 64) :: encodeSextet (c.toNat % 64) ::
        encodeBlock rest

def joinSextets (a b c d : Nat) : Bytes :=
  [UInt8.ofNat (a * 4 + b / 16), UInt8.ofNat (b % 16 * 16 + c / 4), UInt8.ofNat (c % 4 * 64 + d)]

/-- What is written until a character is not one of the alphabet. -/
def decodeQuads : Bytes → Bytes
  | a :: b :: c :: d :: rest =>
    match decodeSextet a, decodeSextet b, decodeSextet c, decodeSextet d with
    | some a, some b, some c, some d => joinSextets a b c d ++ decodeQuads rest
    | _, _, _, _ => []
  | _ => []

def isBlank (c : UInt8) : Bool := c = 32 || c = 9

def isTrailer (c : UInt8) : Bool := isBlank c || c = 10 || c = 13 || c = 45

/-- Blanks at the start are skipped, and at the end what may follow a text, down to three
characters. -/
def trimBlock (text : Bytes) : Bytes :=
  let text := text.dropWhile isBlank
  text.take (max 3 (text.rdropWhile isTrailer).length)

/-- What `EVP_DecodeBlock` writes. -/
def decodeBlock (text : Bytes) : Bytes :=
  if (trimBlock text).length % 4 = 0 then decodeQuads (trimBlock text) else []

/-! ## The functions of `CryptoUtils` -/

def base64Encode (decoded : Bytes) : Bytes := encodeBlock decoded

def paddingLength (text : Bytes) : Nat := (text.reverse.takeWhile (· = 61)).length

/-- The text ends at the first null character. The memory that the block function does not
write is zero. -/
def base64Decode (encoded : Bytes) : Bytes :=
  let text := encoded.takeWhile (· ≠ 0)
  let dataLength := 3 * text.length / 4
  (decodeBlock text ++ List.replicate dataLength 0).take (dataLength - paddingLength text)

section Decoding

def padding (decoded : Bytes) : Nat := (3 - decoded.length % 3) % 3

set_option maxRecDepth 4000 in
theorem decodeSextet_encodeSextet {n : Nat} (hlt : n < 64) :
    decodeSextet (encodeSextet n) = some n := by
  have hall : ∀ n < 64, decodeSextet (encodeSextet n) = some n := by decide
  exact hall n hlt

set_option maxRecDepth 4000 in
theorem encodeSextet_ne {n : Nat} (hlt : n < 64) :
    encodeSextet n ≠ 61 ∧ encodeSextet n ≠ 0 ∧ isTrailer (encodeSextet n) = false := by
  have hall : ∀ n < 64, encodeSextet n ≠ 61 ∧ encodeSextet n ≠ 0 ∧
      isTrailer (encodeSextet n) = false := by
    decide
  exact hall n hlt

theorem padding_cons (a b c : UInt8) (rest : Bytes) :
    padding (a :: b :: c :: rest) = padding rest := by
  simp only [padding, List.length_cons]
  omega

variable (decoded : Bytes)

theorem length_encodeBlock :
    3 * (encodeBlock decoded).length = 4 * (decoded.length + padding decoded) := by
  induction decoded using encodeBlock.induct with
  | case1 => rfl
  | case2 a => rfl
  | case3 a b => rfl
  | case4 a b c rest ih =>
    rw [encodeBlock, padding_cons]
    simp only [List.length_cons]
    omega

theorem length_encodeBlock_mod : (encodeBlock decoded).length % 4 = 0 := by
  induction decoded using encodeBlock.induct with
  | case1 => rfl
  | case2 a => simp [encodeBlock]
  | case3 a b => simp [encodeBlock]
  | case4 a b c rest ih =>
    rw [encodeBlock]
    simp only [List.length_cons]
    omega

theorem forall_mem_encodeBlock_of {P : UInt8 → Prop} (hsextet : ∀ n < 64, P (encodeSextet n))
    (hpad : P 61) (decoded : Bytes) : ∀ c ∈ encodeBlock decoded, P c := by
  induction decoded using encodeBlock.induct with
  | case1 => exact fun c hc => absurd hc List.not_mem_nil
  | case2 a =>
    have ha := a.toNat_lt
    rw [encodeBlock]
    simp only [List.forall_mem_cons]
    exact ⟨hsextet _ (by omega), hsextet _ (by omega), hpad, hpad,
      fun c hc => absurd hc List.not_mem_nil⟩
  | case3 a b =>
    have ha := a.toNat_lt
    have hb := b.toNat_lt
    rw [encodeBlock]
    simp only [List.forall_mem_cons]
    exact ⟨hsextet _ (by omega), hsextet _ (by omega), hsextet _ (by omega), hpad,
      fun c hc => absurd hc List.not_mem_nil⟩
  | case4 a b c rest ih =>
    have ha := a.toNat_lt
    have hb := b.toNat_lt
    have hc := c.toNat_lt
    rw [encodeBlock]
    simp only [List.forall_mem_cons]
    exact ⟨hsextet _ (by omega), hsextet _ (by omega), hsextet _ (by omega),
      hsextet _ (by omega), ih⟩

theorem forall_mem_encodeBlock :
    ∀ c ∈ encodeBlock decoded, c ≠ 0 ∧ isTrailer c = false :=
  forall_mem_encodeBlock_of (fun _ hlt => (encodeSextet_ne hlt).2) (by decide) decoded

theorem joinSextets_split (a b c : UInt8) :
    joinSextets (a.toNat / 4) (a.toNat % 4 * 16 + b.toNat / 16)
      (b.toNat % 16 * 4 + c.toNat / 64) (c.toNat % 64) = [a, b, c] := by
  have ha := a.toNat_lt
  have hb := b.toNat_lt
  have hc := c.toNat_lt
  have hfirst : a.toNat / 4 * 4 + (a.toNat % 4 * 16 + b.toNat / 16) / 16 = a.toNat := by omega
  have hsecond : (a.toNat % 4 * 16 + b.toNat / 16) % 16 * 16 +
      (b.toNat % 16 * 4 + c.toNat / 64) / 4 = b.toNat := by omega
  have hthird : (b.toNat % 16 * 4 + c.toNat / 64) % 4 * 64 + c.toNat % 64 = c.toNat := by omega
  rw [joinSextets, hfirst, hsecond, hthird, UInt8.ofNat_toNat, UInt8.ofNat_toNat, UInt8.ofNat_toNat]

theorem decodeQuads_cons {a b c d : Nat} (ha : a < 64) (hb : b < 64) (hc : c < 64) (hd : d < 64)
    (rest : Bytes) :
    decodeQuads (encodeSextet a :: encodeSextet b :: encodeSextet c :: encodeSextet d :: rest) =
      joinSextets a b c d ++ decodeQuads rest := by
  rw [decodeQuads, decodeSextet_encodeSextet ha, decodeSextet_encodeSextet hb,
    decodeSextet_encodeSextet hc, decodeSextet_encodeSextet hd]

theorem decodeQuads_encodeBlock :
    decodeQuads (encodeBlock decoded) = decoded ++ List.replicate (padding decoded) 0 := by
  have hpad : decodeSextet 61 = some 0 := rfl
  induction decoded using encodeBlock.induct with
  | case1 => rfl
  | case2 a =>
    have ha := a.toNat_lt
    have hjoin := joinSextets_split a 0 0
    rw [encodeBlock, decodeQuads, decodeSextet_encodeSextet (by omega),
      decodeSextet_encodeSextet (by omega), hpad]
    simp only [UInt8.toNat_zero, Nat.zero_div, Nat.zero_mod, Nat.zero_mul, Nat.add_zero] at hjoin
    change joinSextets _ _ _ _ ++ decodeQuads [] = _
    rw [hjoin]
    rfl
  | case3 a b =>
    have ha := a.toNat_lt
    have hb := b.toNat_lt
    have hjoin := joinSextets_split a b 0
    rw [encodeBlock, decodeQuads, decodeSextet_encodeSextet (by omega),
      decodeSextet_encodeSextet (by omega), decodeSextet_encodeSextet (by omega), hpad]
    simp only [UInt8.toNat_zero, Nat.zero_div, Nat.zero_mod, Nat.add_zero] at hjoin
    change joinSextets _ _ _ _ ++ decodeQuads [] = _
    rw [hjoin]
    rfl
  | case4 a b c rest ih =>
    have ha := a.toNat_lt
    have hb := b.toNat_lt
    have hc := c.toNat_lt
    rw [encodeBlock, decodeQuads_cons (by omega) (by omega) (by omega) (by omega),
      joinSextets_split, ih, padding_cons]
    rfl

theorem takeWhile_append_of_exists {p : UInt8 → Bool} {first second : Bytes}
    (hexists : ∃ c ∈ first, p c = false) :
    (first ++ second).takeWhile p = first.takeWhile p := by
  induction first with
  | nil =>
    obtain ⟨c, hc, _⟩ := hexists
    cases hc
  | cons c first ih =>
    rw [List.cons_append, List.takeWhile_cons, List.takeWhile_cons]
    cases hp : p c with
    | false => rfl
    | true =>
      obtain ⟨d, hd, hfalse⟩ := hexists
      rcases List.mem_cons.mp hd with rfl | hrest
      · rw [hp] at hfalse
        cases hfalse
      · rw [if_pos rfl, if_pos rfl, ih ⟨d, hrest, hfalse⟩]

theorem paddingLength_append {first second : Bytes} (hexists : ∃ c ∈ second, c ≠ 61) :
    paddingLength (first ++ second) = paddingLength second := by
  rw [paddingLength, List.reverse_append, takeWhile_append_of_exists, paddingLength]
  obtain ⟨c, hc, hne⟩ := hexists
  exact ⟨c, List.mem_reverse.mpr hc, decide_eq_false hne⟩

theorem paddingLength_encodeBlock :
    paddingLength (encodeBlock decoded) = padding decoded := by
  induction decoded using encodeBlock.induct with
  | case1 => rfl
  | case2 a =>
    have ha := a.toNat_lt
    have hne := (encodeSextet_ne (show a.toNat % 4 * 16 < 64 by omega)).1
    rw [encodeBlock, paddingLength]
    simp [hne, padding]
  | case3 a b =>
    have hb := b.toNat_lt
    have hne := (encodeSextet_ne (show b.toNat % 16 * 4 < 64 by omega)).1
    rw [encodeBlock, paddingLength]
    simp [hne, padding]
  | case4 a b c rest ih =>
    have hc := c.toNat_lt
    rw [encodeBlock, padding_cons]
    cases rest with
    | nil =>
      have hne := (encodeSextet_ne (show c.toNat % 64 < 64 by omega)).1
      rw [encodeBlock, paddingLength]
      simp [hne, padding]
    | cons d rest =>
      rw [← ih]
      refine @paddingLength_append [_, _, _, _] _ ?_
      have hd := d.toNat_lt
      have hne := (encodeSextet_ne (show d.toNat / 4 < 64 by omega)).1
      match rest with
      | [] => exact ⟨_, List.mem_cons_self, hne⟩
      | [_] => exact ⟨_, List.mem_cons_self, hne⟩
      | _ :: _ :: _ => exact ⟨_, List.mem_cons_self, hne⟩

theorem trimBlock_of_forall {text : Bytes} (hall : ∀ c ∈ text, isTrailer c = false) :
    trimBlock text = text := by
  have hblank : ∀ c ∈ text, isBlank c = false := by
    intro c hc
    have htrailer := hall c hc
    simp only [isTrailer, Bool.or_eq_false_iff] at htrailer
    exact htrailer.1.1.1
  have hdrop : text.dropWhile isBlank = text := by
    cases text with
    | nil => rfl
    | cons c text => rw [List.dropWhile_cons_of_neg (by simp [hblank c List.mem_cons_self])]
  have hend : text.rdropWhile isTrailer = text := by
    rw [List.rdropWhile_eq_self_iff]
    intro hne
    rw [hall _ (List.getLast_mem hne)]
    exact Bool.false_ne_true
  rw [trimBlock, hdrop, hend]
  exact List.take_of_length_le (Nat.le_max_right _ _)

theorem base64Decode_base64Encode :
    base64Decode (base64Encode decoded) = decoded := by
  have hall := forall_mem_encodeBlock decoded
  have htext : (encodeBlock decoded).takeWhile (· ≠ 0) = encodeBlock decoded := by
    rw [List.takeWhile_eq_self_iff]
    exact fun c hc => decide_eq_true (hall c hc).1
  have hblock : decodeBlock (encodeBlock decoded) =
      decoded ++ List.replicate (padding decoded) 0 := by
    rw [decodeBlock, trimBlock_of_forall fun c hc => (hall c hc).2,
      if_pos (length_encodeBlock_mod decoded), decodeQuads_encodeBlock]
  have hlength := length_encodeBlock decoded
  rw [base64Decode, base64Encode, htext, hblock, paddingLength_encodeBlock, List.append_assoc]
  have htake : 3 * (encodeBlock decoded).length / 4 - padding decoded = decoded.length := by omega
  rw [htake]
  exact List.take_left

end Decoding

example : base64Encode (ascii "Man") = ascii "TWFu" := by decide

end AwsMock.Crypto
