import Mathlib.Data.List.GetD
import AwsMock.Core.Base64
import AwsMock.Foundation.Machine

/-! # The integers of Base64

The four functions of `CryptoUtils` with the 32-bit integers that they count with. The decoder
of texts takes off padding characters from the end without looking where the text starts, and
makes a text of the length that is left.
-/

namespace AwsMock.Crypto

open Foundation Machine

/-! ## The block functions -/

/-- What is written when every character is one of the alphabet. -/
def decodeQuads? : Bytes → Option Bytes
  | a :: b :: c :: d :: rest => do
      let a ← decodeSextet a
      let b ← decodeSextet b
      let c ← decodeSextet c
      let d ← decodeSextet d
      let decoded ← decodeQuads? rest
      return joinSextets a b c d ++ decoded
  | _ => some []

/-- `EVP_DecodeBlock` with its result: what it writes, or an error. -/
def evpDecodeBlock (text : Bytes) (length : Int) : Option Bytes :=
  if length < 0 then none
  else
    let block := trimBlock (text.take length.toNat)
    if block.length % 4 = 0 then decodeQuads? block else none

/-! ## The functions of `CryptoUtils` -/

/-- There is no memory of a negative size, and a null character is written behind the text. -/
def base64EncodeString (decoded : Bytes) : Run Bytes :=
  if decoded = [] then .ok []
  else do
    let dataLength := toInt decoded.length
    let sum ← int (dataLength + 2)
    let length ← int (4 * sum.tdiv 3)
    if length < 0 then .error .outOfRange
    else .ok (encodeBlock (decoded.take dataLength.toNat))

def base64EncodeRaw (data : Bytes) : Run Bytes :=
  if data = [] then .ok []
  else do
    let dataLength := toInt data.length
    let sum ← int (dataLength + 2)
    let length ← int (4 * sum.tdiv 3)
    if length < 0 then .error .exception
    else .ok (encodeBlock (data.take dataLength.toNat))

/-- `while (encodedString[--dataB64_len] == '=') data_len--`. -/
def stripPadding (encoded : Bytes) : Nat → Int → Run Int
  | 0, _ => .error .outOfRange
  | index + 1, dataLength =>
    if encoded.getD index 0 = 61 then stripPadding encoded index (dataLength - 1)
    else .ok dataLength

def base64DecodeString (encoded : Bytes) : Run Bytes :=
  if encoded = [] then .ok []
  else do
    let text := encoded.takeWhile (· ≠ 0)
    let length := toInt text.length
    let product ← int (3 * length)
    let dataLength := product.tdiv 4
    let kept ← stripPadding encoded length.toNat dataLength
    if kept < 0 then .error .exception
    else .ok ((decodeBlock (text.take length.toNat) ++
      List.replicate dataLength.toNat 0).take kept.toNat)

def lastPadding (encoded : Bytes) : Nat :=
  if 2 ≤ encoded.length then
    (if encoded.getD (encoded.length - 1) 0 = 61 then 1 else 0) +
      if encoded.getD (encoded.length - 2) 0 = 61 then 1 else 0
  else 0

def base64DecodeRaw (encoded : Bytes) : Run Bytes :=
  if encoded = [] then .ok []
  else do
    let length := toInt encoded.length
    let decodedLength ← int (3 * length.tdiv 4)
    if decodedLength < 0 then .error .exception
    else
      match evpDecodeBlock encoded length with
      | none => .ok []
      | some written =>
        if (written.length : Int) - lastPadding encoded < 0 then .error .exception
        else .ok (written.take (written.length - lastPadding encoded))

/-! ## Padding -/

section Padding

variable {text first second : Bytes} {c : UInt8}

theorem paddingLength_concat (text : Bytes) (c : UInt8) :
    paddingLength (text ++ [c]) = if c = 61 then paddingLength text + 1 else 0 := by
  rw [paddingLength, List.reverse_append, List.reverse_singleton, List.singleton_append]
  split
  next hpad =>
    subst hpad
    rfl
  next hne => rw [List.takeWhile_cons_of_neg (by simpa using hne), List.length_nil]

theorem stripPadding_eq {encoded : Bytes} {length : Nat} (hle : length ≤ encoded.length)
    (dataLength : Int) :
    stripPadding encoded length dataLength =
      if paddingLength (encoded.take length) < length
      then .ok (dataLength - paddingLength (encoded.take length)) else .error .outOfRange := by
  induction length generalizing dataLength with
  | zero => rfl
  | succ length ih =>
    have hlt : length < encoded.length := hle
    have htake : encoded.take (length + 1) = encoded.take length ++ [encoded[length]] :=
      List.take_succ_eq_append_getElem hlt
    have hget : encoded.getD length 0 = encoded[length] := List.getD_eq_getElem _ _ hlt
    rw [stripPadding, htake, paddingLength_concat, hget]
    split
    next hpad =>
      rw [ih (Nat.le_of_lt hlt)]
      have hiff : paddingLength (encoded.take length) < length ↔
          paddingLength (encoded.take length) + 1 < length + 1 := by omega
      simp only [hiff]
      split
      · congr 1
        omega
      · rfl
    next hne =>
      rw [if_pos (Nat.succ_pos length)]
      congr 1
      omega

theorem lastPadding_append (hlong : 2 ≤ second.length) :
    lastPadding (first ++ second) = lastPadding second := by
  have hsum : (first ++ second).length = first.length + second.length := List.length_append
  have hlast : (first ++ second).getD ((first ++ second).length - 1) 0 =
      second.getD (second.length - 1) 0 := by
    rw [List.getD_append_right _ _ _ _ (by omega)]
    congr 1
    omega
  have hbefore : (first ++ second).getD ((first ++ second).length - 2) 0 =
      second.getD (second.length - 2) 0 := by
    rw [List.getD_append_right _ _ _ _ (by omega)]
    congr 1
    omega
  rw [lastPadding, lastPadding, hlast, hbefore, if_pos hlong, if_pos (by omega)]

theorem lastPadding_encodeBlock (decoded : Bytes) :
    lastPadding (encodeBlock decoded) = padding decoded := by
  induction decoded using encodeBlock.induct with
  | case1 => rfl
  | case2 a => rfl
  | case3 a b =>
    have hb := b.toNat_lt
    have hne := (encodeSextet_ne (show b.toNat % 16 * 4 < 64 by omega)).1
    rw [encodeBlock, lastPadding]
    simp [hne, padding]
  | case4 a b c rest ih =>
    have hc := c.toNat_lt
    rw [encodeBlock, padding_cons]
    cases rest with
    | nil =>
      have hne := (encodeSextet_ne (show b.toNat % 16 * 4 + c.toNat / 64 < 64 by omega)).1
      have hne' := (encodeSextet_ne (show c.toNat % 64 < 64 by omega)).1
      rw [encodeBlock, lastPadding]
      simp [hne, hne', padding]
    | cons d rest =>
      rw [← ih]
      refine @lastPadding_append [_, _, _, _] _ ?_
      have hlength := length_encodeBlock (d :: rest)
      rw [List.length_cons] at hlength
      omega

theorem lastPadding_le_two (text : Bytes) : lastPadding text ≤ 2 := by
  unfold lastPadding
  split
  · split <;> split <;> omega
  · omega

end Padding

/-! ## The block functions -/

section Blocks

variable {text block written decoded : Bytes} {length : Int}

theorem decodeQuads?_of_forall (hall : ∀ c ∈ block, (decodeSextet c).isSome = true) :
    decodeQuads? block = some (decodeQuads block) := by
  induction block using decodeQuads.induct with
  | case1 a b c d rest a' b' c' d' ha hb hc hd ih =>
    simp only [List.forall_mem_cons] at hall
    rw [decodeQuads?, decodeQuads, ha, hb, hc, hd, ih hall.2.2.2.2]
    rfl
  | case2 a b c d rest hbad =>
    simp only [List.forall_mem_cons] at hall
    obtain ⟨a', ha⟩ := Option.isSome_iff_exists.mp hall.1
    obtain ⟨b', hb⟩ := Option.isSome_iff_exists.mp hall.2.1
    obtain ⟨c', hc⟩ := Option.isSome_iff_exists.mp hall.2.2.1
    obtain ⟨d', hd⟩ := Option.isSome_iff_exists.mp hall.2.2.2.1
    exact (hbad _ _ _ _ ha hb hc hd).elim
  | case3 block hshort =>
    rw [decodeQuads?, decodeQuads]
    · exact fun a b c d rest heq => hshort a b c d rest heq
    · exact fun a b c d rest heq => hshort a b c d rest heq

theorem length_decodeQuads? (hquads : block.length % 4 = 0)
    (hwritten : decodeQuads? block = some written) : 4 * written.length = 3 * block.length := by
  induction block using decodeQuads?.induct generalizing written with
  | case1 a b c d rest ih =>
    obtain ⟨a', -, hwritten⟩ := Option.bind_eq_some_iff.mp hwritten
    obtain ⟨b', -, hwritten⟩ := Option.bind_eq_some_iff.mp hwritten
    obtain ⟨c', -, hwritten⟩ := Option.bind_eq_some_iff.mp hwritten
    obtain ⟨d', -, hwritten⟩ := Option.bind_eq_some_iff.mp hwritten
    obtain ⟨tail, htail, hwritten⟩ := Option.bind_eq_some_iff.mp hwritten
    obtain rfl := Option.some.inj hwritten
    simp only [List.length_cons] at hquads ⊢
    have hrest := ih (by omega) htail
    rw [List.length_append, joinSextets]
    simp only [List.length_cons, List.length_nil]
    omega
  | case2 block hshort =>
    have hnil : block = [] := by
      rcases block with _ | ⟨a, _ | ⟨b, _ | ⟨c, _ | ⟨d, rest⟩⟩⟩⟩
      · rfl
      · cases hquads
      · cases hquads
      · cases hquads
      · exact (hshort a b c d rest rfl).elim
    subst hnil
    obtain rfl := Option.some.inj hwritten
    rfl

theorem trimBlock_eq_nil_iff : trimBlock text = [] ↔ ∀ c ∈ text, isBlank c = true := by
  have hpos : max 3 ((text.dropWhile isBlank).rdropWhile isTrailer).length ≠ 0 := by omega
  rw [trimBlock, List.take_eq_nil_iff, or_iff_right hpos, List.dropWhile_eq_nil_iff]

theorem evpDecodeBlock_encodeBlock (decoded : Bytes) :
    evpDecodeBlock (encodeBlock decoded) (encodeBlock decoded).length =
      some (decoded ++ List.replicate (padding decoded) 0) := by
  have hall := forall_mem_encodeBlock decoded
  have hdecodes : ∀ c ∈ encodeBlock decoded, (decodeSextet c).isSome = true := by
    refine @forall_mem_encodeBlock_of (fun c => (decodeSextet c).isSome = true)
      (fun n hlt => ?_) rfl decoded
    rw [decodeSextet_encodeSextet hlt]
    rfl
  rw [evpDecodeBlock, if_neg (by omega), Int.toNat_natCast, List.take_length,
    trimBlock_of_forall fun c hc => (hall c hc).2, if_pos (length_encodeBlock_mod decoded),
    decodeQuads?_of_forall hdecodes, decodeQuads_encodeBlock]

theorem length_evpDecodeBlock (hwritten : evpDecodeBlock text length = some written) :
    (∀ c ∈ text.take length.toNat, isBlank c = true) ∧ written = [] ∨ 3 ≤ written.length := by
  unfold evpDecodeBlock at hwritten
  split at hwritten
  next => cases hwritten
  next =>
    dsimp only at hwritten
    split at hwritten
    next hquads =>
      have hlength := length_decodeQuads? hquads hwritten
      by_cases hnil : trimBlock (text.take length.toNat) = []
      · rw [hnil] at hwritten
        exact .inl ⟨trimBlock_eq_nil_iff.mp hnil, (Option.some.inj hwritten).symm⟩
      · have hpos := List.length_pos_iff.mpr hnil
        exact .inr (by omega)
    next => cases hwritten

end Blocks

/-! ## What the codec promises -/

section Promises

variable {encoded decoded : Bytes}

/-- Both pairs of functions give back what they were given, and the encoders agree. -/
structure RoundTrips (decoded : Bytes) : Prop where
  strings : (base64EncodeString decoded >>= base64DecodeString) = .ok decoded
  raw : (base64EncodeRaw decoded >>= base64DecodeRaw) = .ok decoded
  agree : base64EncodeRaw decoded = base64EncodeString decoded

/-- Both decoders end with a result: they read nothing before the text, and the length of the
result is not negative. -/
def EndsSafely (encoded : Bytes) : Prop :=
  (∃ decoded, base64DecodeString encoded = .ok decoded) ∧
    ∃ decoded, base64DecodeRaw encoded = .ok decoded

def readLength (encoded : Bytes) : Int := toInt (encoded.takeWhile (· ≠ 0)).length

/-- A text before its first null character is not empty, three times its length is an integer,
and at most three quarters of it is padding at the end. -/
structure TextFits (encoded : Bytes) : Prop where
  nonempty : 0 < readLength encoded
  fits : 3 * readLength encoded < 2147483648
  padded : 4 * (paddingLength (encoded.take (readLength encoded).toNat) : Int) ≤
    3 * readLength encoded

/-- The size of a text does not become a negative integer. Where bits of it are lost, what is
left is not all blank, or there is no padding. -/
structure SizeFits (encoded : Bytes) : Prop where
  size : -4 < toInt encoded.length
  padded : 0 ≤ toInt encoded.length →
    (∀ c ∈ encoded.take (toInt encoded.length).toNat, isBlank c = true) → lastPadding encoded = 0

def Decodes (encoded : Bytes) : Prop := encoded = [] ∨ TextFits encoded ∧ SizeFits encoded

theorem readLength_le (encoded : Bytes) : (readLength encoded).toNat ≤ encoded.length := by
  have hle := toInt_le (encoded.takeWhile (· ≠ 0)).length
  have hprefix := (List.takeWhile_prefix (· ≠ 0) (l := encoded)).length_le
  rw [readLength]
  omega

theorem base64DecodeString_eq (hne : encoded ≠ []) (hfits : Fits (3 * readLength encoded)) :
    base64DecodeString encoded =
      (stripPadding encoded (readLength encoded).toNat ((3 * readLength encoded).tdiv 4) >>=
        fun kept => if kept < 0 then .error .exception
          else .ok ((decodeBlock ((encoded.takeWhile (· ≠ 0)).take (readLength encoded).toNat) ++
            List.replicate ((3 * readLength encoded).tdiv 4).toNat 0).take kept.toNat)) := by
  rw [base64DecodeString, if_neg hne]
  dsimp only
  rw [← readLength, int_of_fits hfits, ok_bind]

theorem ends_base64DecodeString_iff (hne : encoded ≠ []) :
    (∃ decoded, base64DecodeString encoded = .ok decoded) ↔ TextFits encoded := by
  have hstrip := stripPadding_eq (readLength_le encoded) ((3 * readLength encoded).tdiv 4)
  constructor
  · rintro ⟨decoded, hok⟩
    have hfits : Fits (3 * readLength encoded) := by
      rw [base64DecodeString, if_neg hne] at hok
      obtain ⟨product, hproduct, -⟩ := bind_eq_ok.mp hok
      exact (int_eq_ok.mp hproduct).1
    rw [base64DecodeString_eq hne hfits, hstrip] at hok
    obtain ⟨kept, hkept, hok⟩ := bind_eq_ok.mp hok
    split at hkept
    next hpadding =>
      obtain rfl := Except.ok.inj hkept
      split at hok
      next => cases hok
      next hnonneg =>
        have hpos : 0 < readLength encoded := by omega
        rw [tdiv_of_nonneg (by omega)] at hnonneg
        exact ⟨hpos, hfits.2, by omega⟩
    next => cases hkept
  · intro htext
    have hpos := htext.nonempty
    have hpadded := htext.padded
    have hfits : Fits (3 * readLength encoded) := ⟨by omega, htext.fits⟩
    have hkept : ¬(3 * readLength encoded).tdiv 4 -
        paddingLength (encoded.take (readLength encoded).toNat) < 0 := by
      rw [tdiv_of_nonneg (by omega)]
      omega
    rw [base64DecodeString_eq hne hfits, hstrip, if_pos (by omega), ok_bind, if_neg hkept]
    exact ⟨_, rfl⟩

theorem base64DecodeRaw_eq (hne : encoded ≠ []) :
    base64DecodeRaw encoded =
      if 3 * (toInt encoded.length).tdiv 4 < 0 then .error .exception
      else
        match evpDecodeBlock encoded (toInt encoded.length) with
        | none => .ok []
        | some written =>
          if (written.length : Int) - lastPadding encoded < 0 then .error .exception
          else .ok (written.take (written.length - lastPadding encoded)) := by
  have hfits : Fits (3 * (toInt encoded.length).tdiv 4) := by
    obtain ⟨hlow, hhigh⟩ := fits_toInt encoded.length
    rcases Int.lt_or_le (toInt encoded.length) 0 with hneg | hnonneg
    · rw [tdiv_of_neg hneg]
      exact ⟨by omega, by omega⟩
    · rw [tdiv_of_nonneg hnonneg]
      exact ⟨by omega, by omega⟩
  rw [base64DecodeRaw, if_neg hne]
  dsimp only
  rw [int_of_fits hfits, ok_bind]

theorem quarter_nonneg_iff {n : Int} : 0 ≤ 3 * n.tdiv 4 ↔ -4 < n := by
  rcases Int.lt_or_le n 0 with hneg | hnonneg
  · rw [tdiv_of_neg hneg]
    omega
  · rw [tdiv_of_nonneg hnonneg]
    omega

theorem ends_base64DecodeRaw_iff (hne : encoded ≠ []) :
    (∃ decoded, base64DecodeRaw encoded = .ok decoded) ↔ SizeFits encoded := by
  rw [base64DecodeRaw_eq hne]
  constructor
  · rintro ⟨decoded, hok⟩
    split at hok
    next => cases hok
    next hnonneg =>
      refine ⟨quarter_nonneg_iff.mp (by omega), fun hsize hblank => ?_⟩
      have hblock : evpDecodeBlock encoded (toInt encoded.length) = some [] := by
        rw [evpDecodeBlock, if_neg (by omega)]
        dsimp only
        rw [trimBlock_eq_nil_iff.mpr hblank]
        rfl
      rw [hblock] at hok
      dsimp only at hok
      split at hok
      next => cases hok
      next hnot =>
        rw [List.length_nil] at hnot
        omega
  · intro hsize
    have hpos := quarter_nonneg_iff.mpr hsize.size
    rw [if_neg (by omega)]
    split
    next => exact ⟨_, rfl⟩
    next written hwritten =>
      refine ⟨_, if_neg ?_⟩
      have htwo := lastPadding_le_two encoded
      rcases length_evpDecodeBlock hwritten with ⟨hblank, rfl⟩ | hlong
      · have hnonneg : 0 ≤ toInt encoded.length := by
          by_contra hneg
          rw [evpDecodeBlock, if_pos (by omega)] at hwritten
          cases hwritten
        rw [hsize.padded hnonneg hblank, List.length_nil]
        decide
      · omega

theorem endsSafely_iff (encoded : Bytes) : EndsSafely encoded ↔ Decodes encoded := by
  by_cases hne : encoded = []
  · subst hne
    exact iff_of_true ⟨⟨[], rfl⟩, [], rfl⟩ (.inl rfl)
  · rw [EndsSafely, ends_base64DecodeString_iff hne, ends_base64DecodeRaw_iff hne, Decodes,
      or_iff_right hne]

/-! ## Round trips -/

theorem base64EncodeString_of_le (hle : decoded.length ≤ 1610612733) :
    base64EncodeString decoded = .ok (encodeBlock decoded) := by
  by_cases hne : decoded = []
  · subst hne
    rfl
  · have hsize := toInt_of_lt (show decoded.length < 2147483648 by omega)
    rw [base64EncodeString, if_neg hne]
    dsimp only
    rw [hsize, int_of_fits ⟨by omega, by omega⟩, ok_bind, tdiv_of_nonneg (by omega),
      int_of_fits ⟨by omega, by omega⟩, ok_bind, if_neg (by omega), Int.toNat_natCast, List.take_length]

theorem base64EncodeRaw_of_le (hle : decoded.length ≤ 1610612733) :
    base64EncodeRaw decoded = .ok (encodeBlock decoded) := by
  by_cases hne : decoded = []
  · subst hne
    rfl
  · have hsize := toInt_of_lt (show decoded.length < 2147483648 by omega)
    rw [base64EncodeRaw, if_neg hne]
    dsimp only
    rw [hsize, int_of_fits ⟨by omega, by omega⟩, ok_bind, tdiv_of_nonneg (by omega),
      int_of_fits ⟨by omega, by omega⟩, ok_bind, if_neg (by omega), Int.toNat_natCast, List.take_length]

theorem length_encodeBlock_lt {size : Int} (hle : (decoded.length : Int) ≤ size)
    (hhigh : 4 * ((size + 2) / 3) < 2147483648) :
    (encodeBlock decoded).length < 2147483648 := by
  have hblock := length_encodeBlock decoded
  have hpad : padding decoded = (3 - decoded.length % 3) % 3 := rfl
  generalize padding decoded = pad at hblock hpad
  generalize (encodeBlock decoded).length = length at hblock ⊢
  omega

theorem length_base64EncodeString (hne : decoded ≠ [])
    (hok : base64EncodeString decoded = .ok encoded) :
    encoded.length < 2147483648 ∧ ∃ prefix', encoded = encodeBlock prefix' := by
  rw [base64EncodeString, if_neg hne] at hok
  obtain ⟨sum, hsum, hok⟩ := bind_eq_ok.mp hok
  obtain ⟨length, hlength, hok⟩ := bind_eq_ok.mp hok
  obtain ⟨hfits, rfl⟩ := int_eq_ok.mp hsum
  obtain ⟨hlengthFits, rfl⟩ := int_eq_ok.mp hlength
  split at hok
  next => cases hok
  next hnonneg =>
    obtain rfl := Except.ok.inj hok
    refine ⟨?_, _, rfl⟩
    have hhigh := hlengthFits.2
    rcases Int.lt_or_le (toInt decoded.length) 0 with hneg | hpos
    · rw [Int.toNat_of_nonpos (Int.le_of_lt hneg), List.take_zero, encodeBlock, List.length_nil]
      omega
    · rw [tdiv_of_nonneg (by omega)] at hhigh
      have htake := List.length_take_le (toInt decoded.length).toNat decoded
      exact length_encodeBlock_lt (by omega) hhigh

theorem readLength_encodeBlock (hlt : (encodeBlock decoded).length < 2147483648) :
    readLength (encodeBlock decoded) = (encodeBlock decoded).length := by
  have htext : (encodeBlock decoded).takeWhile (· ≠ 0) = encodeBlock decoded := by
    rw [List.takeWhile_eq_self_iff]
    exact fun c hc => decide_eq_true (forall_mem_encodeBlock decoded c hc).1
  rw [readLength, htext, toInt_of_lt hlt]

theorem base64DecodeString_encodeBlock (hle : decoded.length ≤ 536870910) :
    base64DecodeString (encodeBlock decoded) = .ok decoded := by
  by_cases hnil : decoded = []
  · subst hnil
    rfl
  · have hlength := length_encodeBlock decoded
    have hpad : padding decoded = (3 - decoded.length % 3) % 3 := rfl
    have hpos := List.length_pos_iff.mpr hnil
    have hne : encodeBlock decoded ≠ [] := by
      intro heq
      rw [heq, List.length_nil] at hlength
      omega
    have hread := @readLength_encodeBlock decoded (by omega)
    have htext : (encodeBlock decoded).takeWhile (· ≠ 0) = encodeBlock decoded := by
      rw [List.takeWhile_eq_self_iff]
      exact fun c hc => decide_eq_true (forall_mem_encodeBlock decoded c hc).1
    have hquarter : (3 * readLength (encodeBlock decoded)).tdiv 4 =
        decoded.length + padding decoded := by
      rw [tdiv_of_nonneg (by omega)]
      omega
    have hstrip := stripPadding_eq (readLength_le (encodeBlock decoded))
      ((3 * readLength (encodeBlock decoded)).tdiv 4)
    have hblock : decodeBlock (encodeBlock decoded) =
        decoded ++ List.replicate (padding decoded) 0 := by
      rw [decodeBlock, trimBlock_of_forall fun c hc => (forall_mem_encodeBlock decoded c hc).2,
        if_pos (length_encodeBlock_mod decoded), decodeQuads_encodeBlock]
    rw [base64DecodeString_eq hne ⟨by omega, by omega⟩, hstrip, hquarter, htext, hread,
      Int.toNat_natCast, List.take_length, paddingLength_encodeBlock, if_pos (by omega), ok_bind,
      if_neg (by omega), hblock, List.append_assoc]
    refine congrArg Except.ok ?_
    have hkept : ((decoded.length : Int) + padding decoded - padding decoded).toNat =
        decoded.length := by omega
    rw [hkept]
    exact List.take_left

theorem base64DecodeRaw_encodeBlock (hle : decoded.length ≤ 1610612733) :
    base64DecodeRaw (encodeBlock decoded) = .ok decoded := by
  by_cases hnil : decoded = []
  · subst hnil
    rfl
  · have hlength := length_encodeBlock decoded
    have hpad : padding decoded = (3 - decoded.length % 3) % 3 := rfl
    have hpos := List.length_pos_iff.mpr hnil
    have hne : encodeBlock decoded ≠ [] := by
      intro heq
      rw [heq, List.length_nil] at hlength
      omega
    have hsize := toInt_of_lt (show (encodeBlock decoded).length < 2147483648 by omega)
    have hwritten : (decoded ++ List.replicate (padding decoded) (0 : UInt8)).length =
        decoded.length + padding decoded := by
      rw [List.length_append, List.length_replicate]
    rw [base64DecodeRaw_eq hne, hsize, if_neg (by rw [tdiv_of_nonneg (by omega)]; omega),
      evpDecodeBlock_encodeBlock]
    dsimp only
    rw [hwritten, lastPadding_encodeBlock, if_neg (by omega), Nat.add_sub_cancel, List.take_left]

theorem le_of_base64DecodeString {result : Bytes} (hlt : (encodeBlock decoded).length < 2147483648)
    (hok : base64DecodeString (encodeBlock decoded) = .ok result) :
    decoded.length ≤ 536870910 := by
  have hlength := length_encodeBlock decoded
  by_cases hnil : encodeBlock decoded = []
  · rw [hnil, List.length_nil] at hlength
    omega
  · have hfits := ((ends_base64DecodeString_iff hnil).mp ⟨_, hok⟩).fits
    rw [readLength_encodeBlock hlt] at hfits
    have hpad : padding decoded = (3 - decoded.length % 3) % 3 := rfl
    generalize padding decoded = pad at hlength hpad
    generalize (encodeBlock decoded).length = length at hlength hfits
    omega

theorem roundTrips_iff_length (decoded : Bytes) : RoundTrips decoded ↔ decoded.length ≤ 536870910 := by
  constructor
  · intro htrips
    by_cases hne : decoded = []
    · rw [hne]
      exact Nat.zero_le _
    · obtain ⟨encoded, hencode, hdecode⟩ := bind_eq_ok.mp htrips.strings
      obtain ⟨hlt, prefix', rfl⟩ := length_base64EncodeString hne hencode
      have hle := le_of_base64DecodeString hlt hdecode
      rw [base64DecodeString_encodeBlock hle] at hdecode
      exact Except.ok.inj hdecode ▸ hle
  · intro hle
    have hstring := @base64EncodeString_of_le decoded (by omega)
    have hraw := @base64EncodeRaw_of_le decoded (by omega)
    refine ⟨?_, ?_, hraw.trans hstring.symm⟩
    · rw [hstring, ok_bind]
      exact base64DecodeString_encodeBlock hle
    · rw [hraw, ok_bind]
      exact base64DecodeRaw_encodeBlock (by omega)

/-- A text makes the round trips just when four thirds of its length are an integer, and both
decoders end with a result just when a text fits them. -/
theorem roundTrips_endsSafely_iff (text : Bytes) :
    (RoundTrips text ↔ text.length ≤ 536870910) ∧ (EndsSafely text ↔ Decodes text) :=
  ⟨roundTrips_iff_length text, endsSafely_iff text⟩

/-- Of a text of padding the character before its start is read. -/
theorem not_endsSafely_padding : ¬EndsSafely (ascii "====") := by
  rintro ⟨⟨decoded, hok⟩, -⟩
  have hfault : base64DecodeString (ascii "====") = .error .outOfRange := by decide
  rw [hfault] at hok
  cases hok

end Promises

end AwsMock.Crypto
