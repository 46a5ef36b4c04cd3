import AwsMock.Core.SignatureText

/-! # URL encoders

The encoders of `StringUtils` and the decoder they share. The decoder reads a plus sign as a
space, and one of the encoders writes a plus sign as it is.
-/

namespace AwsMock.StringUtils

open Bytes AwsUtils

def awsUrlEncode (encodeSlash : Bool) (input : Bytes) : Bytes :=
  input.flatMap fun c =>
    if isUnreserved c then [c]
    else if c = 47 && !encodeSlash then [47]
    else percentEncode c

/-- `boost::urls::pchars`: unreserved characters, `!$&'()*+,;=`, `:` and `@`. -/
def isPchar (c : UInt8) : Bool :=
  isUnreserved c || [33, 36, 38, 39, 40, 41, 42, 43, 44, 59, 61, 58, 64].contains c

/-- `UrlEncode`: `boost::urls::encode` with spaces as plus signs. -/
def urlEncode (input : Bytes) : Bytes :=
  input.flatMap fun c =>
    if isPchar c then [c]
    else if c = 32 then [43]
    else percentEncode c

/-- All encodings of a text are decoded to it, and the two encoders of a canonical request
write the same. -/
structure AreInverted (input : Bytes) : Prop where
  aws : ∀ encodeSlash, urlDecode (awsUrlEncode encodeSlash input) = some input
  url : urlDecode (urlEncode input) = some input
  canonical : awsUrlEncode true input = sigV4Encode input

theorem awsUrlEncode_true (input : Bytes) : awsUrlEncode true input = sigV4Encode input := by
  simp [awsUrlEncode, AwsUtils.sigV4Encode]

theorem urlDecode_awsUrlEncode_slash (encodeSlash : Bool) (input : Bytes) :
    urlDecode (awsUrlEncode encodeSlash input) = some input := by
  cases encodeSlash with
  | true =>
    rw [awsUrlEncode_true]
    exact urlDecode_sigV4Encode input
  | false =>
    have hsame : awsUrlEncode false input = AwsUtils.awsUrlEncode input := by
      apply List.flatMap_congr
      intro c _
      by_cases hslash : c = 47
      · subst hslash
        rfl
      · simp [hslash]
    rw [hsame]
    exact urlDecode_awsUrlEncode input

theorem ne_percent_of_isPchar {c : UInt8} (hc : isPchar c = true) : c ≠ 37 := by
  rintro rfl
  exact absurd hc (by decide)

/-- What the decoder makes of a text that was encoded with plus signs. -/
theorem urlDecode_urlEncode (input : Bytes) :
    urlDecode (urlEncode input) = some (input.map fun c => if c = 43 then 32 else c) := by
  induction input with
  | nil => rfl
  | cons c input ih =>
    unfold urlEncode at ih ⊢
    rw [List.flatMap_cons, List.map_cons]
    split
    next hc =>
      rw [List.singleton_append, urlDecode_cons (ne_percent_of_isPchar hc), ih]
      rfl
    next hc =>
      have hplus : c ≠ 43 := by
        rintro rfl
        exact hc (by decide)
      rw [if_neg hplus]
      split
      next hspace =>
        rw [List.singleton_append, urlDecode_cons (by decide), ih, hspace]
        rfl
      next =>
        obtain ⟨hhigh, hlow, hsum⟩ := hexValue_hexDigit true c
        rw [percentEncode, List.cons_append, List.cons_append, List.cons_append, List.nil_append,
          urlDecode_escape hhigh hlow, ih, hsum]
        rfl

/-- The encoders are inverted on the texts without a plus sign. -/
theorem areInverted_iff (input : Bytes) :
    (AreInverted input ↔ 43 ∉ input) ∧ Function.Injective AwsUtils.sigV4Encode := by
  refine ⟨⟨fun hinverted hplus => ?_, fun hplus => ?_⟩, sigV4Encode_injective⟩
  · have hdecoded := hinverted.url
    rw [urlDecode_urlEncode, Option.some.injEq] at hdecoded
    have hspace := List.map_inj_left.mp (hdecoded.trans (List.map_id input).symm) 43 hplus
    exact absurd hspace (by decide)
  · refine ⟨fun encodeSlash => urlDecode_awsUrlEncode_slash encodeSlash input, ?_,
      awsUrlEncode_true input⟩
    rw [urlDecode_urlEncode, Option.some.injEq]
    refine (List.map_congr_left fun c hc => if_neg ?_).trans (List.map_id input)
    rintro rfl
    exact hplus hc

/-- A plus sign becomes a space. -/
theorem not_areInverted_plus : ¬∀ input, AreInverted input := by
  intro hall
  have hdecoded := (hall [43]).url
  rw [urlDecode_urlEncode] at hdecoded
  exact absurd hdecoded (by decide)

end AwsMock.StringUtils
