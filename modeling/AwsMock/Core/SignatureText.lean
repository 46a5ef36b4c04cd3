import AwsMock.Core.AwsUtils
import AwsMock.Foundation.Separated

/-! # The texts that are signed

The encodings of `AwsUtils` can be decoded, and a canonical request can be read:
its lines do not contain a line end, and a query has no `&` and `=` but those
between its parameters.
-/

namespace AwsMock

section Bytes

theorem forall_digit {P : UInt8 → Prop} (hall : ∀ n : Fin 16, P (UInt8.ofNat n)) {b : UInt8}
    (hb : b.toNat < 16) : P b := by
  have hdigit := hall ⟨b.toNat, hb⟩
  rwa [UInt8.ofNat_toNat] at hdigit

theorem forall_halves {P : UInt8 → Prop} (hall : ∀ n : Fin 16, P (UInt8.ofNat n)) (b : UInt8) :
    P (b / 16) ∧ P (b % 16) := by
  have hb := b.toNat_lt
  constructor
  · apply forall_digit hall
    rw [UInt8.toNat_div]
    change b.toNat / 16 < 16
    omega
  · apply forall_digit hall
    rw [UInt8.toNat_mod]
    change b.toNat % 16 < 16
    omega

theorem halves_sum (b : UInt8) : b / 16 * 16 + b % 16 = b := by
  have hb := b.toNat_lt
  apply UInt8.toNat_inj.mp
  rw [UInt8.toNat_add, UInt8.toNat_mul, UInt8.toNat_div, UInt8.toNat_mod]
  change (b.toNat / 16 * 16 % 256 + b.toNat % 16) % 256 = b.toNat
  omega

theorem hexValue_hexDigit (upper : Bool) (b : UInt8) :
    Bytes.hexValue (Crypto.hexDigit upper (b / 16)) = some (b / 16) ∧
      Bytes.hexValue (Crypto.hexDigit upper (b % 16)) = some (b % 16) ∧ b / 16 * 16 + b % 16 = b := by
  have hall : ∀ n : Fin 16, Bytes.hexValue (Crypto.hexDigit upper (UInt8.ofNat n)) =
      some (UInt8.ofNat n) := by
    cases upper with
    | false => decide
    | true => decide
  obtain ⟨hhigh, hlow⟩ :=
    @forall_halves (fun d => Bytes.hexValue (Crypto.hexDigit upper d) = some d) hall b
  exact ⟨hhigh, hlow, halves_sum b⟩

theorem isUnreserved_hexDigit (upper : Bool) (b : UInt8) :
    AwsUtils.isUnreserved (Crypto.hexDigit upper (b / 16)) = true ∧
      AwsUtils.isUnreserved (Crypto.hexDigit upper (b % 16)) = true := by
  have hall : ∀ n : Fin 16,
      AwsUtils.isUnreserved (Crypto.hexDigit upper (UInt8.ofNat n)) = true := by
    cases upper with
    | false => decide
    | true => decide
  exact @forall_halves (fun d => AwsUtils.isUnreserved (Crypto.hexDigit upper d) = true) hall b

namespace Bytes

theorem urlDecode_escape {high low h l : UInt8} (hhigh : hexValue high = some h)
    (hlow : hexValue low = some l) (rest : Bytes) :
    urlDecode (37 :: high :: low :: rest) = (urlDecode rest).map ((h * 16 + l) :: ·) := by
  rw [urlDecode, if_pos rfl, hhigh, hlow]
  cases urlDecode rest with
  | none => rfl
  | some decoded => rfl

theorem urlDecode_cons {c : UInt8} (hc : c ≠ 37) (rest : Bytes) :
    urlDecode (c :: rest) = (urlDecode rest).map ((if c = 43 then 32 else c) :: ·) := by
  generalize hdecoded : urlDecode rest = result
  unfold urlDecode
  rw [if_neg hc, hdecoded]
  cases result with
  | none => rfl
  | some decoded => rfl

theorem urlDecode_append {text decoded : Bytes} (hdecoded : urlDecode text = some decoded)
    (rest : Bytes) : urlDecode (text ++ rest) = (urlDecode rest).map (decoded ++ ·) := by
  induction text using urlDecode.induct generalizing decoded with
  | case1 =>
    cases hdecoded
    rw [List.nil_append]
    exact Option.map_id_apply.symm
  | case2 high low text h l tail htail hlow hhigh ih =>
    rw [urlDecode_escape hhigh hlow, htail] at hdecoded
    cases hdecoded
    rw [List.cons_append, List.cons_append, List.cons_append, urlDecode_escape hhigh hlow,
      ih htail, Option.map_map]
    rfl
  | case3 high low text hbad =>
    rw [urlDecode, if_pos rfl] at hdecoded
    split at hdecoded
    next hhigh hlow htail => exact (hbad _ _ _ hhigh hlow htail).elim
    next => cases hdecoded
  | case4 text hshort =>
    unfold urlDecode at hdecoded
    rw [if_pos rfl] at hdecoded
    split at hdecoded
    next => exact (hshort _ _ _ rfl).elim
    next => cases hdecoded
  | case5 c text hc tail htail ih =>
    rw [urlDecode_cons hc, htail] at hdecoded
    cases hdecoded
    rw [List.cons_append, urlDecode_cons hc, ih htail, Option.map_map]
    rfl
  | case6 c text hc hnone =>
    rw [urlDecode_cons hc, hnone] at hdecoded
    cases hdecoded

end Bytes

end Bytes

namespace AwsUtils

open Bytes

theorem ne_of_isUnreserved {c : UInt8} (hc : isUnreserved c = true) :
    c ≠ 37 ∧ c ≠ 43 ∧ c ≠ 10 ∧ c ≠ 38 ∧ c ≠ 61 ∧ c ≠ 63 := by
  have hreserved : ([37, 43, 10, 38, 61, 63] : Bytes).all (fun d => !isUnreserved d) = true := rfl
  have hne : ∀ d ∈ ([37, 43, 10, 38, 61, 63] : Bytes), c ≠ d := by
    rintro d hd rfl
    have hnot := List.all_eq_true.mp hreserved c hd
    rw [hc] at hnot
    cases hnot
  simpa using hne

/-- An encoding that keeps some characters and escapes the others is undone by `UrlDecode`. -/
theorem urlDecode_flatMap {kept : UInt8 → Bool} (hkept : ∀ c, kept c = true → c ≠ 37 ∧ c ≠ 43)
    (input : Bytes) :
    urlDecode (input.flatMap fun c => if kept c then [c] else percentEncode c) = some input := by
  induction input with
  | nil => rfl
  | cons c input ih =>
    rw [List.flatMap_cons]
    cases hc : kept c with
    | true =>
      obtain ⟨hpercent, hplus⟩ := hkept c hc
      rw [if_pos rfl, List.singleton_append, urlDecode_cons hpercent, ih, if_neg hplus]
      rfl
    | false =>
      obtain ⟨hhigh, hlow, hsum⟩ := hexValue_hexDigit true c
      rw [if_neg Bool.false_ne_true, percentEncode, List.cons_append, List.cons_append,
        List.cons_append, List.nil_append, urlDecode_escape hhigh hlow, ih, hsum]
      rfl

variable (input : Bytes)

theorem urlDecode_sigV4Encode : urlDecode (sigV4Encode input) = some input :=
  urlDecode_flatMap (fun _ hc => ⟨(ne_of_isUnreserved hc).1, (ne_of_isUnreserved hc).2.1⟩) input

theorem urlDecode_awsUrlEncode : urlDecode (awsUrlEncode input) = some input := by
  apply @urlDecode_flatMap fun c => isUnreserved c || decide (c = 47)
  intro c hkept
  rcases Bool.or_eq_true_iff.mp hkept with hc | hslash
  · exact ⟨(ne_of_isUnreserved hc).1, (ne_of_isUnreserved hc).2.1⟩
  · rw [of_decide_eq_true hslash]
    decide

theorem sigV4Encode_injective : Function.Injective sigV4Encode := by
  intro input other heq
  have hdecoded := urlDecode_sigV4Encode input
  rw [heq, urlDecode_sigV4Encode] at hdecoded
  exact (Option.some.inj hdecoded).symm

theorem awsUrlEncode_injective : Function.Injective awsUrlEncode := by
  intro input other heq
  have hdecoded := urlDecode_awsUrlEncode input
  rw [heq, urlDecode_awsUrlEncode] at hdecoded
  exact (Option.some.inj hdecoded).symm

theorem mem_flatMap_encode {kept : UInt8 → Bool} {input : Bytes} {c : UInt8}
    (hc : c ∈ input.flatMap fun c => if kept c then [c] else percentEncode c) :
    kept c = true ∨ c = 37 ∨ isUnreserved c = true := by
  obtain ⟨b, -, hmem⟩ := List.mem_flatMap.mp hc
  split at hmem
  next hb =>
    rw [List.mem_singleton.mp hmem]
    exact .inl hb
  next =>
    obtain ⟨hhigh, hlow⟩ := isUnreserved_hexDigit true b
    rcases List.mem_cons.mp hmem with rfl | hmem
    · exact .inr (.inl rfl)
    · rcases List.mem_cons.mp hmem with rfl | hmem
      · exact .inr (.inr hhigh)
      · rw [List.mem_singleton.mp hmem]
        exact .inr (.inr hlow)

theorem separators_notMem_sigV4Encode :
    10 ∉ sigV4Encode input ∧ 38 ∉ sigV4Encode input ∧ 61 ∉ sigV4Encode input := by
  have hno : ∀ c : UInt8, isUnreserved c = false → c ≠ 37 → c ∉ sigV4Encode input := by
    intro c hreserved hpercent hmem
    rcases mem_flatMap_encode hmem with hkept | rfl | hkept
    · rw [hreserved] at hkept
      cases hkept
    · exact hpercent rfl
    · rw [hreserved] at hkept
      cases hkept
  exact ⟨hno 10 (by decide) (by decide), hno 38 (by decide) (by decide),
    hno 61 (by decide) (by decide)⟩

theorem newline_notMem_awsUrlEncode : 10 ∉ awsUrlEncode input := by
  intro hmem
  rcases @mem_flatMap_encode (fun c => isUnreserved c || decide (c = 47)) input 10 hmem with
    hkept | heq | hkept
  · exact absurd hkept (by decide)
  · exact absurd heq (by decide)
  · exact absurd hkept (by decide)

theorem canonicalUri_eq {target : Bytes} (habsolute : target.head? = some 47) :
    canonicalUri target = awsUrlEncode (path target) := by
  cases target with
  | nil => cases habsolute
  | cons c rest =>
    obtain rfl : c = 47 := Option.some.inj habsolute
    have hpath : path (47 :: rest) = 47 :: path rest := List.takeWhile_cons_of_pos (by decide)
    have hhead : (awsUrlEncode (47 :: path rest)).head? = some 47 := rfl
    rw [canonicalUri, hpath, if_neg (List.cons_ne_nil 47 (path rest)), if_pos hhead]

end AwsUtils

namespace Crypto

theorem hexEncode_injective : Function.Injective hexEncode := by
  apply Foundation.flatMap_injective
  · intro b
    exact List.cons_ne_nil _ _
  · intro a b s t heq
    obtain ⟨hhigh, hlow, hsum⟩ := hexValue_hexDigit false a
    obtain ⟨hhigh', hlow', hsum'⟩ := hexValue_hexDigit false b
    simp only [List.cons_append, List.nil_append, List.cons.injEq] at heq
    obtain ⟨hfirst, hsecond, hrest⟩ := heq
    rw [hfirst, hhigh'] at hhigh
    rw [hsecond, hlow'] at hlow
    rw [← Option.some.inj hhigh, ← Option.some.inj hlow, hsum'] at hsum
    exact ⟨hsum.symm, hrest⟩

theorem newline_notMem_hexEncode (digest : Bytes) : 10 ∉ hexEncode digest := by
  intro hmem
  obtain ⟨b, -, hdigit⟩ := List.mem_flatMap.mp hmem
  obtain ⟨hhigh, hlow⟩ := isUnreserved_hexDigit false b
  rcases List.mem_cons.mp hdigit with heq | hdigit
  · rw [← heq] at hhigh
    exact absurd hhigh (by decide)
  · rw [← List.mem_singleton.mp hdigit] at hlow
    exact absurd hlow (by decide)

end Crypto

end AwsMock
