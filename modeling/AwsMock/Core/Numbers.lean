import Mathlib.Data.Int.Log
import Mathlib.Data.List.TakeWhile
import Mathlib.Data.Rat.Floor
import AwsMock.Core.Bson

/-! # Decimal numerals and doubles

The conversions of the standard library between text and `double`. A finite
double is the rational it stands for. Hexadecimal numerals, infinities and NaN
are not modelled.
-/

namespace AwsMock

/-- What `isspace` accepts. -/
def isSpace (c : Char) : Bool := c = ' ' || ('\t' ≤ c && c ≤ '\r')

/-- The whole number nearest to a rational, and the even one of two. -/
def roundHalfEven (q : ℚ) : Int :=
  let below := q.floor
  let rest := q - below
  if rest < 1 / 2 then below
  else if 1 / 2 < rest then below + 1
  else if below % 2 = 0 then below else below + 1

/-- The weight of the last of 53 binary digits; it is bounded from below. -/
def lastDigitExponent (q : ℚ) : Int := max (Int.log 2 |q| - 52) (-1074)

/-- The double nearest to a rational, without the bound on its exponent. -/
def nearestDouble (q : ℚ) : ℚ :=
  if q = 0 then 0
  else roundHalfEven (q / 2 ^ lastDigitExponent q) * 2 ^ lastDigitExponent q

def readExponent (text : List Char) : Int :=
  match text with
  | c :: rest =>
    if c = 'e' || c = 'E' then
      let digits (unsigned : List Char) : Int :=
        Nat.ofDigitChars 10 (unsigned.takeWhile Char.isDigit) 0
      match rest with
      | '-' :: unsigned => -digits unsigned
      | '+' :: unsigned => digits unsigned
      | unsigned => digits unsigned
    else 0
  | [] => 0

def dropSign : List Char → List Char
  | '-' :: rest => rest
  | '+' :: rest => rest
  | rest => rest

def readFraction : List Char → List Char × List Char
  | '.' :: rest => (rest.takeWhile Char.isDigit, rest.dropWhile Char.isDigit)
  | rest => ([], rest)

/-- The number at the start of a text, after blanks. Parsing stops at the first
character that cannot continue the numeral. -/
def decimalValue (s : String) : Option ℚ :=
  let text := s.toList.dropWhile isSpace
  let whole := (dropSign text).takeWhile Char.isDigit
  let fraction := readFraction ((dropSign text).dropWhile Char.isDigit)
  if whole.isEmpty && fraction.1.isEmpty then none
  else
    let magnitude : ℚ := (Nat.ofDigitChars 10 (whole ++ fraction.1) 0 : ℚ) *
      10 ^ (readExponent fraction.2 - fraction.1.length)
    if text.head? = some '-' then some (-magnitude) else some magnitude

/-- `std::stod`. It throws when there is no number, and when the number is too
large or too small for a double. -/
def stod (s : String) : Except CoreException ℚ :=
  match decimalValue s with
  | some value =>
    let double := nearestDouble value
    if 2 ^ 1024 ≤ |double| ∨ (double ≠ value ∧ |double| < 2 ^ (-1022 : Int)) then
      .error (.standard "stod")
    else .ok double
  | none => .error (.standard "stod")

/-- `std::to_string(double)`: six decimals. -/
def toStringDouble (double : ℚ) : String :=
  let scaled := (roundHalfEven (|double| * 1000000)).toNat
  let decimals := (toString (scaled % 1000000)).toList
  let padded := List.replicate (6 - decimals.length) '0' ++ decimals
  (if double < 0 then "-" else "") ++ toString (scaled / 1000000) ++ "." ++ String.ofList padded

section Integers

theorem roundHalfEven_intCast (n : Int) : roundHalfEven (n : ℚ) = n := by
  have hfloor : (n : ℚ).floor = n := Rat.floor_intCast n
  rw [roundHalfEven, hfloor, sub_self, if_pos (by norm_num)]

theorem nearestDouble_intCast {n : Int} (hbound : |n| < 2 ^ 53) :
    nearestDouble (n : ℚ) = n := by
  rw [nearestDouble]
  split
  next hzero => rw [hzero]
  next hne =>
    have hpositive : (0 : ℚ) < |(n : ℚ)| := abs_pos.mpr hne
    have hlog : Int.log 2 |(n : ℚ)| ≤ 52 := by
      have hsmall : |(n : ℚ)| < (2 : ℕ) ^ (53 : Int) := by
        have hcast : |(n : ℚ)| = ((|n| : Int) : ℚ) := by push_cast; rfl
        rw [hcast]
        exact_mod_cast hbound
      have hless := (Int.lt_zpow_iff_log_lt (by norm_num) hpositive).mp hsmall
      omega
    have hexponent : lastDigitExponent (n : ℚ) ≤ 0 := max_le (by omega) (by omega)
    obtain ⟨shift, hshift⟩ := Int.eq_ofNat_of_zero_le (Int.neg_nonneg.mpr hexponent)
    have hnegative : lastDigitExponent (n : ℚ) = -(shift : Int) := by omega
    have hwhole : (n : ℚ) / 2 ^ lastDigitExponent (n : ℚ) = ((n * 2 ^ shift : Int) : ℚ) := by
      rw [hnegative, zpow_neg, zpow_natCast, div_inv_eq_mul]
      push_cast
      rfl
    rw [hwhole, roundHalfEven_intCast, ← hwhole]
    exact div_mul_cancel₀ _ (zpow_ne_zero _ two_ne_zero)

theorem isDigit_bounds {c : Char} (hdigit : c.isDigit = true) : 48 ≤ c.toNat ∧ c.toNat ≤ 57 := by
  simp only [Char.isDigit, Bool.and_eq_true, decide_eq_true_eq, UInt32.le_iff_toNat_le] at hdigit
  exact hdigit

theorem toDigits_digits {n : Nat} {c : Char} (hmem : c ∈ Nat.toDigits 10 n) : c.isDigit = true :=
  Nat.isDigit_of_mem_toDigits (by decide) (by decide) hmem

variable (n : Nat)

theorem takeWhile_toDigits :
    (Nat.toDigits 10 n).takeWhile Char.isDigit = Nat.toDigits 10 n := by
  rw [List.takeWhile_eq_self_iff]
  exact fun c hmem => toDigits_digits hmem

theorem dropWhile_toDigits : (Nat.toDigits 10 n).dropWhile Char.isDigit = [] := by
  rw [List.dropWhile_eq_nil_iff]
  exact fun c hmem => toDigits_digits hmem

theorem exists_toDigits_eq_cons :
    ∃ c rest, Nat.toDigits 10 n = c :: rest ∧ 48 ≤ c.toNat ∧ c.toNat ≤ 57 := by
  cases hdigits : Nat.toDigits 10 n with
  | nil => exact absurd hdigits Nat.toDigits_ne_nil
  | cons c rest =>
    have hmem : c ∈ Nat.toDigits 10 n := by
      rw [hdigits]
      exact List.mem_cons_self
    exact ⟨c, rest, rfl, isDigit_bounds (toDigits_digits hmem)⟩

theorem isSpace_of_le {c : Char} (hc : 45 ≤ c.toNat) : isSpace c = false := by
  have hblank : c ≠ ' ' := by
    rintro rfl
    revert hc
    decide
  have hreturn : ¬c ≤ '\r' := by
    intro hle
    have hnat : c.toNat ≤ 13 := UInt32.le_iff_toNat_le.mp hle
    omega
  simp [isSpace, hblank, hreturn]

theorem dropSign_toDigits : dropSign (Nat.toDigits 10 n) = Nat.toDigits 10 n := by
  obtain ⟨c, rest, hcons, hlow, -⟩ := exists_toDigits_eq_cons n
  rw [hcons]
  have hminus : c ≠ '-' := by
    rintro rfl
    revert hlow
    decide
  have hplus : c ≠ '+' := by
    rintro rfl
    revert hlow
    decide
  rw [dropSign]
  · rintro _ heq
    exact hminus (List.cons.inj heq).1
  · rintro _ heq
    exact hplus (List.cons.inj heq).1

theorem decimalValue_of_digits {s : String} {text : List Char} {n : Nat}
    (htext : s.toList.dropWhile isSpace = text) (hsign : dropSign text = Nat.toDigits 10 n) :
    decimalValue s = if text.head? = some '-' then some (-(n : ℚ)) else some (n : ℚ) := by
  have hvalue : Nat.ofDigitChars 10 (Nat.toDigits 10 n) 0 = n := Nat.ofDigitChars_ten_toDigits
  have hnonempty : (Nat.toDigits 10 n).isEmpty = false := by
    simp [Nat.toDigits_ne_nil]
  rw [decimalValue, htext, hsign, takeWhile_toDigits, dropWhile_toDigits]
  simp only [readFraction, readExponent, hnonempty, Bool.false_and, List.append_nil, hvalue]
  simp

theorem decimalValue_toString (n : Int) : decimalValue (toString n) = some (n : ℚ) := by
  cases n with
  | ofNat n =>
    have htext : (toString (Int.ofNat n)).toList = Nat.toDigits 10 n := Nat.toList_repr
    obtain ⟨c, rest, hcons, hlow, -⟩ := exists_toDigits_eq_cons n
    have hstart : (toString (Int.ofNat n)).toList.dropWhile isSpace = Nat.toDigits 10 n := by
      rw [htext, hcons, List.dropWhile_cons, isSpace_of_le (by omega)]
      rfl
    rw [decimalValue_of_digits hstart (dropSign_toDigits n), if_neg]
    · rfl
    · rw [hcons]
      intro heq
      injection heq with heq
      subst heq
      revert hlow
      decide
  | negSucc n =>
    have htext : (toString (Int.negSucc n)).toList = '-' :: Nat.toDigits 10 (n + 1) := by
      rw [← Nat.toList_repr]
      change ("-" ++ (n + 1).repr).toList = _
      rw [String.toList_append]
      rfl
    have hstart : (toString (Int.negSucc n)).toList.dropWhile isSpace =
        '-' :: Nat.toDigits 10 (n + 1) := by
      rw [htext, List.dropWhile_cons, isSpace_of_le (by decide)]
      rfl
    rw [decimalValue_of_digits hstart rfl, List.head?_cons, if_pos rfl, Int.cast_negSucc]

theorem stod_toString {n : Int} (hbound : |n| < 2 ^ 53) : stod (toString n) = .ok (n : ℚ) := by
  have hmax : ¬(2 : ℚ) ^ 1024 ≤ |(n : ℚ)| := by
    rw [not_le]
    calc |(n : ℚ)| = ((|n| : Int) : ℚ) := by push_cast; rfl
      _ < ((2 ^ 53 : Int) : ℚ) := by exact_mod_cast hbound
      _ = 2 ^ 53 := by push_cast; rfl
      _ ≤ 2 ^ 1024 := pow_le_pow_right₀ (by norm_num) (by norm_num)
  simp only [stod, decimalValue_toString, nearestDouble_intCast hbound]
  rw [if_neg]
  rintro (hlarge | ⟨hne, -⟩)
  · exact hmax hlarge
  · exact hne rfl

end Integers

end AwsMock
