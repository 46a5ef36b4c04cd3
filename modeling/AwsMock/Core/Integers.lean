import AwsMock.Foundation.Machine
import AwsMock.Core.Http

/-! # Integers in requests

`std::stol` and `std::to_string` on the bytes of a request.
-/

namespace AwsMock.Bytes

open Foundation.Machine

def isSpace (c : UInt8) : Bool := c = 32 || (9 ≤ c && c ≤ 13)

def magnitude (digits : Bytes) : Nat :=
  digits.foldl (fun number c => 10 * number + (c.toNat - 48)) 0

def unsigned : Bytes → Bytes
  | 45 :: rest => rest
  | 43 :: rest => rest
  | rest => rest

/-- `std::stol`: blanks and a sign, then the digits up to the first other character. There is an
exception without digits, and for a number that is no `long`. -/
def stol (s : Bytes) : Run Int :=
  let text := s.dropWhile isSpace
  let digits := (unsigned text).takeWhile isDigit
  let value : Int := if text.head? = some 45 then -magnitude digits else magnitude digits
  if digits = [] then .error .exception
  else if -9223372036854775808 ≤ value ∧ value ≤ 9223372036854775807 then .ok value
  else .error .exception

/-- `std::to_string`. -/
def decimal (n : Nat) : Bytes := (Nat.toDigits 10 n).map fun c => UInt8.ofNat c.toNat

section Reading

variable {digits rest : Bytes}

variable {c : UInt8}

theorem isDigit_bounds (hdigit : isDigit c = true) : 48 ≤ c.toNat ∧ c.toNat ≤ 57 := by
  rw [isDigit, Bool.and_eq_true, decide_eq_true_eq, decide_eq_true_eq, UInt8.le_iff_toNat_le,
    UInt8.le_iff_toNat_le] at hdigit
  exact hdigit

theorem not_isSpace_of_isDigit (hdigit : isDigit c = true) : isSpace c = false := by
  have hlow := (isDigit_bounds hdigit).1
  have hblank : c ≠ 32 := by
    rintro rfl
    revert hlow
    decide
  have hreturn : ¬c ≤ 13 := by
    rw [UInt8.le_iff_toNat_le]
    change ¬c.toNat ≤ 13
    omega
  simp [isSpace, hblank, hreturn]

theorem unsigned_of_isDigit (hdigit : isDigit c = true) (s : Bytes) :
    unsigned (c :: s) = c :: s ∧ (c :: s).head? ≠ some 45 := by
  have hlow := (isDigit_bounds hdigit).1
  have hminus : c ≠ 45 := by
    rintro rfl
    revert hlow
    decide
  have hplus : c ≠ 43 := by
    rintro rfl
    revert hlow
    decide
  refine ⟨?_, fun heq => hminus (Option.some.inj heq)⟩
  rw [unsigned]
  · rintro _ heq
    exact hminus (List.cons.inj heq).1
  · rintro _ heq
    exact hplus (List.cons.inj heq).1

theorem stol_digits (hne : digits ≠ []) (hdigits : ∀ c ∈ digits, isDigit c = true)
    (hrest : ∀ c ∈ rest.head?, isDigit c = false) :
    stol (digits ++ rest) =
      if magnitude digits < 9223372036854775808 then .ok ↑(magnitude digits)
      else .error .exception := by
  obtain ⟨c, tail, rfl⟩ := List.exists_cons_of_ne_nil hne
  have hdigit := hdigits c List.mem_cons_self
  have htext : (c :: (tail ++ rest)).dropWhile isSpace = c :: (tail ++ rest) := by
    rw [List.dropWhile_cons, not_isSpace_of_isDigit hdigit]
    rfl
  have hread : (c :: (tail ++ rest)).takeWhile isDigit = c :: tail := by
    rw [← List.cons_append, List.takeWhile_append_of_pos hdigits]
    cases rest with
    | nil => rw [List.takeWhile_nil, List.append_nil]
    | cons d rest =>
      rw [List.takeWhile_cons, hrest d rfl]
      exact List.append_nil _
  obtain ⟨hunsigned, hhead⟩ := unsigned_of_isDigit hdigit (tail ++ rest)
  rw [List.cons_append]
  simp only [stol, htext, hunsigned, hread]
  rw [if_neg hhead, if_neg (List.cons_ne_nil _ _)]
  by_cases hlt : magnitude (c :: tail) < 9223372036854775808
  · rw [if_pos hlt, if_pos ⟨by omega, by omega⟩]
  · rw [if_neg hlt, if_neg (by omega)]

theorem stol_error {s : Bytes} {fault : Fault} (herror : stol s = .error fault) :
    fault = .exception := by
  have hcheck : ∀ value : Int, (if -9223372036854775808 ≤ value ∧ value ≤ 9223372036854775807 then
      Except.ok value else Except.error Fault.exception) = .error fault → fault = .exception := by
    intro value heq
    split at heq
    next => cases heq
    next => exact (Except.error.inj heq).symm
  unfold stol at herror
  dsimp only at herror
  by_cases hdigits : (unsigned (s.dropWhile isSpace)).takeWhile isDigit = []
  · rw [if_pos hdigits] at herror
    exact (Except.error.inj herror).symm
  · rw [if_neg hdigits] at herror
    exact hcheck _ herror

theorem isDigit_of_mem_decimal {n : Nat} (hmem : c ∈ decimal n) :
    isDigit c = true := by
  obtain ⟨d, hd, rfl⟩ := List.mem_map.mp hmem
  have hdigit := Nat.isDigit_of_mem_toDigits (by decide) (by decide) hd
  simp only [Char.isDigit, Bool.and_eq_true, decide_eq_true_eq, UInt32.le_iff_toNat_le] at hdigit
  have hbounds : 48 ≤ d.toNat ∧ d.toNat ≤ 57 := hdigit
  have hnat : (UInt8.ofNat d.toNat).toNat = d.toNat := by
    rw [UInt8.toNat_ofNat']
    omega
  rw [isDigit, Bool.and_eq_true, decide_eq_true_eq, decide_eq_true_eq, UInt8.le_iff_toNat_le,
    UInt8.le_iff_toNat_le, hnat]
  exact hbounds

theorem decimal_ne_nil (n : Nat) : decimal n ≠ [] :=
  fun heq => Nat.toDigits_ne_nil (List.map_eq_nil_iff.mp heq)

theorem magnitude_decimal (n : Nat) : magnitude (decimal n) = n := by
  have hdigits : ∀ c ∈ Nat.toDigits 10 n, (UInt8.ofNat c.toNat).toNat = c.toNat := by
    intro c hmem
    have hdigit := Nat.isDigit_of_mem_toDigits (by decide) (by decide) hmem
    simp only [Char.isDigit, Bool.and_eq_true, decide_eq_true_eq, UInt32.le_iff_toNat_le] at hdigit
    have hbounds : 48 ≤ c.toNat ∧ c.toNat ≤ 57 := hdigit
    rw [UInt8.toNat_ofNat']
    omega
  rw [magnitude, decimal, List.foldl_map]
  refine Eq.trans ?_ (@Nat.ofDigitChars_ten_toDigits n)
  rw [Nat.ofDigitChars_eq_foldl]
  generalize 0 = number
  generalize Nat.toDigits 10 n = text at hdigits
  induction text generalizing number with
  | nil => rfl
  | cons c text ih =>
    rw [List.foldl_cons, List.foldl_cons, hdigits c List.mem_cons_self]
    exact ih _ fun d hd => hdigits d (List.mem_cons_of_mem _ hd)

/-- A number is read as it was written if it is a `long`. -/
theorem stol_decimal (n : Nat) :
    stol (decimal n) = if n < 9223372036854775808 then .ok ↑n else .error .exception := by
  have hread := @stol_digits (decimal n) [] (decimal_ne_nil n) (fun _ => isDigit_of_mem_decimal)
    (fun _ hmem => nomatch hmem)
  rwa [List.append_nil, magnitude_decimal] at hread

end Reading

end AwsMock.Bytes
