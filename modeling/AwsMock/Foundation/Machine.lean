import Mathlib.Data.Int.DivMod
import AwsMock.Foundation.Traverse

/-! # Machine integers and buffers

Computations on 32-bit integers and on memory of a fixed size. A sum or a product that an
integer does not hold, a read or a write beyond the memory and an exception end a computation.
-/

namespace Foundation.Machine

inductive Fault where
  | overflow
  | outOfRange
  | exception
deriving DecidableEq

abbrev Run := Except Fault

section Integers

def Fits (n : Int) : Prop := -2147483648 ≤ n ∧ n < 2147483648

instance (n : Int) : Decidable (Fits n) := inferInstanceAs (Decidable (_ ∧ _))

def int (n : Int) : Run Int := if Fits n then .ok n else .error .overflow

def long (n : Int) : Run Int :=
  if -9223372036854775808 ≤ n ∧ n < 9223372036854775808 then .ok n else .error .overflow

def toInt (n : Nat) : Int := Int.bmod n 4294967296

variable {n : Int}

theorem int_of_fits (hfits : Fits n) : int n = .ok n := if_pos hfits

theorem int_eq_ok {n result : Int} : int n = .ok result ↔ Fits n ∧ n = result := by
  unfold int
  split
  next hfits => exact ⟨fun h => ⟨hfits, Except.ok.inj h⟩, fun h => congrArg _ h.2⟩
  next hnot => exact ⟨fun h => (nomatch h), fun h => absurd h.1 hnot⟩

theorem long_eq_ok {n result : Int} : long n = .ok result ↔
    (-9223372036854775808 ≤ n ∧ n < 9223372036854775808) ∧ n = result := by
  unfold long
  split
  next hfits => exact ⟨fun h => ⟨hfits, Except.ok.inj h⟩, fun h => congrArg _ h.2⟩
  next hnot => exact ⟨fun h => (nomatch h), fun h => absurd h.1 hnot⟩

def FitsLong (n : Int) : Prop := -9223372036854775808 ≤ n ∧ n < 9223372036854775808

theorem long_of_fits (hfits : FitsLong n) : long n = .ok n := if_pos hfits

theorem toInt_of_lt {n : Nat} (hlt : n < 2147483648) : toInt n = n := by
  unfold toInt
  exact Int.bmod_eq_of_le (by omega) (by omega)

theorem fits_toInt (n : Nat) : Fits (toInt n) :=
  ⟨Int.le_bmod (by decide), Int.bmod_lt (by decide)⟩

theorem toInt_le (n : Nat) : toInt n ≤ n := by
  by_cases hlt : n < 2147483648
  · exact Int.le_of_eq (toInt_of_lt hlt)
  · have hfits := (fits_toInt n).2
    omega

theorem tdiv_of_nonneg (hn : 0 ≤ n) (d : Int) : n.tdiv d = n / d :=
  Int.tdiv_eq_ediv_of_nonneg hn

theorem tdiv_of_neg (hn : n < 0) (d : Int) : n.tdiv d = -(-n / d) := by
  rw [← Int.tdiv_eq_ediv_of_nonneg (by omega), Int.neg_tdiv, Int.neg_neg]

end Integers

section Buffers

variable {α : Type}

def write (buffer : List α) (offset : Nat) (values : List α) : Run (List α) :=
  if offset + values.length ≤ buffer.length then
    .ok (buffer.take offset ++ values ++ buffer.drop (offset + values.length))
  else .error .outOfRange

def read (buffer : List α) (offset length : Nat) : Run (List α) :=
  if offset + length ≤ buffer.length then .ok ((buffer.drop offset).take length)
  else .error .outOfRange

/-- Memory of a size; there is none of a negative size. What it holds is not read before it is
written. -/
def allocate (fill : α) (size : Int) : List α := List.replicate size.toNat fill

theorem length_allocate (fill : α) (size : Int) : (allocate fill size).length = size.toNat :=
  List.length_replicate

variable {buffer written rest values : List α}

theorem write_append (hle : values.length ≤ rest.length) :
    write (written ++ rest) written.length values =
      .ok (written ++ values ++ rest.drop values.length) := by
  have hfits : written.length + values.length ≤ (written ++ rest).length := by
    rw [List.length_append]
    omega
  rw [write, if_pos hfits, List.take_left, List.drop_append]
  congr 2
  rw [List.drop_eq_nil_of_le (by omega), Nat.add_sub_cancel_left, List.nil_append]

theorem write_start (hle : values.length ≤ buffer.length) :
    write buffer 0 values = .ok (values ++ buffer.drop values.length) :=
  @write_append _ [] buffer values hle

theorem write_start_eq_ok {result : List α} :
    write buffer 0 values = .ok result ↔
      values.length ≤ buffer.length ∧ result = values ++ buffer.drop values.length := by
  by_cases hle : values.length ≤ buffer.length
  · rw [write_start hle]
    exact ⟨fun h => ⟨hle, (Except.ok.inj h).symm⟩, fun h => congrArg _ h.2.symm⟩
  · rw [write, Nat.zero_add, if_neg hle]
    exact ⟨fun h => (nomatch h), fun h => absurd h.1 hle⟩

end Buffers

end Foundation.Machine
