import Mathlib.Algebra.Order.Ring.Int
import AwsMock.Foundation.Loop
import AwsMock.Core.Http

/-! # Copying streams

`StreamCopier` copies at most so many bytes of a stream through a buffer of a fixed length. A
stream may give fewer bytes than it is asked for at the end of its input only.
-/

namespace AwsMock.FileUtils

open Foundation.Loop Http

def bufferLen : Int := 8092

/-- An input stream of the standard library. A `seekg` to a negative position fails, and nothing
is read of a stream that failed. -/
structure InputStream (Stream : Type) where
  whole : Stream → Bytes
  rest : Stream → Bytes
  read : Stream → Nat → Bytes × Stream
  seekg : Stream → Int → Stream
  read_append : ∀ s n, (read s n).1 ++ rest (read s n).2 = rest s
  length_read_le : ∀ s n, (read s n).1.length ≤ n
  rest_of_short : ∀ s n, (read s n).1.length < n → rest (read s n).2 = []
  rest_seekg : ∀ s start,
    rest (seekg s start) = if 0 ≤ start then (whole s).drop start.toNat else []

structure Copy (Stream : Type) where
  istream : Stream
  ostream : Bytes
  copied : Int

variable {Stream : Type}

/-- One round of the loop over `copied`. -/
def copyRound (read : Stream → Nat → Bytes × Stream) (count : Int) (state : Copy Stream) :
    Copy Stream ⊕ Bytes × Int :=
  if state.copied < count then
    let chunk := min bufferLen (count - state.copied)
    let (buffer, istream) := read state.istream chunk.toNat
    let got : Int := buffer.length
    if got ≤ 0 then .inr (state.ostream, state.copied)
    else
      let ostream := state.ostream ++ buffer
      let copied := state.copied + got
      -- a short read, the input is exhausted or failed
      if got < chunk then .inr (ostream, copied) else .inl ⟨istream, ostream, copied⟩
  else .inr (state.ostream, state.copied)

/-- `StreamCopier(istream, ostream, count)` ends with this output and this number. -/
def StreamCopier (read : Stream → Nat → Bytes × Stream) (istream : Stream) (ostream : Bytes)
    (count : Int) : Bytes × Int → Prop :=
  EndsWith (copyRound read count) ⟨istream, ostream, 0⟩

/-- `StreamCopier(istream, ostream, start, count)`. -/
def StreamCopierFrom (is : InputStream Stream) (istream : Stream) (ostream : Bytes)
    (start count : Int) : Bytes × Int → Prop :=
  StreamCopier is.read (is.seekg istream start) ostream count

/-- A stream over a buffer in memory, with the bytes that are still to be read. -/
def stringStream : InputStream (Bytes × Bytes) where
  whole := Prod.fst
  rest := Prod.snd
  read s n := (s.2.take n, s.1, s.2.drop n)
  seekg s start := (s.1, if 0 ≤ start then s.1.drop start.toNat else [])
  read_append s n := List.take_append_drop n s.2
  length_read_le s n := List.length_take_le n s.2
  rest_of_short s n hshort := by
    rw [List.length_take] at hshort
    exact List.drop_eq_nil_of_le (by omega)
  rest_seekg _ _ := rfl

/-- A round leaves the loop, or copies at least one more byte and not more than were asked for. -/
theorem copyRound_cases (read : Stream → Nat → Bytes × Stream) (count : Int)
    (state : Copy Stream) :
    (∃ result, copyRound read count state = .inr result) ∨
      ∃ next, copyRound read count state = .inl next ∧ state.copied < next.copied ∧
        state.copied < count := by
  unfold copyRound
  split
  · next hmore =>
    dsimp only
    split
    · exact .inl ⟨_, rfl⟩
    · next hgot =>
      split
      · exact .inl ⟨_, rfl⟩
      · exact .inr ⟨_, rfl, by dsimp only; omega, hmore⟩
  · exact .inl ⟨_, rfl⟩

theorem copyRound_ends (read : Stream → Nat → Bytes × Stream) (count : Int)
    (state : Copy Stream) : Ends (copyRound read count) state := by
  rcases copyRound_cases read count state with ⟨result, hleave⟩ | ⟨next, hgo, hcopied, hmore⟩
  · exact ends_of_leave hleave
  · rw [ends_iff_of_go hgo]
    exact copyRound_ends read count next
termination_by (count - state.copied).toNat
decreasing_by omega

theorem copyRound_of_read {read : Stream → Nat → Bytes × Stream} {count : Int}
    {state : Copy Stream} {buffer : Bytes} {istream : Stream} (hmore : state.copied < count)
    (hread : read state.istream (min bufferLen (count - state.copied)).toNat = (buffer, istream)) :
    copyRound read count state =
      if (buffer.length : Int) ≤ 0 then .inr (state.ostream, state.copied)
      else if (buffer.length : Int) < min bufferLen (count - state.copied) then
        .inr (state.ostream ++ buffer, state.copied + buffer.length)
      else .inl ⟨istream, state.ostream ++ buffer, state.copied + buffer.length⟩ := by
  rw [copyRound, if_pos hmore]
  dsimp only
  rw [hread]

/-- What is copied from here on. -/
theorem copyRound_endsWith (is : InputStream Stream) (count : Int) (state : Copy Stream) :
    EndsWith (copyRound is.read count) state
      (state.ostream ++ (is.rest state.istream).take (count - state.copied).toNat,
        state.copied +
          ((is.rest state.istream).take (count - state.copied).toNat).length) := by
  by_cases hmore : state.copied < count
  · rcases hread : is.read state.istream (min bufferLen (count - state.copied)).toNat with
      ⟨buffer, istream⟩
    have happend := is.read_append state.istream (min bufferLen (count - state.copied)).toNat
    have hle := is.length_read_le state.istream (min bufferLen (count - state.copied)).toNat
    have hshort := is.rest_of_short state.istream (min bufferLen (count - state.copied)).toNat
    have hround := copyRound_of_read hmore hread
    rw [hread] at happend hle hshort
    dsimp only at happend hle hshort
    have hbuffer : bufferLen = 8092 := rfl
    by_cases hfull : (buffer.length : Int) < min bufferLen (count - state.copied)
    · -- the input ends in this round
      rw [hshort (by omega), List.append_nil] at happend
      rw [← happend, List.take_of_length_le (by omega)]
      refine endsWith_of_leave ?_
      by_cases hgot : (buffer.length : Int) ≤ 0
      · have hnil : buffer = [] := List.eq_nil_of_length_eq_zero (by omega)
        rw [hround, if_pos hgot, hnil, List.append_nil, List.length_nil]
        simp
      · rw [hround, if_neg hgot, if_pos hfull]
    · have hlength : (buffer.length : Int) = min bufferLen (count - state.copied) := by omega
      rw [if_neg (by omega), if_neg hfull] at hround
      rw [endsWith_iff_of_go hround]
      have hrest := copyRound_endsWith is count
        ⟨istream, state.ostream ++ buffer, state.copied + buffer.length⟩
      have hsum : (count - state.copied).toNat =
          buffer.length + (count - (state.copied + buffer.length)).toNat := by omega
      rw [← happend, hsum, List.take_length_add_append, List.length_append]
      dsimp only at hrest
      rwa [List.append_assoc, Int.add_assoc, ← Nat.cast_add] at hrest
  · rw [Int.toNat_of_nonpos (by omega), List.take_zero, List.append_nil]
    exact endsWith_of_leave ((if_neg hmore).trans (by simp))
termination_by (count - state.copied).toNat
decreasing_by
  have hbuffer : bufferLen = 8092 := rfl
  change (count - (state.copied + buffer.length)).toNat < (count - state.copied).toNat
  omega

theorem streamCopier_endsWith (is : InputStream Stream) (istream : Stream) (ostream : Bytes)
    (count : Int) :
    StreamCopier is.read istream ostream count
      (ostream ++ (is.rest istream).take count.toNat,
        min (max count 0) (is.rest istream).length) := by
  have hend := copyRound_endsWith is count ⟨istream, ostream, 0⟩
  rw [List.length_take] at hend
  have hnumber : (0 : Int) + (min (count - 0).toNat (is.rest istream).length : Nat) =
      min (max count 0) (is.rest istream).length := by omega
  rw [Int.sub_zero] at hend hnumber
  rwa [hnumber] at hend

/-- Both loops end whatever is read, and copy the bytes asked for as far as there are any. -/
theorem streamCopier_copies (istream : Stream) (ostream : Bytes) (start count : Int) :
    (∀ read : Stream → Nat → Bytes × Stream,
      ∃ result, StreamCopier read istream ostream count result) ∧
    ∀ is : InputStream Stream,
      StreamCopier is.read istream ostream count
        (ostream ++ (is.rest istream).take (max count 0).toNat,
          min (max count 0) (is.rest istream).length) ∧
      (0 ≤ start → StreamCopierFrom is istream ostream start count
        (ostream ++ ((is.whole istream).drop start.toNat).take (max count 0).toNat,
          min (max count 0) ((is.whole istream).drop start.toNat).length)) ∧
      ((start < 0 ∨ (is.whole istream).length ≤ start) →
        StreamCopierFrom is istream ostream start count (ostream, 0)) := by
  have hcount : (max count 0).toNat = count.toNat := by omega
  rw [hcount]
  refine ⟨fun read => copyRound_ends read count _, fun is => ?_⟩
  have hfrom := streamCopier_endsWith is (is.seekg istream start) ostream count
  rw [is.rest_seekg] at hfrom
  refine ⟨streamCopier_endsWith is istream ostream count, fun hstart => ?_, fun hstart => ?_⟩
  · rwa [if_pos hstart] at hfrom
  · have hnone : (if 0 ≤ start then (is.whole istream).drop start.toNat else []) = [] := by
      split
      · exact List.drop_eq_nil_of_le (by omega)
      · rfl
    rw [hnone, List.take_nil, List.append_nil, List.length_nil] at hfrom
    rwa [Nat.cast_zero, min_eq_right (le_max_right _ _)] at hfrom

end AwsMock.FileUtils
