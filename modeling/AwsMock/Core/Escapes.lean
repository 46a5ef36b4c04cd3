import AwsMock.Foundation.Traverse
import AwsMock.Core.SignatureText

/-! # Escaped paths

A client writes each character of a path as it is, when it may stand in a path, or as
an escape. Reading the escapes gives the path again, and so does reading them segment by
segment. `UrlDecode` does so as well, except that it takes `+` for a blank.
-/

namespace AwsMock.Bytes

open Foundation

section Definitions

def isPathCharacter (c : UInt8) : Bool :=
  isAlnum c || decide (c ∈ ascii "-._~!$&'()*+,;=:@/")

inductive Escapes : Bytes → Bytes → Prop where
  | nil : Escapes [] []
  | plain {c : UInt8} {encoded decoded : Bytes} (hc : isPathCharacter c = true)
      (hrest : Escapes encoded decoded) : Escapes (c :: encoded) (c :: decoded)
  | escaped {high low h l : UInt8} {encoded decoded : Bytes} (hhigh : hexValue high = some h)
      (hlow : hexValue low = some l) (hrest : Escapes encoded decoded) :
      Escapes (37 :: high :: low :: encoded) ((h * 16 + l) :: decoded)

def percentDecode : Bytes → Option Bytes
  | [] => some []
  | c :: rest =>
    if c = 37 then
      match rest with
      | high :: low :: rest =>
        match hexValue high, hexValue low, percentDecode rest with
        | some h, some l, some decoded => some ((h * 16 + l) :: decoded)
        | _, _, _ => none
      | _ => none
    else (percentDecode rest).map (c :: ·)

/-- The decoded segments of an origin form: there are none in a single slash. -/
def originSegments (target : Bytes) : Option (List Bytes) :=
  if target.head? = some 47 then
    let path := (target.takeWhile (· ≠ 63)).tail
    if path = [] then some [] else (split path 47).mapM percentDecode
  else none

end Definitions

section Reading

variable {encoded decoded : Bytes}

theorem isAlnum_of_hexValue {c value : UInt8} (hvalue : hexValue c = some value) :
    isAlnum c = true := by
  unfold hexValue at hvalue
  unfold isAlnum
  split_ifs at hvalue with hdigit hupper hlower
  · rw [hdigit, Bool.or_true]
  · have hletter : isUpper c = true := by
      rw [Bool.and_eq_true, decide_eq_true_iff, decide_eq_true_iff] at hupper
      unfold isUpper
      rw [Bool.and_eq_true, decide_eq_true_iff, decide_eq_true_iff]
      exact ⟨hupper.1, UInt8.le_trans hupper.2 (by decide)⟩
    rw [hletter, Bool.true_or, Bool.true_or]
  · have hletter : isLower c = true := by
      rw [Bool.and_eq_true, decide_eq_true_iff, decide_eq_true_iff] at hlower
      unfold isLower
      rw [Bool.and_eq_true, decide_eq_true_iff, decide_eq_true_iff]
      exact ⟨hlower.1, UInt8.le_trans hlower.2 (by decide)⟩
    rw [hletter, Bool.or_true, Bool.true_or]

theorem ne_of_hexValue {c value d : UInt8} (hvalue : hexValue c = some value)
    (hd : isAlnum d = false) : c ≠ d := by
  rintro rfl
  rw [isAlnum_of_hexValue hvalue] at hd
  cases hd

theorem ne_of_isPathCharacter {c d : UInt8} (hc : isPathCharacter c = true)
    (hd : isPathCharacter d = false) : c ≠ d := by
  rintro rfl
  rw [hc] at hd
  cases hd

theorem percentDecode_escape {high low h l : UInt8} (hhigh : hexValue high = some h)
    (hlow : hexValue low = some l) (rest : Bytes) :
    percentDecode (37 :: high :: low :: rest) = (percentDecode rest).map ((h * 16 + l) :: ·) := by
  rw [percentDecode, if_pos rfl, hhigh, hlow]
  cases percentDecode rest <;> rfl

theorem percentDecode_cons {c : UInt8} (hc : c ≠ 37) (rest : Bytes) :
    percentDecode (c :: rest) = (percentDecode rest).map (c :: ·) := by
  generalize hdecoded : percentDecode rest = result
  unfold percentDecode
  rw [if_neg hc, hdecoded]

theorem Escapes.percentDecode_eq (hescapes : Escapes encoded decoded) :
    percentDecode encoded = some decoded := by
  induction hescapes with
  | nil => rfl
  | plain hc hrest ih =>
    rw [percentDecode_cons (ne_of_isPathCharacter hc (by decide)), ih]
    rfl
  | escaped hhigh hlow hrest ih =>
    rw [percentDecode_escape hhigh hlow, ih]
    rfl

/-- `UrlDecode` reads what was meant when there is no `+`, and something else otherwise. -/
theorem Escapes.exists_urlDecode (hescapes : Escapes encoded decoded) :
    ∃ result, urlDecode encoded = some result ∧ (result = decoded ↔ 43 ∉ encoded) := by
  induction hescapes with
  | nil => exact ⟨[], rfl, iff_of_true rfl List.not_mem_nil⟩
  | @plain c encoded decoded hc hrest ih =>
    obtain ⟨result, hresult, hiff⟩ := ih
    refine ⟨(if c = 43 then 32 else c) :: result, ?_, ?_⟩
    · rw [urlDecode_cons (ne_of_isPathCharacter hc (by decide)), hresult]
      rfl
    · rw [List.cons_eq_cons, hiff, List.mem_cons, not_or]
      by_cases hplus : c = 43
      · rw [if_pos hplus, hplus]
        exact iff_of_false (fun h => absurd h.1 (by decide)) (fun h => h.1 rfl)
      · rw [if_neg hplus]
        exact and_congr_left' (iff_of_true rfl fun heq => hplus heq.symm)
  | @escaped high low h l encoded decoded hhigh hlow hrest ih =>
    obtain ⟨result, hresult, hiff⟩ := ih
    refine ⟨(h * 16 + l) :: result, ?_, ?_⟩
    · rw [urlDecode_escape hhigh hlow, hresult]
      rfl
    · have hfirst : high ≠ 43 := ne_of_hexValue hhigh (by decide)
      have hsecond : low ≠ 43 := ne_of_hexValue hlow (by decide)
      rw [List.cons_eq_cons, hiff, List.mem_cons, List.mem_cons, List.mem_cons]
      simp only [true_and, hfirst.symm, hsecond.symm, false_or]
      rw [or_iff_right (by decide)]

theorem Escapes.cut {front back : Bytes} (hescapes : Escapes (front ++ 47 :: back) decoded) :
    ∃ first last, decoded = first ++ 47 :: last ∧ Escapes front first ∧ Escapes back last := by
  generalize htext : front ++ 47 :: back = text at hescapes
  induction hescapes generalizing front with
  | nil => exact absurd htext (by simp)
  | @plain c encoded decoded hc hrest ih =>
    cases front with
    | nil =>
      obtain ⟨rfl, rfl⟩ := List.cons_eq_cons.mp htext
      exact ⟨[], decoded, rfl, .nil, hrest⟩
    | cons d front =>
      obtain ⟨rfl, hback⟩ := List.cons_eq_cons.mp htext
      obtain ⟨first, last, rfl, hfirst, hlast⟩ := ih hback
      exact ⟨d :: first, last, rfl, .plain hc hfirst, hlast⟩
  | @escaped high low h l encoded decoded hhigh hlow hrest ih =>
    have hfirst : high ≠ 47 := ne_of_hexValue hhigh (by decide)
    have hsecond : low ≠ 47 := ne_of_hexValue hlow (by decide)
    cases front with
    | nil =>
      obtain ⟨heq, -⟩ := List.cons_eq_cons.mp htext
      cases heq
    | cons a front =>
      cases front with
      | nil =>
        obtain ⟨-, heq⟩ := List.cons_eq_cons.mp htext
        exact absurd (List.cons_eq_cons.mp heq).1.symm hfirst
      | cons b front =>
        cases front with
        | nil =>
          obtain ⟨-, heq⟩ := List.cons_eq_cons.mp htext
          obtain ⟨-, heq⟩ := List.cons_eq_cons.mp heq
          exact absurd (List.cons_eq_cons.mp heq).1.symm hsecond
        | cons c front =>
          obtain ⟨ha, heq⟩ := List.cons_eq_cons.mp htext
          obtain ⟨hb, heq⟩ := List.cons_eq_cons.mp heq
          obtain ⟨hc, hback⟩ := List.cons_eq_cons.mp heq
          obtain ⟨first, last, rfl, hfront, hlast⟩ := ih hback
          refine ⟨_ :: first, last, rfl, ?_, hlast⟩
          rw [ha, hb, hc]
          exact .escaped hhigh hlow hfront

theorem Escapes.intercalate {parts : List Bytes} (hparts : parts ≠ [])
    (hescapes : Escapes ([47].intercalate parts) decoded) :
    ∃ segments, List.Forall₂ Escapes parts segments ∧ decoded = [47].intercalate segments := by
  induction parts generalizing decoded with
  | nil => exact absurd rfl hparts
  | cons part parts ih =>
    cases parts with
    | nil =>
      rw [List.intercalate_singleton] at hescapes
      exact ⟨[decoded], .cons hescapes .nil, (List.intercalate_singleton).symm⟩
    | cons next parts =>
      rw [List.intercalate_cons_cons, List.append_assoc] at hescapes
      obtain ⟨first, last, rfl, hfirst, hlast⟩ := hescapes.cut
      obtain ⟨segments, hsegments, rfl⟩ := ih (List.cons_ne_nil _ _) hlast
      cases hsegments with
      | cons hnext hrest =>
        refine ⟨first :: _ :: _, .cons hfirst (.cons hnext hrest), ?_⟩
        rw [List.intercalate_cons_cons, List.append_assoc]
        rfl

theorem Escapes.segments (hescapes : Escapes encoded decoded) :
    ∃ segments, (split encoded 47).mapM percentDecode = some segments ∧
      decoded = [47].intercalate segments ∧ segments.length = (split encoded 47).length := by
  have hescapes' : Escapes ([47].intercalate (split encoded 47)) decoded := by
    rw [split, List.intercalate_splitOn]
    exact hescapes
  obtain ⟨segments, hsegments, heq⟩ := hescapes'.intercalate (List.splitOn_ne_nil 47 encoded)
  refine ⟨segments, mapM_eq_some_iff.mpr (hsegments.imp fun _ _ h => h.percentDecode_eq), heq,
    hsegments.length_eq.symm⟩

theorem Escapes.notMem {c : UInt8} (hescapes : Escapes encoded decoded)
    (hc : isPathCharacter c = false) (hpercent : c ≠ 37) : c ∉ encoded := by
  have halnum : isAlnum c = false := (Bool.or_eq_false_iff.mp hc).1
  induction hescapes with
  | nil => exact List.not_mem_nil
  | plain hd hrest ih =>
    rw [List.mem_cons, not_or]
    exact ⟨fun heq => ne_of_isPathCharacter hd hc heq.symm, ih⟩
  | escaped hhigh hlow hrest ih =>
    rw [List.mem_cons, List.mem_cons, List.mem_cons, not_or, not_or, not_or]
    exact ⟨hpercent, fun heq => ne_of_hexValue hhigh halnum heq.symm,
      fun heq => ne_of_hexValue hlow halnum heq.symm, ih⟩

end Reading

end AwsMock.Bytes
