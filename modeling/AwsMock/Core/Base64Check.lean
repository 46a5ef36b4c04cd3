import AwsMock.Core.Base64
import AwsMock.Foundation.Search

/-! # The check for Base64

`IsBase64` looks for three, two and one padding characters in turn, and for the first of
these that it finds it asks whether the first occurrence is at the end. What stands before
the occurrence is not looked at, and three padding characters at the end are let through.
-/

namespace AwsMock.Crypto

open Foundation

def isBase64Letter (c : UInt8) : Bool := Bytes.isAlnum c || c = 47 || c = 43

def isBase64Character (c : UInt8) : Bool := isBase64Letter c || c = 61

def equalsSigns (count : Nat) : Bytes := List.replicate count 61

def isBase64 (inputString : Bytes) : Bool :=
  if inputString.length % 4 = 0 ∧ inputString.all isBase64Character then
    match position (equalsSigns 3) inputString with
    | some pos => decide (¬pos < inputString.length - 3)
    | none =>
      match position (equalsSigns 2) inputString with
      | some pos1 => decide (¬pos1 < inputString.length - 2)
      | none =>
        match position (equalsSigns 1) inputString with
        | some pos2 => decide (¬pos2 < inputString.length - 1)
        | none => true
  else false

/-- What the check is for: letters, and at most two padding characters behind them. -/
def IsPadded (s : Bytes) : Prop :=
  s.length % 4 = 0 ∧ ∃ letters : Bytes, ∃ count ≤ 2,
      letters.all isBase64Letter ∧ s = letters ++ equalsSigns count

/-- The texts that are taken for padded ones: three padding characters at the end and nowhere
else, or two at the end and nowhere else, with a single one further in front. -/
def MisreadPadding (s : Bytes) : Prop :=
  s.length % 4 = 0 ∧ s.all isBase64Character ∧
    (OnlyAtEnd (equalsSigns 3) s ∨ OnlyAtEnd (equalsSigns 2) s ∧ 61 ∈ s.dropLast.dropLast)

section Characters

theorem letter_ne_padding {c : UInt8} (hletter : isBase64Letter c) : c ≠ 61 := by
  rintro rfl
  cases hletter

theorem all_letters_of_not_mem {text : Bytes} (hall : text.all isBase64Character)
    (hpadding : (61 : UInt8) ∉ text) : text.all isBase64Letter := by
  rw [List.all_eq_true] at hall ⊢
  intro c hc
  rcases (Bool.or_eq_true _ _).mp (hall c hc) with hletter | hequal
  · exact hletter
  · exact absurd (of_decide_eq_true hequal ▸ hc) hpadding

theorem not_mem_of_all_letters {text : Bytes} (hall : text.all isBase64Letter) :
    (61 : UInt8) ∉ text := fun hmem =>
  letter_ne_padding (List.all_eq_true.mp hall _ hmem) rfl

theorem all_characters_of_padded {s : Bytes} (hpadded : IsPadded s) :
    s.all isBase64Character := by
  obtain ⟨-, letters, count, -, hletters, rfl⟩ := hpadded
  rw [List.all_eq_true] at hletters ⊢
  intro c hc
  rcases List.mem_append.mp hc with hc | hc
  · exact (Bool.or_eq_true _ _).mpr (.inl (hletters c hc))
  · rw [List.eq_of_mem_replicate hc]
    rfl

end Characters

section Padding

theorem le_count_of_occurs {count : Nat} {s : Bytes} (hoccurs : equalsSigns count <:+: s) :
    count ≤ s.count 61 := by
  have hcount := hoccurs.sublist.count_le (61 : UInt8)
  rwa [equalsSigns, List.count_replicate_self] at hcount

theorem equalsSigns_infix_of_le {count more : Nat} (hle : count ≤ more) :
    equalsSigns count <:+: equalsSigns more := by
  refine ⟨[], equalsSigns (more - count), ?_⟩
  rw [List.nil_append, equalsSigns, equalsSigns, equalsSigns, List.replicate_append_replicate,
    Nat.add_sub_cancel' hle]

theorem count_letters_append {letters : Bytes} (hletters : letters.all isBase64Letter)
    (count : Nat) : (letters ++ equalsSigns count).count 61 = count := by
  rw [List.count_append, List.count_eq_zero_of_not_mem (not_mem_of_all_letters hletters), equalsSigns,
    List.count_replicate_self, Nat.zero_add]

theorem equalsSigns_succ (count : Nat) : equalsSigns (count + 1) = equalsSigns count ++ [61] :=
  List.replicate_succ'

theorem dropLast_append_equalsSigns (letters : Bytes) (count : Nat) :
    (letters ++ equalsSigns (count + 1)).dropLast = letters ++ equalsSigns count := by
  rw [equalsSigns_succ, ← List.append_assoc, List.dropLast_concat]

theorem onlyAtEnd_of_letters {letters : Bytes} (hletters : letters.all isBase64Letter)
    (count : Nat) : OnlyAtEnd (equalsSigns (count + 1)) (letters ++ equalsSigns (count + 1)) := by
  refine ⟨List.suffix_append _ _, fun hoccurs => ?_⟩
  have hcount := le_count_of_occurs hoccurs
  rw [dropLast_append_equalsSigns, count_letters_append hletters] at hcount
  omega

theorem not_onlyAtEnd_of_occurs {count : Nat} {s : Bytes}
    (hoccurs : equalsSigns (count + 1) <:+: s) : ¬OnlyAtEnd (equalsSigns count) s := by
  rintro ⟨-, hnot⟩
  obtain ⟨front, rest, rfl⟩ := hoccurs
  apply hnot
  have hstarts : front ++ equalsSigns count <+: front ++ equalsSigns (count + 1) ++ rest := by
    rw [equalsSigns_succ, List.append_assoc, List.append_assoc, ← List.append_assoc]
    exact List.prefix_append _ _
  have hdropped : front ++ equalsSigns count <+:
      (front ++ equalsSigns (count + 1) ++ rest).dropLast := by
    refine List.prefix_of_prefix_length_le hstarts (List.dropLast_prefix _) ?_
    simp only [List.length_dropLast, List.length_append, equalsSigns, List.length_replicate]
    omega
  exact (List.suffix_append front _).isInfix.trans hdropped.isInfix

end Padding

section Check

variable {s : Bytes}

theorem isBase64_eq_true_iff (hlength : s.length % 4 = 0) (hall : s.all isBase64Character) :
    isBase64 s = true ↔ (equalsSigns 3 <:+: s ∧ OnlyAtEnd (equalsSigns 3) s) ∨
      (¬equalsSigns 3 <:+: s ∧ equalsSigns 2 <:+: s ∧ OnlyAtEnd (equalsSigns 2) s) ∨
      (¬equalsSigns 2 <:+: s ∧ (61 ∉ s ∨ OnlyAtEnd (equalsSigns 1) s)) := by
  have hone : equalsSigns 1 <:+: s ↔ 61 ∈ s := List.singleton_infix_iff 61 s
  have hshorter : ¬equalsSigns 2 <:+: s → ¬equalsSigns 3 <:+: s := fun hnot hthree =>
    hnot ((equalsSigns_infix_of_le (by decide)).trans hthree)
  have hfound : ∀ {count pos : Nat}, position (equalsSigns (count + 1)) s = some pos →
      equalsSigns (count + 1) <:+: s := fun hpos => by
    by_contra hnot
    rw [position_eq_none_iff.mpr hnot] at hpos
    cases hpos
  have hplace : ∀ {count pos : Nat}, position (equalsSigns (count + 1)) s = some pos →
      (¬pos < s.length - (count + 1) ↔ OnlyAtEnd (equalsSigns (count + 1)) s) := fun hpos => by
    have hiff := not_position_lt_iff (by simp [equalsSigns]) hpos
    rwa [equalsSigns, List.length_replicate] at hiff
  rw [isBase64, if_pos ⟨hlength, hall⟩]
  cases hthree : position (equalsSigns 3) s with
  | some pos =>
    have hin := hfound hthree
    have htwo : equalsSigns 2 <:+: s := (equalsSigns_infix_of_le (by decide)).trans hin
    simp only [hin, htwo, decide_eq_true_eq, hplace hthree, true_and, not_true_eq_false,
      false_and, or_false]
  | none =>
    rw [position_eq_none_iff] at hthree
    cases htwo : position (equalsSigns 2) s with
    | some pos =>
      simp only [hthree, hfound htwo, decide_eq_true_eq, hplace htwo, true_and,
        not_true_eq_false, not_false_eq_true, false_and, or_false, false_or]
    | none =>
      rw [position_eq_none_iff] at htwo
      cases hsign : position (equalsSigns 1) s with
      | some pos =>
        simp only [hthree, htwo, hone.mp (hfound hsign), decide_eq_true_eq, hplace hsign,
          true_and, not_true_eq_false, not_false_eq_true, false_and, false_or]
      | none =>
        rw [position_eq_none_iff, hone] at hsign
        simp only [hthree, htwo, hsign, true_and, not_false_eq_true, true_or, or_true]

theorem isPadded_iff (hlength : s.length % 4 = 0) (hall : s.all isBase64Character) :
    IsPadded s ↔ (OnlyAtEnd (equalsSigns 2) s ∧ 61 ∉ s.dropLast.dropLast) ∨
      (¬equalsSigns 2 <:+: s ∧ (61 ∉ s ∨ OnlyAtEnd (equalsSigns 1) s)) := by
  constructor
  · rintro ⟨-, letters, count, hcount, hletters, rfl⟩
    have hnot : count < 2 → ¬equalsSigns 2 <:+: letters ++ equalsSigns count := fun hfew htwo => by
      have htwice := le_count_of_occurs htwo
      rw [count_letters_append hletters] at htwice
      omega
    match count, hcount with
    | 0, _ =>
      refine .inr ⟨hnot (by decide), .inl ?_⟩
      rw [equalsSigns, List.replicate_zero, List.append_nil]
      exact not_mem_of_all_letters hletters
    | 1, _ => exact .inr ⟨hnot (by decide), .inr (onlyAtEnd_of_letters hletters 0)⟩
    | 2, _ =>
      refine .inl ⟨onlyAtEnd_of_letters hletters 1, ?_⟩
      rw [dropLast_append_equalsSigns, dropLast_append_equalsSigns, equalsSigns,
        List.replicate_zero, List.append_nil]
      exact not_mem_of_all_letters hletters
  · have hletters : ∀ {letters : Bytes} {count : Nat}, s = letters ++ equalsSigns count →
        61 ∉ letters → letters.all isBase64Letter := fun hs hnot => by
      rw [hs, List.all_append, Bool.and_eq_true] at hall
      exact all_letters_of_not_mem hall.1 hnot
    rintro (⟨⟨⟨letters, hs⟩, -⟩, hnot⟩ | ⟨-, hnot | ⟨⟨letters, hs⟩, hnot⟩⟩)
    · rw [← hs, dropLast_append_equalsSigns, dropLast_append_equalsSigns, equalsSigns,
        List.replicate_zero, List.append_nil] at hnot
      exact ⟨hlength, letters, 2, le_rfl, hletters hs.symm hnot, hs.symm⟩
    · have hs : s = s ++ equalsSigns 0 := (List.append_nil s).symm
      exact ⟨hlength, s, 0, Nat.zero_le _, hletters hs hnot, hs⟩
    · have hmem : 61 ∉ letters := fun hmem => by
        apply hnot
        rw [← hs, dropLast_append_equalsSigns, equalsSigns, equalsSigns, List.replicate_zero,
          List.append_nil]
        exact (List.singleton_infix_iff 61 letters).mpr hmem
      exact ⟨hlength, letters, 1, by decide, hletters hs.symm hmem, hs.symm⟩

/-- The check is right for all texts but those. -/
theorem isBase64_correct_iff (s : Bytes) :
    (isBase64 s = true ↔ IsPadded s) ↔ ¬MisreadPadding s := by
  by_cases hshape : s.length % 4 = 0 ∧ s.all isBase64Character
  · obtain ⟨hlength, hall⟩ := hshape
    rw [isBase64_eq_true_iff hlength hall, isPadded_iff hlength hall, MisreadPadding]
    have hthree : equalsSigns 3 <:+: s → ¬OnlyAtEnd (equalsSigns 2) s := not_onlyAtEnd_of_occurs
    have htwo : equalsSigns 3 <:+: s → equalsSigns 2 <:+: s :=
      (equalsSigns_infix_of_le (by decide)).trans
    have hends : ∀ {count : Nat}, OnlyAtEnd (equalsSigns count) s → equalsSigns count <:+: s :=
      fun honly => honly.1.isInfix
    have hends3 := @hends 3
    have hends2 := @hends 2
    tauto
  · have hfalse : isBase64 s = false := if_neg hshape
    have hpadded : ¬IsPadded s := fun hpadded =>
      hshape ⟨hpadded.1, all_characters_of_padded hpadded⟩
    have hmisread : ¬MisreadPadding s := fun hmisread => hshape ⟨hmisread.1, hmisread.2.1⟩
    simp [hfalse, hpadded, hmisread]

/-- One letter and three padding characters are let through. -/
theorem not_isBase64_correct :
    ¬∀ s : Bytes, isBase64 s = true ↔ IsPadded s := fun hcorrect => by
  obtain ⟨-, letters, count, hcount, hletters, hs⟩ :=
    (hcorrect (ascii "A===")).mp (by decide)
  have hthree : (ascii "A===").count 61 = 3 := by decide
  rw [hs, count_letters_append hletters] at hthree
  omega

end Check

end AwsMock.Crypto
