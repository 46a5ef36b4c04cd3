import Mathlib.Data.List.Infix
import AwsMock.Core.Http

/-! # Sanitizing UTF-8

`SanitizeUtf8` goes through the bytes of a text and keeps what has the shape of a character, that
is a leading byte with as many continuation bytes as it announces. RFC 3629 also restricts the
code points: each has its shortest form, surrogates have none, and the last one is U+10FFFF.
-/

namespace AwsMock.StringUtils

open Http

def isContinuation (b : UInt8) : Bool := b &&& 0xC0 == 0x80

/-- U+FFFD. -/
def replacement : Bytes := [0xEF, 0xBF, 0xBD]

/-- Whether so many bytes from `j` on continue a character; none when a byte past the end is
read. -/
def follows (s : Bytes) : Nat → Nat → Option Bool
  | _, 0 => some true
  | j, n + 1 => do
    if isContinuation (← s[j]?) then follows s (j + 1) n else some false

def isSequence (s : Bytes) (i : Nat) (c mask lead : UInt8) (n : Nat) : Option Bool :=
  if c &&& mask = lead ∧ i + n < s.length then follows s (i + 1) n else some false

/-- The loop at the position `i`. -/
def sanitizeFrom (s : Bytes) (i : Nat) (output : Bytes) : Option Bytes :=
  if i < s.length then do
    let c ← s[i]?
    if c ≤ 0x7F then sanitizeFrom s (i + 1) (output ++ [c])
    else if ← isSequence s i c 0xE0 0xC0 1 then
      sanitizeFrom s (i + 2) (output ++ (s.drop i).take 2)
    else if ← isSequence s i c 0xF0 0xE0 2 then
      sanitizeFrom s (i + 3) (output ++ (s.drop i).take 3)
    else if ← isSequence s i c 0xF8 0xF0 3 then
      sanitizeFrom s (i + 4) (output ++ (s.drop i).take 4)
    else sanitizeFrom s (i + 1) (output ++ replacement)
  else some output
termination_by s.length - i

def SanitizeUtf8 (input : Bytes) : Option Bytes := sanitizeFrom input 0 []

/-! ## Characters -/

/-- The number of continuation bytes a leading byte announces. -/
def continuations (c : UInt8) : Option Nat :=
  if c ≤ 0x7F then some 0
  else if c &&& 0xE0 = 0xC0 then some 1
  else if c &&& 0xF0 = 0xE0 then some 2
  else if c &&& 0xF8 = 0xF0 then some 3
  else none

def Shape : Bytes → Prop
  | [] => False
  | c :: rest => continuations c = some rest.length ∧ rest.all isContinuation = true

/-- The bits of a leading byte, and the least code point for so many continuation bytes. -/
def leadBits : Nat → UInt8 × Nat
  | 0 => (0x7F, 0)
  | 1 => (0x1F, 0x80)
  | 2 => (0x0F, 0x800)
  | _ => (0x07, 0x10000)

def codePoint : Bytes → Nat
  | [] => 0
  | c :: rest =>
    rest.foldl (fun value b => value * 64 + (b &&& 0x3F).toNat)
      (c &&& (leadBits rest.length).1).toNat

/-- A character of RFC 3629. -/
def Character (seg : Bytes) : Prop :=
  Shape seg ∧ (leadBits (seg.length - 1)).2 ≤ codePoint seg ∧ codePoint seg ≤ 0x10FFFF ∧
    ¬(0xD800 ≤ codePoint seg ∧ codePoint seg ≤ 0xDFFF)

inductive SequenceOf (Piece : Bytes → Prop) : Bytes → Prop where
  | nil : SequenceOf Piece []
  | append {seg rest : Bytes} : Piece seg → SequenceOf Piece rest → SequenceOf Piece (seg ++ rest)

def WellFormed : Bytes → Prop := SequenceOf Character

theorem SequenceOf.mono {P Q : Bytes → Prop} (hmono : ∀ seg, P seg → Q seg) {s : Bytes}
    (hs : SequenceOf P s) : SequenceOf Q s := by
  induction hs with
  | nil => exact .nil
  | append hseg _ ih => exact .append (hmono _ hseg) ih

theorem and_of_and_mask {c mask lead m : UInt8} (hm : mask &&& m = m)
    (hlead : c &&& mask = lead) : c &&& m = lead &&& m := by
  rw [← hlead, UInt8.and_assoc, hm]

theorem continuations_of_isContinuation {b : UInt8} (hb : isContinuation b = true) :
    continuations b = none := by
  have hbits : b &&& 0xC0 = 0x80 := eq_of_beq hb
  have hmask (mask lead : UInt8) (hmask : mask &&& 0xC0 = 0xC0) (hlead : lead &&& 0xC0 = 0xC0) :
      b &&& mask ≠ lead := by
    intro heq
    have hboth := hbits.symm.trans ((and_of_and_mask hmask heq).trans hlead)
    exact absurd hboth (by decide)
  have hle : ¬b ≤ 0x7F := by
    intro hle
    have hand : (b &&& 0xC0).toNat ≤ b.toNat := by
      rw [UInt8.toNat_and]
      exact Nat.and_le_left
    rw [hbits] at hand
    exact absurd (hand.trans (UInt8.le_iff_toNat_le.1 hle)) (by decide)
  unfold continuations
  rw [if_neg hle, if_neg (hmask _ _ (by decide) (by decide)),
    if_neg (hmask _ _ (by decide) (by decide)), if_neg (hmask _ _ (by decide) (by decide))]

/-- A leading byte says how long its character is. -/
theorem Shape.unique {first second s : Bytes} (hfirst : Shape first) (hsecond : Shape second)
    (hs : first <+: s) (hs' : second <+: s) : first = second := by
  cases first with
  | nil => exact hfirst.elim
  | cons c rest =>
    cases second with
    | nil => exact hsecond.elim
    | cons d rest' =>
      obtain ⟨tail, rfl⟩ := hs
      rw [List.cons_append, List.cons_prefix_cons] at hs'
      obtain ⟨rfl, hs'⟩ := hs'
      have hlength := Option.some.inj (hfirst.1.symm.trans hsecond.1)
      have hfront := List.prefix_of_prefix_length_le hs' (List.prefix_append rest tail)
        hlength.ge
      rw [hfront.eq_of_length hlength.symm]

/-- No character begins inside of another one. -/
theorem infix_of_infix_append {rest s seg : Bytes} (hrest : rest.all isContinuation = true)
    (hseg : Shape seg) (hpart : seg <:+: rest ++ s) : seg <:+: s := by
  induction rest with
  | nil => exact hpart
  | cons b rest ih =>
    rw [List.all_cons, Bool.and_eq_true] at hrest
    rcases List.infix_cons_iff.1 hpart with hfront | hpart
    · cases seg with
      | nil => exact hseg.elim
      | cons c tail =>
        obtain ⟨rfl, _⟩ := List.cons_prefix_cons.1 hfront
        exact absurd (hseg.1.symm.trans (continuations_of_isContinuation hrest.1)) (by simp)
    · exact ih hrest.2 hpart

/-! ## The pieces of a text -/

/-- What becomes of a text, piece by piece. -/
inductive Cleaned : Bytes → Bytes → Prop where
  | nil : Cleaned [] []
  | keep {seg s output : Bytes} : Shape seg → Cleaned s output → Cleaned (seg ++ s) (seg ++ output)
  | replace {c : UInt8} {s output : Bytes} : (∀ seg, seg <+: c :: s → ¬Shape seg) →
      Cleaned s output → Cleaned (c :: s) (replacement ++ output)

theorem character_replacement : Character replacement :=
  ⟨⟨by decide, by decide⟩, by decide, by decide, by decide⟩

theorem SequenceOf.head {Piece : Bytes → Prop} {s : Bytes} (hs : SequenceOf Piece s)
    (hne : s ≠ []) : ∃ seg rest, s = seg ++ rest ∧ Piece seg ∧ SequenceOf Piece rest := by
  cases hs with
  | nil => exact absurd rfl hne
  | append hseg hrest => exact ⟨_, _, rfl, hseg, hrest⟩

/-- A sequence of pieces goes on behind any character it begins with. -/
theorem SequenceOf.of_append {Piece : Bytes → Prop} (hshape : ∀ seg, Piece seg → Shape seg)
    {seg rest : Bytes} (hseg : Shape seg) (hs : SequenceOf Piece (seg ++ rest)) :
    Piece seg ∧ SequenceOf Piece rest := by
  have hne : seg ++ rest ≠ [] := by
    intro hnil
    rw [(List.append_eq_nil_iff.1 hnil).1] at hseg
    exact hseg
  obtain ⟨first, tail, heq, hfirst, htail⟩ := hs.head hne
  obtain rfl := Shape.unique hseg (hshape _ hfirst) (List.prefix_append _ rest)
    (heq ▸ List.prefix_append first tail)
  exact ⟨hfirst, List.append_cancel_left heq ▸ htail⟩

theorem Cleaned.eq_of_shapes {s output : Bytes} (hclean : Cleaned s output)
    (hs : SequenceOf Shape s) : output = s := by
  induction hclean with
  | nil => rfl
  | keep hseg _ ih => rw [ih (hs.of_append (fun _ h => h) hseg).2]
  | replace hnone _ _ =>
    obtain ⟨seg, rest, heq, hseg, _⟩ := hs.head (List.cons_ne_nil _ _)
    exact absurd hseg (hnone seg (heq ▸ List.prefix_append _ _))

theorem Cleaned.shapes {s output : Bytes} (hclean : Cleaned s output) :
    SequenceOf Shape output := by
  induction hclean with
  | nil => exact .nil
  | keep hseg _ ih => exact .append hseg ih
  | replace _ _ ih => exact .append character_replacement.1 ih

theorem Cleaned.wellFormed_iff {s output : Bytes} (hclean : Cleaned s output) :
    WellFormed output ↔ ∀ seg, seg <:+: s → Shape seg → Character seg := by
  induction hclean with
  | nil =>
    refine iff_of_true .nil fun seg hpart hseg => ?_
    rw [List.infix_nil.1 hpart] at hseg
    exact hseg.elim
  | @keep first s output hfirst hclean ih =>
    constructor
    · intro hout seg hpart hseg
      obtain ⟨hcharacter, hrest⟩ := SequenceOf.of_append (fun _ h => h.1) hfirst hout
      cases first with
      | nil => exact hfirst.elim
      | cons c rest =>
        rcases List.infix_cons_iff.1 hpart with hfront | hpart
        · rwa [Shape.unique hseg hfirst hfront (List.prefix_append _ _)]
        · -- no character begins among the continuation bytes of the first one
          exact ih.1 hrest seg (infix_of_infix_append hfirst.2 hseg hpart) hseg
    · intro hall
      refine .append (hall first (List.prefix_append _ _).isInfix hfirst) (ih.2 ?_)
      exact fun seg hpart => hall seg (hpart.trans (List.suffix_append _ _).isInfix)
  | replace hnone hclean ih =>
    constructor
    · intro hout seg hpart hseg
      obtain ⟨_, hrest⟩ := SequenceOf.of_append (fun _ h => h.1) character_replacement.1 hout
      rcases List.infix_cons_iff.1 hpart with hfront | hpart
      · exact absurd hseg (hnone seg hfront)
      · exact ih.1 hrest seg hpart hseg
    · intro hall
      refine .append character_replacement (ih.2 fun seg hpart => ?_)
      exact hall seg (hpart.trans (List.suffix_cons _ _).isInfix)

/-! ## The loop -/

theorem follows_eq (s : Bytes) (j n : Nat) (hle : j + n ≤ s.length) :
    follows s j n = some (((s.drop j).take n).all isContinuation) := by
  induction n generalizing j with
  | zero => rfl
  | succ n ih =>
    have hget : s[j]? = some s[j] := List.getElem?_eq_getElem (by omega)
    rw [follows, hget, List.drop_eq_getElem_cons (by omega), List.take_succ_cons, List.all_cons]
    change (if isContinuation s[j] = true then follows s (j + 1) n else some false) = _
    rw [ih (j + 1) (by omega)]
    cases isContinuation s[j] <;> rfl

variable {s : Bytes} {i : Nat} {c : UInt8} {rest : Bytes}

theorem isSequence_eq (hdrop : s.drop i = c :: rest) (mask lead : UInt8) (n : Nat) :
    isSequence s i c mask lead n = some (decide (c &&& mask = lead ∧ n ≤ rest.length ∧
      (rest.take n).all isContinuation = true)) := by
  have hlength := congrArg List.length hdrop
  have hrest : s.drop (i + 1) = rest := by
    rw [← List.drop_drop, hdrop, List.drop_one, List.tail_cons]
  rw [List.length_drop, List.length_cons] at hlength
  unfold isSequence
  split
  · next hguard =>
    rw [follows_eq s _ _ (by omega), hrest]
    refine congrArg some (Bool.eq_iff_iff.2 ⟨fun hall => ?_, fun h => (of_decide_eq_true h).2.2⟩)
    exact decide_eq_true ⟨hguard.1, by omega, hall⟩
  · next hguard =>
    have hnot : ¬(c &&& mask = lead ∧ n ≤ rest.length ∧
        (rest.take n).all isContinuation = true) :=
      fun hand => hguard ⟨hand.1, by omega⟩
    rw [decide_eq_false hnot]

theorem cleaned_keep (hdrop : s.drop i = c :: rest) {n : Nat} (hc : continuations c = some n)
    (hn : n ≤ rest.length ∧ (rest.take n).all isContinuation = true) {cleaned : Bytes}
    (hcleaned : Cleaned (s.drop (i + (n + 1))) cleaned) :
    Cleaned (s.drop i) ((s.drop i).take (n + 1) ++ cleaned) := by
  have hsplit := (List.take_append_drop (n + 1) (s.drop i)).symm
  rw [List.drop_drop] at hsplit
  rw [hsplit, List.take_left' (by rw [List.length_take, hdrop, List.length_cons]; omega), hdrop,
    List.take_succ_cons]
  refine .keep ⟨?_, hn.2⟩ hcleaned
  rw [List.length_take, Nat.min_eq_left hn.1, hc]

/-- Every byte is replaced that no branch of the loop keeps. -/
theorem not_shape_of_front (hascii : ¬c ≤ 0x7F)
    (hone : ¬(c &&& 0xE0 = 0xC0 ∧ 1 ≤ rest.length ∧ (rest.take 1).all isContinuation = true))
    (htwo : ¬(c &&& 0xF0 = 0xE0 ∧ 2 ≤ rest.length ∧ (rest.take 2).all isContinuation = true))
    (hthree : ¬(c &&& 0xF8 = 0xF0 ∧ 3 ≤ rest.length ∧ (rest.take 3).all isContinuation = true))
    (seg : Bytes) (hfront : seg <+: c :: rest) : ¬Shape seg := by
  intro hseg
  cases seg with
  | nil => exact hseg
  | cons d tail =>
    obtain ⟨rfl, htake⟩ := List.cons_prefix_cons.1 hfront
    obtain ⟨hlength, hall⟩ := hseg
    rw [List.prefix_iff_eq_take.1 htake] at hall
    have htail {n : Nat} (hn : n = tail.length) :
        n ≤ rest.length ∧ (rest.take n).all isContinuation = true := by
      subst hn
      exact ⟨htake.length_le, hall⟩
    unfold continuations at hlength
    rw [if_neg hascii] at hlength
    split at hlength
    · next hmask => exact hone ⟨hmask, htail (Option.some.inj hlength)⟩
    split at hlength
    · next hmask => exact htwo ⟨hmask, htail (Option.some.inj hlength)⟩
    split at hlength
    · next hmask => exact hthree ⟨hmask, htail (Option.some.inj hlength)⟩
    · cases hlength

theorem sanitizeFrom_cleaned (s : Bytes) (i : Nat) (output : Bytes) :
    ∃ cleaned, sanitizeFrom s i output = some (output ++ cleaned) ∧
      Cleaned (s.drop i) cleaned := by
  by_cases hi : i < s.length
  · -- a round keeps a character or replaces one byte, and goes on behind it
    have hdrop := List.drop_eq_getElem_cons hi
    rw [sanitizeFrom, if_pos hi, List.getElem?_eq_getElem hi]
    generalize s[i] = c at hdrop
    generalize s.drop (i + 1) = rest at hdrop
    have hkeep {n : Nat} (hc : continuations c = some n)
        (hn : n ≤ rest.length ∧ (rest.take n).all isContinuation = true) :
        ∃ cleaned, sanitizeFrom s (i + (n + 1)) (output ++ (s.drop i).take (n + 1)) =
          some (output ++ cleaned) ∧ Cleaned (s.drop i) cleaned := by
      obtain ⟨cleaned, heq, hcleaned⟩ :=
        sanitizeFrom_cleaned s (i + (n + 1)) (output ++ (s.drop i).take (n + 1))
      rw [List.append_assoc] at heq
      exact ⟨_, heq, cleaned_keep hdrop hc hn hcleaned⟩
    simp only [Option.bind_eq_bind, Option.bind_some, isSequence_eq hdrop, decide_eq_true_eq]
    split
    · next hascii =>
      have htake : (s.drop i).take 1 = [c] := by rw [hdrop, List.take_succ_cons, List.take_zero]
      rw [← htake]
      exact hkeep (if_pos hascii) ⟨Nat.zero_le _, rfl⟩
    next hascii =>
    split
    · next hone =>
      exact hkeep (by rw [continuations, if_neg hascii, if_pos hone.1]) hone.2
    next hone =>
    split
    · next htwo =>
      have hnone : c &&& 0xE0 ≠ 0xC0 :=
        ne_of_eq_of_ne (and_of_and_mask (by decide) htwo.1) (by decide)
      exact hkeep (by rw [continuations, if_neg hascii, if_neg hnone, if_pos htwo.1]) htwo.2
    next htwo =>
    split
    · next hthree =>
      have hnone : c &&& 0xE0 ≠ 0xC0 :=
        ne_of_eq_of_ne (and_of_and_mask (by decide) hthree.1) (by decide)
      have hntwo : c &&& 0xF0 ≠ 0xE0 :=
        ne_of_eq_of_ne (and_of_and_mask (by decide) hthree.1) (by decide)
      refine hkeep ?_ hthree.2
      rw [continuations, if_neg hascii, if_neg hnone, if_neg hntwo, if_pos hthree.1]
    next hthree =>
    obtain ⟨cleaned, heq, hcleaned⟩ := sanitizeFrom_cleaned s (i + 1) (output ++ replacement)
    rw [List.append_assoc] at heq
    have hrest : s.drop (i + 1) = rest := by
      rw [← List.drop_drop, hdrop, List.drop_one, List.tail_cons]
    refine ⟨_, heq, ?_⟩
    rw [hdrop]
    exact .replace (not_shape_of_front hascii hone htwo hthree) (hrest ▸ hcleaned)
  · refine ⟨[], ?_, ?_⟩
    · rw [sanitizeFrom, if_neg hi, List.append_nil]
    · rw [List.drop_eq_nil_of_le (by omega)]
      exact .nil
termination_by s.length - i

/-- The result is well-formed when no leading byte with its continuation bytes is anything but a
character. -/
theorem sanitizeUtf8_iff (s : Bytes) :
    ∃ output, SanitizeUtf8 s = some output ∧ (WellFormed s → output = s) ∧
      SanitizeUtf8 output = some output ∧
      (WellFormed output ↔ ∀ seg, seg <:+: s → Shape seg → Character seg) := by
  obtain ⟨output, heq, hcleaned⟩ := sanitizeFrom_cleaned s 0 []
  obtain ⟨again, hagain, hsame⟩ := sanitizeFrom_cleaned output 0 []
  rw [List.drop_zero] at hcleaned hsame
  rw [hsame.eq_of_shapes hcleaned.shapes] at hagain
  refine ⟨output, heq, fun hs => ?_, hagain, hcleaned.wellFormed_iff⟩
  exact hcleaned.eq_of_shapes (SequenceOf.mono (fun _ hseg => hseg.1) hs)

/-- The overlong form of a slash stays. -/
theorem sanitizeUtf8_overlong :
    ∃ output, SanitizeUtf8 [0xC0, 0xAF] = some output ∧ ¬WellFormed output := by
  have hshape : Shape [0xC0, 0xAF] := ⟨by decide, by decide⟩
  obtain ⟨output, heq, hcleaned⟩ := sanitizeFrom_cleaned [0xC0, 0xAF] 0 []
  refine ⟨output, heq, fun hout => ?_⟩
  have hcharacter := hcleaned.wellFormed_iff.1 hout _ List.infix_rfl hshape
  exact absurd hcharacter.2.1 (by decide)

/-! ## Texts in parts -/

section Parts

variable {seg s front back output first second : Bytes} {c : UInt8}

theorem Cleaned.of_keep (hseg : Shape seg) (hclean : Cleaned (seg ++ s) output) :
    ∃ rest, output = seg ++ rest ∧ Cleaned s rest := by
  generalize htext : seg ++ s = text at hclean
  cases hclean with
  | nil =>
    rw [(List.append_eq_nil_iff.1 htext).1] at hseg
    exact hseg.elim
  | @keep seg' s' rest hseg' hrest =>
    obtain rfl := Shape.unique hseg hseg' (List.prefix_append _ s) (htext ▸ List.prefix_append _ _)
    exact ⟨rest, rfl, List.append_cancel_left htext ▸ hrest⟩
  | replace hnone _ => exact absurd hseg (hnone seg (htext ▸ List.prefix_append _ _))

theorem Cleaned.of_replace (hnone : ∀ seg, seg <+: c :: s → ¬Shape seg)
    (hclean : Cleaned (c :: s) output) : ∃ rest, output = replacement ++ rest ∧ Cleaned s rest := by
  generalize htext : c :: s = text at hclean
  cases hclean with
  | nil => cases htext
  | keep hseg _ => exact absurd hseg (hnone _ (htext ▸ List.prefix_append _ _))
  | replace _ hrest =>
    obtain ⟨-, rfl⟩ := List.cons.inj htext
    exact ⟨_, rfl, hrest⟩

theorem Cleaned.unique (hfirst : Cleaned s first) (hsecond : Cleaned s second) :
    first = second := by
  induction hfirst generalizing second with
  | nil =>
    generalize htext : [] = text at hsecond
    cases hsecond with
    | nil => rfl
    | keep hseg _ =>
      rw [(List.append_eq_nil_iff.1 htext.symm).1] at hseg
      exact hseg.elim
    | replace _ _ => cases htext
  | keep hseg _ ih =>
    obtain ⟨rest, rfl, hrest⟩ := hsecond.of_keep hseg
    rw [ih hrest]
  | replace hnone _ ih =>
    obtain ⟨rest, rfl, hrest⟩ := hsecond.of_replace hnone
    rw [ih hrest]

/-- No character goes on behind a byte that does not continue one. -/
theorem Cleaned.append (hfront : Cleaned front first) (hback : Cleaned back second)
    (hstart : ∀ c ∈ back.head?, isContinuation c = false) :
    Cleaned (front ++ back) (first ++ second) := by
  induction hfront with
  | nil => exact hback
  | keep hseg _ ih =>
    rw [List.append_assoc, List.append_assoc]
    exact .keep hseg ih
  | @replace c s _ hnone _ ih =>
    rw [List.append_assoc]
    refine .replace (fun seg hpart hseg => ?_) ih
    rcases List.prefix_or_prefix_of_prefix hpart (List.prefix_append (c :: s) back) with
      hwithin | ⟨tail, rfl⟩
    · exact hnone seg hwithin hseg
    · cases tail with
      | nil => exact hnone _ (by rw [List.append_nil]) hseg
      | cons d tail =>
        obtain ⟨rest, rfl⟩ := (List.prefix_append_right_inj (c :: s)).1 hpart
        have hcontinues := List.all_eq_true.1 hseg.2 d
          (List.mem_append_right _ List.mem_cons_self)
        rw [hstart d rfl] at hcontinues
        cases hcontinues

theorem Cleaned.length_le (hclean : Cleaned s output) :
    s.length ≤ output.length ∧ output.length ≤ 3 * s.length := by
  induction hclean with
  | nil => exact ⟨Nat.le_refl _, Nat.le_refl _⟩
  | keep _ _ ih =>
    rw [List.length_append, List.length_append]
    omega
  | replace _ _ ih =>
    rw [List.length_append, List.length_cons]
    change _ ≤ 3 + _ ∧ 3 + _ ≤ _
    omega

end Parts

/-- A text may be sanitized in parts that do not begin with a continuation byte. -/
theorem sanitizeUtf8_append (front back : Bytes)
    (hstart : ∀ c ∈ back.head?, isContinuation c = false) :
    ∃ first second, SanitizeUtf8 front = some first ∧ SanitizeUtf8 back = some second ∧
      SanitizeUtf8 (front ++ back) = some (first ++ second) ∧
      front.length + back.length ≤ (first ++ second).length ∧
      (first ++ second).length ≤ 3 * (front.length + back.length) := by
  obtain ⟨first, hfirst, hcleanFirst⟩ := sanitizeFrom_cleaned front 0 []
  obtain ⟨second, hsecond, hcleanSecond⟩ := sanitizeFrom_cleaned back 0 []
  obtain ⟨whole, hwhole, hclean⟩ := sanitizeFrom_cleaned (front ++ back) 0 []
  have hparts := hcleanFirst.append hcleanSecond hstart
  obtain rfl := hclean.unique hparts
  rw [← List.length_append]
  exact ⟨first, second, hfirst, hsecond, hwhole, hclean.length_le⟩

/-- A character that is cut off, and a letter. -/
theorem sanitizeUtf8_append_cut :
    ∃ first second, SanitizeUtf8 [0xE2, 0x82] = some first ∧ SanitizeUtf8 [0x61] = some second ∧
      SanitizeUtf8 [0xE2, 0x82, 0x61] = some (first ++ second) := by
  obtain ⟨first, second, hfirst, hsecond, hwhole, -⟩ :=
    sanitizeUtf8_append [0xE2, 0x82] [0x61] fun _ hc => Option.some.inj hc ▸ by decide
  exact ⟨first, second, hfirst, hsecond, hwhole⟩

end AwsMock.StringUtils
