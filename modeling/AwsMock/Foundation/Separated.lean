import Mathlib.Data.List.Basic

/-! # Texts with separators, and codes

A text of parts with a separator between them, or after each of them, has no other
reading when the separator occurs in no part. Neither has a text that is put
together from code words.
-/

namespace Foundation

section Separated

variable {α : Type*} [BEq α] [LawfulBEq α] {separator : α}

theorem intercalate_injOn {parts others : List (List α)}
    (hparts : ∀ part ∈ parts, separator ∉ part) (hothers : ∀ part ∈ others, separator ∉ part)
    (hnonempty : parts ≠ []) (hother : others ≠ [])
    (heq : [separator].intercalate parts = [separator].intercalate others) : parts = others := by
  have hsplit := congrArg (List.splitOn separator) heq
  rwa [List.splitOn_intercalate separator hparts hnonempty,
    List.splitOn_intercalate separator hothers hother] at hsplit

omit [BEq α] [LawfulBEq α] in
theorem flatMap_append_intercalate (parts : List (List α)) {rest : List (List α)}
    (hrest : rest ≠ []) :
    parts.flatMap (fun part => part ++ [separator]) ++ [separator].intercalate rest =
      [separator].intercalate (parts ++ rest) := by
  induction parts with
  | nil => rfl
  | cons part parts ih =>
    have hnonempty : parts ++ rest ≠ [] := by
      intro heq
      exact hrest (List.append_eq_nil_iff.mp heq).2
    rw [List.cons_append, List.intercalate_cons_of_ne_nil hnonempty, ← ih, List.flatMap_cons,
      List.append_assoc]

omit [BEq α] [LawfulBEq α] in
theorem intercalate_append {between : List α} {front back : List (List α)} (hfront : front ≠ [])
    (hback : back ≠ []) :
    between.intercalate (front ++ back) =
      between.intercalate front ++ between ++ between.intercalate back := by
  induction front with
  | nil => exact absurd rfl hfront
  | cons part front ih =>
    by_cases hempty : front = []
    · subst hempty
      rw [List.singleton_append, List.intercalate_cons_of_ne_nil hback, List.intercalate_singleton]
    · have happend : front ++ back ≠ [] := List.append_ne_nil_of_left_ne_nil hempty back
      rw [List.cons_append, List.intercalate_cons_of_ne_nil happend, ih hempty,
        List.intercalate_cons_of_ne_nil hempty]
      simp only [List.append_assoc]

omit [BEq α] [LawfulBEq α] in
theorem mem_intercalate {parts : List (List α)} {between part : List α} {a : α}
    (hpart : part ∈ parts) (ha : a ∈ part) : a ∈ between.intercalate parts := by
  induction parts with
  | nil => cases hpart
  | cons first parts ih =>
    cases parts with
    | nil =>
      rw [List.mem_singleton.mp hpart] at ha
      rwa [List.intercalate_singleton]
    | cons second parts =>
      rw [List.intercalate_cons_cons, List.mem_append, List.mem_append]
      rcases List.mem_cons.mp hpart with rfl | hpart
      · exact .inl (.inl ha)
      · exact .inr (ih hpart)

theorem mem_of_mem_splitOn {text part : List α} {a : α} (hpart : part ∈ text.splitOn separator)
    (ha : a ∈ part) : a ∈ text := by
  rw [← @List.intercalate_splitOn _ text _ _ separator]
  exact mem_intercalate hpart ha

theorem notMem_of_mem_splitOn {text part : List α} (hpart : part ∈ text.splitOn separator) :
    separator ∉ part := by
  induction hlength : text.length using Nat.strongRecOn generalizing text with
  | _ length ih =>
    by_cases hseparator : separator ∈ text
    · obtain ⟨front, back, rfl, hfront⟩ := List.eq_append_cons_of_mem hseparator
      rw [List.splitOn_append_cons_self, List.splitOn_eq_singleton hfront] at hpart
      rcases List.mem_append.mp hpart with hfirst | hlater
      · rw [List.mem_singleton.mp hfirst]
        exact hfront
      · apply ih back.length _ hlater rfl
        rw [← hlength, List.length_append, List.length_cons]
        omega
    · rw [List.splitOn_eq_singleton hseparator, List.mem_singleton] at hpart
      rw [hpart]
      exact hseparator

theorem exists_first_part (separator : α) (text : List α) :
    ∃ first rest, text = first ++ rest ∧ separator ∉ first ∧ ∀ a ∈ rest.head?, a = separator := by
  by_cases hseparator : separator ∈ text
  · obtain ⟨front, back, rfl, hfront⟩ := List.eq_append_cons_of_mem hseparator
    exact ⟨front, separator :: back, rfl, hfront, fun a ha => (Option.some.inj ha).symm⟩
  · exact ⟨text, [], (List.append_nil text).symm, hseparator, fun a ha => nomatch ha⟩

theorem exists_splitOn_eq {first rest : List α} (hfirst : separator ∉ first)
    (hrest : ∀ a ∈ rest.head?, a = separator) :
    ∃ more, (first ++ rest).splitOn separator = first :: more := by
  cases rest with
  | nil => exact ⟨[], by rw [List.append_nil, List.splitOn_eq_singleton hfirst]⟩
  | cons a rest =>
    obtain rfl := hrest a rfl
    exact ⟨_, List.splitOn_append_cons_self_of_not_mem hfirst rest⟩

theorem last_part {front back front' back' : List α} (hback : separator ∉ back)
    (hback' : separator ∉ back') (heq : front ++ separator :: back = front' ++ separator :: back') :
    front = front' ∧ back = back' := by
  have hsplit := congrArg (List.splitOn separator) heq
  rw [List.splitOn_append_cons_self, List.splitOn_append_cons_self,
    List.splitOn_eq_singleton hback, List.splitOn_eq_singleton hback'] at hsplit
  obtain ⟨-, hlast⟩ := List.append_inj' hsplit rfl
  obtain rfl : back = back' := List.singleton_inj.mp hlast
  exact ⟨List.append_cancel_right heq, rfl⟩

end Separated

section Cutting

variable {α : Type*} [DecidableEq α]

theorem cut_of_notMem {separator : α} {text : List α} (htext : separator ∉ text) :
    text.takeWhile (· ≠ separator) = text ∧ text.dropWhile (· ≠ separator) = [] := by
  induction text with
  | nil => exact ⟨rfl, rfl⟩
  | cons a text ih =>
    rw [List.mem_cons, not_or] at htext
    obtain ⟨htake, hdrop⟩ := ih htext.2
    have ha : a ≠ separator := Ne.symm htext.1
    rw [List.takeWhile_cons_of_pos (by simpa using ha),
      List.dropWhile_cons_of_pos (by simpa using ha), htake]
    exact ⟨rfl, hdrop⟩

theorem cut_of_mem {separator : α} {text : List α} (htext : separator ∈ text) :
    ∃ rest, text = text.takeWhile (· ≠ separator) ++ separator :: rest ∧
      text.dropWhile (· ≠ separator) = separator :: rest := by
  induction text with
  | nil => cases htext
  | cons a text ih =>
    by_cases ha : a = separator
    · refine ⟨text, ?_, ?_⟩
      · rw [List.takeWhile_cons_of_neg (by simpa using ha), ha, List.nil_append]
      · rw [List.dropWhile_cons_of_neg (by simpa using ha), ha]
    · rw [List.takeWhile_cons_of_pos (by simpa using ha),
        List.dropWhile_cons_of_pos (by simpa using ha)]
      obtain ⟨rest, hrest, hdrop⟩ := ih ((List.mem_cons.mp htext).resolve_left (Ne.symm ha))
      exact ⟨rest, congrArg (a :: ·) hrest, hdrop⟩

theorem dropWhile_append_cons {separator : α} {front : List α} (hfront : separator ∉ front)
    (back : List α) : (front ++ separator :: back).dropWhile (· ≠ separator) = separator :: back := by
  induction front with
  | nil =>
    rw [List.nil_append, List.dropWhile_cons_of_neg (by simp)]
  | cons a front ih =>
    rw [List.mem_cons, not_or] at hfront
    have ha : a ≠ separator := Ne.symm hfront.1
    rw [List.cons_append, List.dropWhile_cons_of_pos (by simpa using ha), ih hfront.2]

end Cutting

section Codes

variable {α β : Type*} {encode : α → List β}

theorem flatMap_injective (hnonempty : ∀ a, encode a ≠ [])
    (hcode : ∀ a b s t, encode a ++ s = encode b ++ t → a = b ∧ s = t) :
    Function.Injective (List.flatMap encode) := by
  intro word other heq
  induction word generalizing other with
  | nil =>
    cases other with
    | nil => rfl
    | cons b other =>
      rw [List.flatMap_nil, List.flatMap_cons] at heq
      exact absurd (List.append_eq_nil_iff.mp heq.symm).1 (hnonempty b)
  | cons a word ih =>
    cases other with
    | nil =>
      rw [List.flatMap_nil, List.flatMap_cons] at heq
      exact absurd (List.append_eq_nil_iff.mp heq).1 (hnonempty a)
    | cons b other =>
      rw [List.flatMap_cons, List.flatMap_cons] at heq
      obtain ⟨rfl, hrest⟩ := hcode a b _ _ heq
      rw [ih hrest]

end Codes

end Foundation
