import AwsMock.Foundation.FilterDocument
import AwsMock.DynamoDb.Expression

/-! # The grammar of key conditions

The texts that are put together from the tokens of conditions, and what the
parser makes of them: it accepts such a text exactly when its tokens are fields
and placeholders, and all the texts it accepts are of this form.
-/

namespace AwsMock.DynamoDb.QueryHelper

open Foundation ExpressionParser

section Tokens

/-- `field ::= '#'? alpha (alnum | '_')*`. -/
def isField (text : List Char) : Bool :=
  let name := if text.head? = some '#' then text.tail else text
  name.all isNameChar && name.head?.any Char.isAlpha

/-- `placeholder ::= ':' (alnum | '_')+`. -/
def isPlaceholder : List Char → Bool
  | ':' :: name => name.all isNameChar && !name.isEmpty
  | _ => false

/-- What is in the place of a field: name characters, perhaps after a sign. -/
def IsFieldToken (text : List Char) : Prop :=
  ∃ sign name, text = sign ++ name ∧ (sign = [] ∨ sign = ['#']) ∧ ∀ c ∈ name, isNameChar c = true

def IsPlaceholderToken (text : List Char) : Prop :=
  ∃ name, text = ':' :: name ∧ ∀ c ∈ name, isNameChar c = true

def IsBlank (text : List Char) : Prop := ∀ c ∈ text, isSpace c = true

def Stops (rest : List Char) : Prop :=
  ∀ c, rest.head? = some c → isNameChar c = false ∧ c ≠ '#'

theorem stops_nil : Stops [] := by
  intro c hc
  cases hc

variable {text : List Char} {c : Char}

theorem stops_cons {rest : List Char} (hname : isNameChar c = false) (hsign : c ≠ '#') :
    Stops (c :: rest) := by
  intro other hother
  cases hother
  exact ⟨hname, hsign⟩

theorem isNameChar_of_isAlpha (hc : c.isAlpha = true) : isNameChar c = true := by
  rw [isNameChar, Char.isAlphanum, hc]
  rfl

theorem le_of_isNameChar (hc : isNameChar c = true) : 48 ≤ c.toNat := by
  change (((decide (65 ≤ c.val ∧ c.val ≤ 90) || decide (97 ≤ c.val) && decide (c.val ≤ 122)) ||
    decide (48 ≤ c.val) && decide (c.val ≤ 57)) || decide (c = '_')) = true at hc
  simp only [Bool.or_eq_true, Bool.and_eq_true, decide_eq_true_eq, UInt32.le_iff_toNat_le] at hc
  change (((65 ≤ c.toNat ∧ c.toNat ≤ 90) ∨ (97 ≤ c.toNat ∧ c.toNat ≤ 122)) ∨
    (48 ≤ c.toNat ∧ c.toNat ≤ 57)) ∨ c = '_' at hc
  rcases hc with ((hc | hc) | hc) | rfl
  · omega
  · omega
  · omega
  · decide

theorem le_of_isSpace (hc : isSpace c = true) : c.toNat ≤ 32 := by
  rw [isSpace, Bool.or_eq_true, Bool.and_eq_true, decide_eq_true_eq, decide_eq_true_eq,
    decide_eq_true_eq] at hc
  rcases hc with rfl | ⟨_, hhigh⟩
  · decide
  · have hreturn : c.toNat ≤ 13 := UInt32.le_iff_toNat_le.mp hhigh
    omega

theorem stops_of_isSpace {rest : List Char} (hc : isSpace c = true) :
    Stops (c :: rest) := by
  have hlow := le_of_isSpace hc
  apply stops_cons
  · rw [Bool.eq_false_iff]
    intro hname
    have hhigh := le_of_isNameChar hname
    omega
  · rintro rfl
    revert hlow
    decide

theorem stops_blank_append {blanks rest : List Char} (hblanks : IsBlank blanks)
    (hrest : Stops rest) : Stops (blanks ++ rest) := by
  cases blanks with
  | nil => exact hrest
  | cons c blanks => exact stops_of_isSpace (hblanks c List.mem_cons_self)

theorem takeWhile_exact {kind : Char → Bool} {inside rest : List Char}
    (hinside : ∀ c ∈ inside, kind c = true) (hrest : ∀ c, rest.head? = some c → kind c = false) :
    (inside ++ rest).takeWhile kind = inside := by
  rw [List.takeWhile_append_of_pos hinside]
  cases rest with
  | nil => simp
  | cons c rest => simp [hrest c rfl]

theorem takeName_token {name rest : List Char} (hname : ∀ c ∈ name, isNameChar c = true)
    (hrest : Stops rest) (pos : Nat) :
    takeName ⟨pos, name ++ rest⟩ = (name, ⟨pos + name.length, rest⟩) := by
  rw [takeName, takeWhile_exact hname fun c hc => (hrest c hc).1, Cursor.advance, List.drop_left]

theorem skipSpaces_blank {blanks rest : List Char} (hblanks : IsBlank blanks)
    (hrest : ∀ c, rest.head? = some c → isSpace c = false) (pos : Nat) :
    skipSpaces ⟨pos, blanks ++ rest⟩ = ⟨pos + blanks.length, rest⟩ := by
  rw [skipSpaces, takeWhile_exact hblanks hrest, Cursor.advance, List.drop_left]

theorem isFieldToken_of_isField (hfield : isField text = true) :
    IsFieldToken text := by
  rw [isField, Bool.and_eq_true, List.all_eq_true] at hfield
  obtain ⟨hname, -⟩ := hfield
  split at hname
  next hsign =>
    cases text with
    | nil => cases hsign
    | cons c name =>
      cases hsign
      exact ⟨['#'], name, rfl, .inr rfl, hname⟩
  next => exact ⟨[], text, rfl, .inl rfl, hname⟩

theorem point_not_mem_field (hfield : isField text = true) : '.' ∉ text := by
  obtain ⟨sign, name, rfl, hsign, hname⟩ := isFieldToken_of_isField hfield
  rw [List.mem_append]
  rintro (hmem | hmem)
  · rcases hsign with rfl | rfl
    · cases hmem
    · revert hmem
      decide
  · have hpoint := hname '.' hmem
    revert hpoint
    decide

theorem exists_of_isPlaceholder (hplaceholder : isPlaceholder text = true) :
    ∃ name, text = ':' :: name ∧ ∀ c ∈ name, isNameChar c = true := by
  unfold isPlaceholder at hplaceholder
  split at hplaceholder
  next name => exact ⟨name, rfl, List.all_eq_true.mp (Bool.and_eq_true_iff.mp hplaceholder).1⟩
  next => cases hplaceholder

theorem head?_of_isPlaceholder (hplaceholder : isPlaceholder text = true) :
    text.head? = some ':' := by
  obtain ⟨name, rfl, -⟩ := exists_of_isPlaceholder hplaceholder
  rfl

end Tokens

/-- A parser returns a value and leaves the rest when a condition is met, and
fails otherwise. -/
structure Yields {α : Type} (result : Except CoreException (α × Cursor)) (valid : Prop) (value : α)
    (rest : List Char) : Prop where
  accepts : valid → ∃ pos, result = .ok (value, ⟨pos, rest⟩)
  rejects : ¬valid → ∃ message, result = fail message

section Evaluation

variable {rest : List Char} {text : List Char} {conditions : List Condition}

theorem Stops.head?_any (hrest : Stops rest) :
    rest.head?.any isNameChar = false ∧ rest.head?.any Char.isAlpha = false ∧
      ¬rest.head? = some '#' := by
  cases hc : rest.head? with
  | none =>
    refine ⟨rfl, rfl, ?_⟩
    intro heq
    cases heq
  | some c =>
    obtain ⟨hname, hsign⟩ := hrest c hc
    refine ⟨hname, ?_, ?_⟩
    · rw [Option.any_some, Bool.eq_false_iff]
      intro halpha
      rw [isNameChar_of_isAlpha halpha] at hname
      cases hname
    · intro heq
      cases heq
      exact hsign rfl

theorem head?_any_append {name rest : List Char} {kind : Char → Bool}
    (hrest : rest.head?.any kind = false) :
    (name ++ rest).head?.any kind = name.head?.any kind := by
  cases name with
  | nil => exact hrest
  | cons c name => rfl

theorem parsePlaceholder_colon (pos : Nat) (text : List Char) :
    parsePlaceholder ⟨pos, ':' :: text⟩ =
      if text.head?.any isNameChar = true then
        .ok (":" ++ String.ofList (takeName ⟨pos + 1, text⟩).1, (takeName ⟨pos + 1, text⟩).2)
      else fail ("Expected placeholder name after ':' at position " ++ toString (pos + 1)) := rfl

theorem parsePlaceholder_token {placeholder : String}
    (htoken : IsPlaceholderToken placeholder.toList) (hrest : Stops rest) (pos : Nat) :
    Yields (parsePlaceholder ⟨pos, placeholder.toList ++ rest⟩)
      (isPlaceholder placeholder.toList = true) placeholder rest := by
  obtain ⟨name, htext, hname⟩ := htoken
  have hvalue : ":" ++ String.ofList name = placeholder := by
    apply String.toList_injective
    rw [String.toList_append, htext]
    change ':' :: (String.ofList name).toList = _
    rw [String.toList_ofList]
  rw [htext, List.cons_append, parsePlaceholder_colon, takeName_token hname hrest, hvalue,
    head?_any_append hrest.head?_any.1, isPlaceholder, List.all_eq_true.mpr hname, Bool.true_and]
  cases name with
  | nil =>
    constructor
    · intro hvalid
      cases hvalid
    · intro _
      exact ⟨_, rfl⟩
  | cons c name =>
    have hpeek : (c :: name).head?.any isNameChar = true := hname c List.mem_cons_self
    rw [if_pos hpeek]
    constructor
    · intro _
      exact ⟨_, rfl⟩
    · intro hvalid
      exact absurd rfl hvalid

theorem parseField_sign (pos : Nat) (text : List Char) :
    parseField ⟨pos, '#' :: text⟩ =
      if text.head?.any Char.isAlpha = true then
        .ok ("#" ++ String.ofList (takeName ⟨pos + 1, text⟩).1, (takeName ⟨pos + 1, text⟩).2)
      else fail ("Expected field name at position " ++ toString (pos + 1)) := rfl

theorem parseField_plain (pos : Nat) (htext : ¬text.head? = some '#') :
    parseField ⟨pos, text⟩ =
      if text.head?.any Char.isAlpha = true then
        .ok ("" ++ String.ofList (takeName ⟨pos, text⟩).1, (takeName ⟨pos, text⟩).2)
      else fail ("Expected field name at position " ++ toString pos) := by
  have hpeek : ¬Cursor.peek ⟨pos, text⟩ = some '#' := htext
  rw [parseField]
  simp only [if_neg hpeek]
  rfl

theorem parseField_token {field : String} (htoken : IsFieldToken field.toList)
    (hrest : Stops rest) (pos : Nat) :
    Yields (parseField ⟨pos, field.toList ++ rest⟩) (isField field.toList = true) field rest := by
  obtain ⟨sign, name, htext, hsign, hname⟩ := htoken
  have hvalue : String.ofList sign ++ String.ofList name = field := by
    apply String.toList_injective
    rw [String.toList_append, String.toList_ofList, String.toList_ofList, htext]
  have hstart : (name ++ rest).head?.any Char.isAlpha = name.head?.any Char.isAlpha :=
    head?_any_append hrest.head?_any.2.1
  have hyields : ∀ {message : String} {after : Nat},
      Yields (if name.head?.any Char.isAlpha = true then .ok (field, ⟨after, rest⟩) else fail message)
        (name.head?.any Char.isAlpha = true) field rest := by
    intro message after
    constructor
    · intro hvalid
      rw [if_pos hvalid]
      exact ⟨_, rfl⟩
    · intro hvalid
      rw [if_neg hvalid]
      exact ⟨_, rfl⟩
  rcases hsign with rfl | rfl
  · have hplain : ¬name.head? = some '#' := by
      intro heq
      have hsharp := hname '#' (List.mem_of_mem_head? heq)
      revert hsharp
      decide
    have hhead : ¬(name ++ rest).head? = some '#' := by
      cases name with
      | nil => exact hrest.head?_any.2.2
      | cons c name => exact hplain
    rw [htext, List.nil_append, parseField_plain pos hhead, hstart, takeName_token hname hrest,
      isField, if_neg hplain, List.all_eq_true.mpr hname, Bool.true_and]
    have hfield : "" ++ String.ofList name = field := hvalue
    rw [hfield]
    exact hyields
  · rw [htext]
    change Yields (parseField ⟨pos, '#' :: (name ++ rest)⟩) _ _ _
    have hsigned : isField ('#' :: name) = name.head?.any Char.isAlpha := by
      change (name.all isNameChar && name.head?.any Char.isAlpha) = _
      rw [List.all_eq_true.mpr hname, Bool.true_and]
    have hfield : "#" ++ String.ofList name = field := hvalue
    rw [parseField_sign, hstart, takeName_token hname hrest, hfield]
    change Yields _ (isField ('#' :: name) = true) _ _
    rw [hsigned]
    exact hyields

def symbol : Comparison → List Char
  | .eq => ['=']
  | .gte => ['>', '=']
  | .lte => ['<', '=']
  | .gt => ['>']
  | .lt => ['<']

def Condition.compare : Comparison → String → String → Condition
  | .eq => .eq
  | .gte => .gte
  | .lte => .lte
  | .gt => .gt
  | .lt => .lt

structure Condition.WellFormed (condition : Condition) : Prop where
  field : isField condition.field.toList = true
  placeholders : ∀ placeholder ∈ condition.placeholders, isPlaceholder placeholder.toList = true

/-- The texts of a condition, from tokens that may have lost what makes them
fields and placeholders. -/
inductive Condition.Text : Condition → List Char → Prop
  | compare (comparison : Comparison) {field placeholder : String} {before after : List Char}
      (hfield : IsFieldToken field.toList) (hplaceholder : IsPlaceholderToken placeholder.toList)
      (hbefore : IsBlank before) (hafter : IsBlank after) :
      Condition.Text (.compare comparison field placeholder)
        (field.toList ++ (before ++ (symbol comparison ++ (after ++ placeholder.toList))))
  | between {field low high : String} (hfield : IsFieldToken field.toList)
      (hlow : IsPlaceholderToken low.toList) (hhigh : IsPlaceholderToken high.toList) :
      Condition.Text (.between field low high)
        (field.toList ++ (" BETWEEN ".toList ++ (low.toList ++ (" AND ".toList ++ high.toList))))

theorem parseOperator_symbol (comparison : Comparison)
    (hrest : ¬rest.head? = some '=') (pos : Nat) :
    parseOperator ⟨pos, symbol comparison ++ rest⟩ =
      .ok (String.ofList (symbol comparison), ⟨pos + (symbol comparison).length, rest⟩) := by
  cases comparison with
  | gt =>
    cases rest with
    | nil => rfl
    | cons c rest =>
      have hc : c ≠ '=' := by
        rintro rfl
        exact hrest rfl
      change parseOperator ⟨pos, '>' :: c :: rest⟩ = .ok (">", ⟨pos + 1, c :: rest⟩)
      unfold parseOperator
      split <;> simp_all
      next hgreater _ heq => exact absurd heq.1.symm hgreater
  | lt =>
    cases rest with
    | nil => rfl
    | cons c rest =>
      have hc : c ≠ '=' := by
        rintro rfl
        exact hrest rfl
      change parseOperator ⟨pos, '<' :: c :: rest⟩ = .ok ("<", ⟨pos + 1, c :: rest⟩)
      unfold parseOperator
      split <;> simp_all
      next hless heq => exact absurd heq.1.symm hless
  | _ => rfl

theorem not_sees_between {before rest : List Char} (hbefore : IsBlank before)
    (comparison : Comparison) (pos : Nat) :
    Cursor.sees ⟨pos, before ++ (symbol comparison ++ rest)⟩ " BETWEEN " = false := by
  have hsecond : ∀ text : List Char, " BETWEEN ".toList.isPrefixOf text = true →
      text.head? = some ' ' ∧ text.tail.head? = some 'B' := by
    intro text hprefix
    obtain ⟨suffix, rfl⟩ := List.isPrefixOf_iff_prefix.mp hprefix
    exact ⟨rfl, rfl⟩
  rw [Cursor.sees, Bool.eq_false_iff]
  intro hprefix
  obtain ⟨hfirst, hnext⟩ := hsecond _ hprefix
  cases before with
  | nil => cases comparison <;> cases hfirst
  | cons c before =>
    cases before with
    | nil => cases comparison <;> cases hnext
    | cons d before =>
      cases hnext
      have hblank := hbefore 'B' (List.mem_cons_of_mem _ List.mem_cons_self)
      revert hblank
      decide

theorem isSpace_symbol (comparison : Comparison) (rest : List Char) :
    Stops (symbol comparison ++ rest) ∧
      ∀ c, (symbol comparison ++ rest).head? = some c → isSpace c = false := by
  constructor
  · cases comparison <;> exact stops_cons rfl (by decide)
  · intro c hc
    cases comparison <;> cases hc <;> rfl

theorem head?_placeholder (htoken : IsPlaceholderToken text) (rest : List Char) :
    (text ++ rest).head? = some ':' := by
  obtain ⟨name, rfl, _⟩ := htoken
  rfl

theorem Yields.bind {α β : Type} {first : Except CoreException (α × Cursor)} {valid : Prop}
    {value : α} {next : α × Cursor → Except CoreException (β × Cursor)}
    {validNext : Prop} {result : β} {left : List Char} (hfirst : Yields first valid value rest)
    (hnext : ∀ pos, Yields (next (value, ⟨pos, rest⟩)) validNext result left) :
    Yields (first >>= next) (valid ∧ validNext) result left := by
  constructor
  · rintro ⟨hvalid, hvalidNext⟩
    obtain ⟨pos, hok⟩ := hfirst.accepts hvalid
    obtain ⟨after, hresult⟩ := (hnext pos).accepts hvalidNext
    rw [hok]
    exact ⟨after, hresult⟩
  · intro hnot
    by_cases hvalid : valid
    · obtain ⟨pos, hok⟩ := hfirst.accepts hvalid
      obtain ⟨message, hfails⟩ := (hnext pos).rejects fun hvalidNext => hnot ⟨hvalid, hvalidNext⟩
      rw [hok]
      exact ⟨message, hfails⟩
    · obtain ⟨message, hfails⟩ := hfirst.rejects hvalid
      rw [hfails]
      exact ⟨message, rfl⟩

theorem Yields.congr {α : Type} {result : Except CoreException (α × Cursor)} {valid other : Prop}
    {value : α} (hyields : Yields result valid value rest)
    (hsame : valid ↔ other) : Yields result other value rest :=
  ⟨fun hother => hyields.accepts (hsame.mpr hother),
    fun hother => hyields.rejects fun hvalid => hother (hsame.mp hvalid)⟩

/-- The end of `parse_condition`: a condition is made of what was read. -/
theorem yields_return {α : Type} {value : α} {pos : Nat} :
    Yields (.ok (value, ⟨pos, rest⟩)) True value rest :=
  ⟨fun _ => ⟨pos, rfl⟩, fun hfalse => absurd trivial hfalse⟩

theorem parseCondition_text {condition : Condition} {text rest : List Char}
    (htext : condition.Text text) (hrest : Stops rest) (pos : Nat) :
    Yields (parseCondition ⟨pos, text ++ rest⟩) condition.WellFormed condition rest := by
  cases htext with
  | @compare comparison field placeholder before after hfield hplaceholder hbefore hafter =>
    have hsymbol := isSpace_symbol comparison (after ++ (placeholder.toList ++ rest))
    have hcolon : ∀ c, (placeholder.toList ++ rest).head? = some c → isSpace c = false := by
      intro c hc
      rw [head?_placeholder hplaceholder] at hc
      cases hc
      rfl
    have hoperator : ¬(after ++ (placeholder.toList ++ rest)).head? = some '=' := by
      cases after with
      | nil =>
        rw [List.nil_append, head?_placeholder hplaceholder]
        intro heq
        cases heq
      | cons c after =>
        intro heq
        cases heq
        have hblank := hafter '=' List.mem_cons_self
        revert hblank
        decide
    simp only [List.append_assoc]
    have hfieldYields := parseField_token hfield (stops_blank_append hbefore hsymbol.1) pos
    have hplaceholderYields := parsePlaceholder_token hplaceholder hrest
    have hvalid : (isField field.toList = true ∧ isPlaceholder placeholder.toList = true) ↔
        (Condition.compare comparison field placeholder).WellFormed := by
      constructor
      · rintro ⟨hisField, hisPlaceholder⟩
        constructor
        · cases comparison <;> exact hisField
        · intro other hother
          cases comparison <;>
            · obtain rfl := List.mem_singleton.mp hother
              exact hisPlaceholder
      · rintro ⟨hisField, hisPlaceholder⟩
        cases comparison <;>
          exact ⟨hisField, hisPlaceholder placeholder List.mem_cons_self⟩
    rw [parseCondition]
    apply Yields.congr (Yields.bind hfieldYields fun afterField => ?_) hvalid
    change Yields (if Cursor.sees ⟨afterField, before ++ (symbol comparison ++ _)⟩ " BETWEEN " = true
      then _ else _) _ _ _
    rw [not_sees_between hbefore, if_neg Bool.false_ne_true, skipSpaces_blank hbefore hsymbol.2,
      parseOperator_symbol comparison hoperator]
    change Yields (parsePlaceholder (skipSpaces ⟨_, after ++ (placeholder.toList ++ rest)⟩) >>= _)
      _ _ _
    rw [skipSpaces_blank hafter hcolon]
    apply Yields.congr (Yields.bind (hplaceholderYields _) fun afterPlaceholder => ?_) (iff_of_eq (and_true _))
    cases comparison <;> exact yields_return
  | @between field low high hfield hlow hhigh =>
    simp only [List.append_assoc]
    have hbetween : Stops (" BETWEEN ".toList ++
        (low.toList ++ (" AND ".toList ++ (high.toList ++ rest)))) := stops_cons rfl (by decide)
    have hand : Stops (" AND ".toList ++ (high.toList ++ rest)) := stops_cons rfl (by decide)
    have hfieldYields := parseField_token hfield hbetween pos
    have hlowYields := parsePlaceholder_token hlow hand
    have hhighYields := parsePlaceholder_token hhigh hrest
    have hvalid : (isField field.toList = true ∧ isPlaceholder low.toList = true ∧
        isPlaceholder high.toList = true) ↔ (Condition.between field low high).WellFormed := by
      constructor
      · rintro ⟨hisField, hisLow, hisHigh⟩
        refine ⟨hisField, ?_⟩
        intro placeholder hmem
        rcases List.mem_cons.mp hmem with rfl | hmem
        · exact hisLow
        · obtain rfl := List.mem_singleton.mp hmem
          exact hisHigh
      · rintro ⟨hisField, hisPlaceholder⟩
        exact ⟨hisField, hisPlaceholder low List.mem_cons_self,
          hisPlaceholder high (List.mem_cons_of_mem low List.mem_cons_self)⟩
    rw [parseCondition]
    apply Yields.congr (Yields.bind hfieldYields fun afterField => ?_) hvalid
    change Yields (parsePlaceholder ⟨afterField + 9, low.toList ++ _⟩ >>= _) _ _ _
    apply Yields.bind (hlowYields _) fun afterLow => ?_
    change Yields (parsePlaceholder ⟨afterLow + 5, high.toList ++ rest⟩ >>= _) _ _ _
    apply Yields.congr (Yields.bind (hhighYields _) fun afterHigh => ?_) (iff_of_eq (and_true _))
    exact yields_return

inductive MoreText : List Condition → List Char → Prop
  | nil : MoreText [] []
  | cons {condition : Condition} {conditions : List Condition} {text rest : List Char}
      (blanks : Nat) (htext : condition.Text text) (hrest : MoreText conditions rest) :
      MoreText (condition :: conditions)
        (List.replicate (blanks + 1) ' ' ++ ("AND ".toList ++ (text ++ rest)))

theorem MoreText.stops (htext : MoreText conditions text) : Stops text := by
  cases htext with
  | nil => exact stops_nil
  | cons => exact stops_of_isSpace rfl

theorem matchKeywordAnd_text (blanks pos : Nat) (text : List Char) :
    matchKeywordAnd ⟨pos, List.replicate (blanks + 1) ' ' ++ ("AND ".toList ++ text)⟩ =
      match text.head? with
      | some c =>
        if c.isAlpha || c = '#' then some ⟨pos + (blanks + 1) + 4, text⟩ else none
      | none => none := by
  have hblanks : ∀ c ∈ List.replicate (blanks + 1) ' ', decide (c = ' ') = true := by
    intro c hc
    rw [List.eq_of_mem_replicate hc]
    rfl
  have hkeyword : ∀ c, ("AND ".toList ++ text).head? = some c → decide (c = ' ') = false := by
    intro c hc
    cases hc
    rfl
  have hdrop : (List.replicate (blanks + 1) ' ' ++ ("AND ".toList ++ text)).drop (blanks + 1) =
      "AND ".toList ++ text := List.drop_left' List.length_replicate
  rw [matchKeywordAnd]
  simp only [takeWhile_exact hblanks hkeyword, Cursor.advance, List.length_replicate, hdrop]
  rfl

theorem Condition.Text.head? {condition : Condition}
    (htext : condition.Text text) (hwellFormed : condition.WellFormed) (rest : List Char) :
    ∃ c, (text ++ rest).head? = some c ∧ (c.isAlpha || c = '#') = true := by
  have hfield : ∃ left, text = condition.field.toList ++ left := by
    cases htext with
    | compare comparison =>
      cases comparison <;> exact ⟨_, rfl⟩
    | between => exact ⟨_, rfl⟩
  obtain ⟨left, rfl⟩ := hfield
  have hvalid := hwellFormed.field
  cases hchars : condition.field.toList with
  | nil =>
    rw [hchars] at hvalid
    cases hvalid
  | cons c name =>
    refine ⟨c, rfl, ?_⟩
    rw [hchars, isField] at hvalid
    by_cases hsign : c = '#'
    · simp [hsign]
    · have hother : ¬(c :: name).head? = some '#' := by
        intro heq
        cases heq
        exact hsign rfl
      rw [if_neg hother] at hvalid
      have halpha : c.isAlpha = true := (Bool.and_eq_true_iff.mp hvalid).2
      rw [halpha]
      rfl

theorem parseMore_text
    (htext : MoreText conditions text) {fuel : Nat} (hfuel : text.length ≤ fuel) (pos : Nat)
    (read : List Condition) :
    ((∀ condition ∈ conditions, condition.WellFormed) →
        ∃ after, parseMore fuel read ⟨pos, text⟩ = .ok (read ++ conditions, ⟨after, []⟩)) ∧
      ((¬∀ condition ∈ conditions, condition.WellFormed) →
        ∀ parsed cursor, parseMore fuel read ⟨pos, text⟩ = .ok (parsed, cursor) →
          cursor.rest ≠ []) := by
  induction htext generalizing fuel pos read with
  | nil =>
    have hend : parseMore fuel read ⟨pos, []⟩ = .ok (read, ⟨pos, []⟩) := by
      cases fuel <;> rfl
    constructor
    · intro _
      rw [hend, List.append_nil]
      exact ⟨pos, rfl⟩
    · intro hnone
      exact absurd (List.forall_mem_nil _) hnone
  | @cons condition conditions text rest blanks htext hrest ih =>
    obtain ⟨fuel, rfl⟩ : ∃ more, fuel = more + 1 := by
      refine Nat.exists_eq_add_one.mpr (lt_of_lt_of_le ?_ hfuel)
      rw [List.length_append, List.length_replicate]
      omega
    have hleft : rest.length ≤ fuel := by
      simp only [List.length_append, List.length_replicate] at hfuel
      omega
    have hcondition := parseCondition_text htext hrest.stops (pos + (blanks + 1) + 4)
    have hround : ∀ next, matchKeywordAnd ⟨pos,
          List.replicate (blanks + 1) ' ' ++ ("AND ".toList ++ (text ++ rest))⟩ = some next →
        next = ⟨pos + (blanks + 1) + 4, text ++ rest⟩ := by
      intro next hnext
      rw [matchKeywordAnd_text] at hnext
      split at hnext
      · split at hnext
        · cases hnext
          rfl
        · cases hnext
      · cases hnext
    constructor
    · intro hall
      have hwellFormed := hall condition List.mem_cons_self
      obtain ⟨c, hhead, hstart⟩ := htext.head? hwellFormed rest
      obtain ⟨after, hread⟩ := hcondition.accepts hwellFormed
      obtain ⟨last, hmore⟩ := (ih hleft after (read ++ [condition])).1 fun other hother =>
        hall other (List.mem_cons_of_mem _ hother)
      refine ⟨last, ?_⟩
      rw [parseMore, matchKeywordAnd_text, hhead]
      dsimp only
      rw [if_pos hstart]
      dsimp only
      rw [hread]
      change parseMore fuel (read ++ [condition]) ⟨after, rest⟩ = _
      rw [hmore, List.append_assoc, List.singleton_append]
    · intro hnot parsed cursor hparse
      rw [parseMore] at hparse
      cases hmatch : matchKeywordAnd ⟨pos,
          List.replicate (blanks + 1) ' ' ++ ("AND ".toList ++ (text ++ rest))⟩ with
      | none =>
        rw [hmatch] at hparse
        cases hparse
        exact List.cons_ne_nil _ _
      | some next =>
        rw [hmatch, hround next hmatch] at hparse
        obtain ⟨⟨other, afterOther⟩, hother, hparse⟩ := bind_eq_ok.mp hparse
        by_cases hwellFormed : condition.WellFormed
        · obtain ⟨after, hread⟩ := hcondition.accepts hwellFormed
          rw [hread] at hother
          cases hother
          apply (ih hleft after (read ++ [condition])).2 _ parsed cursor hparse
          intro hall
          apply hnot
          intro element helement
          rcases List.mem_cons.mp helement with rfl | helement
          · exact hwellFormed
          · exact hall element helement
        · obtain ⟨message, hfails⟩ := hcondition.rejects hwellFormed
          rw [hfails] at hother
          cases hother

def ConjunctionText (conditions : List Condition) (text : List Char) : Prop :=
  ∃ condition others start rest, conditions = condition :: others ∧ text = start ++ rest ∧
    condition.Text start ∧ MoreText others rest

theorem parse_text {input : String} (htext : ConjunctionText conditions input.toList) :
    ((∀ condition ∈ conditions, condition.WellFormed) → parse input = .ok conditions) ∧
      ((¬∀ condition ∈ conditions, condition.WellFormed) → ∀ parsed, parse input ≠ .ok parsed) := by
  obtain ⟨condition, others, start, rest, rfl, hinput, hstart, hrest⟩ := htext
  have hcondition := parseCondition_text hstart hrest.stops 0
  have hmore := fun pos => parseMore_text hrest le_rfl pos [condition]
  have hcursor : Cursor.start input = ⟨0, start ++ rest⟩ := by
    rw [Cursor.start, hinput]
  rw [List.forall_mem_cons]
  constructor
  · rintro ⟨hwellFormed, hall⟩
    obtain ⟨after, hread⟩ := hcondition.accepts hwellFormed
    obtain ⟨last, hloop⟩ := (hmore after).1 hall
    rw [parse, hcursor, hread]
    change (parseMore rest.length [condition] ⟨after, rest⟩ >>= _) = _
    rw [hloop]
    rfl
  · intro hnot parsed hparse
    rw [parse, hcursor] at hparse
    obtain ⟨⟨first, afterFirst⟩, hfirst, hothers⟩ := bind_eq_ok.mp hparse
    obtain ⟨⟨read, last⟩, hloop, hend⟩ := bind_eq_ok.mp hothers
    by_cases hwellFormed : condition.WellFormed
    · obtain ⟨after, hread⟩ := hcondition.accepts hwellFormed
      rw [hread] at hfirst
      cases hfirst
      have hleft := (hmore after).2 (fun hall => hnot ⟨hwellFormed, hall⟩) read last hloop
      dsimp only at hend
      rw [if_neg hleft] at hend
      cases hend
    · obtain ⟨message, hfails⟩ := hcondition.rejects hwellFormed
      rw [hfails] at hfirst
      cases hfirst

end Evaluation

section Inversion

theorem drop_length_takeWhile (kind : Char → Bool) (text : List Char) :
    text.drop (text.takeWhile kind).length = text.dropWhile kind := by
  calc text.drop (text.takeWhile kind).length
      = (text.takeWhile kind ++ text.dropWhile kind).drop (text.takeWhile kind).length := by
        rw [List.takeWhile_append_dropWhile]
    _ = text.dropWhile kind := List.drop_left

theorem takeName_spec (cursor : Cursor) :
    cursor.rest = (takeName cursor).1 ++ (takeName cursor).2.rest ∧
      (∀ c ∈ (takeName cursor).1, isNameChar c = true) ∧
      (takeName cursor).2.rest.head?.any isNameChar = false := by
  have hsplit : (takeName cursor).2.rest = cursor.rest.dropWhile isNameChar :=
    drop_length_takeWhile isNameChar cursor.rest
  have hname : (takeName cursor).1 = cursor.rest.takeWhile isNameChar := rfl
  refine ⟨?_, ?_, ?_⟩
  · rw [hname, hsplit, List.takeWhile_append_dropWhile]
  · rw [hname]
    exact fun c hc => List.mem_takeWhile_imp hc
  · rw [hsplit]
    cases hhead : (cursor.rest.dropWhile isNameChar).head? with
    | none => rfl
    | some c =>
      have hfails := List.head?_dropWhile_not isNameChar cursor.rest
      rw [hhead] at hfails
      simpa using hfails

theorem skipSpaces_spec (cursor : Cursor) :
    ∃ blanks, IsBlank blanks ∧ cursor.rest = blanks ++ (skipSpaces cursor).rest := by
  refine ⟨cursor.rest.takeWhile isSpace, fun c hc => List.mem_takeWhile_imp hc, ?_⟩
  have hsplit : (skipSpaces cursor).rest = cursor.rest.dropWhile isSpace :=
    drop_length_takeWhile isSpace cursor.rest
  rw [hsplit, List.takeWhile_append_dropWhile]

theorem head?_takeName {cursor : Cursor} {kind : Char → Bool}
    (hkind : ∀ c, kind c = true → isNameChar c = true)
    (hstart : cursor.rest.head?.any kind = true) :
    (takeName cursor).1.head?.any kind = true := by
  obtain ⟨pos, rest⟩ := cursor
  cases rest with
  | nil => cases hstart
  | cons c rest =>
    have hc : kind c = true := hstart
    change ((c :: rest).takeWhile isNameChar).head?.any kind = true
    rw [List.takeWhile_cons, hkind c hc]
    exact hc

variable {cursor after : Cursor}

theorem parseField_ok {field : String} (hparse : parseField cursor = .ok (field, after)) :
    isField field.toList = true ∧ cursor.rest = field.toList ++ after.rest := by
  obtain ⟨pos, rest⟩ := cursor
  have hname : ∀ next : Cursor, (takeName next).1.all isNameChar = true := fun next =>
    List.all_eq_true.mpr (takeName_spec next).2.1
  by_cases hsign : rest.head? = some '#'
  · cases rest with
    | nil => cases hsign
    | cons c name =>
      cases hsign
      rw [parseField_sign] at hparse
      split at hparse
      next hstart =>
        have hfirst : (takeName ⟨pos + 1, name⟩).1.head?.any Char.isAlpha = true :=
          head?_takeName (fun c hc => isNameChar_of_isAlpha hc) hstart
        cases hparse
        rw [String.toList_append]
        change isField ('#' :: (String.ofList _).toList) = true ∧ '#' :: name =
          '#' :: (String.ofList _).toList ++ _
        rw [String.toList_ofList, List.cons_append, ← (takeName_spec ⟨pos + 1, name⟩).1]
        refine ⟨?_, rfl⟩
        change ((takeName ⟨pos + 1, name⟩).1.all isNameChar &&
          (takeName ⟨pos + 1, name⟩).1.head?.any Char.isAlpha) = true
        rw [hname, hfirst]
        rfl
      next => cases hparse
  · rw [parseField_plain pos hsign] at hparse
    split at hparse
    next hstart =>
      have hfirst : (takeName ⟨pos, rest⟩).1.head?.any Char.isAlpha = true :=
        head?_takeName (fun c hc => isNameChar_of_isAlpha hc) hstart
      cases hparse
      have htext : ("" ++ String.ofList (takeName ⟨pos, rest⟩).1).toList =
          (takeName ⟨pos, rest⟩).1 := by
        rw [String.toList_append]
        change (String.ofList _).toList = _
        rw [String.toList_ofList]
      have hplain : ¬(takeName ⟨pos, rest⟩).1.head? = some '#' := by
        intro heq
        have hsharp := (takeName_spec ⟨pos, rest⟩).2.1 '#' (List.mem_of_mem_head? heq)
        revert hsharp
        decide
      rw [htext, ← (takeName_spec ⟨pos, rest⟩).1, isField, if_neg hplain, hname, hfirst]
      exact ⟨rfl, rfl⟩
    next => cases hparse

theorem expect_ok {c : Char} (hexpect : expect c cursor = .ok after) :
    cursor.rest = c :: after.rest := by
  unfold expect at hexpect
  split at hexpect
  next next rest hrest =>
    split at hexpect
    next hsame =>
      cases hexpect
      rw [hrest, hsame]
    next => cases hexpect
  next => cases hexpect

theorem parsePlaceholder_ok {placeholder : String}
    (hparse : parsePlaceholder cursor = .ok (placeholder, after)) :
    isPlaceholder placeholder.toList = true ∧ cursor.rest = placeholder.toList ++ after.rest ∧
      after.rest.head?.any isNameChar = false := by
  obtain ⟨pos, rest⟩ := cursor
  have hcolon : ∃ text, rest = ':' :: text := by
    unfold parsePlaceholder at hparse
    obtain ⟨next, hexpect, -⟩ := bind_eq_ok.mp hparse
    exact ⟨next.rest, expect_ok hexpect⟩
  obtain ⟨text, rfl⟩ := hcolon
  rw [parsePlaceholder_colon] at hparse
  split at hparse
  next hstart =>
    have hfirst : (takeName ⟨pos + 1, text⟩).1.head?.any isNameChar = true :=
      head?_takeName (fun c hc => hc) hstart
    cases hparse
    obtain ⟨hsplit, hname, hstops⟩ := takeName_spec ⟨pos + 1, text⟩
    have htext : (":" ++ String.ofList (takeName ⟨pos + 1, text⟩).1).toList =
        ':' :: (takeName ⟨pos + 1, text⟩).1 := by
      rw [String.toList_append]
      change ':' :: (String.ofList _).toList = _
      rw [String.toList_ofList]
    rw [htext, List.cons_append, ← hsplit, isPlaceholder, List.all_eq_true.mpr hname]
    refine ⟨?_, rfl, hstops⟩
    cases hempty : (takeName ⟨pos + 1, text⟩).1 with
    | nil =>
      rw [hempty] at hfirst
      cases hfirst
    | cons c name => rfl
  next => cases hparse

theorem parseOperator_ok {op : String} (hparse : parseOperator cursor = .ok (op, after)) :
    ∃ comparison, op = String.ofList (symbol comparison) ∧
      cursor.rest = symbol comparison ++ after.rest := by
  unfold parseOperator at hparse
  split at hparse
  next hrest =>
    cases hparse
    exact ⟨.eq, rfl, hrest⟩
  next hrest =>
    cases hparse
    exact ⟨.gte, rfl, hrest⟩
  next hrest =>
    cases hparse
    exact ⟨.gt, rfl, hrest⟩
  next hrest =>
    cases hparse
    exact ⟨.lte, rfl, hrest⟩
  next hrest =>
    cases hparse
    exact ⟨.lt, rfl, hrest⟩
  next => cases hparse
  next => cases hparse

theorem rest_of_sees {cursor : Cursor} {text : String} (hsees : cursor.sees text = true) :
    cursor.rest = text.toList ++ (cursor.advance text.toList.length).rest := by
  obtain ⟨suffix, hsuffix⟩ := List.isPrefixOf_iff_prefix.mp hsees
  change _ = _ ++ cursor.rest.drop _
  rw [← hsuffix, List.drop_left]

theorem parseCondition_ok {condition : Condition}
    (hparse : parseCondition cursor = .ok (condition, after)) :
    ∃ text, condition.Text text ∧ condition.WellFormed ∧ cursor.rest = text ++ after.rest ∧
      after.rest.head?.any isNameChar = false := by
  unfold parseCondition at hparse
  obtain ⟨⟨field, afterField⟩, hfield, hparse⟩ := bind_eq_ok.mp hparse
  obtain ⟨hisField, hrest⟩ := parseField_ok hfield
  have htoken := isFieldToken_of_isField hisField
  dsimp only at hparse
  split at hparse
  next hsees =>
    obtain ⟨⟨low, afterLow⟩, hlow, hparse⟩ := bind_eq_ok.mp hparse
    obtain ⟨afterAnd, hand, hparse⟩ := bind_eq_ok.mp hparse
    obtain ⟨⟨high, afterHigh⟩, hhigh, hparse⟩ := bind_eq_ok.mp hparse
    cases hparse
    obtain ⟨hisLow, hrestLow, -⟩ := parsePlaceholder_ok hlow
    obtain ⟨hisHigh, hrestHigh, hstops⟩ := parsePlaceholder_ok hhigh
    have hrestAnd : afterLow.rest = " AND ".toList ++ afterAnd.rest := by
      dsimp only at hand
      unfold expectStr at hand
      split at hand
      next hseesAnd =>
        cases hand
        exact rest_of_sees hseesAnd
      next => cases hand
    have hrestBetween : afterField.rest = " BETWEEN ".toList ++ (afterField.advance 9).rest :=
      rest_of_sees hsees
    refine ⟨_, .between htoken (exists_of_isPlaceholder hisLow) (exists_of_isPlaceholder hisHigh), ?_,
      ?_, hstops⟩
    · refine ⟨hisField, ?_⟩
      intro placeholder hmem
      rcases List.mem_cons.mp hmem with rfl | hmem
      · exact hisLow
      · obtain rfl := List.mem_singleton.mp hmem
        exact hisHigh
    · simp only [List.append_assoc]
      rw [hrest, hrestBetween, hrestLow, hrestAnd, hrestHigh]
  next =>
    obtain ⟨⟨op, afterOp⟩, hop, hparse⟩ := bind_eq_ok.mp hparse
    obtain ⟨⟨val, afterVal⟩, hval, hparse⟩ := bind_eq_ok.mp hparse
    obtain ⟨before, hbefore, hrestBefore⟩ := skipSpaces_spec afterField
    obtain ⟨blanks, hblanks, hrestBlanks⟩ := skipSpaces_spec afterOp
    obtain ⟨comparison, rfl, hrestOp⟩ := parseOperator_ok hop
    obtain ⟨hisPlaceholder, hrestVal, hstops⟩ := parsePlaceholder_ok hval
    have hcondition : condition = .compare comparison field val ∧ after = afterVal := by
      cases comparison <;>
        · cases hparse
          exact ⟨rfl, rfl⟩
    obtain ⟨rfl, rfl⟩ := hcondition
    refine ⟨_, .compare comparison htoken (exists_of_isPlaceholder hisPlaceholder) hbefore hblanks,
      ?_, ?_, hstops⟩
    · constructor
      · cases comparison <;> exact hisField
      · intro placeholder hmem
        cases comparison <;>
          · obtain rfl := List.mem_singleton.mp hmem
            exact hisPlaceholder
    · simp only [List.append_assoc]
      rw [hrest, hrestBefore, hrestOp, hrestBlanks, hrestVal]

theorem matchKeywordAnd_ok {cursor next : Cursor} (hmatch : matchKeywordAnd cursor = some next)
    (hstops : cursor.rest.head?.any isNameChar = false) :
    ∃ blanks, cursor.rest = List.replicate (blanks + 1) ' ' ++ ("AND ".toList ++ next.rest) := by
  set blanks := cursor.rest.takeWhile fun c => c = ' ' with hblanks
  have hspaces : blanks = List.replicate blanks.length ' ' := by
    apply List.eq_replicate_of_mem
    intro c hc
    rw [hblanks] at hc
    have hspace : decide (c = ' ') = true :=
      List.mem_takeWhile_imp (p := fun c => decide (c = ' ')) hc
    exact of_decide_eq_true hspace
  have hrest : cursor.rest = blanks ++ (cursor.advance blanks.length).rest := by
    have hsplit : (cursor.advance blanks.length).rest =
        cursor.rest.dropWhile fun c => decide (c = ' ') := drop_length_takeWhile _ cursor.rest
    rw [hsplit, hblanks, List.takeWhile_append_dropWhile]
  unfold matchKeywordAnd at hmatch
  dsimp only at hmatch
  rw [← hblanks] at hmatch
  split at hmatch
  next hsees =>
    have hkeyword : (cursor.advance blanks.length).rest =
        "AND ".toList ++ ((cursor.advance blanks.length).advance 4).rest := rest_of_sees hsees
    have hnext : next = (cursor.advance blanks.length).advance 4 := by
      split at hmatch
      · split at hmatch
        · cases hmatch
          rfl
        · cases hmatch
      · cases hmatch
    cases hlength : blanks.length with
    | zero =>
      -- Without a blank the keyword would belong to the name before it.
      have hnone : blanks = [] := List.eq_nil_of_length_eq_zero hlength
      rw [hrest, hkeyword, hnone] at hstops
      cases hstops
    | succ count =>
      refine ⟨count, ?_⟩
      rw [hnext, ← hkeyword, ← hlength, ← hspaces]
      exact hrest
  next => cases hmatch

theorem parseMore_ok {fuel : Nat} {read parsed : List Condition}
    (hparse : parseMore fuel read cursor = .ok (parsed, after))
    (hstops : cursor.rest.head?.any isNameChar = false) :
    ∃ conditions text, parsed = read ++ conditions ∧ cursor.rest = text ++ after.rest ∧
      (after.rest = [] → MoreText conditions text) ∧
      ∀ condition ∈ conditions, condition.WellFormed := by
  induction fuel generalizing read cursor with
  | zero =>
    cases hparse
    exact ⟨[], [], (List.append_nil _).symm, rfl, fun _ => .nil, List.forall_mem_nil _⟩
  | succ fuel ih =>
    rw [parseMore] at hparse
    split at hparse
    next =>
      cases hparse
      exact ⟨[], [], (List.append_nil _).symm, rfl, fun _ => .nil, List.forall_mem_nil _⟩
    next next hmatch =>
      obtain ⟨⟨condition, afterCondition⟩, hcondition, hothers⟩ := bind_eq_ok.mp hparse
      obtain ⟨blanks, hblanks⟩ := matchKeywordAnd_ok hmatch hstops
      obtain ⟨start, hstart, hwellFormed, hrest, hend⟩ := parseCondition_ok hcondition
      obtain ⟨conditions, text, rfl, hleft, hmore, hall⟩ := ih hothers hend
      refine ⟨condition :: conditions, _, ?_, ?_, fun hempty => .cons blanks hstart (hmore hempty),
        ?_⟩
      · rw [List.append_assoc, List.singleton_append]
      · simp only [List.append_assoc]
        rw [hblanks, hrest, hleft]
      · rw [List.forall_mem_cons]
        exact ⟨hwellFormed, hall⟩

theorem parse_ok {input : String} {conditions : List Condition}
    (hparse : parse input = .ok conditions) :
    ConjunctionText conditions input.toList ∧ ∀ condition ∈ conditions, condition.WellFormed := by
  unfold parse at hparse
  obtain ⟨⟨first, afterFirst⟩, hfirst, hothers⟩ := bind_eq_ok.mp hparse
  obtain ⟨⟨parsed, after⟩, hmore, hend⟩ := bind_eq_ok.mp hothers
  obtain ⟨start, hstart, hwellFormed, hrest, hstops⟩ := parseCondition_ok hfirst
  obtain ⟨others, text, rfl, hleft, htext, hall⟩ := parseMore_ok hmore hstops
  dsimp only at hend
  split at hend
  next hempty =>
    cases hend
    refine ⟨⟨first, others, start, text, rfl, ?_, hstart, htext hempty⟩, ?_⟩
    · have hinput : (Cursor.start input).rest = input.toList := rfl
      rw [← hinput, hrest, hleft, hempty, List.append_nil]
    · rw [List.singleton_append, List.forall_mem_cons]
      exact ⟨hwellFormed, hall⟩
  next => cases hend

end Inversion

end AwsMock.DynamoDb.QueryHelper
