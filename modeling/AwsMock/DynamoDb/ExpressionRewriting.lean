import Mathlib.Data.Bool.AllAny
import AwsMock.Core.Text
import AwsMock.DynamoDb.ExpressionGrammar
import AwsMock.DynamoDb.QueryFilter

/-! # Rewriting key conditions

Texts of key conditions are changed before they are parsed. A rewriting that
keeps what is between names makes a text of the conditions with the new names.
-/

namespace AwsMock.DynamoDb.QueryHelper

open Foundation ExpressionParser

section Rewriting

def IsSeparator (c : Char) : Prop := isSpace c = true ∨ c ∈ [':', '=', '<', '>']

/-- A rewriting of texts that leaves what is between names in place, and makes
names and fields of them. -/
structure Rewrites (rewrite : List Char → List Char) : Prop where
  nil : rewrite [] = []
  split : ∀ {before after : List Char} {c : Char}, IsSeparator c →
    rewrite (before ++ c :: after) = rewrite before ++ (rewrite [c] ++ rewrite after)
  blank : ∀ {c : Char}, isSpace c = true → IsBlank (rewrite [c])
  space : rewrite [' '] = [' ']
  separator : ∀ {c : Char}, c ∈ [':', '=', '<', '>'] → rewrite [c] = [c]
  between : rewrite "BETWEEN".toList = "BETWEEN".toList
  and : rewrite "AND".toList = "AND".toList
  name : ∀ {name : List Char}, (∀ c ∈ name, isNameChar c = true) →
    ∀ c ∈ rewrite name, isNameChar c = true
  field : ∀ {text : List Char}, IsFieldToken text → IsFieldToken (rewrite text)

def Condition.map (onField onPlaceholder : String → String) : Condition → Condition
  | .eq field placeholder => .eq (onField field) (onPlaceholder placeholder)
  | .gte field placeholder => .gte (onField field) (onPlaceholder placeholder)
  | .lte field placeholder => .lte (onField field) (onPlaceholder placeholder)
  | .gt field placeholder => .gt (onField field) (onPlaceholder placeholder)
  | .lt field placeholder => .lt (onField field) (onPlaceholder placeholder)
  | .between field low high => .between (onField field) (onPlaceholder low) (onPlaceholder high)

variable (onField onPlaceholder : String → String)

@[simp] theorem Condition.field_map
    (condition : Condition) :
    (condition.map onField onPlaceholder).field = onField condition.field := by
  cases condition <;> rfl

theorem Condition.map_compare (comparison : Comparison)
    (field placeholder : String) :
    (Condition.compare comparison field placeholder).map onField onPlaceholder =
      .compare comparison (onField field) (onPlaceholder placeholder) := by
  cases comparison <;> rfl

def onString (rewrite : List Char → List Char) (text : String) : String :=
  String.ofList (rewrite text.toList)

theorem toList_onString (rewrite : List Char → List Char) (text : String) :
    (onString rewrite text).toList = rewrite text.toList := String.toList_ofList

namespace Rewrites

variable {rewrite : List Char → List Char}

section

variable (hrewrites : Rewrites rewrite)
include hrewrites

theorem separators_append {separators : List Char}
    (hseparators : ∀ c ∈ separators, IsSeparator c) (rest : List Char) :
    rewrite (separators ++ rest) = separators.flatMap (fun c => rewrite [c]) ++ rewrite rest := by
  induction separators with
  | nil => rfl
  | cons c separators ih =>
    have hsplit := @Rewrites.split rewrite hrewrites [] (separators ++ rest) c
      (hseparators c List.mem_cons_self)
    rw [List.nil_append, hrewrites.nil, List.nil_append] at hsplit
    rw [List.cons_append, hsplit, ih fun d hd => hseparators d (List.mem_cons_of_mem _ hd),
      List.flatMap_cons, List.append_assoc]

theorem append_separators {separators : List Char}
    (hseparators : ∀ c ∈ separators, IsSeparator c) (hnonempty : separators ≠ [])
    (text rest : List Char) :
    rewrite (text ++ (separators ++ rest)) =
      rewrite text ++ (separators.flatMap (fun c => rewrite [c]) ++ rewrite rest) := by
  cases separators with
  | nil => exact absurd rfl hnonempty
  | cons c separators =>
    rw [List.cons_append, hrewrites.split (hseparators c List.mem_cons_self),
      hrewrites.separators_append fun d hd => hseparators d (List.mem_cons_of_mem _ hd),
      List.flatMap_cons, List.append_assoc]

theorem isBlank_flatMap {blanks : List Char}
    (hblanks : IsBlank blanks) : IsBlank (blanks.flatMap fun c => rewrite [c]) := by
  intro c hc
  obtain ⟨blank, hblank, hmem⟩ := List.mem_flatMap.mp hc
  exact hrewrites.blank (hblanks blank hblank) c hmem

theorem flatMap_symbol (comparison : Comparison) :
    (symbol comparison).flatMap (fun c => rewrite [c]) = symbol comparison := by
  have heq : rewrite ['='] = ['='] := hrewrites.separator (by decide)
  have hless : rewrite ['<'] = ['<'] := hrewrites.separator (by decide)
  have hgreater : rewrite ['>'] = ['>'] := hrewrites.separator (by decide)
  cases comparison <;> simp [symbol, heq, hless, hgreater]

end

theorem isSeparator_symbol (comparison : Comparison) : ∀ c ∈ symbol comparison, IsSeparator c := by
  have hsymbol : symbol comparison ⊆ [':', '=', '<', '>'] := by
    cases comparison <;> decide
  intro c hc
  exact .inr (hsymbol hc)

theorem placeholder (hrewrites : Rewrites rewrite) {text : List Char}
    (htoken : IsPlaceholderToken text) : IsPlaceholderToken (rewrite text) := by
  obtain ⟨name, rfl, hname⟩ := htoken
  have hcolon : rewrite (':' :: name) = ':' :: rewrite name := by
    have hseparators : ∀ c ∈ [':'], IsSeparator c := by
      intro c hc
      obtain rfl := List.mem_singleton.mp hc
      exact .inr (by decide)
    have hsplit := hrewrites.separators_append hseparators name
    rw [List.singleton_append, List.flatMap_singleton, hrewrites.separator (by decide)] at hsplit
    exact hsplit
  exact ⟨rewrite name, hcolon, hrewrites.name hname⟩

theorem isSeparator_blank {blanks : List Char} (hblanks : IsBlank blanks) :
    ∀ c ∈ blanks, IsSeparator c := fun c hc => .inl (hblanks c hc)

variable (hrewrites : Rewrites rewrite)
include hrewrites

theorem word {word : List Char} (hword : rewrite word = word)
    (text rest : List Char) :
    rewrite (text ++ (' ' :: (word ++ ' ' :: rest))) =
      rewrite text ++ (' ' :: (word ++ ' ' :: rewrite rest)) := by
  have hspace : IsSeparator ' ' := .inl rfl
  rw [hrewrites.split hspace, hrewrites.split hspace, hrewrites.space, hword]
  rfl

theorem text {condition : Condition} {text : List Char}
    (htext : condition.Text text) :
    (condition.map (onString rewrite) (onString rewrite)).Text (rewrite text) := by
  cases htext with
  | @compare comparison field placeholder before after hfield hplaceholder hbefore hafter =>
    have hseparators : ∀ c ∈ before ++ (symbol comparison ++ after), IsSeparator c := by
      intro c hc
      rw [List.mem_append, List.mem_append] at hc
      rcases hc with hc | hc | hc
      · exact isSeparator_blank hbefore c hc
      · exact isSeparator_symbol comparison c hc
      · exact isSeparator_blank hafter c hc
    have hnonempty : before ++ (symbol comparison ++ after) ≠ [] := by
      cases comparison <;> exact List.append_ne_nil_of_right_ne_nil before (List.cons_ne_nil _ _)
    have hsplit := hrewrites.append_separators hseparators hnonempty field.toList placeholder.toList
    simp only [List.append_assoc, List.flatMap_append, hrewrites.flatMap_symbol] at hsplit
    rw [hsplit, Condition.map_compare, ← toList_onString rewrite field,
      ← toList_onString rewrite placeholder]
    refine .compare comparison ?_ ?_ (hrewrites.isBlank_flatMap hbefore)
      (hrewrites.isBlank_flatMap hafter)
    · rw [toList_onString]
      exact hrewrites.field hfield
    · rw [toList_onString]
      exact hrewrites.placeholder hplaceholder
  | @between field low high hfield hlow hhigh =>
    have hbetween := hrewrites.word hrewrites.between field.toList
      (low.toList ++ (" AND ".toList ++ high.toList))
    have hand := hrewrites.word hrewrites.and low.toList high.toList
    have htext : rewrite (field.toList ++ (" BETWEEN ".toList ++
        (low.toList ++ (" AND ".toList ++ high.toList)))) =
        (onString rewrite field).toList ++ (" BETWEEN ".toList ++
          ((onString rewrite low).toList ++ (" AND ".toList ++
            (onString rewrite high).toList))) := by
      have hbetweenWord : " BETWEEN ".toList = ' ' :: ("BETWEEN".toList ++ [' ']) := by decide
      have handWord : " AND ".toList = ' ' :: ("AND".toList ++ [' ']) := by decide
      rw [hbetweenWord, handWord, toList_onString, toList_onString, toList_onString]
      rw [handWord] at hbetween
      simp only [List.cons_append, List.append_assoc, List.nil_append] at hbetween hand ⊢
      rw [hbetween, hand]
    rw [htext]
    refine .between ?_ ?_ ?_
    · rw [toList_onString]
      exact hrewrites.field hfield
    · rw [toList_onString]
      exact hrewrites.placeholder hlow
    · rw [toList_onString]
      exact hrewrites.placeholder hhigh

theorem moreText {conditions : List Condition} {text : List Char}
    (htext : MoreText conditions text) :
    MoreText (conditions.map (Condition.map (onString rewrite) (onString rewrite))) (rewrite text) ∧
      ∀ before, rewrite (before ++ text) = rewrite before ++ rewrite text := by
  induction htext with
  | nil =>
    rw [hrewrites.nil]
    refine ⟨.nil, ?_⟩
    intro before
    rw [List.append_nil, List.append_nil]
  | @cons condition conditions text rest blanks htext hrest ih =>
    obtain ⟨hmore, happend⟩ := ih
    have hspace : ∀ c ∈ List.replicate (blanks + 1) ' ', IsSeparator c := by
      intro c hc
      rw [List.eq_of_mem_replicate hc]
      exact .inl rfl
    have hblanks : (List.replicate (blanks + 1) ' ').flatMap (fun c => rewrite [c]) =
        List.replicate (blanks + 1) ' ' := by
      rw [List.flatMap_replicate, hrewrites.space]
      exact List.flatten_replicate_singleton
    have hkeyword : rewrite ("AND ".toList ++ (text ++ rest)) =
        "AND ".toList ++ (rewrite text ++ rewrite rest) := by
      have hsplit := @Rewrites.split rewrite hrewrites "AND".toList (text ++ rest) ' ' (.inl rfl)
      rw [hrewrites.and, hrewrites.space, happend] at hsplit
      exact hsplit
    have hbefore := hrewrites.append_separators hspace (List.cons_ne_nil _ _)
    constructor
    · have hall := hbefore [] ("AND ".toList ++ (text ++ rest))
      rw [List.nil_append, hrewrites.nil, List.nil_append, hblanks, hkeyword] at hall
      rw [hall, List.map_cons]
      exact .cons blanks (hrewrites.text htext) hmore
    · intro before
      have hall := hbefore [] ("AND ".toList ++ (text ++ rest))
      rw [List.nil_append, hrewrites.nil, List.nil_append] at hall
      rw [hbefore, hall]

theorem conjunctionText {conditions : List Condition}
    {text : List Char} (htext : ConjunctionText conditions text) :
    ConjunctionText (conditions.map (Condition.map (onString rewrite) (onString rewrite)))
      (rewrite text) := by
  obtain ⟨condition, others, start, rest, rfl, rfl, hstart, hrest⟩ := htext
  obtain ⟨hmore, happend⟩ := hrewrites.moreText hrest
  exact ⟨_, _, _, _, List.map_cons, happend start, hrewrites.text hstart, hmore⟩

end Rewrites

end Rewriting

section Printable

/-- `parse_expression` drops control characters. -/
def printable (text : List Char) : List Char := text.filter fun c => ' ' ≤ c

theorem printable_of_le {text : List Char} (htext : ∀ c ∈ text, 32 ≤ c.toNat) :
    printable text = text := by
  rw [printable, List.filter_eq_self]
  intro c hc
  exact decide_eq_true (UInt32.le_iff_toNat_le.mpr (htext c hc))

theorem printable_name {name : List Char} (hname : ∀ c ∈ name, isNameChar c = true) :
    printable name = name := by
  apply printable_of_le
  intro c hc
  have hlow := le_of_isNameChar (hname c hc)
  omega

theorem printable_field {text : List Char} (hfield : IsFieldToken text) : printable text = text := by
  obtain ⟨sign, name, rfl, hsign, hname⟩ := hfield
  have hsplit : printable (sign ++ name) = printable sign ++ printable name := List.filter_append _ _
  rw [hsplit, printable_name hname]
  rcases hsign with rfl | rfl
  · rfl
  · rfl

theorem rewrites_printable : Rewrites printable where
  nil := rfl
  split := by
    intro before after c _
    change List.filter _ _ = List.filter _ _ ++ (List.filter _ _ ++ List.filter _ _)
    rw [← List.filter_append, ← List.filter_append, List.singleton_append]
  blank := by
    intro c hc d hd
    obtain rfl := List.mem_singleton.mp (List.mem_of_mem_filter hd)
    exact hc
  space := rfl
  separator := by
    have hprintable : ∀ c ∈ [':', '=', '<', '>'], printable [c] = [c] := by
      rw [← List.all_iff_forall_prop]
      decide
    intro c hc
    exact hprintable c hc
  between := rfl
  and := rfl
  name := by
    intro name hname c hc
    exact hname c (List.mem_of_mem_filter hc)
  field := by
    intro text hfield
    rwa [printable_field hfield]

/-- The tokens of a condition, whether they are what the grammar says or not. -/
structure Condition.HasTokens (condition : Condition) : Prop where
  field : IsFieldToken condition.field.toList
  placeholders : ∀ placeholder ∈ condition.placeholders, IsPlaceholderToken placeholder.toList

theorem Condition.Text.hasTokens {condition : Condition} {text : List Char}
    (htext : condition.Text text) : condition.HasTokens := by
  cases htext with
  | @compare comparison field placeholder before after hfield hplaceholder =>
    constructor
    · cases comparison <;> exact hfield
    · intro other hother
      cases comparison <;>
        · obtain rfl := List.mem_singleton.mp hother
          exact hplaceholder
  | @between field low high hfield hlow hhigh =>
    refine ⟨hfield, ?_⟩
    intro placeholder hmem
    rcases List.mem_cons.mp hmem with rfl | hmem
    · exact hlow
    · obtain rfl := List.mem_singleton.mp hmem
      exact hhigh

theorem MoreText.hasTokens {conditions : List Condition} {text : List Char}
    (htext : MoreText conditions text) : ∀ condition ∈ conditions, condition.HasTokens := by
  induction htext with
  | nil => exact List.forall_mem_nil _
  | cons blanks htext _ ih =>
    rw [List.forall_mem_cons]
    exact ⟨htext.hasTokens, ih⟩

theorem ConjunctionText.hasTokens {conditions : List Condition} {text : List Char}
    (htext : ConjunctionText conditions text) : ∀ condition ∈ conditions, condition.HasTokens := by
  obtain ⟨condition, others, start, rest, rfl, -, hstart, hrest⟩ := htext
  rw [List.forall_mem_cons]
  exact ⟨hstart.hasTokens, hrest.hasTokens⟩

theorem map_printable {condition : Condition} (htokens : condition.HasTokens) :
    condition.map (onString printable) (onString printable) = condition := by
  have hfield : onString printable condition.field = condition.field := by
    rw [onString, printable_field htokens.field, String.ofList_toList]
  have hplaceholder : ∀ placeholder ∈ condition.placeholders,
      onString printable placeholder = placeholder := by
    intro placeholder hmem
    obtain ⟨name, htext, hname⟩ := htokens.placeholders placeholder hmem
    have hsame : printable placeholder.toList = placeholder.toList := by
      rw [htext]
      change ':' :: printable name = _
      rw [printable_name hname]
    rw [onString, hsame, String.ofList_toList]
  cases condition with
  | between field low high =>
    have hlow := hplaceholder low List.mem_cons_self
    have hhigh := hplaceholder high (List.mem_cons_of_mem low List.mem_cons_self)
    rw [Condition.field] at hfield
    rw [Condition.map, hfield, hlow, hhigh]
  | _ =>
    rw [Condition.field] at hfield
    rw [Condition.map, hfield, hplaceholder _ List.mem_cons_self]

theorem parseExpression_text {input : String} {conditions : List Condition}
    (htext : ConjunctionText conditions input.toList) :
    ((∀ condition ∈ conditions, condition.WellFormed) → parseExpression input = .ok conditions) ∧
      ((¬∀ condition ∈ conditions, condition.WellFormed) →
        ∀ parsed, parseExpression input ≠ .ok parsed) := by
  have hprintable := rewrites_printable.conjunctionText htext
  have hsame : conditions.map (Condition.map (onString printable) (onString printable)) =
      conditions := by
    rw [List.map_congr_left fun condition hmem => map_printable (htext.hasTokens condition hmem),
      List.map_id']
  rw [hsame, ← toList_onString printable input] at hprintable
  obtain ⟨haccepts, hrejects⟩ := parse_text hprintable
  constructor
  · intro hall
    rw [parseExpression, mapError_eq_ok]
    exact haccepts hall
  · intro hnot parsed hparse
    rw [parseExpression, mapError_eq_ok] at hparse
    exact hrejects hnot parsed hparse

end Printable

end AwsMock.DynamoDb.QueryHelper
