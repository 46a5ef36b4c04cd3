import AwsMock.DynamoDb.ExpressionParsing
import AwsMock.DynamoDb.ExpressionRewriting
import AwsMock.DynamoDb.QuerySemantics

/-! # White space in expressions

`parse_expression` drops control characters before it parses, so a tab or a line break is no gap
between two tokens, and the parser skips spaces in some places only.
-/

namespace AwsMock.DynamoDb.QueryHelper

def isLayout (c : Char) : Bool := c ∈ [' ', '\t', '\n', '\r']

/-- Each space is replaced by a run of white space that is not empty. -/
inductive Relaid : List Char → List Char → Prop
  | nil : Relaid [] []
  | keep {c : Char} {text relaid : List Char} : c ≠ ' ' → Relaid text relaid →
      Relaid (c :: text) (c :: relaid)
  | space {run text relaid : List Char} : run ≠ [] → run.all isLayout = true →
      Relaid text relaid → Relaid (' ' :: text) (run ++ relaid)

/-- Such runs may also be added at the ends. -/
def RelaidWithin (text relaid : List Char) : Prop :=
  ∃ front inner back, relaid = front ++ inner ++ back ∧ front.all isLayout = true ∧
    back.all isLayout = true ∧ Relaid text inner

theorem parseExpression_eq_ok_iff (input : String) (conditions : List Condition) :
    parseExpression input = .ok conditions ↔
      ConjunctionText conditions (printable input.toList) ∧
        ∀ condition ∈ conditions, condition.WellFormed := by
  rw [parseExpression, mapError_eq_ok, (parse_eq_ok_iff _).1, String.toList_ofList]
  rfl

/-- A text is read like an expression, with the same filter for all values, exactly when without
its control characters it is a text of the same conditions. -/
theorem reads_alike_iff {expression relaid : String} {conditions : List Condition}
    (haccepted : parseExpression expression = .ok conditions) :
    (parseExpression relaid = .ok conditions ∧
        ∀ values, toMongoFilter relaid values = toMongoFilter expression values) ↔
      ConjunctionText conditions (printable relaid.toList) := by
  constructor
  · rintro ⟨hread, -⟩
    exact ((parseExpression_eq_ok_iff relaid conditions).1 hread).1
  · intro htext
    have hwellFormed := ((parseExpression_eq_ok_iff expression conditions).1 haccepted).2
    have hread := (parseExpression_eq_ok_iff relaid conditions).2 ⟨htext, hwellFormed⟩
    refine ⟨hread, fun values => ?_⟩
    rw [toMongoFilter, toMongoFilter, hread, haccepted]

theorem reads_alike_iff_tab :
    (parseExpression "a =\t:v" = .ok [.eq "a" ":v"] ∧
        ∀ values, toMongoFilter "a =\t:v" values = toMongoFilter "a = :v" values) ↔
      ConjunctionText [.eq "a" ":v"] (printable "a =\t:v".toList) :=
  reads_alike_iff (by rfl)

/-- An expression is not accepted behind a space. -/
theorem not_accepted_behind_space :
    RelaidWithin "a = :v".toList " a = :v".toList ∧
      parseExpression "a = :v" = .ok [.eq "a" ":v"] ∧
        ∀ conditions, parseExpression " a = :v" ≠ .ok conditions := by
  refine ⟨⟨[' '], "a = :v".toList, [], rfl, rfl, rfl, ?_⟩, by rfl, ?_⟩
  · exact .keep (by decide) (.space (by decide : [' '] ≠ []) rfl (.keep (by decide)
      (.space (by decide : [' '] ≠ []) rfl (.keep (by decide) (.keep (by decide) .nil)))))
  · intro conditions hread
    have hfails : (parseExpression " a = :v").isOk = false := by rfl
    rw [hread] at hfails
    cases hfails

/-! ## Joined expressions -/

section Joined

open Foundation

theorem MoreText.append {conditions others : List Condition} {text rest : List Char}
    (htext : MoreText conditions text) (hrest : MoreText others rest) :
    MoreText (conditions ++ others) (text ++ rest) := by
  induction htext with
  | nil => exact hrest
  | cons blanks hcondition _ ih =>
    simp only [List.append_assoc]
    exact .cons blanks hcondition ih

theorem ConjunctionText.join {conditions others : List Condition} {text other : List Char}
    (htext : ConjunctionText conditions text) (hother : ConjunctionText others other) :
    ConjunctionText (conditions ++ others) (text ++ (" AND ".toList ++ other)) := by
  obtain ⟨condition, more, start, rest, rfl, rfl, hstart, hmore⟩ := htext
  obtain ⟨next, later, begun, left, rfl, rfl, hbegun, hlater⟩ := hother
  refine ⟨condition, more ++ next :: later, start, rest ++ (" AND ".toList ++ (begun ++ left)), rfl,
    List.append_assoc _ _ _, hstart, ?_⟩
  exact hmore.append (.cons 0 hbegun hlater)

theorem toMongoFilter_spec {expression : String} {conditions : List Condition}
    (hread : parseExpression expression = .ok conditions) {values : ExpressionAttributeValues}
    {item : Item} {document : Document} (hstored : item.StoredAs document) :
    ((∃ filter, toMongoFilter expression values = .ok filter) ↔
        ∀ condition ∈ conditions, condition.IsBuildable values) ∧
      ∀ filter, toMongoFilter expression values = .ok filter →
        FilterDocument.accepts document filter =
          conditions.all fun condition => condition.sees values item := by
  obtain ⟨hbuildable, hbuilt⟩ := @buildMongoFilter_spec _ _ values _ hstored
    ((parseExpression_eq_ok_iff expression conditions).1 hread).2
  have hfilter : toMongoFilter expression values = buildMongoFilter conditions values := by
    rw [toMongoFilter, hread]
    rfl
  rw [hfilter]
  refine ⟨⟨hbuildable, fun hall => ?_⟩, fun filter heq => ?_⟩
  · obtain ⟨filter, heq, -⟩ := hbuilt hall
    exact ⟨filter, heq⟩
  · obtain ⟨other, hother, haccepts⟩ := hbuilt (hbuildable ⟨filter, heq⟩)
    rw [heq] at hother
    rw [Except.ok.inj hother, haccepts]

/-- Two expressions that are joined have a filter when both have one, and it accepts an item when
both accept it. -/
theorem toMongoFilter_and {first second : String} {conditions others : List Condition}
    (hfirst : parseExpression first = .ok conditions)
    (hsecond : parseExpression second = .ok others) :
    parseExpression (first ++ " AND " ++ second) = .ok (conditions ++ others) ∧
      ∀ (values : ExpressionAttributeValues) (item : Item) (document : Document),
        item.StoredAs document →
        ((∃ filter, toMongoFilter (first ++ " AND " ++ second) values = .ok filter) ↔
          (∃ filter, toMongoFilter first values = .ok filter) ∧
            ∃ filter, toMongoFilter second values = .ok filter) ∧
        ∀ filter left right, toMongoFilter (first ++ " AND " ++ second) values = .ok filter →
          toMongoFilter first values = .ok left → toMongoFilter second values = .ok right →
          FilterDocument.accepts document filter =
            (FilterDocument.accepts document left && FilterDocument.accepts document right) := by
  obtain ⟨htext, hall⟩ := (parseExpression_eq_ok_iff first conditions).1 hfirst
  obtain ⟨hother, hothers⟩ := (parseExpression_eq_ok_iff second others).1 hsecond
  have hread : parseExpression (first ++ " AND " ++ second) = .ok (conditions ++ others) := by
    refine (parseExpression_eq_ok_iff _ _).2 ⟨?_, List.forall_mem_append.2 ⟨hall, hothers⟩⟩
    rw [String.toList_append, String.toList_append, printable, List.filter_append,
      List.filter_append, List.append_assoc]
    exact htext.join hother
  refine ⟨hread, fun values item document hstored => ?_⟩
  have hjoined := @toMongoFilter_spec _ _ hread values _ _ hstored
  have hleft := @toMongoFilter_spec _ _ hfirst values _ _ hstored
  have hright := @toMongoFilter_spec _ _ hsecond values _ _ hstored
  refine ⟨by rw [hjoined.1, hleft.1, hright.1, List.forall_mem_append], ?_⟩
  intro filter left right hfilter hleftFilter hrightFilter
  rw [hjoined.2 filter hfilter, hleft.2 left hleftFilter, hright.2 right hrightFilter,
    List.all_append]

theorem toMongoFilter_and_price :
    parseExpression ("price > :low" ++ " AND " ++ "id = :v") =
      .ok ([.gt "price" ":low"] ++ [.eq "id" ":v"]) :=
  (toMongoFilter_and (by rfl) (by rfl)).1

end Joined

end AwsMock.DynamoDb.QueryHelper
