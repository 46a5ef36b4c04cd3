import AwsMock.DynamoDb.ExpressionGrammar

/-! # The parser of key conditions is exact

The parser accepts the texts of conjunctions whose tokens are fields and placeholders, and
returns their conditions. Its loop ends by itself: every round reads a keyword.
-/

namespace AwsMock.DynamoDb.QueryHelper

open Foundation

namespace ExpressionParser

/-- `parse`, when its loop may go so many rounds. -/
def parseWithin (rounds : Nat) (input : String) : Except CoreException (List Condition) := do
  let (first, cursor) ← parseCondition (.start input)
  let (conditions, cursor) ← parseMore rounds [first] cursor
  if cursor.rest = [] then return conditions
  else fail ("Unexpected trailing input at position " ++ toString cursor.pos ++ ": '" ++
    String.ofList cursor.rest ++ "'")

variable {cursor next : Cursor} {conditions : List Condition} {fuel rounds : Nat}

theorem length_matchKeywordAnd (hmatch : matchKeywordAnd cursor = some next) :
    next.rest.length < cursor.rest.length := by
  unfold matchKeywordAnd at hmatch
  dsimp only at hmatch
  split at hmatch
  next hsees =>
    have hkeyword := rest_of_sees hsees
    have hnext : next.rest = (cursor.rest.drop
        (cursor.rest.takeWhile fun c => c = ' ').length).drop 4 := by
      split at hmatch
      next =>
        split at hmatch
        next =>
          cases hmatch
          rfl
        next => cases hmatch
      next => cases hmatch
    have hlength := congrArg List.length hkeyword
    rw [List.length_append] at hlength
    change (cursor.rest.drop _).length = 4 + ((cursor.rest.drop _).drop 4).length at hlength
    rw [← hnext, List.length_drop] at hlength
    omega
  next => cases hmatch

/-- More rounds than there are characters left do not matter. -/
theorem parseMore_of_le (hfuel : cursor.rest.length ≤ fuel) (hrounds : cursor.rest.length ≤ rounds) :
    parseMore fuel conditions cursor = parseMore rounds conditions cursor := by
  have hnone : ∀ cursor : Cursor, cursor.rest.length ≤ 0 → matchKeywordAnd cursor = none := by
    intro cursor hempty
    cases hmatch : matchKeywordAnd cursor with
    | none => rfl
    | some next =>
      have hlength := length_matchKeywordAnd hmatch
      omega
  induction fuel generalizing rounds cursor conditions with
  | zero =>
    cases rounds with
    | zero => rfl
    | succ rounds => rw [parseMore, parseMore, hnone cursor hfuel]
  | succ fuel ih =>
    cases rounds with
    | zero => rw [parseMore, parseMore, hnone cursor hrounds]
    | succ rounds =>
      rw [parseMore, parseMore]
      cases hmatch : matchKeywordAnd cursor with
      | none => rfl
      | some next =>
        have hlength := length_matchKeywordAnd hmatch
        dsimp only
        cases hcondition : parseCondition next with
        | error exn => rfl
        | ok result =>
          obtain ⟨text, -, -, hrest, -⟩ := parseCondition_ok hcondition
          rw [hrest, List.length_append] at hlength
          exact ih (by omega) (by omega)

theorem parseWithin_of_le {input : String} (hrounds : input.length ≤ rounds) :
    parseWithin rounds input = parse input := by
  unfold parseWithin parse
  cases hcondition : parseCondition (.start input) with
  | error exn => rfl
  | ok result =>
    obtain ⟨first, cursor⟩ := result
    obtain ⟨text, -, -, hrest, -⟩ := parseCondition_ok hcondition
    have hlength := congrArg List.length hrest
    rw [List.length_append] at hlength
    change input.toList.length = text.length + cursor.rest.length at hlength
    rw [String.length_toList] at hlength
    have hsame : parseMore rounds [first] cursor = parseMore cursor.rest.length [first] cursor :=
      parseMore_of_le (by omega) le_rfl
    change (parseMore rounds [first] cursor >>= _) = parseMore _ [first] cursor >>= _
    rw [hsame]

end ExpressionParser

open ExpressionParser

/-- An input is accepted with some conditions exactly when it is a text of them, and the loop
of the parser ends within as many rounds as the input has characters. -/
theorem parse_eq_ok_iff (input : String) :
    (∀ conditions, parse input = .ok conditions ↔
      ConjunctionText conditions input.toList ∧ ∀ condition ∈ conditions, condition.WellFormed) ∧
    ∀ rounds, input.length ≤ rounds → parseWithin rounds input = parse input := by
  refine ⟨fun conditions => ⟨parse_ok, ?_⟩, fun _ => parseWithin_of_le⟩
  rintro ⟨htext, hwellFormed⟩
  exact (parse_text htext).1 hwellFormed

end AwsMock.DynamoDb.QueryHelper
