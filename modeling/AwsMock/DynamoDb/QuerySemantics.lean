import Mathlib.Data.List.Lex
import AwsMock.DynamoDb.ExpressionGrammar
import AwsMock.DynamoDb.QueryFilter
import AwsMock.DynamoDb.RoundTrip
import AwsMock.DynamoDb.StoredContents

/-! # What queries select

The conditions of an expression, compared with the attributes of an item by
their types, against the filter that is built for them and what it accepts of
the stored document. Filters hold strings and whole numbers only, they read two
fields of the document besides its attributes, and they look into arrays.
-/

namespace AwsMock.DynamoDb

open Foundation BsonUtils QueryHelper

/-- A value of an item compared with an operand of its own type: strings and
binaries in lexicographic order, and numbers exactly. -/
def DynamoValue.compares (comparison : Comparison) (operand : AttributeValue)
    (value : DynamoValue) : Bool :=
  match operand, value with
  | .s operand, .string value => comparison.compares value operand
  | .n operand, .double value =>
    (decimalValue operand).any fun operand => comparison.compares value operand
  | .b operand, .binary value =>
    comparison.compares (value.map UInt8.toNat) (operand.map UInt8.toNat)
  | _, _ => false

/-- The same with the whole number `std::stoi` reads, and without binaries. -/
def DynamoValue.comparesWhole (comparison : Comparison) (operand : AttributeValue)
    (value : DynamoValue) : Bool :=
  match operand, value with
  | .s operand, .string value => comparison.compares value operand
  | .n operand, .double value =>
    match stoi operand with
    | .ok operand => comparison.compares value operand
    | .error _ => false
  | _, _ => false

/-- The values the server compares: those of an array, or the value itself. -/
def DynamoValue.elements : DynamoValue → List DynamoValue
  | .stringSet values => values.map .string
  | .doubleSet values => values.map .double
  | .list values => values
  | value => [value]

def DynamoValue.anyCompares (comparison : Comparison) (operand : AttributeValue)
    (value : DynamoValue) : Bool :=
  value.elements.any (DynamoValue.comparesWhole comparison operand)

namespace QueryHelper

def IsOperand : AttributeValue → Prop
  | .s _ => True
  | .n numberValue => ∃ value, stoi numberValue = .ok value
  | _ => False

namespace Condition

def bounds : Condition → List (Comparison × String)
  | .eq _ placeholder => [(.eq, placeholder)]
  | .gte _ placeholder => [(.gte, placeholder)]
  | .lte _ placeholder => [(.lte, placeholder)]
  | .gt _ placeholder => [(.gt, placeholder)]
  | .lt _ placeholder => [(.lt, placeholder)]
  | .between _ low high => [(.gte, low), (.lte, high)]

def within (condition : Condition) (values : ExpressionAttributeValues)
    (compares : Comparison → AttributeValue → DynamoValue → Bool) (value : DynamoValue) : Bool :=
  condition.bounds.all fun bound =>
    (lookup bound.2 values).any fun operand => compares bound.1 operand value

def holds (condition : Condition) (values : ExpressionAttributeValues) (attributes : Attributes) :
    Bool :=
  (lookup condition.field attributes).any (condition.within values DynamoValue.compares)

def target (condition : Condition) (item : Item) : Option DynamoValue :=
  let text (stored : String) := if stored = "" then none else some (DynamoValue.string stored)
  if condition.field = "tableName" then text item.tableName
  else if condition.field = "region" then text item.region
  else lookup condition.field item.attributes

/-- What a filter says of a condition. Every bound may have an element of its own. -/
def sees (condition : Condition) (values : ExpressionAttributeValues) (item : Item) : Bool :=
  (condition.target item).any (condition.within values DynamoValue.anyCompares)

/-- Filters can be built for operands they can hold, and for ranges of numbers. -/
def IsBuildable (values : ExpressionAttributeValues) : Condition → Prop
  | .between _ low high =>
    ∃ lowest highest, lookup low values = some (.n lowest) ∧
      lookup high values = some (.n highest) ∧ IsOperand (.n lowest) ∧ IsOperand (.n highest)
  | condition => ∀ placeholder ∈ condition.placeholders,
      ∃ operand, lookup placeholder values = some operand ∧ IsOperand operand

/-- Where a filter decides on a value as the condition does: the whole numbers
have to decide as the exact ones, and no set or list has an element for every bound. -/
def IsExactOn (condition : Condition) (values : ExpressionAttributeValues) (value : DynamoValue) :
    Prop :=
  match value with
  | .double _ =>
    condition.within values DynamoValue.comparesWhole value =
      condition.within values DynamoValue.compares value
  | .stringSet _ | .doubleSet _ | .list _ =>
    ∃ bound ∈ condition.bounds, ∀ operand, lookup bound.2 values = some operand →
      ∀ element ∈ value.elements, DynamoValue.comparesWhole bound.1 operand element = false
  | _ => True

def IsExact (condition : Condition) (values : ExpressionAttributeValues) (item : Item) : Prop :=
  if condition.field = "tableName" ∨ condition.field = "region" then
    (condition.target item).any (condition.within values DynamoValue.compares) =
      condition.holds values item.attributes
  else ∀ value, lookup condition.field item.attributes = some value →
    condition.IsExactOn values value

end Condition

end QueryHelper

section Reading

variable {item : Item} {document : Document}

theorem get?_toBsonMap {attributes : Attributes} {fields : Document}
    (hfields : toBsonMap attributes = .ok fields) (name : String) :
    (lookup name attributes = none ∧ fields.get? name = none) ∨
      ∃ value stored, lookup name attributes = some value ∧ value.toBson = .ok stored ∧
        fields.get? name = some stored := by
  induction attributes generalizing fields with
  | nil =>
    cases hfields
    exact .inl ⟨rfl, rfl⟩
  | cons entry rest ih =>
    obtain ⟨key, value⟩ := entry
    rw [toBsonMap] at hfields
    obtain ⟨stored, hstored, hrest⟩ := bind_eq_ok.mp hfields
    obtain ⟨others, hothers, hresult⟩ := bind_eq_ok.mp hrest
    cases hresult
    rw [Document.get?_cons, lookup, List.find?_cons]
    by_cases hname : key = name
    · simp only [hname, decide_true, if_true]
      exact .inr ⟨value, stored, rfl, hstored, rfl⟩
    · simp only [hname, decide_false, if_false]
      exact ih hothers

theorem textField_cases (text : String) :
    ((if text = "" then none else some (DynamoValue.string text)) = none ∧ textField text = none) ∨
      ∃ value stored, (if text = "" then none else some (DynamoValue.string text)) = some value ∧
        value.toBson = .ok stored ∧ textField text = some stored := by
  rw [textField]
  split
  next => exact .inl ⟨rfl, rfl⟩
  next => exact .inr ⟨.string text, .scalar (.string text), rfl, rfl, rfl⟩

theorem getPath_target (hstored : item.StoredAs document) {condition : QueryHelper.Condition}
    (hformed : condition.WellFormed) :
    (condition.target item = none ∧
        document.getPath (FilterDocument.fieldPath (getField condition.field)) = none) ∨
      ∃ value stored, condition.target item = some value ∧ value.toBson = .ok stored ∧
        document.getPath (FilterDocument.fieldPath (getField condition.field)) = some stored := by
  have hpoint := point_not_mem_field hformed.field
  rw [Condition.target, getField]
  by_cases htable : condition.field = "tableName"
  · rw [if_pos htable, if_neg (by simp [htable]), FilterDocument.fieldPath_singleton hpoint, htable,
      Document.getPath_singleton, hstored.tableName]
    exact textField_cases item.tableName
  · by_cases hregion : condition.field = "region"
    · rw [if_neg htable, if_pos hregion, if_neg (by simp [hregion]),
        FilterDocument.fieldPath_singleton hpoint, hregion, Document.getPath_singleton,
        hstored.region]
      exact textField_cases item.region
    · obtain ⟨fields, hfields, hattributes⟩ := hstored.attributes
      have houter : '.' ∉ "attributes".toList := by decide
      have hpath : FilterDocument.fieldPath ("attributes." ++ condition.field) =
          ["attributes", condition.field] := by
        have hdotted : "attributes." = "attributes" ++ "." := by decide
        rw [hdotted]
        exact FilterDocument.fieldPath_pair houter hpoint
      rw [if_neg htable, if_neg hregion, if_pos ⟨htable, hregion⟩, hpath, Document.getPath,
        hattributes]
      · exact get?_toBsonMap hfields condition.field
      · intro heq
        cases heq

def passesElement (test : Scalar → Bool) : Value → Bool
  | .scalar value => test value
  | _ => false

theorem passes_array (test : Scalar → Bool) (values : List Value) :
    (Value.array values).passes test = values.any (passesElement test) := by
  rw [Value.passes]
  rfl

variable {operand : AttributeValue} {scalar : Scalar} {value : DynamoValue}

theorem scalar_of_toBson (hstored : value.toBson = .ok (.scalar scalar)) :
    (∃ text, value = .string text ∧ scalar = .string text) ∨
      (∃ number, value = .double number ∧ scalar = .double number) ∨
      (∃ flag, value = .bool flag ∧ scalar = .bool flag) ∨ value = .null ∧ scalar = .null := by
  cases value with
  | string text =>
    cases hstored
    exact .inl ⟨text, rfl, rfl⟩
  | double number =>
    cases hstored
    exact .inr (.inl ⟨number, rfl, rfl⟩)
  | bool flag =>
    cases hstored
    exact .inr (.inr (.inl ⟨flag, rfl, rfl⟩))
  | null =>
    cases hstored
    exact .inr (.inr (.inr ⟨rfl, rfl⟩))
  | list elements =>
    rw [DynamoValue.toBson] at hstored
    obtain ⟨values, -, hresult⟩ := bind_eq_ok.mp hstored
    cases hresult
  | map entries =>
    rw [DynamoValue.toBson] at hstored
    obtain ⟨fields, -, hresult⟩ := bind_eq_ok.mp hstored
    cases hresult
  | _ => cases hstored

theorem passesElement_toBson
    (hoperand : QueryHelper.operand operand = .ok scalar) (comparison : Comparison)
    {stored : Value} (hstored : value.toBson = .ok stored) :
    passesElement (comparison.comparesScalar scalar) stored =
      DynamoValue.comparesWhole comparison operand value := by
  have hother : (∀ text, value ≠ .string text) → (∀ number, value ≠ .double number) →
      DynamoValue.comparesWhole comparison operand value = false := by
    intro hstring hdouble
    cases value with
    | string text => exact absurd rfl (hstring text)
    | double number => exact absurd rfl (hdouble number)
    | _ => cases operand <;> rfl
  cases stored with
  | scalar scalarValue =>
    cases operand with
    | s text =>
      cases hoperand
      rcases scalar_of_toBson hstored with ⟨_, rfl, rfl⟩ | ⟨_, rfl, rfl⟩ | ⟨_, rfl, rfl⟩ | ⟨rfl, rfl⟩ <;>
        rfl
    | n text =>
      obtain ⟨number, hnumber, hresult⟩ := bind_eq_ok.mp hoperand
      cases hresult
      rcases scalar_of_toBson hstored with ⟨_, rfl, rfl⟩ | ⟨_, rfl, rfl⟩ | ⟨_, rfl, rfl⟩ | ⟨rfl, rfl⟩
      · rfl
      · simp only [DynamoValue.comparesWhole, hnumber]
        rfl
      · rfl
      · rfl
    | _ => cases hoperand
  | _ =>
    symm
    apply hother
    · rintro text rfl
      cases hstored
    · rintro number rfl
      cases hstored

theorem passes_toBson
    (hoperand : QueryHelper.operand operand = .ok scalar) (comparison : Comparison)
    {stored : Value} (hstored : value.toBson = .ok stored) :
    stored.passes (comparison.comparesScalar scalar) =
      DynamoValue.anyCompares comparison operand value := by
  rw [DynamoValue.anyCompares]
  have helement := passesElement_toBson hoperand comparison hstored
  cases value with
  | stringSet texts =>
    cases hstored
    rw [passes_array, List.any_map, DynamoValue.elements, List.any_map]
    congr 1
    funext text
    have htext : (DynamoValue.string text).toBson = .ok (.scalar (.string text)) := rfl
    exact passesElement_toBson hoperand comparison htext
  | doubleSet numbers =>
    cases hstored
    rw [passes_array, List.any_map, DynamoValue.elements, List.any_map]
    congr 1
    funext number
    have hnumber : (DynamoValue.double number).toBson = .ok (.scalar (.double number)) := rfl
    exact passesElement_toBson hoperand comparison hnumber
  | list elements =>
    rw [DynamoValue.toBson, toBsonList_eq] at hstored
    obtain ⟨values, hvalues, hresult⟩ := bind_eq_ok.mp hstored
    cases hresult
    rw [passes_array, DynamoValue.elements]
    have hrelated := mapM_eq_ok_iff.mp hvalues
    clear hvalues hstored helement
    induction hrelated with
    | nil => rfl
    | cons hhead _ ih =>
      rw [List.any_cons, List.any_cons, ih, passesElement_toBson hoperand comparison hhead]
  | map entries =>
    rw [DynamoValue.toBson] at hstored
    obtain ⟨fields, -, hresult⟩ := bind_eq_ok.mp hstored
    cases hresult
    cases operand <;> rfl
  | binarySet values => cases hstored
  | _ =>
    cases hstored
    rw [DynamoValue.elements, List.any_cons, List.any_nil, Bool.or_false]
    · exact helement
    all_goals intro _ heq; cases heq

theorem acceptsOperator_eq (hstored : item.StoredAs document) {condition : QueryHelper.Condition}
    (hformed : condition.WellFormed) (comparison : Comparison)
    (hoperand : QueryHelper.operand operand = .ok scalar) :
    FilterDocument.acceptsOperator
        (document.getPath (FilterDocument.fieldPath (getField condition.field)))
        (comparison.operator, .scalar scalar) =
      (condition.target item).any (DynamoValue.anyCompares comparison operand) := by
  unfold FilterDocument.acceptsOperator
  rw [Comparison.ofOperator_operator]
  rcases getPath_target hstored hformed with ⟨htarget, hpath⟩ | ⟨value, stored, htarget, hbson, hpath⟩
  · rw [htarget, hpath]
    rfl
  · rw [htarget, hpath]
    exact passes_toBson hoperand comparison hbson

end Reading

section Building

variable {item : Item} {document : Document} {values : ExpressionAttributeValues}

variable {operand : AttributeValue} {placeholder : String}

theorem resolve_eq_ok (hcolon : placeholder.toList.head? = some ':') :
    resolve placeholder values = .ok operand ↔ lookup placeholder values = some operand := by
  rw [resolve, if_pos hcolon]
  cases lookup placeholder values with
  | none =>
    constructor
    · intro heq
      cases heq
    · intro heq
      cases heq
  | some value =>
    constructor
    · intro heq
      cases heq
      rfl
    · intro heq
      cases heq
      rfl

theorem exists_operand (operand : AttributeValue) :
    (∃ scalar, QueryHelper.operand operand = .ok scalar) ↔ IsOperand operand := by
  cases operand with
  | s text => exact ⟨fun _ => trivial, fun _ => ⟨.string text, rfl⟩⟩
  | n text =>
    constructor
    · rintro ⟨scalar, hscalar⟩
      obtain ⟨number, hnumber, -⟩ := bind_eq_ok.mp hscalar
      exact ⟨number, hnumber⟩
    · rintro ⟨number, hnumber⟩
      refine ⟨.int32 number, ?_⟩
      rw [QueryHelper.operand, hnumber]
      rfl
  | _ =>
    constructor
    · rintro ⟨scalar, hscalar⟩
      cases hscalar
    · intro hfalse
      cases hfalse

theorem accepts_comparison (hstored : item.StoredAs document) {condition : QueryHelper.Condition}
    (hformed : condition.WellFormed) (comparison : Comparison)
    {scalar : Scalar} (hoperand : QueryHelper.operand operand = .ok scalar) :
    FilterDocument.accepts document
        [(getField condition.field, .document [(comparison.operator, .scalar scalar)])] =
      (condition.target item).any (DynamoValue.anyCompares comparison operand) := by
  rw [FilterDocument.accepts_operator]
  exact acceptsOperator_eq hstored hformed comparison hoperand

theorem within_single {condition : QueryHelper.Condition} {comparison : Comparison}
    (hbounds : condition.bounds = [(comparison, placeholder)])
    (hlookup : lookup placeholder values = some operand)
    (compares : Comparison → AttributeValue → DynamoValue → Bool) (value : DynamoValue) :
    condition.within values compares value = compares comparison operand value := by
  rw [Condition.within, hbounds, List.all_cons, List.all_nil, Bool.and_true, hlookup]
  rfl

theorem within_range {condition : QueryHelper.Condition} {low high : String}
    {lowest highest : AttributeValue} (hbounds : condition.bounds = [(.gte, low), (.lte, high)])
    (hlow : lookup low values = some lowest) (hhigh : lookup high values = some highest)
    (compares : Comparison → AttributeValue → DynamoValue → Bool) (value : DynamoValue) :
    condition.within values compares value =
      (compares .gte lowest value && compares .lte highest value) := by
  rw [Condition.within, hbounds, List.all_cons, List.all_cons, List.all_nil, Bool.and_true, hlow,
    hhigh]
  rfl

/-- What building the filter of a condition comes to: it succeeds for the
operands filters can hold, and the filter sees the condition in stored items. -/
structure Builds (values : ExpressionAttributeValues) (condition : QueryHelper.Condition)
    (item : Item) (document : Document) : Prop where
  buildable : (∃ filter, buildSingle values condition = .ok filter) → condition.IsBuildable values
  built : condition.IsBuildable values → ∃ filter, buildSingle values condition = .ok filter ∧
    FilterDocument.accepts document filter = condition.sees values item

variable (hstored : item.StoredAs document)
include hstored

theorem builds_single {condition : QueryHelper.Condition}
    (hformed : condition.WellFormed) {comparison : Comparison}
    (hplaceholders : condition.placeholders = [placeholder])
    (hbounds : condition.bounds = [(comparison, placeholder)])
    (hbuildable : condition.IsBuildable values ↔ ∀ placeholder ∈ condition.placeholders,
      ∃ operand, lookup placeholder values = some operand ∧ IsOperand operand)
    {filter : Scalar → Document}
    (hbuild : buildSingle values condition =
      (do return filter (← QueryHelper.operand (← resolve placeholder values))))
    (hfilter : ∀ scalar, FilterDocument.accepts document (filter scalar) =
      FilterDocument.accepts document
        [(getField condition.field, .document [(comparison.operator, .scalar scalar)])]) :
    Builds values condition item document := by
  have hcolon : placeholder.toList.head? = some ':' := by
    apply head?_of_isPlaceholder (hformed.placeholders placeholder _)
    rw [hplaceholders]
    exact List.mem_singleton_self placeholder
  constructor
  · rintro ⟨built, hbuilt⟩
    rw [hbuild] at hbuilt
    obtain ⟨operand, hresolve, hrest⟩ := bind_eq_ok.mp hbuilt
    obtain ⟨scalar, hscalar, -⟩ := bind_eq_ok.mp hrest
    rw [hbuildable, hplaceholders, List.forall_mem_singleton]
    exact ⟨operand, (resolve_eq_ok hcolon).mp hresolve, (exists_operand operand).mp ⟨scalar, hscalar⟩⟩
  · intro hbuilds
    rw [hbuildable, hplaceholders, List.forall_mem_singleton] at hbuilds
    obtain ⟨operand, hlookup, hoperand⟩ := hbuilds
    obtain ⟨scalar, hscalar⟩ := (exists_operand operand).mpr hoperand
    refine ⟨filter scalar, ?_, ?_⟩
    · rw [hbuild, (resolve_eq_ok hcolon).mpr hlookup]
      change (QueryHelper.operand operand >>= fun scalar => Except.ok (filter scalar)) = _
      rw [hscalar]
      rfl
    · rw [hfilter, accepts_comparison hstored hformed comparison hscalar, Condition.sees]
      congr 1
      funext value
      exact (within_single hbounds hlookup DynamoValue.anyCompares value).symm

theorem builds_between {field low high : String}
    (hformed : (QueryHelper.Condition.between field low high).WellFormed) :
    Builds values (.between field low high) item document := by
  have hlowColon : low.toList.head? = some ':' :=
    head?_of_isPlaceholder (hformed.placeholders low List.mem_cons_self)
  have hhighColon : high.toList.head? = some ':' :=
    head?_of_isPlaceholder (hformed.placeholders high (List.mem_cons_of_mem low List.mem_cons_self))
  constructor
  · rintro ⟨built, hbuilt⟩
    rw [buildSingle] at hbuilt
    obtain ⟨lowest, hlow, hrest⟩ := bind_eq_ok.mp hbuilt
    obtain ⟨highest, hhigh, hrange⟩ := bind_eq_ok.mp hrest
    split at hrange
    next lowest highest =>
      obtain ⟨first, hfirst, hrange⟩ := bind_eq_ok.mp hrange
      obtain ⟨second, hsecond, -⟩ := bind_eq_ok.mp hrange
      exact ⟨lowest, highest, (resolve_eq_ok hlowColon).mp hlow, (resolve_eq_ok hhighColon).mp hhigh,
        ⟨first, hfirst⟩, ⟨second, hsecond⟩⟩
    next => cases hrange
  · rintro ⟨lowest, highest, hlow, hhigh, ⟨first, hfirst⟩, ⟨second, hsecond⟩⟩
    refine ⟨[(getField field, .document [("$gte", .scalar (.int32 first)),
      ("$lte", .scalar (.int32 second))])], ?_, ?_⟩
    · rw [buildSingle, (resolve_eq_ok hlowColon).mpr hlow, (resolve_eq_ok hhighColon).mpr hhigh]
      change (stoi lowest >>= fun first => stoi highest >>= fun second => Except.ok _) = _
      rw [hfirst, hsecond]
      rfl
    · have hlowest : QueryHelper.operand (.n lowest) = .ok (.int32 first) := by
        rw [QueryHelper.operand, hfirst]
        rfl
      have hhighest : QueryHelper.operand (.n highest) = .ok (.int32 second) := by
        rw [QueryHelper.operand, hsecond]
        rfl
      rw [FilterDocument.accepts_operators]
      have hgte := acceptsOperator_eq hstored hformed .gte hlowest
      have hlte := acceptsOperator_eq hstored hformed .lte hhighest
      rw [Condition.field] at hgte hlte
      rw [List.all_cons, List.all_cons, List.all_nil, Bool.and_true]
      change (FilterDocument.acceptsOperator _ (Comparison.gte.operator, _) &&
        FilterDocument.acceptsOperator _ (Comparison.lte.operator, _)) = _
      rw [hgte, hlte, Condition.sees]
      cases Condition.target (.between field low high) item with
      | none => rfl
      | some value =>
        have hbounds : Condition.bounds (.between field low high) = [(.gte, low), (.lte, high)] :=
          rfl
        exact (within_range hbounds hlow hhigh DynamoValue.anyCompares value).symm

theorem builds {condition : QueryHelper.Condition}
    (hformed : condition.WellFormed) : Builds values condition item document := by
  cases condition with
  | eq field placeholder =>
    apply builds_single hstored hformed rfl rfl Iff.rfl rfl
    intro scalar
    exact FilterDocument.accepts_scalar document (getField field) scalar
  | between field low high => exact builds_between hstored hformed
  | _ => exact builds_single hstored hformed rfl rfl Iff.rfl rfl fun scalar => rfl

end Building

section Filters

variable {item : Item} {document : Document} {values : ExpressionAttributeValues}
  {conditions : List QueryHelper.Condition}

theorem buildMongoFilter_spec (hstored : item.StoredAs document)
    (hformed : ∀ condition ∈ conditions, condition.WellFormed) :
    ((∃ filter, buildMongoFilter conditions values = .ok filter) →
        ∀ condition ∈ conditions, condition.IsBuildable values) ∧
      ((∀ condition ∈ conditions, condition.IsBuildable values) →
        ∃ filter, buildMongoFilter conditions values = .ok filter ∧
          FilterDocument.accepts document filter =
            conditions.all fun condition => condition.sees values item) := by
  have hbuilds : ∀ condition ∈ conditions, Builds values condition item document :=
    fun condition hmem => builds hstored (hformed condition hmem)
  by_cases hsingle : ∃ condition, conditions = [condition]
  · obtain ⟨condition, rfl⟩ := hsingle
    have hbuild := hbuilds condition (List.mem_singleton_self condition)
    rw [List.forall_mem_singleton, List.all_cons, List.all_nil, Bool.and_true]
    exact ⟨hbuild.buildable, hbuild.built⟩
  · have hmany : buildMongoFilter conditions values = (do
        let filters ← conditions.mapM (buildSingle values)
        return [("$and", .array (filters.map .document))]) := by
      rw [buildMongoFilter]
      intro condition heq
      exact hsingle ⟨condition, heq⟩
    constructor
    · rintro ⟨filter, hfilter⟩ condition hmem
      rw [hmany] at hfilter
      obtain ⟨filters, hfilters, -⟩ := bind_eq_ok.mp hfilter
      have hrelated := mapM_eq_ok_iff.mp hfilters
      obtain ⟨built, -, hbuilt⟩ := exists_of_forall₂_left hrelated hmem
      exact (hbuilds condition hmem).buildable ⟨built, hbuilt⟩
    · intro hbuildable
      have heach : ∀ condition ∈ conditions, ∃ filter, buildSingle values condition = .ok filter ∧
          FilterDocument.accepts document filter = condition.sees values item :=
        fun condition hmem => (hbuilds condition hmem).built (hbuildable condition hmem)
      obtain ⟨filters, hfilters, hrelated⟩ := exists_mapM_forall₂.mpr heach
      refine ⟨[("$and", .array (filters.map .document))], ?_, ?_⟩
      · rw [hmany, hfilters]
        rfl
      · rw [FilterDocument.accepts_and]
        clear hfilters heach hbuildable hmany hsingle hbuilds hformed
        induction hrelated with
        | nil => rfl
        | cons hhead _ ih => rw [List.all_cons, List.all_cons, hhead, ih]

end Filters

section Exactness

variable {values : ExpressionAttributeValues} {condition : QueryHelper.Condition}

variable {value : DynamoValue}

theorem within_congr {first second : Comparison → AttributeValue → DynamoValue → Bool}
    (hsame : ∀ bound ∈ condition.bounds, ∀ operand, lookup bound.2 values = some operand →
      first bound.1 operand value = second bound.1 operand value) :
    condition.within values first value = condition.within values second value := by
  rw [Condition.within, Condition.within, Bool.eq_iff_iff, List.all_eq_true, List.all_eq_true]
  apply forall₂_congr
  intro bound hbound
  cases hlookup : lookup bound.2 values with
  | none => exact Iff.rfl
  | some operand =>
    rw [Option.any_some, Option.any_some, hsame bound hbound operand hlookup]

theorem within_eq_false {compares : Comparison → AttributeValue → DynamoValue → Bool} :
    condition.within values compares value = false ↔
      ∃ bound ∈ condition.bounds, ∀ operand, lookup bound.2 values = some operand →
        compares bound.1 operand value = false := by
  rw [Condition.within, List.all_eq_false]
  apply exists_congr
  intro bound
  apply and_congr_right
  intro _
  cases lookup bound.2 values with
  | none =>
    constructor
    · intro _ operand heq
      cases heq
    · intro _ hfalse
      cases hfalse
  | some operand =>
    rw [Option.any_some, Bool.not_eq_true]
    constructor
    · intro hfails other heq
      cases heq
      exact hfails
    · intro hfails
      exact hfails operand rfl

theorem exists_bound (condition : QueryHelper.Condition) : ∃ bound, bound ∈ condition.bounds := by
  cases condition <;> exact ⟨_, List.mem_cons_self⟩

theorem isOperand_of_bound (hbuildable : condition.IsBuildable values)
    {bound : Comparison × String} (hbound : bound ∈ condition.bounds) {operand : AttributeValue}
    (hlookup : lookup bound.2 values = some operand) : IsOperand operand := by
  have hsingle : ∀ {comparison : Comparison} {placeholder : String},
      bound ∈ [(comparison, placeholder)] →
      (∀ other ∈ [placeholder], ∃ operand, lookup other values = some operand ∧ IsOperand operand) →
      IsOperand operand := by
    intro comparison placeholder hmem hdefined
    obtain rfl := List.mem_singleton.mp hmem
    obtain ⟨other, hother, hoperand⟩ := hdefined placeholder (List.mem_singleton_self placeholder)
    rw [hother] at hlookup
    cases hlookup
    exact hoperand
  cases condition with
  | between field low high =>
    obtain ⟨lowest, highest, hlow, hhigh, hlowest, hhighest⟩ := hbuildable
    rcases List.mem_cons.mp hbound with rfl | hmem
    · rw [hlow] at hlookup
      cases hlookup
      exact hlowest
    · obtain rfl := List.mem_singleton.mp hmem
      rw [hhigh] at hlookup
      cases hlookup
      exact hhighest
  | _ => exact hsingle hbound hbuildable

theorem anyCompares_of_elements (helements : value.elements = [value])
    (comparison : Comparison) (operand : AttributeValue) :
    DynamoValue.anyCompares comparison operand value =
      DynamoValue.comparesWhole comparison operand value := by
  rw [DynamoValue.anyCompares, helements, List.any_cons, List.any_nil, Bool.or_false]

theorem comparesWhole_of_not_double {operand : AttributeValue}
    (hoperand : IsOperand operand) (hvalue : ∀ number, value ≠ .double number)
    (comparison : Comparison) :
    DynamoValue.comparesWhole comparison operand value =
      DynamoValue.compares comparison operand value := by
  cases operand with
  | s text => cases value <;> rfl
  | n text =>
    cases value with
    | double number => exact absurd rfl (hvalue number)
    | _ => rfl
  | _ => cases hoperand

theorem within_eq_iff_isExactOn (hbuildable : condition.IsBuildable values) (value : DynamoValue) :
    condition.within values DynamoValue.anyCompares value =
        condition.within values DynamoValue.compares value ↔
      condition.IsExactOn values value := by
  have harray : (∀ operand comparison, DynamoValue.compares comparison operand value = false) →
      (condition.within values DynamoValue.anyCompares value =
          condition.within values DynamoValue.compares value ↔
        ∃ bound ∈ condition.bounds, ∀ operand, lookup bound.2 values = some operand →
          ∀ element ∈ value.elements,
            DynamoValue.comparesWhole bound.1 operand element = false) := by
    intro hnever
    have hfalse : condition.within values DynamoValue.compares value = false := by
      obtain ⟨bound, hbound⟩ := exists_bound condition
      exact within_eq_false.mpr ⟨bound, hbound, fun operand _ => hnever operand bound.1⟩
    rw [hfalse, within_eq_false]
    simp only [DynamoValue.anyCompares, List.any_eq_false, Bool.not_eq_true]
  have hplain : value.elements = [value] → (∀ number, value ≠ .double number) →
      condition.within values DynamoValue.anyCompares value =
        condition.within values DynamoValue.compares value := by
    intro helements hvalue
    apply within_congr
    intro bound hbound operand hlookup
    rw [anyCompares_of_elements helements]
    exact comparesWhole_of_not_double (isOperand_of_bound hbuildable hbound hlookup) hvalue bound.1
  cases value with
  | double number =>
    have hwhole : condition.within values DynamoValue.anyCompares (.double number) =
        condition.within values DynamoValue.comparesWhole (.double number) :=
      within_congr fun bound _ operand _ => anyCompares_of_elements rfl bound.1 operand
    rw [hwhole]
    exact Iff.rfl
  | stringSet texts => exact harray fun operand comparison => by cases operand <;> rfl
  | doubleSet numbers => exact harray fun operand comparison => by cases operand <;> rfl
  | list elements => exact harray fun operand comparison => by cases operand <;> rfl
  | _ => exact iff_of_true (hplain rfl fun number heq => by cases heq) trivial

theorem sees_eq_holds_iff (hbuildable : condition.IsBuildable values) (item : Item) :
    condition.sees values item = condition.holds values item.attributes ↔
      condition.IsExact values item := by
  rw [Condition.IsExact]
  split
  next hplace =>
    have htext : ∀ value, condition.target item = some value → ∃ text, value = .string text := by
      intro value hvalue
      have hstring : ∀ text : String,
          (if text = "" then none else some (DynamoValue.string text)) = some value →
          ∃ text, value = .string text := by
        intro text heq
        split at heq
        next => cases heq
        next =>
          cases heq
          exact ⟨text, rfl⟩
      rw [Condition.target] at hvalue
      by_cases htable : condition.field = "tableName"
      · rw [if_pos htable] at hvalue
        exact hstring item.tableName hvalue
      · have hregion := hplace.resolve_left htable
        rw [if_neg htable, if_pos hregion] at hvalue
        exact hstring item.region hvalue
    have hsees : condition.sees values item =
        (condition.target item).any (condition.within values DynamoValue.compares) := by
      rw [Condition.sees]
      cases htarget : condition.target item with
      | none => rfl
      | some value =>
        obtain ⟨text, rfl⟩ := htext value htarget
        exact (within_eq_iff_isExactOn hbuildable (.string text)).mpr trivial
    rw [hsees]
  next hattribute =>
    obtain ⟨htable, hregion⟩ := not_or.mp hattribute
    rw [Condition.sees, QueryHelper.Condition.holds, Condition.target, if_neg htable, if_neg hregion]
    cases hlookup : lookup condition.field item.attributes with
    | none => exact iff_of_true rfl fun value heq => by cases heq
    | some value =>
      rw [Option.any_some, Option.any_some, within_eq_iff_isExactOn hbuildable]
      constructor
      · intro hexact other heq
        cases heq
        exact hexact
      · intro hexact
        exact hexact value rfl

end Exactness

def FilterIsRight (expression : String) (values : ExpressionAttributeValues)
    (conditions : List QueryHelper.Condition) (item : Item) (document : Document) : Prop :=
  ∃ filter, toMongoFilter expression values = .ok filter ∧
    (FilterDocument.accepts document filter = true ↔
      ∀ condition ∈ conditions, condition.holds values item.attributes = true)

theorem all_iff_all_iff {α : Type} {xs : List α} {first second : α → Bool} :
    (xs.all first = true ↔ ∀ x ∈ xs, second x = true) ↔
      (∀ x ∈ xs, first x = second x) ∨ (∃ x ∈ xs, first x = false) ∧ ∃ x ∈ xs, second x = false := by
  rw [List.all_eq_true]
  constructor
  · intro hiff
    by_cases hall : ∀ x ∈ xs, first x = true
    · left
      intro x hx
      rw [hall x hx, hiff.mp hall x hx]
    · right
      have hother : ¬∀ x ∈ xs, second x = true := fun hsecond => hall (hiff.mpr hsecond)
      simp only [not_forall, Bool.not_eq_true, exists_prop] at hall hother
      exact ⟨hall, hother⟩
  · rintro (hsame | ⟨⟨x, hx, hfirst⟩, ⟨y, hy, hsecond⟩⟩)
    · constructor
      · intro hall x hx
        rw [← hsame x hx]
        exact hall x hx
      · intro hall x hx
        rw [hsame x hx]
        exact hall x hx
    · constructor
      · intro hall
        rw [hall x hx] at hfirst
        cases hfirst
      · intro hall
        rw [hall y hy] at hsecond
        cases hsecond

section Samples

def pricedItem : Item :=
  { oid := "1", region := "eu-central-1", tableName := "orders",
    attributes := [("price", .double 1)], created := 0, modified := 0 }

def pricedDocument : Document :=
  [("_id", .scalar (.objectId "1")), ("region", .scalar (.string "eu-central-1")),
    ("tableName", .scalar (.string "orders")), ("size", .scalar (.int64 0)),
    ("attributes", .document [("price", .scalar (.double 1))]),
    ("created", .scalar (.date 0)), ("modified", .scalar (.date 0)),
    ("partitionKey", .scalar (.string "")), ("sortKey", .scalar (.string ""))]

theorem storedAs_priced : pricedItem.StoredAs pricedDocument :=
  ⟨rfl, rfl, rfl, rfl, ⟨_, rfl, rfl⟩, rfl, rfl, rfl, rfl⟩

theorem parseExpression_price :
    parseExpression "price = :price" = .ok [.eq "price" ":price"] := rfl

end Samples

end AwsMock.DynamoDb
