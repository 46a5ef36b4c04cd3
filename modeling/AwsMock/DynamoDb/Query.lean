import AwsMock.DynamoDb.ExpressionRewriting
import AwsMock.DynamoDb.ItemLaws
import AwsMock.DynamoDb.QuerySemantics
import Mathlib.Data.Bool.AllAny

/-! # The items a query finds

`Query` puts a condition on the table name before the key condition and removes
`#` and `AMZN_MAPPED_` from its text, so names are not looked up, and the region
is not asked for. What is found is compared with the items of the table that
satisfy the key condition with its names resolved.
-/

namespace AwsMock.DynamoDb

open Foundation QueryHelper StringUtils ExpressionParser

section Cleaning

theorem rewrites_replaceAll {pattern : List Char} (hpattern : ∀ c, IsSeparator c → c ∉ pattern)
    (hbetween : replaceAll pattern [] 0 "BETWEEN".toList = "BETWEEN".toList)
    (hand : replaceAll pattern [] 0 "AND".toList = "AND".toList)
    (hfield : ∀ name, replaceAll pattern [] 0 ('#' :: name) = '#' :: replaceAll pattern [] 0 name ∨
      replaceAll pattern [] 0 ('#' :: name) = replaceAll pattern [] 0 name) :
    Rewrites (replaceAll pattern [] 0) := by
  have hsplit : ∀ (before after : List Char) (c : Char), c ∉ pattern →
      replaceAll pattern [] 0 (before ++ c :: after) =
        replaceAll pattern [] 0 before ++ c :: replaceAll pattern [] 0 after :=
    fun before after c hc => replaceAll_append_cons hc (Nat.zero_le _)
  have hsingle : ∀ c, c ∉ pattern → replaceAll pattern [] 0 [c] = [c] := by
    intro c hc
    have hempty := hsplit [] [] c hc
    rwa [replaceAll_nil] at hempty
  have hname : ∀ {name : List Char}, (∀ c ∈ name, isNameChar c = true) →
      ∀ c ∈ replaceAll pattern [] 0 name, isNameChar c = true := by
    intro name hname c hc
    rcases mem_replaceAll hc with hc | hc
    · exact hname c hc
    · cases hc
  constructor
  case nil => exact replaceAll_nil 0
  case split =>
    intro before after c hc
    rw [hsplit before after c (hpattern c hc), hsingle c (hpattern c hc), List.singleton_append]
  case blank =>
    intro c hc d hd
    rw [hsingle c (hpattern c (.inl hc))] at hd
    obtain rfl := List.mem_singleton.mp hd
    exact hc
  case space => exact hsingle ' ' (hpattern ' ' (.inl rfl))
  case separator => exact fun hc => hsingle _ (hpattern _ (.inr hc))
  case between => exact hbetween
  case and => exact hand
  case name => exact hname
  case field =>
    rintro text ⟨sign, name, rfl, hsign, hchars⟩
    rcases hsign with rfl | rfl
    · exact ⟨[], _, rfl, .inl rfl, hname hchars⟩
    · rcases hfield name with hkept | hremoved
      · exact ⟨['#'], _, hkept, .inr rfl, hname hchars⟩
      · exact ⟨[], _, hremoved, .inl rfl, hname hchars⟩

theorem isSeparator_cases {c : Char} (hc : IsSeparator c) :
    c.toNat ≤ 32 ∨ c = ':' ∨ c = '=' ∨ c = '<' ∨ c = '>' := by
  rcases hc with hc | hc
  · exact .inl (le_of_isSpace hc)
  · simp only [List.mem_cons, List.not_mem_nil, or_false] at hc
    exact .inr hc

theorem rewrites_mapped : Rewrites (replaceAll "AMZN_MAPPED_".toList [] 0) := by
  have hpattern : ∀ c, IsSeparator c → c ∉ "AMZN_MAPPED_".toList := by
    intro c hc hmem
    have hletters : ∀ d ∈ "AMZN_MAPPED_".toList,
        65 ≤ d.toNat ∧ d ≠ ':' ∧ d ≠ '=' ∧ d ≠ '<' ∧ d ≠ '>' := by
      rw [← List.all_iff_forall_prop]
      decide
    have hletter := hletters c hmem
    rcases isSeparator_cases hc with hlow | rfl | rfl | rfl | rfl
    · omega
    · exact hletter.2.1 rfl
    · exact hletter.2.2.1 rfl
    · exact hletter.2.2.2.1 rfl
    · exact hletter.2.2.2.2 rfl
  apply rewrites_replaceAll hpattern
  · decide
  · decide
  · intro name
    have hsharp : '#' ∉ "AMZN_MAPPED_".toList := by decide
    have hsplit := @replaceAll_append_cons "AMZN_MAPPED_".toList [] [] name '#' hsharp 0 (Nat.zero_le _)
    rw [replaceAll_nil] at hsplit
    exact .inl hsplit

theorem rewrites_sign : Rewrites (replaceAll "#".toList [] 0) := by
  have hpattern : ∀ c, IsSeparator c → c ∉ "#".toList := by
    intro c hc hmem
    have hsharps : ∀ d ∈ "#".toList, d = '#' := by
      rw [← List.all_iff_forall_prop]
      decide
    have hsharp := hsharps c hmem
    subst hsharp
    rcases isSeparator_cases hc with hlow | hc | hc | hc | hc
    · revert hlow
      decide
    · revert hc
      decide
    · revert hc
      decide
    · revert hc
      decide
    · revert hc
      decide
  apply rewrites_replaceAll hpattern
  · decide
  · decide
  · intro name
    exact .inr rfl

def cleanName (name : String) : String := replaceCopy (Service.removeMapped name) "#" ""

def rewritten (condition : QueryHelper.Condition) : QueryHelper.Condition :=
  condition.map cleanName cleanName

def tableCondition : QueryHelper.Condition := .eq "tableName" ":tableName"

theorem cleanName_eq (name : String) :
    cleanName name = onString (replaceAll "#".toList [] 0)
      (onString (replaceAll "AMZN_MAPPED_".toList [] 0) name) := by
  simp only [cleanName, replaceCopy, Service.removeMapped, onString, String.toList_empty]

theorem map_cleanName (condition : QueryHelper.Condition) :
    (condition.map (onString (replaceAll "AMZN_MAPPED_".toList [] 0))
        (onString (replaceAll "AMZN_MAPPED_".toList [] 0))).map
      (onString (replaceAll "#".toList [] 0)) (onString (replaceAll "#".toList [] 0)) =
      rewritten condition := by
  have hclean : cleanName = fun name => onString (replaceAll "#".toList [] 0)
      (onString (replaceAll "AMZN_MAPPED_".toList [] 0) name) := funext cleanName_eq
  rw [rewritten, hclean]
  generalize onString (replaceAll "#".toList [] 0) = second
  generalize onString (replaceAll "AMZN_MAPPED_".toList [] 0) = first
  cases condition <;> rfl

theorem text_tableCondition : tableCondition.Text "tableName = :tableName".toList := by
  have hblank : IsBlank [' '] := by
    intro c hc
    obtain rfl := List.mem_singleton.mp hc
    rfl
  have hfield : IsFieldToken "tableName".toList := isFieldToken_of_isField (by decide)
  have hplaceholder : IsPlaceholderToken ":tableName".toList :=
    exists_of_isPlaceholder (by decide)
  have htext : "tableName = :tableName".toList = "tableName".toList ++
      ([' '] ++ (symbol .eq ++ ([' '] ++ ":tableName".toList))) := by decide
  rw [htext]
  have hcompare := @QueryHelper.Condition.Text.compare .eq "tableName" ":tableName" [' '] [' ']
    hfield hplaceholder hblank hblank
  exact hcompare

theorem conjunctionText_cons {condition : QueryHelper.Condition}
    {conditions : List QueryHelper.Condition} {start rest : List Char}
    (hstart : condition.Text start) (hrest : ConjunctionText conditions rest) (blanks : Nat) :
    ConjunctionText (condition :: conditions)
      (start ++ (List.replicate (blanks + 1) ' ' ++ ("AND ".toList ++ rest))) := by
  obtain ⟨next, others, text, more, rfl, rfl, htext, hmore⟩ := hrest
  exact ⟨condition, next :: others, start, _, rfl, rfl, hstart, .cons blanks htext hmore⟩

theorem toList_tablePrefix : "tableName = :tableName AND ".toList =
    "tableName = :tableName".toList ++ (List.replicate (0 + 1) ' ' ++ "AND ".toList) := by
  decide

theorem toList_cleanName (name : String) :
    (cleanName name).toList =
      replaceAll "#".toList [] 0 (replaceAll "AMZN_MAPPED_".toList [] 0 name.toList) := by
  have hclean := congrArg String.toList (cleanName_eq name)
  generalize "#".toList = sign at hclean ⊢
  generalize "AMZN_MAPPED_".toList = mapped at hclean ⊢
  rw [hclean, toList_onString, toList_onString]

theorem toList_createExpression (expression : String) :
    (Service.createExpression expression).toList =
      "tableName = :tableName".toList ++ (List.replicate (0 + 1) ' ' ++ ("AND ".toList ++
        (cleanName expression).toList)) := by
  have happend : ∀ first second : String, (first ++ second).toList = first.toList ++ second.toList :=
    fun first second => String.toList_append
  have hexpression := (happend "tableName = :tableName AND " (cleanName expression)).trans
    (congrArg (· ++ (cleanName expression).toList) toList_tablePrefix)
  exact hexpression.trans ((List.append_assoc _ _ _).trans (congrArg _ (List.append_assoc _ _ _)))

theorem conjunctionText_createExpression {expression : String}
    {conditions : List QueryHelper.Condition}
    (htext : ConjunctionText conditions expression.toList) :
    ConjunctionText (tableCondition :: conditions.map rewritten)
      (Service.createExpression expression).toList := by
  have hmapped := rewrites_mapped.conjunctionText htext
  have hclean := rewrites_sign.conjunctionText hmapped
  rw [List.map_map] at hclean
  have hconditions : conditions.map (QueryHelper.Condition.map
        (onString (replaceAll "#".toList [] 0)) (onString (replaceAll "#".toList [] 0)) ∘
      QueryHelper.Condition.map (onString (replaceAll "AMZN_MAPPED_".toList [] 0))
        (onString (replaceAll "AMZN_MAPPED_".toList [] 0))) = conditions.map rewritten :=
    List.map_congr_left fun condition _ => map_cleanName condition
  rw [hconditions] at hclean
  rw [toList_createExpression, toList_cleanName]
  exact conjunctionText_cons text_tableCondition hclean 0

theorem parseExpression_createExpression {expression : String}
    {conditions : List QueryHelper.Condition} (hparse : parse expression = .ok conditions) :
    ((∀ condition ∈ conditions, (rewritten condition).WellFormed) →
        parseExpression (Service.createExpression expression) =
          .ok (tableCondition :: conditions.map rewritten)) ∧
      ((¬∀ condition ∈ conditions, (rewritten condition).WellFormed) →
        ∀ parsed, parseExpression (Service.createExpression expression) ≠ .ok parsed) := by
  have htable : tableCondition.WellFormed := by
    constructor
    · decide
    · decide
  have hall : (∀ condition ∈ tableCondition :: conditions.map rewritten, condition.WellFormed) ↔
      ∀ condition ∈ conditions, (rewritten condition).WellFormed := by
    rw [List.forall_mem_cons, List.forall_mem_map]
    exact and_iff_right htable
  have htext := parseExpression_text (conjunctionText_createExpression (parse_ok hparse).1)
  rwa [hall] at htext

end Cleaning

section Meaning

variable {Store : Type}

namespace Dto.QueryRequest

variable (request : Dto.QueryRequest)

def unlimited : Dto.QueryRequest := { request with limit := 0 }

def attrs : ExpressionAttributeValues :=
  Service.createAttributeValues request.tableName request.expressionAttributeValues

def resolveName (field : String) : String :=
  if field.toList.head? = some '#' then (lookup field request.expressionAttributeNames).getD field
  else field

def holds (condition : QueryHelper.Condition) (item : Item) : Bool :=
  (condition.map request.resolveName id).holds request.expressionAttributeValues item.attributes

def wants (conditions : List QueryHelper.Condition) (item : Item) : Bool :=
  item.region = request.region && item.tableName = request.tableName &&
    conditions.all fun condition => request.holds condition item

def sees (condition : QueryHelper.Condition) (item : Item) : Bool :=
  (rewritten condition).sees request.attrs item

def selects (conditions : List QueryHelper.Condition) (item : Item) : Bool :=
  request.tableName ≠ "" && item.tableName = request.tableName &&
    conditions.all fun condition => request.sees condition item

/-- What is left of a field is the attribute it stands for, and what is left of
its placeholders has their values. -/
structure KeepsNames (condition : QueryHelper.Condition) : Prop where
  field : cleanName condition.field = request.resolveName condition.field
  placeholders : ∀ placeholder ∈ condition.placeholders,
    lookup (cleanName placeholder) request.attrs =
      lookup placeholder request.expressionAttributeValues

/-- A condition that is decided for an item as it should be. With names that
clash it may be so by chance. -/
def Decides (condition : QueryHelper.Condition) (item : Item) : Prop :=
  (request.KeepsNames condition → (rewritten condition).IsExact request.attrs item) ∧
    (¬request.KeepsNames condition → request.sees condition item = request.holds condition item)

/-- What has to be so for an item of a table of the name. In the region, every
condition is decided as it should be, or there is one that fails on either side.
In other regions, the filter has a condition that fails. -/
def DecidesItem (conditions : List QueryHelper.Condition) (item : Item) : Prop :=
  if item.region = request.region then
    (∀ condition ∈ conditions, request.Decides condition item) ∨
      (∃ condition ∈ conditions, request.sees condition item = false) ∧
        ∃ condition ∈ conditions, request.holds condition item = false
  else ∃ condition ∈ conditions, request.sees condition item = false

/-- The items up to the one where those that are selected are more than the size
limit. What comes after it is not looked at. -/
def reached (conditions : List QueryHelper.Condition) : Int → List Item → List Item
  | _, [] => []
  | totalSize, item :: rest =>
    if request.selects conditions item then
      if totalSize + item.size > MongoRepository.querySizeLimit then [item]
      else item :: reached conditions (totalSize + item.size) rest
    else item :: reached conditions totalSize rest

end Dto.QueryRequest

def readWithin : Int → List Item → Except CoreException (List Item)
  | _, [] => .ok []
  | totalSize, item :: rest => do
      let read ← item.reread
      if totalSize + item.size > MongoRepository.querySizeLimit then return [read]
      else return read :: (← readWithin (totalSize + item.size) rest)

/-- What the repositories do with a filter that was built from conditions:
execute it, or nothing. -/
structure Repository.Queries (db : Repository Store) (holds : World Store → Contents → Prop)
    (executes : Bool) : Prop where
  executeQuery : ∀ {world held}, holds world held → ∀ now {conditions values filter},
    (∀ condition ∈ conditions, condition.WellFormed) →
    buildMongoFilter conditions values = .ok filter →
    (db.executeQuery now filter true 0).run [] world =
      (Call.ofExcept (if executes then readWithin 0 (held.items.filter fun item =>
          conditions.all fun condition => condition.sees values item) else .ok []) :
        Call Mutex Store (List Item)).run [] world
  nodup : executes = true → ∀ {world held}, holds world held → (held.items.map Item.oid).Nodup

/-- A query returns the items it asks for, each once, as they are read. -/
def QueryIsRight (db : Repository Store) (now : Time) (world : World Store) (held : Contents)
    (request : Dto.QueryRequest) (conditions : List QueryHelper.Condition) : Prop :=
  ∃ found reads, (Service.query db now request.unlimited).run [] world = .returns
      { tableName := request.tableName
        items := found.map fun item => Mapper.mapDynamoMap item.attributes } world ∧
    (Service.queryItems db now request.unlimited).run [] world = .returns found world ∧
    (held.items.filter (request.wants conditions)).mapM Item.reread = .ok reads ∧
    found.Perm reads

/-- When a query is right. Its table is there and its filter can be built. When
filters are executed, the items that are reached are decided as they should be,
the others are not asked for, and those that are asked for can be read. When
they are not executed, no item is asked for. -/
structure QueryIsSafe (behaviour : Behaviour) (executes : Bool) (held : Contents)
    (request : Dto.QueryRequest) (conditions : List QueryHelper.Condition) : Prop where
  table : ∃ table ∈ held.tables, behaviour.finds request.region request.tableName table = true
  wellFormed : ∀ condition ∈ conditions, (rewritten condition).WellFormed
  buildable : ∀ condition ∈ conditions, (rewritten condition).IsBuildable request.attrs
  decides : executes = true → request.tableName ≠ "" →
    ∀ item ∈ request.reached conditions 0 held.items, item.tableName = request.tableName →
      request.DecidesItem conditions item
  nameless : executes = true → request.tableName = "" →
    ∀ item ∈ held.items, request.wants conditions item = false
  unreached : executes = true →
    ∀ item ∈ held.items.drop (request.reached conditions 0 held.items).length,
      request.wants conditions item = false
  readable : executes = true → ∀ item ∈ held.items, request.wants conditions item = true →
    ∃ read, item.reread = .ok read
  unexecuted : executes = false → ∀ item ∈ held.items, request.wants conditions item = false

end Meaning

section Deciding

variable {request : Dto.QueryRequest} {conditions : List QueryHelper.Condition}
  {condition : QueryHelper.Condition}

theorem lookup_tableName (request : Dto.QueryRequest) :
    lookup ":tableName" request.attrs = some (.s request.tableName) := by
  rw [Dto.QueryRequest.attrs, Service.createAttributeValues, Service.assign, lookup,
    List.find?_cons]
  rfl

theorem sees_tableCondition (request : Dto.QueryRequest) (item : Item) :
    tableCondition.sees request.attrs item =
      (request.tableName ≠ "" && item.tableName = request.tableName) := by
  have hbounds : tableCondition.bounds = [(.eq, ":tableName")] := rfl
  have htarget : tableCondition.target item =
      if item.tableName = "" then none else some (.string item.tableName) := by
    rw [Condition.target]
    exact if_pos rfl
  rw [Condition.sees, htarget]
  by_cases hempty : item.tableName = ""
  · rw [if_pos hempty, hempty, Option.any_none]
    by_cases hname : request.tableName = ""
    · simp [hname]
    · simp [hname, Ne.symm hname]
  · rw [if_neg hempty, Option.any_some, within_single hbounds (lookup_tableName request),
      anyCompares_of_elements rfl]
    change decide (item.tableName = request.tableName) = _
    by_cases hname : item.tableName = request.tableName
    · rw [← hname]
      simp [hempty]
    · simp [hname]

theorem all_sees_eq_selects (request : Dto.QueryRequest)
    (conditions : List QueryHelper.Condition) (item : Item) :
    ((tableCondition :: conditions.map rewritten).all fun condition =>
      condition.sees request.attrs item) = request.selects conditions item := by
  rw [List.all_cons, sees_tableCondition, List.all_map]
  rfl

theorem buildable_tableCondition (request : Dto.QueryRequest) :
    tableCondition.IsBuildable request.attrs := by
  intro placeholder hmem
  obtain rfl := List.mem_singleton.mp hmem
  exact ⟨_, lookup_tableName request, trivial⟩

theorem holds_map_eq {first second onPlaceholder : String → String}
    {values others : ExpressionAttributeValues}
    (hfield : first condition.field = second condition.field)
    (hplaceholders : ∀ placeholder ∈ condition.placeholders,
      lookup (onPlaceholder placeholder) others = lookup placeholder values)
    (attributes : Attributes) :
    (condition.map first onPlaceholder).holds others attributes =
      (condition.map second id).holds values attributes := by
  have hbounds : ∀ value, (condition.map first onPlaceholder).within others DynamoValue.compares
      value = (condition.map second id).within values DynamoValue.compares value := by
    intro value
    cases condition with
    | between field low high =>
      have hlow := hplaceholders low List.mem_cons_self
      have hhigh := hplaceholders high (List.mem_cons_of_mem low List.mem_cons_self)
      simp only [QueryHelper.Condition.map, Condition.within, Condition.bounds, List.all_cons,
        List.all_nil, hlow, hhigh, id]
    | _ field placeholder =>
      have hplaceholder := hplaceholders placeholder List.mem_cons_self
      simp only [QueryHelper.Condition.map, Condition.within, Condition.bounds, List.all_cons,
        List.all_nil, hplaceholder, id]
  rw [QueryHelper.Condition.holds, QueryHelper.Condition.holds, Condition.field_map,
    Condition.field_map, hfield]
  congr 1
  funext value
  exact hbounds value

theorem holds_rewritten (hkeeps : request.KeepsNames condition) (item : Item) :
    (rewritten condition).holds request.attrs item.attributes = request.holds condition item :=
  holds_map_eq hkeeps.field hkeeps.placeholders item.attributes

theorem decides_iff (hbuildable : (rewritten condition).IsBuildable request.attrs) (item : Item) :
    request.Decides condition item ↔ request.sees condition item = request.holds condition item := by
  by_cases hkeeps : request.KeepsNames condition
  · rw [Dto.QueryRequest.Decides, ← holds_rewritten hkeeps, Dto.QueryRequest.sees,
      sees_eq_holds_iff hbuildable]
    constructor
    · rintro ⟨hexact, -⟩
      exact hexact hkeeps
    · intro hexact
      exact ⟨fun _ => hexact, fun hnot => absurd hkeeps hnot⟩
  · constructor
    · rintro ⟨-, hsame⟩
      exact hsame hkeeps
    · intro hsame
      exact ⟨fun hother => absurd hother hkeeps, fun _ => hsame⟩

theorem decidesItem_iff (hname : request.tableName ≠ "")
    (hbuildable : ∀ condition ∈ conditions, (rewritten condition).IsBuildable request.attrs)
    {item : Item} (htable : item.tableName = request.tableName) :
    request.DecidesItem conditions item ↔
      request.selects conditions item = request.wants conditions item := by
  have hdecides : (∀ condition ∈ conditions, request.Decides condition item) ↔
      ∀ condition ∈ conditions, request.sees condition item = request.holds condition item :=
    forall₂_congr fun condition hmem => decides_iff (hbuildable condition hmem) item
  rw [Dto.QueryRequest.DecidesItem, Dto.QueryRequest.selects, Dto.QueryRequest.wants, hdecides]
  by_cases hregion : item.region = request.region
  · rw [if_pos hregion, ← all_iff_all_iff, ← List.all_eq_true, ← Bool.eq_iff_iff]
    simp [hname, htable, hregion]
  · have hfails : (∃ condition ∈ conditions, request.sees condition item = false) ↔
        (conditions.all fun condition => request.sees condition item) = false := by
      simp only [List.all_eq_false, Bool.not_eq_true]
    rw [if_neg hregion, hfails]
    simp [hname, htable, hregion]

end Deciding

section Executing

theorem size_reread {item read : Item} (hread : item.reread = .ok read) : read.size = item.size := by
  obtain ⟨attributes, -, rfl⟩ := Item.reread_eq_ok.mp hread
  rfl

theorem oid_reread {item read : Item} (hread : item.reread = .ok read) : read.oid = item.oid := by
  obtain ⟨attributes, -, rfl⟩ := Item.reread_eq_ok.mp hread
  rfl

theorem readWithinLimit_eq {items : List Item} {documents : List Document}
    (hstored : List.Forall₂ Item.StoredAs items documents) (now : Time) (totalSize : Int) :
    MongoRepository.readWithinLimit now totalSize documents = readWithin totalSize items := by
  induction hstored generalizing totalSize with
  | nil => rfl
  | @cons item document items documents hitem _ ih =>
    rw [MongoRepository.readWithinLimit, readWithin, hitem.fromDocument_eq]
    cases hread : item.reread with
    | error exc => rfl
    | ok read =>
      change (if totalSize + read.size > _ then _ else _) = if totalSize + item.size > _ then _ else _
      rw [size_reread hread, ih]

variable {values : ExpressionAttributeValues}

theorem exists_buildMongoFilter_iff {conditions : List QueryHelper.Condition}
    (hwellFormed : ∀ condition ∈ conditions, condition.WellFormed) :
    (∃ filter, buildMongoFilter conditions values = .ok filter) ↔
      ∀ condition ∈ conditions, condition.IsBuildable values := by
  obtain ⟨hbuildable, hbuilt⟩ :=
    @buildMongoFilter_spec pricedItem pricedDocument values _ storedAs_priced hwellFormed
  constructor
  · exact hbuildable
  · intro hall
    obtain ⟨filter, hfilter, -⟩ := hbuilt hall
    exact ⟨filter, hfilter⟩

theorem accepts_buildMongoFilter {conditions : List QueryHelper.Condition}
    {filter : Document} {item : Item} {document : Document}
    (hstored : item.StoredAs document)
    (hwellFormed : ∀ condition ∈ conditions, condition.WellFormed)
    (hfilter : buildMongoFilter conditions values = .ok filter) :
    FilterDocument.accepts document filter =
      conditions.all fun condition => condition.sees values item := by
  obtain ⟨hbuildable, hbuilt⟩ := @buildMongoFilter_spec item document values _ hstored hwellFormed
  obtain ⟨other, hother, haccepts⟩ := hbuilt (hbuildable ⟨filter, hfilter⟩)
  rw [hfilter] at hother
  cases hother
  exact haccepts

theorem mongoRepository_queries (random : RandomSource) :
    (mongoRepository random).Queries (MongoRepository.Holds random) true where
  executeQuery := by
    intro world held hholds now conditions values filter hwellFormed hfilter
    have hfound := forall₂_filter hholds.items fun item document hstored =>
      (accepts_buildMongoFilter hstored hwellFormed hfilter).symm
    change (MongoRepository.executeQuery now filter true 0).run [] world = _
    simp only [MongoRepository.executeQuery, Action.run_bind, MongoRepository.readItems,
      Call.run_readStore, Outcome.andThen_returns]
    rw [if_neg (lt_irrefl 0), readWithinLimit_eq hfound, if_pos trivial]
  nodup := fun _ _ _ hholds => hholds.nodup

end Executing

section Reaching

variable {request : Dto.QueryRequest} {conditions : List QueryHelper.Condition}

theorem reached_append_drop (request : Dto.QueryRequest) (conditions : List QueryHelper.Condition)
    (totalSize : Int) (items : List Item) :
    request.reached conditions totalSize items ++
      items.drop (request.reached conditions totalSize items).length = items := by
  induction items generalizing totalSize with
  | nil => rfl
  | cons item items ih =>
    rw [Dto.QueryRequest.reached]
    split
    · split
      · rfl
      · rw [List.cons_append, List.length_cons, List.drop_succ_cons, ih]
    · rw [List.cons_append, List.length_cons, List.drop_succ_cons, ih]

theorem readWithin_filter (totalSize : Int) (items : List Item) :
    readWithin totalSize (items.filter (request.selects conditions)) =
      ((request.reached conditions totalSize items).filter
        (request.selects conditions)).mapM Item.reread := by
  induction items generalizing totalSize with
  | nil => rfl
  | cons item items ih =>
    rw [Dto.QueryRequest.reached, List.filter_cons]
    by_cases hselects : request.selects conditions item = true
    · rw [if_pos hselects, if_pos hselects, readWithin]
      split
      next hlarge =>
        rw [List.filter_cons_of_pos hselects, List.filter_nil, List.mapM_cons, List.mapM_nil]
        rfl
      next hsmall => rw [List.filter_cons_of_pos hselects, List.mapM_cons, ← ih]
    · rw [if_neg hselects, if_neg hselects, List.filter_cons_of_neg hselects, ih]

end Reaching

section Answering

variable {Store : Type} {db : Repository Store} {holds : World Store → Contents → Prop}
  {behaviour : Behaviour} {executes : Bool} {world : World Store} {held : Contents}
  {request : Dto.QueryRequest} {conditions : List QueryHelper.Condition}

def answers (executes : Bool) (held : Contents) (request : Dto.QueryRequest)
    (conditions : List QueryHelper.Condition) : Except CoreException (List Item) :=
  if executes then
    ((request.reached conditions 0 held.items).filter (request.selects conditions)).mapM Item.reread
  else .ok []

theorem wellFormed_tableCondition : tableCondition.WellFormed where
  field := by decide
  placeholders := by decide

theorem toMongoFilter_createExpression {expression : String} {values : ExpressionAttributeValues}
    (hparse : parse expression = .ok conditions) :
    ((∀ condition ∈ conditions, (rewritten condition).WellFormed) →
        toMongoFilter (Service.createExpression expression) values =
          buildMongoFilter (tableCondition :: conditions.map rewritten) values) ∧
      ((¬∀ condition ∈ conditions, (rewritten condition).WellFormed) →
        ∃ exc, toMongoFilter (Service.createExpression expression) values = .error exc) := by
  obtain ⟨haccepts, hrejects⟩ := parseExpression_createExpression hparse
  generalize Service.createExpression expression = text at haccepts hrejects ⊢
  constructor
  · intro hwellFormed
    rw [toMongoFilter, haccepts hwellFormed]
    rfl
  · intro hnot
    cases hparsed : parseExpression text with
    | ok parsed => exact absurd hparsed (hrejects hnot parsed)
    | error exc =>
      rw [toMongoFilter, hparsed]
      exact ⟨exc, rfl⟩

theorem run_queryItems (db : Repository Store) (now : Time) (world : World Store)
    (request : Dto.QueryRequest) :
    (Service.queryItems db now request.unlimited).run [] world =
      ((Call.ofExcept (toMongoFilter (Service.createExpression request.keyConditionExpression)
        request.attrs) : Call Mutex Store Document).run [] world).andThen fun filter after =>
          (db.executeQuery now filter true 0).run [] after := by
  have hexpression : request.unlimited.keyConditionExpression = request.keyConditionExpression :=
    rfl
  have hvalues : Service.createAttributeValues request.unlimited.tableName
      request.unlimited.expressionAttributeValues = request.attrs := rfl
  have hlimit : request.unlimited.limit = 0 := rfl
  simp only [Service.queryItems, hexpression, hvalues, hlimit]
  -- the text of the expression has literals, which must not be evaluated
  generalize Service.createExpression request.keyConditionExpression = text
  rw [Action.run_bind]

theorem run_queryItems_iff (hqueries : db.Queries holds executes) (hholds : holds world held)
    (hparse : parse request.keyConditionExpression = .ok conditions) (now : Time)
    (found : List Item) :
    (Service.queryItems db now request.unlimited).run [] world = .returns found world ↔
      (∀ condition ∈ conditions, (rewritten condition).WellFormed) ∧
        (∀ condition ∈ conditions, (rewritten condition).IsBuildable request.attrs) ∧
        answers executes held request conditions = .ok found := by
  obtain ⟨haccepts, hrejects⟩ :=
    @toMongoFilter_createExpression conditions _ request.attrs hparse
  rw [run_queryItems]
  generalize toMongoFilter (Service.createExpression request.keyConditionExpression)
    request.attrs = built at haccepts hrejects ⊢
  by_cases hwellFormed : ∀ condition ∈ conditions, (rewritten condition).WellFormed
  · have hall : ∀ condition ∈ tableCondition :: conditions.map rewritten, condition.WellFormed := by
      rw [List.forall_mem_cons, List.forall_mem_map]
      exact ⟨wellFormed_tableCondition, hwellFormed⟩
    have hbuildable : (∀ condition ∈ tableCondition :: conditions.map rewritten,
        condition.IsBuildable request.attrs) ↔
        ∀ condition ∈ conditions, (rewritten condition).IsBuildable request.attrs := by
      rw [List.forall_mem_cons, List.forall_mem_map]
      exact and_iff_right (buildable_tableCondition request)
    rw [← hbuildable, ← exists_buildMongoFilter_iff hall, ← haccepts hwellFormed]
    cases hbuilt : built with
    | error exc =>
      constructor
      · intro heq
        cases heq
      · rintro ⟨-, ⟨filter, heq⟩, -⟩
        cases heq
    | ok filter =>
      have hbuild := (haccepts hwellFormed).symm.trans hbuilt
      have hselects : (fun item => (tableCondition :: conditions.map rewritten).all
          fun condition => condition.sees request.attrs item) = request.selects conditions :=
        funext (all_sees_eq_selects request conditions)
      have hexecute := hqueries.executeQuery hholds now hall hbuild
      rw [hselects, readWithin_filter] at hexecute
      rw [Call.run_ofExcept_ok, Outcome.andThen_returns, hexecute, Call.run_ofExcept_eq_returns]
      constructor
      · rintro ⟨hok, -⟩
        exact ⟨hwellFormed, ⟨filter, rfl⟩, hok⟩
      · rintro ⟨-, -, hok⟩
        exact ⟨hok, rfl⟩
  · obtain ⟨exc, rfl⟩ := hrejects hwellFormed
    constructor
    · intro heq
      cases heq
    · rintro ⟨hother, -⟩
      exact absurd hother hwellFormed

theorem run_query_iff (hlawful : db.Lawful holds behaviour) (hholds : holds world held) (now : Time)
    (found : List Item) :
    ((Service.query db now request.unlimited).run [] world = .returns
        { tableName := request.tableName
          items := found.map fun item => Mapper.mapDynamoMap item.attributes } world ∧
      (Service.queryItems db now request.unlimited).run [] world = .returns found world) ↔
      held.tables.any (behaviour.finds request.region request.tableName) = true ∧
        (Service.queryItems db now request.unlimited).run [] world = .returns found world := by
  have hexists := hlawful.tableExists hholds request.region request.tableName
  have hregion : request.unlimited.region = request.region := rfl
  have hname : request.unlimited.tableName = request.tableName := rfl
  apply and_congr_left
  intro hitems
  rw [Service.query, Action.run_bind, hregion, hname]
  cases hfound : held.tables.any (behaviour.finds request.region request.tableName) with
  | true =>
    rw [hfound] at hexists
    rw [Service.run_requireTable hexists, Outcome.andThen_returns, Action.run_rethrow_eq_returns,
      Action.run_bind, hitems]
    exact iff_of_true rfl rfl
  | false =>
    rw [hfound] at hexists
    rw [Service.requireTable, Action.run_bind, hexists]
    constructor
    · intro heq
      cases heq
    · intro heq
      cases heq

theorem forall_eq_of_perm {items first second : List Item}
    (hnodup : (items.map Item.oid).Nodup) (hfirst : first.Sublist items)
    (hsecond : second.Sublist items) (hperm : (first.map Item.oid).Perm (second.map Item.oid)) :
    ∀ item ∈ items, item ∈ first ↔ item ∈ second := by
  have hinjective : ∀ item ∈ items, ∀ other ∈ items, item.oid = other.oid → item = other :=
    fun item hitem other hother => List.inj_on_of_nodup_map hnodup hitem hother
  intro item hitem
  constructor
  · intro hmem
    obtain ⟨other, hother, heq⟩ := List.mem_map.mp (hperm.subset (List.mem_map_of_mem hmem))
    rwa [← hinjective other (hsecond.subset hother) item hitem heq]
  · intro hmem
    obtain ⟨other, hother, heq⟩ := List.mem_map.mp (hperm.symm.subset (List.mem_map_of_mem hmem))
    rwa [← hinjective other (hfirst.subset hother) item hitem heq]

theorem map_oid_of_reread {items reads : List Item} (hreads : items.mapM Item.reread = .ok reads) :
    reads.map Item.oid = items.map Item.oid := by
  have hrelated := mapM_eq_ok_iff.mp hreads
  clear hreads
  induction hrelated with
  | nil => rfl
  | cons hread _ ih => rw [List.map_cons, List.map_cons, ih, oid_reread hread]

theorem answers_iff (hnodup : (held.items.map Item.oid).Nodup) :
    (∃ found reads, answers true held request conditions = .ok found ∧
        (held.items.filter (request.wants conditions)).mapM Item.reread = .ok reads ∧
        found.Perm reads) ↔
      (∀ item ∈ request.reached conditions 0 held.items,
          request.selects conditions item = request.wants conditions item) ∧
        (∀ item ∈ held.items.drop (request.reached conditions 0 held.items).length,
          request.wants conditions item = false) ∧
        ∀ item ∈ held.items, request.wants conditions item = true →
          ∃ read, item.reread = .ok read := by
  set start := request.reached conditions 0 held.items with hstart
  set left := held.items.drop start.length with hleft
  have hsplit : start ++ left = held.items := reached_append_drop request conditions 0 held.items
  have hmem : ∀ item, item ∈ held.items ↔ item ∈ start ∨ item ∈ left := by
    intro item
    rw [← hsplit, List.mem_append]
  have hdisjoint : ∀ item ∈ start, item ∉ left := by
    have hitems : held.items.Nodup := hnodup.of_map
    rw [← hsplit, List.nodup_append] at hitems
    exact fun item hitem hother => hitems.2.2 item hitem item hother rfl
  constructor
  · rintro ⟨found, reads, hfound, hreads, hperm⟩
    have hoids := hperm.map Item.oid
    rw [map_oid_of_reread hfound, map_oid_of_reread hreads] at hoids
    have hsublist : (start.filter (request.selects conditions)).Sublist held.items := by
      rw [← hsplit]
      exact List.filter_sublist.trans (List.sublist_append_left start left)
    have hsame := forall_eq_of_perm hnodup hsublist List.filter_sublist hoids
    refine ⟨?_, ?_, ?_⟩
    · intro item hitem
      have hiff := hsame item ((hmem item).mpr (.inl hitem))
      rw [List.mem_filter, List.mem_filter, and_iff_right hitem,
        and_iff_right ((hmem item).mpr (.inl hitem)), ← Bool.eq_iff_iff] at hiff
      exact hiff
    · intro item hitem
      rw [Bool.eq_false_iff]
      intro hwants
      have hall := (hmem item).mpr (.inr hitem)
      have hselected := (hsame item hall).mpr (List.mem_filter.mpr ⟨hall, hwants⟩)
      exact hdisjoint item (List.mem_of_mem_filter hselected) hitem
    · intro item hitem hwants
      obtain ⟨read, -, hread⟩ := exists_of_forall₂_left (mapM_eq_ok_iff.mp hreads)
        (List.mem_filter.mpr ⟨hitem, hwants⟩)
      exact ⟨read, hread⟩
  · rintro ⟨hselects, hunreached, hreadable⟩
    have hwanted : held.items.filter (request.wants conditions) =
        start.filter (request.selects conditions) := by
      have hnone : left.filter (request.wants conditions) = [] :=
        List.filter_eq_nil_iff.mpr fun item hitem => Bool.eq_false_iff.mp (hunreached item hitem)
      rw [← hsplit, List.filter_append, hnone, List.append_nil]
      exact (List.filter_congr hselects).symm
    have hreads : ∀ item ∈ held.items.filter (request.wants conditions),
        ∃ read, item.reread = .ok read ∧ True := by
      intro item hitem
      obtain ⟨hall, hwants⟩ := List.mem_filter.mp hitem
      obtain ⟨read, hread⟩ := hreadable item hall hwants
      exact ⟨read, hread, trivial⟩
    obtain ⟨reads, hok, -⟩ := exists_mapM_forall₂.mpr hreads
    refine ⟨reads, reads, ?_, hok, List.Perm.refl reads⟩
    change (start.filter (request.selects conditions)).mapM Item.reread = _
    rw [← hwanted]
    exact hok

end Answering

section Samples

def distantItem : Item := { pricedItem with oid := "u", region := "us-east-1" }

def distantDocument : Document :=
  [("_id", .scalar (.objectId "u")), ("region", .scalar (.string "us-east-1")),
    ("tableName", .scalar (.string "orders")), ("size", .scalar (.int64 0)),
    ("attributes", .document [("price", .scalar (.double 1))]),
    ("created", .scalar (.date 0)), ("modified", .scalar (.date 0)),
    ("partitionKey", .scalar (.string "")), ("sortKey", .scalar (.string ""))]

def distantMongo : World MongoStore := ⟨⟨[sampleTable.document], [distantDocument]⟩, 1⟩

def priceQuery (price : String) : Dto.QueryRequest :=
  { region := "eu-central-1", tableName := "orders", keyConditionExpression := "price = :price",
    expressionAttributeValues := [(":price", .n price)] }


def distantContents : Contents := ⟨[sampleTable], [distantItem]⟩

theorem holds_distantMongo : MongoRepository.Holds .growing distantMongo distantContents where
  tables := rfl
  items := .cons ⟨rfl, rfl, rfl, rfl, ⟨_, rfl, rfl⟩, rfl, rfl, rfl, rfl⟩ .nil
  drawn := by
    intro item hitem
    rw [List.mem_singleton.mp hitem]
    exact ⟨0, Nat.zero_lt_one, rfl⟩
  nodup := List.nodup_singleton _

theorem parse_price : parse "price = :price" = .ok [.eq "price" ":price"] := rfl

theorem parse_priceQuery (price : String) :
    parse (priceQuery price).keyConditionExpression = .ok [.eq "price" ":price"] :=
  parse_price

def nearItem : Item := { pricedItem with oid := "u" }

def nearContents : Contents := ⟨[sampleTable], [nearItem]⟩

def nearDocument : Document :=
  ("_id", .scalar (.objectId "u")) :: pricedDocument.tail

def nearMongo : World MongoStore := ⟨⟨[sampleTable.document], [nearDocument]⟩, 1⟩

theorem holds_nearMongo : MongoRepository.Holds .growing nearMongo nearContents where
  tables := rfl
  items := .cons ⟨rfl, rfl, rfl, rfl, ⟨_, rfl, rfl⟩, rfl, rfl, rfl, rfl⟩ .nil
  drawn := by
    intro item hitem
    rw [List.mem_singleton.mp hitem]
    exact ⟨0, Nat.zero_lt_one, rfl⟩
  nodup := List.nodup_singleton _

theorem cleanName_price : cleanName "price" = "price" := by
  decide

theorem queryIsSafe_near (behaviour : Behaviour)
    (htable : behaviour.finds "eu-central-1" "orders" sampleTable = true) :
    QueryIsSafe behaviour true nearContents (priceQuery "1") [.eq "price" ":price"] where
  table := ⟨sampleTable, List.mem_cons_self, htable⟩
  wellFormed := by
    rw [List.forall_mem_singleton]
    constructor
    · decide
    · decide
  buildable := by
    rw [List.forall_mem_singleton]
    intro placeholder hmem
    obtain rfl := List.mem_singleton.mp hmem
    have hclean : cleanName ":price" = ":price" := by
      decide
    refine ⟨.n "1", ?_, 1, rfl⟩
    rw [hclean]
    rfl
  decides := by
    intro _ _ item hitem _
    have hmem : item ∈ [nearItem] := by
      have hall := reached_append_drop (priceQuery "1") [.eq "price" ":price"] 0 [nearItem]
      rw [← hall]
      exact List.mem_append_left _ hitem
    obtain rfl := List.mem_singleton.mp hmem
    have hregion : nearItem.region = (priceQuery "1").region := rfl
    rw [Dto.QueryRequest.DecidesItem, if_pos hregion]
    left
    rw [List.forall_mem_singleton]
    constructor
    · intro _
      rw [Condition.IsExact, if_neg (by decide)]
      intro value hvalue
      have hprice : lookup (rewritten (.eq "price" ":price")).field nearItem.attributes =
          some (.double 1) := by
        have hfield : (rewritten (.eq "price" ":price")).field = "price" := cleanName_price
        rw [hfield]
        rfl
      rw [hprice] at hvalue
      cases hvalue
      change _ = _
      decide +kernel
    · intro _
      decide +kernel
  nameless := fun _ hname => absurd hname (by decide)
  unreached := by
    have hselects : (priceQuery "1").selects [.eq "price" ":price"] nearItem = true := by
      decide
    have hreached : (priceQuery "1").reached [.eq "price" ":price"] 0 nearContents.items =
        [nearItem] := by
      change (priceQuery "1").reached [.eq "price" ":price"] 0 [nearItem] = _
      rw [Dto.QueryRequest.reached, if_pos hselects, if_neg (by decide), Dto.QueryRequest.reached]
    intro _ item hitem
    rw [hreached] at hitem
    cases hitem
  readable := by
    intro _ item hitem _
    obtain rfl := List.mem_singleton.mp hitem
    exact ⟨_, rfl⟩
  unexecuted := nofun

end Samples

end AwsMock.DynamoDb
