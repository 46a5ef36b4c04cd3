import AwsMock.Foundation.Contract
import AwsMock.Foundation.Tally
import AwsMock.DynamoDb.Laws

/-! # Item counters

Every table counts its items. A put adds one to the counter whether or not it
replaces an item, a delete takes one off a counter that no table has, and a
recount goes by the names of tables alone. The counters are right in a run whose
puts are of new items, whose deletes remove nothing and whose recounts find the
items of a name in one region.
-/

namespace AwsMock.DynamoDb

open Foundation Mapper

variable {Store : Type}

section Operations

variable (context : Context)

inductive Operation where
  | createTable (now : Time) (request : Dto.CreateTableRequest)
  | putItem (now : Time) (request : Dto.PutItemRequest)
  | deleteItem (now : Time) (request : Dto.DeleteItemRequest)
  | deleteAllItems (now : Time) (request : Dto.DeleteAllItemsRequest)
  | resetItemCounters

def Operation.run (db : Repository Store) : Operation → Call Mutex Store Unit
  | .createTable now request => do
      let _ ← Service.createTable context db now request
      return ()
  | .putItem now request => do
      let _ ← Service.putItem context db now request
      return ()
  | .deleteItem now request => do
      let _ ← Service.deleteItem db now request
      return ()
  | .deleteAllItems now request => Service.deleteAllItems context db now request
  | .resetItemCounters => Service.resetItemCounters db

def Operation.Counts (behaviour : Behaviour) (held : Contents) : Operation → Prop
  | .createTable _ _ => True
  | .putItem now request => ∀ item table, mapPutItemRequest now request = .ok item →
      held.tables.find? (Table.isNamed request.region request.tableName) = some table →
      ¬ behaviour.overwrites held table (Service.keyedItem context request table item)
  | .deleteItem now request => ∀ item table found, mapDeleteItemRequest now request = .ok item →
      held.items.any (behaviour.looksFor request.region request.tableName (.string "")
        (.string "")) = true →
      held.tables.find? (Table.isNamed request.region request.tableName) = some table →
      held.items.find? (behaviour.looksFor request.region request.tableName
        (.string (request.keys.stringValue table.getPartitionKeyName))
        (.string (request.keys.stringValue table.getSortKeyName))) = some found →
      ¬ behaviour.readable found
  | .deleteAllItems _ request =>
    (∃ table ∈ held.tables, table.isNamed request.region request.tableName = true) →
    ∀ item ∈ held.items, behaviour.removes request.region request.tableName item =
      item.isIn request.region request.tableName
  | .resetItemCounters => behaviour.recountable held

variable (db : Repository Store)

/-- One operation takes place. What it changed before it threw is kept. -/
def Step (before after : World Store) : Prop :=
  ∃ operation : Operation, after = ((operation.run context db).run [] before).after

def CountingStep (holds : World Store → Contents → Prop) (behaviour : Behaviour)
    (before after : World Store) : Prop :=
  ∃ operation : Operation, (∀ held, holds before held → operation.Counts context behaviour held) ∧
    after = ((operation.run context db).run [] before).after

end Operations

def Table.counter (table : Table) : (String × String) × Int := (tableKey table, table.items)

def Contents.tally (held : Contents) : Tally (String × String) :=
  ⟨held.tables.map Table.counter, held.items.map Item.place⟩

@[simp] theorem map_fst_counter (tables : List Table) :
    (tables.map Table.counter).map Prod.fst = tables.map tableKey := by
  rw [List.map_map]
  rfl
namespace Contents

variable {held : Contents} {region name : String}

theorem tally_addTable {table : Table} (hitems : table.items = 0) :
    (⟨held.tables ++ [table], held.items⟩ : Contents).tally = held.tally.opening (tableKey table) := by
  simp only [tally, Tally.opening, List.map_append, List.map_singleton, Table.counter, hitems]

theorem tally_dropTable :
    (⟨held.tables.filter fun table => !table.isNamed region name,
      held.items.filter fun item => !item.isIn region name⟩ : Contents).tally =
      held.tally.closing (region, name) := by
  simp only [tally, Tally.closing, List.filter_map]
  congr 2
  · apply List.filter_congr
    intro table _
    rw [Table.isNamed_eq, Function.comp_apply, Table.counter, decide_not]
  · apply List.filter_congr
    intro item _
    simp [Item.isIn_eq]

theorem tally_putItem (hdistinct : (held.tables.map tableKey).Nodup) {table : Table} {stored : Item}
    (hfind : held.tables.find? (Table.isNamed region name) = some table)
    (hplace : stored.place = (region, name)) {rewrite : Table → Table}
    (hrewrite : ∀ other, (rewrite other).counter = (tableKey table, table.items + 1)) :
    (⟨rewriteFirst (Table.isNamed region name) rewrite held.tables,
      held.items ++ [stored]⟩ : Contents).tally = held.tally.adding (region, name) := by
  have hkey : tableKey table = (region, name) := by
    have hnamed := List.find?_some hfind
    rwa [Table.isNamed_eq, decide_eq_true_eq] at hnamed
  simp only [tally, Tally.adding, List.map_append, List.map_singleton, hplace]
  congr 1
  rw [rewriteFirst_eq_map hdistinct, hfind, List.map_map, List.map_map]
  apply List.map_congr_left
  intro other hother
  simp only [Function.comp_apply, Option.map_some, Option.some.injEq, ← hkey]
  by_cases hsame : tableKey other = tableKey table
  · have heq : other = table :=
      List.inj_on_of_nodup_map hdistinct hother (List.mem_of_find?_eq_some hfind) hsame
    rw [if_pos hsame.symm, hrewrite, heq]
    exact (if_pos rfl).symm
  · rw [if_neg (Ne.symm hsame)]
    exact (if_neg hsame).symm

end Contents

section Steps

variable (context : Context) {db : Repository Store} {holds : World Store → Contents → Prop}
  {behaviour : Behaviour} (now : Time) {world : World Store} {held : Contents}

theorem Contents.count_tally (held : Contents) (region name : String) :
    held.tally.count (region, name) = held.items.countP (Item.isIn region name) := by
  rw [Tally.count_eq, tally, List.countP_map]
  apply List.countP_congr
  intro item _
  rw [Item.isIn_eq, Function.comp_apply]

theorem Contents.items_of_balanced {held : Contents} (hbalanced : held.tally.Balanced)
    {table : Table} (htable : table ∈ held.tables) :
    table.items = held.items.countP (Item.isIn table.region table.name) := by
  rw [← count_tally]
  exact hbalanced.counted table.counter (List.mem_map_of_mem htable)

theorem Contents.tally_unique {db : Repository Store} {holds : World Store → Contents → Prop}
    {behaviour : Behaviour} (hlawful : db.Lawful holds behaviour) {world : World Store}
    {first second : Contents} (hfirst : holds world first) (hsecond : holds world second) :
    first.tally = second.tally := by
  obtain ⟨htables, hitems⟩ := hlawful.unique hfirst hsecond
  rw [tally, tally]
  congr 1
  · rw [← List.forall₂_eq_eq_eq, List.forall₂_map_left_iff, List.forall₂_map_right_iff]
    refine htables.imp fun left right hsame => ?_
    rw [Table.counter, Table.counter, tableKey, tableKey, hsame.1.region, hsame.1.name, hsame.2]
  · rw [← List.forall₂_eq_eq_eq, List.forall₂_map_left_iff, List.forall₂_map_right_iff]
    refine hitems.imp fun left right hsame => ?_
    rw [Item.place, Item.place, hsame.1, hsame.2]

theorem Contents.distinct_of_balanced {held : Contents} (hbalanced : held.tally.Balanced) :
    (held.tables.map tableKey).Nodup := by
  rw [← map_fst_counter]
  exact hbalanced.distinct

def Balances (holds : World Store → Contents → Prop) (world : World Store) : Prop :=
  ∃ held, holds world held ∧ held.tally.Balanced

theorem not_any_of_balanced {tables : List Table} {table : Table}
    (hnone : tables.any (behaviour.finds (tableKey table).1 (tableKey table).2) = false)
    (hfinds : ∀ {region name table}, table.isNamed region name = true →
      behaviour.finds region name table = true) :
    tableKey table ∉ tables.map tableKey := by
  intro hmem
  obtain ⟨other, hother, hkey⟩ := List.mem_map.mp hmem
  have hnamed : other.isNamed (tableKey table).1 (tableKey table).2 = true := by
    rw [Table.isNamed_eq, hkey, decide_eq_true_eq]
  exact List.any_eq_false.mp hnone other hother (hfinds hnamed)

variable (hlawful : db.Lawful holds behaviour) (hholds : holds world held)
  (hbalanced : held.tally.Balanced)
include hlawful hholds hbalanced

theorem balances_createTable (request : Dto.CreateTableRequest) :
    Balances holds ((Service.createTable context db now request).run [] world).after := by
  cases hexists : held.tables.any (behaviour.finds request.region request.tableName) with
  | false =>
    obtain ⟨oid, created, modified, response, after, hrun, hafter⟩ :=
      Service.run_createTable context now hlawful hholds request fun table htable =>
        Bool.eq_false_iff.mpr (List.any_eq_false.mp hexists table htable)
    rw [hrun]
    refine ⟨_, hafter, ?_⟩
    rw [Contents.tally_addTable rfl]
    apply hbalanced.opening
    rw [Contents.tally, map_fst_counter]
    exact not_any_of_balanced hexists hlawful.finds_of_isNamed
  | true =>
    rw [Service.createTable, Action.run_bind, hlawful.tableExists hholds, hexists,
      Outcome.andThen_returns, if_pos rfl, Action.run_bind]
    cases hfind : held.tables.find? (Table.isNamed request.region request.tableName) with
    | none =>
      obtain ⟨message, hget⟩ := hlawful.getTable_missing hholds now hfind
      rw [hget]
      exact ⟨held, hholds, hbalanced⟩
    | some table =>
      obtain ⟨read, after, hget, hafter, -⟩ := hlawful.getTable_found hholds now hfind
      rw [hget]
      exact ⟨held, hafter, hbalanced⟩

theorem balances_requireTable {α : Type} {text region name : String}
    {rest : Call Mutex Store α} (hrest : Balances holds (rest.run [] world).after) :
    Balances holds ((do Service.requireTable db text region name; rest).run [] world).after := by
  rw [Action.run_bind]
  cases hexists : held.tables.any (behaviour.finds region name) with
  | true =>
    rw [Service.run_requireTable (by rw [hlawful.tableExists hholds, hexists])]
    exact hrest
  | false =>
    rw [Service.requireTable, Action.run_bind, hlawful.tableExists hholds, hexists]
    exact ⟨held, hholds, hbalanced⟩

omit hlawful hholds in
theorem run_countedTable (hcounting : db.Counting holds behaviour) {region name : String}
    {table read created stored : _} {after : World Store}
    (hfind : held.tables.find? (Table.isNamed region name) = some table)
    (hagrees : Table.Agrees read table) (hplace : Item.place stored = (region, name))
    (hafter : holds after { held with items := held.items ++ [stored] }) :
    ∃ result last, (db.updateTable now (Service.countedTable read created)).run [] after =
      .returns result last ∧ Balances holds last := by
  have hkey : tableKey table = (region, name) := by
    have hnamed := List.find?_some hfind
    rwa [Table.isNamed_eq, decide_eq_true_eq] at hnamed
  obtain ⟨result, last, rewrite, hupdate, hlast, hrewrite⟩ :=
    Service.run_countTable now hcounting hafter hfind hagrees created
  refine ⟨result, last, hupdate, _, hlast, ?_⟩
  have hcounter : ∀ other, (rewrite other).counter = (tableKey table, table.items + 1) := by
    intro other
    rw [Table.counter, tableKey, (hrewrite other).region, (hrewrite other).name,
      (hrewrite other).items, tableKey, ← hagrees.region, ← hagrees.name, ← hagrees.items]
    rfl
  rw [Contents.tally_putItem (Contents.distinct_of_balanced hbalanced) hfind hplace hcounter]
  apply hbalanced.adding
  rw [Contents.tally, map_fst_counter, ← hkey]
  exact List.mem_map_of_mem (List.mem_of_find?_eq_some hfind)

theorem balances_putItem (hcounting : db.Counting holds behaviour) (request : Dto.PutItemRequest)
    (hcounts : (Operation.putItem now request).Counts context behaviour held) :
    Balances holds ((Service.putItem context db now request).run [] world).after := by
  rw [Service.putItem]
  apply balances_requireTable hlawful hholds hbalanced
  rw [Service.catchJson, Action.after_run_rethrow, Action.run_bind]
  cases hmap : mapPutItemRequest now request with
  | error exn => exact ⟨held, hholds, hbalanced⟩
  | ok item =>
    rw [Call.run_ofExcept_ok, Outcome.andThen_returns, Action.run_bind]
    cases hfind : held.tables.find? (Table.isNamed request.region request.tableName) with
    | none =>
      obtain ⟨message, hget⟩ := hlawful.getTable_missing hholds now hfind
      rw [hget]
      exact ⟨held, hholds, hbalanced⟩
    | some table =>
      obtain ⟨read, found, hget, hfound, hagrees⟩ := hlawful.getTable_found hholds now hfind
      have hkeyed := Service.keyedItem_eq context hagrees.keySchema request item
      have hplace : (Service.keyedItem context request table item).place =
          (request.region, request.tableName) := by
        rw [← place_of_mapPutItemRequest hmap]
        rfl
      have hplaced : held.tables.find? (Table.isNamed
          (Service.keyedItem context request table item).region
          (Service.keyedItem context request table item).tableName) = some table := by
        injection hplace with hregion hname
        rw [hregion, hname]
        exact hfind
      rw [hget, Outcome.andThen_returns, Action.run_bind, hkeyed]
      rcases hcounting.putItem hfound now hplaced (hcounts item table hmap hfind) with
        ⟨stored, created, after, hput, hafter, hstored⟩ |
        ⟨exn, after, items, hput, hafter, hitems⟩
      · obtain ⟨result, last, hupdate, hlast⟩ := run_countedTable now
          hbalanced hcounting hfind hagrees (hstored.trans hplace) hafter
        rw [hput, Outcome.andThen_returns, Action.run_bind, hupdate]
        exact hlast
      · rw [hput]
        refine ⟨_, hafter, ?_⟩
        rw [Contents.tally, hitems]
        exact hbalanced

theorem balances_deleteItem (hcounting : db.Counting holds behaviour)
    (request : Dto.DeleteItemRequest)
    (hcounts : (Operation.deleteItem now request).Counts context behaviour held) :
    Balances holds ((Service.deleteItem db now request).run [] world).after := by
  rw [Service.deleteItem, Action.run_bind]
  cases hmap : mapDeleteItemRequest now request with
  | error exn => exact ⟨held, hholds, hbalanced⟩
  | ok item =>
    have hitem := hmap
    obtain ⟨attributes, -, hkeys⟩ := bind_eq_ok.mp hitem
    cases hkeys
    rw [Call.run_ofExcept_ok, Outcome.andThen_returns, Action.run_bind,
      hcounting.itemExists hholds, Outcome.andThen_returns]
    split
    next hexists =>
      rw [Service.catchJson, Action.after_run_rethrow, Action.run_bind]
      cases hfind : held.tables.find? (Table.isNamed request.region request.tableName) with
      | none =>
        obtain ⟨message, hget⟩ := hlawful.getTable_missing hholds now hfind
        rw [hget]
        exact ⟨held, hholds, hbalanced⟩
      | some table =>
        obtain ⟨read, found, hget, hfound, hagrees⟩ := hlawful.getTable_found hholds now hfind
        have hkey : ∀ keyType, read.keyName keyType = table.keyName keyType := by
          intro keyType
          rw [Table.keyName, Table.keyName, hagrees.keySchema]
        obtain ⟨exn, hmissing⟩ := hcounting.getItem_missing hfound now
          fun item hitem => hcounts _ table item hmap hexists hfind hitem
        rw [hget, Outcome.andThen_returns, Action.run_bind, Table.getPartitionKeyName,
          Table.getSortKeyName, hkey, hkey]
        rw [Table.getPartitionKeyName, Table.getSortKeyName] at hmissing
        rw [hmissing]
        exact ⟨held, hfound, hbalanced⟩
    next => exact ⟨held, hholds, hbalanced⟩

theorem balances_deleteAllItems (request : Dto.DeleteAllItemsRequest)
    (hcounts : (Operation.deleteAllItems now request).Counts context behaviour held) :
    Balances holds ((Service.deleteAllItems context db now request).run [] world).after := by
  rw [Service.deleteAllItems]
  apply balances_requireTable hlawful hholds hbalanced
  rw [Service.catchJson, Action.after_run_rethrow, Action.run_bind]
  by_cases hexists : ∃ table ∈ held.tables, table.isNamed request.region request.tableName = true
  · obtain ⟨response, deleted, hdelete, hdeleted⟩ :=
      Service.run_deleteTable now hlawful hholds hexists
    rw [List.filter_congr fun item hitem => congrArg not (hcounts hexists item hitem)] at hdeleted
    have hclosed : (held.tally.closing (request.region, request.tableName)).Balanced :=
      hbalanced.closing
    rw [← Contents.tally_dropTable] at hclosed
    rw [hdelete, Outcome.andThen_returns, Action.run_bind]
    have hcreate := balances_createTable context now hlawful hdeleted hclosed
      { region := request.region, tableName := request.tableName }
    revert hcreate
    cases (Service.createTable context db now _).run [] deleted with
    | returns value after => exact id
    | halts halt after => exact id
  · have hnone : ∀ table ∈ held.tables,
        table.isNamed request.region request.tableName = false := fun table htable =>
      Bool.eq_false_iff.mpr fun hnamed => hexists ⟨table, htable, hnamed⟩
    obtain ⟨exn, hdelete⟩ := Service.run_deleteTable_missing now hlawful hholds hnone
    rw [hdelete]
    exact ⟨held, hholds, hbalanced⟩

theorem run_resetItemCounters_iff (hcounting : db.Counting holds behaviour) :
    (∃ after left, (Service.resetItemCounters db).run [] world = .returns () after ∧
      holds after left ∧ left.tally = held.tally) ↔ behaviour.recountable held := by
  obtain ⟨after, tables, hrun, hafter, hcounted⟩ := hcounting.adjustItemCounters hholds
    (Contents.distinct_of_balanced hbalanced)
  have hreset : (Service.resetItemCounters db).run [] world = .returns () after :=
    Service.run_catchJson hrun
  rw [← hcounting.recount_eq_iff held]
  constructor
  · rintro ⟨other, left, hother, hleft, htally⟩ table htable
    rw [hreset] at hother
    injection hother with _ hworld
    subst hworld
    have hsame := congrArg Tally.counters
      ((Contents.tally_unique hlawful hafter hleft).trans htally)
    have hcounters : List.Forall₂ (fun new old => new.counter = old.counter) tables held.tables := by
      rw [← List.forall₂_map_left_iff (R := fun left old => left = Table.counter old),
        ← List.forall₂_map_right_iff, List.forall₂_eq_eq_eq]
      exact hsame
    obtain ⟨new, -, hrecount, hcounter⟩ :=
      exists_of_forall₂_right (forall₂_and hcounted hcounters) htable
    have hitems : new.items = table.items := congrArg Prod.snd hcounter
    rw [← Int.natCast_inj, ← hrecount.2, hitems, Contents.items_of_balanced hbalanced htable]
  · intro hrecount
    refine ⟨after, _, hreset, hafter, ?_⟩
    have hcounters : tables.map Table.counter = held.tally.counters := by
      apply hbalanced.eq_of_recount
      rw [Contents.tally, List.forall₂_map_left_iff, List.forall₂_map_right_iff]
      apply forall₂_mem_right hcounted
      intro new old hold hcount
      refine ⟨hcount.1, ?_⟩
      change new.items = (held.tally.count (old.region, old.name) : Int)
      rw [hcount.2, hrecount old hold, Contents.count_tally]
    rw [Contents.tally, hcounters, Contents.tally]

end Steps

section Runs

variable {context : Context} {db : Repository Store} {holds : World Store → Contents → Prop}
  {behaviour : Behaviour}

theorem Operation.balances (hlawful : db.Lawful holds behaviour)
    (hcounting : db.Counting holds behaviour) {operation : Operation} {world : World Store}
    {held : Contents} (hholds : holds world held) (hbalanced : held.tally.Balanced)
    (hcounts : operation.Counts context behaviour held) :
    Balances holds ((operation.run context db).run [] world).after := by
  cases operation with
  | createTable now request =>
    rw [Operation.run, Action.after_run_bind_pure]
    exact balances_createTable context now hlawful hholds hbalanced request
  | putItem now request =>
    rw [Operation.run, Action.after_run_bind_pure]
    exact balances_putItem context now hlawful hholds hbalanced hcounting request hcounts
  | deleteItem now request =>
    rw [Operation.run, Action.after_run_bind_pure]
    exact balances_deleteItem context now hlawful hholds hbalanced hcounting request hcounts
  | deleteAllItems now request =>
    exact balances_deleteAllItems context now hlawful hholds hbalanced request hcounts
  | resetItemCounters =>
    obtain ⟨after, left, hrun, hafter, htally⟩ :=
      (run_resetItemCounters_iff hlawful hholds hbalanced hcounting).mpr hcounts
    rw [Operation.run, hrun]
    exact ⟨left, hafter, by rwa [htally]⟩

/-- The counters count the items of their tables, and a recount changes none of
them exactly when it counts the items of every table. -/
structure CountersRight (db : Repository Store) (holds : World Store → Contents → Prop)
    (behaviour : Behaviour) (world : World Store) : Prop where
  readable : ∃ held, holds world held
  counted : ∀ held, holds world held → ∀ table ∈ held.tables,
    table.items = held.items.countP (Item.isIn table.region table.name)
  recounted : ∀ held, holds world held →
    ((∃ after left, (Service.resetItemCounters db).run [] world = .returns () after ∧
      holds after left ∧ left.tally = held.tally) ↔ behaviour.recountable held)

theorem countersRight_of_balances (hlawful : db.Lawful holds behaviour)
    (hcounting : db.Counting holds behaviour) {world : World Store}
    (hbalances : Balances holds world) : CountersRight db holds behaviour world := by
  obtain ⟨known, hknown, hbalanced⟩ := hbalances
  have hevery : ∀ held, holds world held → held.tally.Balanced := by
    intro held hholds
    rwa [Contents.tally_unique hlawful hholds hknown]
  constructor
  · exact ⟨known, hknown⟩
  · intro held hholds table htable
    exact Contents.items_of_balanced (hevery held hholds) htable
  · intro held hholds
    exact run_resetItemCounters_iff hlawful hholds (hevery held hholds) hcounting

theorem countersRight_of_run (hlawful : db.Lawful holds behaviour)
    (hcounting : db.Counting holds behaviour) {first last : World Store}
    (hempty : holds first ⟨[], []⟩)
    (hrun : Relation.ReflTransGen (CountingStep context db holds behaviour) first last) :
    CountersRight db holds behaviour last := by
  apply countersRight_of_balances hlawful hcounting
  apply of_reflTransGen ?_ hrun
  · exact ⟨_, hempty, Tally.balanced_empty⟩
  · rintro before after ⟨operation, hcounts, rfl⟩ ⟨held, hholds, hbalanced⟩
    exact Operation.balances hlawful hcounting hholds hbalanced (hcounts held hholds)

end Runs

section Repositories

def emptyMemory (draws : Nat) : World MemoryStore := ⟨⟨.empty, .empty⟩, draws⟩

def emptyMongo (draws : Nat) : World MongoStore := ⟨⟨[], []⟩, draws⟩

theorem holds_emptyMemory (random : RandomSource) (draws : Nat) :
    MemoryRepository.Holds random (emptyMemory draws) ⟨[], []⟩ where
  contents_eq := rfl
  drawn _ hkey := absurd hkey List.not_mem_nil

theorem holds_emptyMongo (random : RandomSource) (draws : Nat) :
    MongoRepository.Holds random (emptyMongo draws) ⟨[], []⟩ where
  tables := rfl
  items := List.Forall₂.nil
  drawn _ hitem := absurd hitem List.not_mem_nil
  nodup := List.nodup_nil

variable (context : Context) (random : RandomSource) (draws : Nat)

/-- The counters of both repositories after any run that counts what it changes. -/
theorem countersRight_of_reaches :
    (∀ world, Relation.ReflTransGen (CountingStep context (memoryRepository random)
        (MemoryRepository.Holds random) memoryBehaviour) (emptyMemory draws) world →
      CountersRight (memoryRepository random) (MemoryRepository.Holds random) memoryBehaviour
        world) ∧
    ∀ world, Relation.ReflTransGen (CountingStep context (mongoRepository random)
        (MongoRepository.Holds random) mongoBehaviour) (emptyMongo draws) world →
      CountersRight (mongoRepository random) (MongoRepository.Holds random) mongoBehaviour
        world := by
  constructor
  · intro world hrun
    exact countersRight_of_run (memoryRepository_lawful random) (memoryRepository_counting random)
      (holds_emptyMemory random draws) hrun
  · intro world hrun
    exact countersRight_of_run (mongoRepository_lawful random) (mongoRepository_counting random)
      (holds_emptyMongo random draws) hrun

def makeOrders : Operation :=
  .createTable 0
    { region := "eu-central-1", tableName := "orders", keySchema := [⟨"id", "HASH"⟩] }

def putOrder : Operation :=
  .putItem 0 { region := "eu-central-1", tableName := "orders", attributes := [("id", .s "1")] }

def afterOperation {Store : Type} (db : Repository Store) (operation : Operation) (world : World Store) :
    World Store :=
  ((operation.run sampleContext db).run [] world).after

def memoryWithOrder : World MemoryStore :=
  afterOperation (memoryRepository .growing) putOrder
    (afterOperation (memoryRepository .growing) makeOrders (emptyMemory 0))

def mongoWithOrder : World MongoStore :=
  afterOperation (mongoRepository .growing) putOrder
    (afterOperation (mongoRepository .growing) makeOrders (emptyMongo 0))

theorem countersRight_withOrder :
    CountersRight (memoryRepository .growing) (MemoryRepository.Holds .growing) memoryBehaviour
        memoryWithOrder ∧
      CountersRight (mongoRepository .growing) (MongoRepository.Holds .growing) mongoBehaviour
        mongoWithOrder := by
  have hright := countersRight_of_reaches sampleContext .growing 0
  constructor
  · apply hright.1
    apply (Relation.ReflTransGen.single ⟨makeOrders, fun _ _ => trivial, rfl⟩).tail
    refine ⟨putOrder, ?_, rfl⟩
    rintro held hholds item table - - ⟨other, hother, -⟩
    rw [← hholds.contents_eq] at hother
    exact List.not_mem_nil hother
  · apply hright.2
    apply (Relation.ReflTransGen.single ⟨makeOrders, fun _ _ => trivial, rfl⟩).tail
    refine ⟨putOrder, ?_, rfl⟩
    rintro held hholds item table - - ⟨⟨other, hother, -⟩, -⟩
    rw [List.forall₂_nil_right_iff.mp hholds.items] at hother
    exact List.not_mem_nil hother

theorem not_counted_putOrder :
    ¬ ∀ world, Relation.ReflTransGen (Step sampleContext (memoryRepository .growing))
        (emptyMemory 0) world →
      ∀ held, MemoryRepository.Holds .growing world held → ∀ table ∈ held.tables,
        table.items = held.items.countP (Item.isIn table.region table.name) := by
  intro hcounted
  let twice := afterOperation (memoryRepository .growing) putOrder memoryWithOrder
  have hrun : Relation.ReflTransGen (Step sampleContext (memoryRepository .growing))
      (emptyMemory 0) twice :=
    ((Relation.ReflTransGen.single ⟨makeOrders, rfl⟩).tail ⟨putOrder, rfl⟩).tail ⟨putOrder, rfl⟩
  have hholds : MemoryRepository.Holds .growing twice (MemoryRepository.contents twice.store) := by
    refine ⟨rfl, fun key hkey => ?_⟩
    change key ∈ [RandomSource.growing.uuid 0, RandomSource.growing.uuid 1] at hkey
    rw [List.mem_pair] at hkey
    rcases hkey with rfl | rfl
    · exact ⟨0, Nat.zero_lt_two, rfl⟩
    · exact ⟨1, Nat.one_lt_two, rfl⟩
  have htwo := hcounted twice hrun _ hholds _ List.mem_cons_self
  change (2 : Int) = 1 at htwo
  cases htwo

end Repositories

end AwsMock.DynamoDb
