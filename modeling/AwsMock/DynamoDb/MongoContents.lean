import AwsMock.Foundation.KeyedList
import AwsMock.DynamoDb.StoredContents

/-! # What the MongoDB repository holds

The tables and items the documents of a store were written from, and what the
functions of `DynamoDbMongoRepository` do to them.
-/

namespace AwsMock.DynamoDb

open Foundation BsonUtils

namespace MongoRepository

/-- The store has these contents, and its object ids were drawn, each for one item. -/
structure Holds (random : RandomSource) (world : World MongoStore) (held : Contents) : Prop where
  tables : world.store.tables = held.tables.map Table.document
  items : List.Forall₂ Item.StoredAs held.items world.store.items
  drawn : ∀ item ∈ held.items, ∃ draw < world.draws, item.oid = random.uuid draw
  nodup : (held.items.map Item.oid).Nodup

/-- Whether a table is found by `tableExists`. -/
def findsTable (region tableName : String) (table : Table) : Bool :=
  (region = "" || table.region = region) && (tableName = "" || table.name = tableName)

section Reads

variable {random : RandomSource} {world : World MongoStore} {held : Contents}

theorem anyDocument_eq (filter : Filter) (collection : Collection) :
    anyDocument filter collection = collection.any filter.accepts := by
  rw [anyDocument, Bool.eq_iff_iff, decide_eq_true_eq, List.any_eq_true]
  have hcount : 0 < collection.countDocuments filter ↔ ∃ document ∈ collection,
      filter.accepts document = true := List.countP_pos_iff
  rw [← hcount]
  omega

variable (hholds : Holds random world held)
include hholds

variable (region tableName : String)

theorem Holds.tableExists :
    (tableExists region tableName).run [] world =
      .returns (held.tables.any (findsTable region tableName)) world := by
  simp only [MongoRepository.tableExists, Action.run_bind, readTables, Call.run_readStore,
    Outcome.andThen_returns, Action.run_pure, anyDocument_eq, hholds.tables, List.any_map]
  congr 2
  funext table
  simp only [Function.comp_apply, accepts_append, accepts_unlessEmpty,
    table.get?_document_region, table.get?_document_name, Condition.holds, Value.is_scalar,
    Scalar.string.injEq, findsTable]

theorem Holds.findOne_table (region name : String) :
    world.store.tables.findOne (tableFilter region name) =
      (held.tables.find? (Table.isNamed region name)).map Table.document := by
  rw [Collection.findOne, hholds.tables, List.find?_map]
  congr 2
  funext table
  exact accepts_tableFilter region name table

theorem Holds.getTable_found (now : Time)
    {region name : String} {table : Table}
    (hfind : held.tables.find? (Table.isNamed region name) = some table) :
    (getTableByRegionName now region name).run [] world = .returns table.reread world := by
  simp only [getTableByRegionName, Action.run_bind, readTables, Call.run_readStore,
    Outcome.andThen_returns, hholds.findOne_table, hfind, Option.map_some,
    Table.fromDocument_fresh, Call.run_ofExcept_ok]

theorem Holds.getTable_missing (now : Time)
    {region name : String} (hfind : held.tables.find? (Table.isNamed region name) = none) :
    (getTableByRegionName now region name).run [] world =
      .halts (.exception (.database "Database exception, Table not found ")) world := by
  simp only [getTableByRegionName, Action.run_bind, readTables, Call.run_readStore,
    Outcome.andThen_returns, hholds.findOne_table, hfind, Option.map_none, Action.run_raise]

theorem Holds.listItems (now : Time) (region tableName : String) :
    (listItems now region tableName).run [] world =
      (Call.ofExcept ((held.items.filter (Item.isListed region tableName)).mapM Item.reread) :
        MongoCall _).run [] world := by
  have hrelated : List.Forall₂ Item.StoredAs (held.items.filter (Item.isListed region tableName))
      (world.store.items.find (placeFilter region tableName)) :=
    forall₂_filter hholds.items fun item document hstored =>
      (accepts_placeFilter hstored region tableName).symm
  have hread : (world.store.items.find (placeFilter region tableName)).mapM
      (Item.fresh now).fromDocument =
      (held.items.filter (Item.isListed region tableName)).mapM Item.reread := by
    revert hrelated
    generalize world.store.items.find (placeFilter region tableName) = documents
    generalize held.items.filter (Item.isListed region tableName) = items
    intro hrelated
    induction hrelated with
    | nil => rfl
    | cons hstored _ ih => rw [List.mapM_cons, List.mapM_cons, hstored.fromDocument_eq, ih]
  simp only [MongoRepository.listItems, Action.run_bind, readItems, Call.run_readStore,
    Outcome.andThen_returns, readItemList, hread]

theorem Holds.countItems :
    (countItems region tableName).run [] world =
      .returns (held.items.countP (Item.isListed region tableName) : Nat) world := by
  have hcount : world.store.items.countDocuments (placeFilter region tableName) =
      held.items.countP (Item.isListed region tableName) :=
    (forall₂_countP hholds.items fun item document hstored =>
      (accepts_placeFilter hstored region tableName).symm).symm
  simp only [MongoRepository.countItems, Action.run_bind, readItems, Call.run_readStore,
    Outcome.andThen_returns, Action.run_pure, hcount]

end Reads

section Writes

variable {random : RandomSource} {world : World MongoStore} {held : Contents}

section

variable (hholds : Holds random world held)
include hholds

theorem Holds.withTables {tables : List Table} {draws : Nat} (hdraws : world.draws ≤ draws) :
    Holds random ⟨{ world.store with tables := tables.map Table.document }, draws⟩
      { held with tables } where
  tables := rfl
  items := hholds.items
  drawn := by
    intro item hitem
    obtain ⟨draw, hdraw, heq⟩ := hholds.drawn item hitem
    exact ⟨draw, Nat.lt_of_lt_of_le hdraw hdraws, heq⟩
  nodup := hholds.nodup

theorem Holds.createTable (now : Time) (table : Table) :
    ∃ after, (createTable random now table).run [] world =
        .returns { table with created := now, modified := now, oid := random.uuid world.draws }
          after ∧
      Holds random after { held with tables := held.tables ++
        [{ table with created := now, modified := now, oid := random.uuid world.draws }] } := by
  refine ⟨_, ?_, hholds.withTables (Nat.le_succ _)⟩
  simp only [MongoRepository.createTable, Action.run_bind, Call.run_draw,
    Outcome.andThen_returns, readTables, Call.run_readStore, writeTables, Call.run_writeStore,
    Action.run_pure, Collection.insertOne, hholds.tables, List.map_append, List.map_cons,
    List.map_nil]
  rfl

theorem Holds.updateTable (now : Time) {table old : Table}
    (hfind : held.tables.find? (Table.isNamed table.region table.name) = some old) :
    ∃ after, (updateTable now table).run [] world =
        .returns { table.reread with modified := now, oid := old.oid } after ∧
      Holds random after { held with
        tables := rewriteFirst (Table.isNamed table.region table.name)
          (fun other => { table with modified := now, oid := other.oid }) held.tables } := by
  have hreplaced : world.store.tables.findOneAndReplace (tableFilter table.region table.name)
      (Table.toDocument { table with modified := now }) =
      (some (Table.document { table with modified := now, oid := old.oid }),
        (rewriteFirst (Table.isNamed table.region table.name)
          (fun other => { table with modified := now, oid := other.oid })
          held.tables).map Table.document) := by
    rw [Collection.findOneAndReplace, hholds.findOne_table, hfind]
    refine Prod.ext rfl ?_
    rw [hholds.tables]
    symm
    apply map_rewriteFirst
    · intro other _
      exact accepts_tableFilter _ _ other
    · intro other _ _
      rfl
  refine ⟨_, ?_, hholds.withTables (Nat.le_refl _)⟩
  have hread : Table.fromDocument { table with modified := now }
      (Table.document { table with modified := now, oid := old.oid }) =
      .ok { table.reread with modified := now, oid := old.oid } :=
    Table.fromDocument_self old.oid { table with modified := now }
  simp only [MongoRepository.updateTable, Action.run_bind, readTables, Call.run_readStore,
    Outcome.andThen_returns, writeTables, Call.run_writeStore, hreplaced, hread,
    Call.run_ofExcept_ok]

theorem Holds.deleteTable (region tableName : String) :
    ∃ after, (deleteTable region tableName).run [] world = .returns () after ∧
      Holds random after { held with
        tables := held.tables.filter fun table => !table.isNamed region tableName } := by
  refine ⟨_, ?_, hholds.withTables (Nat.le_refl _)⟩
  simp only [MongoRepository.deleteTable, Action.run_bind, Outcome.andThen_returns, readTables,
    Call.run_readStore, writeTables, Call.run_writeStore, Collection.deleteMany, hholds.tables,
    List.filter_map, Function.comp_def, accepts_tableFilter]

end

theorem updateOne_tables (tables : List Table) (tableName : String) (update : Update) :
    Collection.updateOne [fieldIs "tableName" tableName] update (tables.map Table.document) =
      tables.map Table.document := by
  apply rewriteFirst_of_none
  intro document hdocument
  obtain ⟨table, -, rfl⟩ := List.mem_map.mp hdocument
  simp [fieldIs, table.get?_document_tableName, Condition.holds]

theorem Holds.filterItems (hholds : Holds random world held) {select : Item → Bool}
    {accepts : Document → Bool}
    (haccepts : ∀ item document, Item.StoredAs item document → select item = accepts document) :
    Holds random ⟨{ world.store with items := world.store.items.filter accepts }, world.draws⟩
      { held with items := held.items.filter select } where
  tables := hholds.tables
  items := forall₂_filter hholds.items haccepts
  drawn item hitem := hholds.drawn item (List.mem_of_mem_filter hitem)
  nodup := hholds.nodup.sublist (List.filter_sublist.map Item.oid)

theorem Holds.deleteItems (hholds : Holds random world held) (now : Time)
    (region tableName : String) :
    ∃ after, (deleteItems now region tableName).run [] world =
        .returns (held.items.countP (Item.isDeletedWith tableName) : Nat) after ∧
      Holds random after { held with
        items := held.items.filter fun item => !item.isDeletedWith tableName } := by
  refine ⟨_, ?_, hholds.filterItems fun item document hstored =>
    congrArg not (accepts_tableName hstored tableName).symm⟩
  have hcount : world.store.items.countDocuments [fieldIs "tableName" tableName] =
      held.items.countP (Item.isDeletedWith tableName) :=
    (forall₂_countP hholds.items fun item document hstored =>
      (accepts_tableName hstored tableName).symm).symm
  simp only [MongoRepository.deleteItems, Action.run_bind, readItems, Call.run_readStore,
    Outcome.andThen_returns, writeItems, Call.run_writeStore, readTables, writeTables,
    Action.run_pure, hholds.tables, updateOne_tables, hcount]
  rfl

end Writes

section Items

variable {random : RandomSource} {world : World MongoStore} {held : Contents}

theorem Holds.itemExists (hholds : Holds random world held) (item : Item) :
    (itemExists item).run [] world = .returns (held.items.any
        (Item.isFound item.region item.tableName item.partitionKey item.sortKey)) world := by
  have hany := forall₂_any hholds.items fun other document hstored =>
    (accepts_itemFilter hstored item.region item.tableName item.partitionKey item.sortKey).symm
  simp only [MongoRepository.itemExists, Action.run_bind, readItems, Call.run_readStore,
    Outcome.andThen_returns, Action.run_pure, anyDocument_eq, ← hany]

theorem Holds.getItem (hholds : Holds random world held) (now : Time)
    (region tableName : String) (partitionKey sortKey : KeyValue) :
    (getItemByKeys now region tableName partitionKey sortKey).run [] world =
      match held.items.find? (Item.isFound region tableName partitionKey sortKey) with
      | some item => (Call.ofExcept item.reread : MongoCall Item).run [] world
      | none => .halts (.exception (.database ("Database exception, item not found, region: " ++
          region ++ ", tableName: " ++ tableName))) world := by
  have hrelated := forall₂_find? hholds.items fun other document hstored =>
    (accepts_itemFilter hstored region tableName partitionKey sortKey).symm
  simp only [getItemByKeys, Action.run_bind, readItems, Call.run_readStore, Outcome.andThen_returns]
  rw [Collection.findOne]
  revert hrelated
  generalize held.items.find? (Item.isFound region tableName partitionKey sortKey) = found
  generalize List.find? _ world.store.items = document
  intro hrelated
  cases hrelated with
  | some hstored =>
    simp only
    rw [hstored.fromDocument_eq]
  | none => rfl

variable {documents : Collection} {partitionKey sortKey : KeyValue} {document : Document}
variable {fields : Document} {table : Table}

theorem forall₂_replaceById {items : List Item} {old replaced : Item}
    (hrelated : List.Forall₂ Item.StoredAs items documents)
    (hreplaced : replaced.StoredAs (withObjectId old.oid document)) :
    List.Forall₂ Item.StoredAs
      (rewriteFirst (fun other => other.oid = old.oid) (fun _ => replaced) items)
      (documents.findOneAndReplace [idIs old.oid] document).2 := by
  refine forall₂_rewriteFirst hrelated
    (fun item document hstored => (accepts_idIs hstored old.oid).symm) ?_
  intro item other hstored haccepts
  rw [accepts_idIs hstored, decide_eq_true_eq] at haccepts
  simp only [hstored.oid, haccepts]
  exact hreplaced

theorem findOneAndReplace_fst {items : List Item} {old : Item}
    (hrelated : List.Forall₂ Item.StoredAs items documents)
    (hold : old ∈ items) :
    (documents.findOneAndReplace [idIs old.oid] document).1 =
      some (withObjectId old.oid document) := by
  have hfind := forall₂_find? hrelated fun item other hstored =>
    (accepts_idIs hstored old.oid).symm
  obtain ⟨found, hfound⟩ : ∃ found,
      items.find? (fun other => decide (other.oid = old.oid)) = some found :=
    Option.isSome_iff_exists.mp (List.find?_isSome.mpr ⟨old, hold, decide_eq_true rfl⟩)
  rw [hfound] at hfind
  rw [Collection.findOneAndReplace, Collection.findOne]
  revert hfind
  generalize List.find? _ documents = stored
  intro hfind
  cases hfind with
  | some hstored =>
    have hoid : found.oid = old.oid := by simpa using List.find?_some hfound
    simp only [Option.map_some, hstored.oid, hoid]
    rfl

theorem Holds.replaceItems (hholds : Holds random world held) {old replaced : Item}
    (hrelated : List.Forall₂ Item.StoredAs (rewriteFirst (fun other => other.oid = old.oid)
        (fun _ => { replaced with oid := old.oid }) held.items) documents) :
    Holds random ⟨{ world.store with items := documents }, world.draws⟩
      { held with
        items := rewriteFirst (fun other => other.oid = old.oid)
          (fun _ => { replaced with oid := old.oid }) held.items } where
  tables := hholds.tables
  items := hrelated
  drawn := by
    intro item hitem
    rcases of_mem_rewriteFirst hitem with hmem | ⟨other, hother, hselect, rfl⟩
    · exact hholds.drawn item hmem
    · rw [decide_eq_true_eq] at hselect
      have hdrawn := hholds.drawn other hother
      rwa [hselect] at hdrawn
  nodup := by
    rw [map_rewriteFirst_of_preserved Item.oid]
    · exact hholds.nodup
    · intro other _ hselect
      exact (of_decide_eq_true hselect).symm

theorem Holds.addItem (hholds : Holds random world held) {item : Item}
    (hdocument : item.toDocument = .ok document) :
    Holds random ⟨{ world.store with
          items := world.store.items.insertOne
            (withObjectId (random.uuid world.draws) document) }, world.draws + 1⟩
      { held with items := held.items ++ [{ item with oid := random.uuid world.draws }] } where
  tables := hholds.tables
  items := List.rel_append hholds.items
    (List.Forall₂.cons (Item.storedAs_toDocument _ hdocument) List.Forall₂.nil)
  drawn := by
    intro other hother
    rcases List.mem_append.mp hother with hold | hnew
    · obtain ⟨draw, hdraw, heq⟩ := hholds.drawn other hold
      exact ⟨draw, Nat.lt_succ_of_lt hdraw, heq⟩
    · rw [List.mem_singleton.mp hnew]
      exact ⟨world.draws, Nat.lt_succ_self _, rfl⟩
  nodup := by
    rw [List.map_append, List.nodup_append]
    refine ⟨hholds.nodup, List.nodup_singleton _, ?_⟩
    intro oid hold last hlast heq
    obtain ⟨other, hother, rfl⟩ := List.mem_map.mp hold
    obtain ⟨draw, hdraw, hdrawn⟩ := hholds.drawn other hother
    rw [List.map_singleton, List.mem_singleton] at hlast
    subst hlast
    exact absurd (random.uuid_injective (hdrawn.symm.trans heq)) (Nat.ne_of_lt hdraw)

theorem exists_toDocument (item : Item) (hfields : toBsonMap item.attributes = .ok fields) :
    ∃ document, item.toDocument = .ok document := by
  refine ⟨_, mapError_eq_ok.mpr (bind_eq_ok.mpr ⟨fields, hfields, rfl⟩)⟩

theorem toDocument_error (item : Item) (hfields : ∀ fields, toBsonMap item.attributes ≠ .ok fields) :
    ∃ exn, item.toDocument = .error exn := by
  cases hdocument : item.toDocument with
  | error exn => exact ⟨exn, rfl⟩
  | ok document =>
    rw [Item.toDocument, mapError_eq_ok, Item.writeDocument, bind_eq_ok] at hdocument
    obtain ⟨fields, hwritten, -⟩ := hdocument
    exact absurd hwritten (hfields fields)

theorem Holds.createItem_ok (hholds : Holds random world held) (now : Time) (item : Item)
    (hfields : toBsonMap item.attributes = .ok fields) :
    ∃ size after, (createItem random now item).run [] world =
        .returns { item with created := now, size, oid := random.uuid world.draws } after ∧
      Holds random after { held with items := held.items ++
        [{ item with created := now, oid := random.uuid world.draws }] } := by
  obtain ⟨document, hdocument⟩ := exists_toDocument { item with created := now } hfields
  refine ⟨bsonSize document + 8, _, ?_, hholds.addItem hdocument⟩
  simp only [MongoRepository.createItem, hdocument, Action.run_bind, Call.run_ofExcept_ok,
    Outcome.andThen_returns, Call.run_draw, readItems, Call.run_readStore, writeItems,
    Call.run_writeStore, Action.run_pure]

theorem Holds.createItem (hholds : Holds random world held) (now : Time) (item : Item) :
    (∃ size after, (createItem random now item).run [] world =
        .returns { item with created := now, size, oid := random.uuid world.draws } after ∧
      Holds random after { held with items := held.items ++
        [{ item with created := now, oid := random.uuid world.draws }] }) ∨
    ∃ exn, (createItem random now item).run [] world = .halts (.exception exn) world := by
  by_cases hwritable : ∃ fields, toBsonMap item.attributes = .ok fields
  · obtain ⟨fields, hfields⟩ := hwritable
    exact Or.inl (hholds.createItem_ok now item hfields)
  · right
    obtain ⟨exn, hdocument⟩ := toDocument_error { item with created := now }
      fun fields hfields => hwritable ⟨fields, hfields⟩
    refine ⟨exn, ?_⟩
    simp only [MongoRepository.createItem, hdocument, Action.run_bind, Call.run_ofExcept_error,
      Outcome.andThen_halts]

theorem typedKeys_place {item keyed : Item}
    (hkeys : typedKeys table item = .ok (partitionKey, sortKey, keyed)) :
    keyed = { item with attributes := keyed.attributes } := by
  have hwith : ∀ (name : String) (other : Item),
      other.withAttribute name = { other with attributes := (other.withAttribute name).attributes } := by
    intro name other
    rw [Item.withAttribute]
    split <;> rfl
  rw [typedKeys, bind_eq_ok] at hkeys
  obtain ⟨first, -, hrest⟩ := hkeys
  split at hrest
  · obtain ⟨second, -, hresult⟩ := bind_eq_ok.mp hrest
    cases hresult
    rw [hwith, hwith table.getPartitionKeyName]
  · cases hrest
    rw [hwith]

structure Replaces (held : Contents) (table : Table) (item : Item) (old replaced : Item) :
    Prop where
  found : ∃ partitionKey sortKey keyed, typedKeys table item = .ok (partitionKey, sortKey, keyed) ∧
    held.items.find? (Item.isFound item.region item.tableName partitionKey sortKey) = some old ∧
    replaced = { old with
      modified := item.modified, attributes := keyed.attributes, size := replaced.size }
  readable : ∃ read, old.reread = .ok read
  writable : ∃ fields, toBsonMap replaced.attributes = .ok fields

variable (hholds : Holds random world held)
include hholds

theorem Holds.replaceItem_found (now : Time) {item keyed old : Item}
    (hfind : held.tables.find? (Table.isNamed item.region item.tableName) = some table)
    (hkeys : typedKeys table { item with modified := now } = .ok (partitionKey, sortKey, keyed))
    (hold : held.items.find? (Item.isFound item.region item.tableName partitionKey sortKey) = some old)
    (hreadable : ∃ read, old.reread = .ok read) (hfields : toBsonMap keyed.attributes = .ok fields) :
    ∃ replaced after, replaced = { old with
        modified := now, attributes := keyed.attributes, size := replaced.size } ∧
      (replaceItem now item).run [] world =
        (Call.ofExcept replaced.reread : MongoCall Item).run [] after ∧
      Holds random after { held with
        items := rewriteFirst (fun other => other.oid = old.oid) (fun _ => replaced) held.items } := by
  have htable : (getTableByRegionName now item.region item.tableName).run [] world =
      .returns table.reread world := hholds.getTable_found now hfind
  have htyped : typedKeys table.reread { item with modified := now } =
      .ok (partitionKey, sortKey, keyed) := hkeys
  have hkeyed := typedKeys_place hkeys
  have hregion : keyed.region = item.region := by rw [hkeyed]
  have htableName : keyed.tableName = item.tableName := by rw [hkeyed]
  obtain ⟨read, hread⟩ := hreadable
  obtain ⟨attributes, -, rfl⟩ := Item.reread_eq_ok.mp hread
  obtain ⟨first, hfirst⟩ := exists_toDocument
    { old with attributes := keyed.attributes, modified := now } hfields
  obtain ⟨second, hsecond⟩ := exists_toDocument
    { old with attributes := keyed.attributes, modified := now, size := bsonSize first + 8 } hfields
  have hstored := Item.storedAs_toDocument old.oid hsecond
  refine ⟨{ old with
      attributes := keyed.attributes, modified := now, size := bsonSize first + 8 },
    ⟨{ world.store with
      items := (world.store.items.findOneAndReplace [idIs old.oid] second).2 }, world.draws⟩,
    rfl, ?_, hholds.replaceItems (forall₂_replaceById hholds.items hstored)⟩
  rw [MongoRepository.replaceItem, Action.run_bind, htable, Outcome.andThen_returns, htyped,
    Action.run_bind, Call.run_ofExcept_ok, Outcome.andThen_returns]
  simp only [Action.run_bind]
  rw [hregion, htableName, hholds.getItem, hold]
  simp only [hread, Call.run_ofExcept_ok, Outcome.andThen_returns, hfirst, hsecond, readItems,
    Call.run_readStore, writeItems, Call.run_writeStore,
    findOneAndReplace_fst hholds.items (List.mem_of_find?_eq_some hold), hstored.fromDocument_eq]

theorem Holds.replaceItem (now : Time) {item : Item}
    (hfind : held.tables.find? (Table.isNamed item.region item.tableName) = some table) :
    (∃ exn, (replaceItem now item).run [] world = .halts (.exception exn) world) ∨
    ∃ old replaced after, Replaces held table { item with modified := now } old replaced ∧
      (replaceItem now item).run [] world =
        (Call.ofExcept replaced.reread : MongoCall Item).run [] after ∧
      Holds random after { held with
        items := rewriteFirst (fun other => other.oid = old.oid) (fun _ => replaced) held.items } := by
  have htable : (getTableByRegionName now item.region item.tableName).run [] world =
      .returns table.reread world := hholds.getTable_found now hfind
  have htyped : typedKeys table.reread { item with modified := now } =
      typedKeys table { item with modified := now } := rfl
  cases hkeys : typedKeys table { item with modified := now } with
  | error exn =>
    rw [MongoRepository.replaceItem, Action.run_bind, htable, Outcome.andThen_returns, htyped,
      Action.run_bind, hkeys]
    exact Or.inl ⟨exn, rfl⟩
  | ok keys =>
    obtain ⟨partitionKey, sortKey, keyed⟩ := keys
    have hkeyed := typedKeys_place hkeys
    have hregion : keyed.region = item.region := by rw [hkeyed]
    have htableName : keyed.tableName = item.tableName := by rw [hkeyed]
    by_cases hfound : ∃ old fields, held.items.find?
        (Item.isFound item.region item.tableName partitionKey sortKey) = some old ∧
        (∃ read, old.reread = .ok read) ∧ toBsonMap keyed.attributes = .ok fields
    · obtain ⟨old, fields, hold, hreadable, hfields⟩ := hfound
      obtain ⟨replaced, after, hreplaced, hrun, hafter⟩ :=
        hholds.replaceItem_found now hfind hkeys hold hreadable hfields
      refine Or.inr ⟨old, replaced, after, ⟨⟨partitionKey, sortKey, keyed, hkeys, hold, hreplaced⟩,
        hreadable, fields, ?_⟩, hrun, hafter⟩
      rw [hreplaced]
      exact hfields
    · left
      rw [MongoRepository.replaceItem, Action.run_bind, htable, Outcome.andThen_returns, htyped,
        Action.run_bind, hkeys, Call.run_ofExcept_ok, Outcome.andThen_returns]
      simp only [Action.run_bind]
      rw [hregion, htableName, hholds.getItem]
      cases hold : held.items.find?
          (Item.isFound item.region item.tableName partitionKey sortKey) with
      | none => exact ⟨_, rfl⟩
      | some old =>
        cases hread : old.reread with
        | error exn =>
          simp only [hread, Call.run_ofExcept_error, Outcome.andThen_halts]
          exact ⟨exn, rfl⟩
        | ok read =>
          obtain ⟨attributes, -, rfl⟩ := Item.reread_eq_ok.mp hread
          obtain ⟨exn, hdocument⟩ := toDocument_error
            { old with attributes := keyed.attributes, modified := now }
            fun fields hfields => hfound ⟨old, fields, hold, ⟨_, hread⟩, hfields⟩
          refine ⟨exn, ?_⟩
          simp only [hread, Call.run_ofExcept_ok, Outcome.andThen_returns, hdocument,
            Call.run_ofExcept_error, Outcome.andThen_halts]

theorem Holds.deleteItem (now : Time) {region tableName : String}
    {partitionKey sortKey : String} {old : Item}
    (hold : held.items.find? (Item.isFound region tableName (.string partitionKey)
      (.string sortKey)) = some old) (hreadable : ∃ read, old.reread = .ok read) :
    ∃ after, (deleteItem now region tableName partitionKey sortKey).run [] world =
        .returns () after ∧
      Holds random after { held with items := removeKey Item.oid old.oid held.items } := by
  obtain ⟨read, hread⟩ := hreadable
  obtain ⟨attributes, -, rfl⟩ := Item.reread_eq_ok.mp hread
  have hget := hholds.getItem now region tableName (.string partitionKey) (.string sortKey)
  rw [hold] at hget
  change _ = (Call.ofExcept old.reread : MongoCall Item).run [] world at hget
  rw [hread, Call.run_ofExcept_ok] at hget
  refine ⟨⟨{ world.store with items := world.store.items.deleteOne [idIs old.oid] }, world.draws⟩,
    ?_, ?_⟩
  · rw [MongoRepository.deleteItem, Action.run_bind, hget]
    simp only [Outcome.andThen_returns, Action.run_bind, readItems, Call.run_readStore, writeItems,
      Call.run_writeStore, readTables, writeTables, hholds.tables, updateOne_tables]
  · rw [← eraseP_eq_removeKey hholds.nodup]
    exact {
      tables := hholds.tables
      items := forall₂_eraseP hholds.items fun item document hstored =>
        (accepts_idIs hstored old.oid).symm
      drawn := fun item hitem => hholds.drawn item (List.mem_of_mem_eraseP hitem)
      nodup := hholds.nodup.sublist (List.eraseP_sublist.map Item.oid) }

end Items

section Statistics

def countTable (group : String × Int × Int) (table : Table) : Table :=
  { table with items := group.2.1, size := group.2.2 }

theorem apply_counters (table : Table) (items size : Int) :
    Update.apply { set := [(["size"], .int64 size), (["items"], .int64 items)] } table.document =
      { table with items, size }.document := by
  simp [Update.apply, Table.document, withObjectId, Table.toDocument, Document.set_cons]

variable (groups : List (String × Int × Int))

theorem foldl_updateOne (tables : List Table) :
    groups.foldl (fun documents group =>
        Collection.updateOne [fieldIs "name" group.1]
          { set := [(["size"], .int64 group.2.2), (["items"], .int64 group.2.1)] } documents)
        (tables.map Table.document) =
      (groups.foldl (fun tables group =>
        rewriteFirst (fun table => table.name = group.1) (countTable group) tables)
        tables).map Table.document := by
  induction groups generalizing tables with
  | nil => rfl
  | cons group groups ih =>
    rw [List.foldl_cons, List.foldl_cons, ← ih, Collection.updateOne]
    congr 1
    symm
    apply map_rewriteFirst
    · intro table _
      simp [fieldIs, table.get?_document_name, Condition.holds]
    · intro table _ _
      exact (apply_counters table group.2.1 group.2.2).symm

def firstOf (tables : List Table) (name : String) : Option (String × String) :=
  (tables.find? fun table => table.name = name).map tableKey

variable {tables : List Table}

theorem name_of_firstOf {name : String} {table : Table}
    (hfirst : firstOf tables name = some (tableKey table)) : table.name = name := by
  obtain ⟨found, hfound, hkey⟩ := Option.map_eq_some_iff.mp hfirst
  have hname : found.name = name := by simpa using List.find?_some hfound
  rw [← hname]
  exact (congrArg Prod.snd hkey).symm

theorem exists_firstOf {table : Table} (htable : table ∈ tables) :
    ∃ first ∈ tables, firstOf tables table.name = some (tableKey first) := by
  rw [firstOf]
  cases hfind : tables.find? fun other => other.name = table.name with
  | some first => exact ⟨first, List.mem_of_find?_eq_some hfind, rfl⟩
  | none => exact absurd (decide_eq_true rfl) (List.find?_eq_none.mp hfind table htable)

theorem firstOf_map {change : Table → Table}
    (hkey : ∀ table, tableKey (change table) = tableKey table) (name : String) :
    firstOf (tables.map change) name = firstOf tables name := by
  have hname : ∀ table, (change table).name = table.name := fun table =>
    congrArg Prod.snd (hkey table)
  rw [firstOf, firstOf, List.find?_map, Option.map_map]
  congr 1
  · funext table
    exact hkey table
  · congr 1
    funext table
    simp [hname]

theorem foldl_countTable
    (hdistinct : (tables.map tableKey).Nodup) :
    groups.foldl (fun tables group =>
        rewriteFirst (fun table => table.name = group.1) (countTable group) tables) tables =
      tables.map fun table => groups.foldl (fun table group =>
        if firstOf tables group.1 = some (tableKey table) then countTable group table
        else table) table := by
  induction groups generalizing tables with
  | nil => simp
  | cons group groups ih =>
    have hkey : ∀ table : Table, tableKey (if firstOf tables group.1 = some (tableKey table) then
        countTable group table else table) = tableKey table := by
      intro table
      split <;> rfl
    have hkeys : (tables.map fun table => if firstOf tables group.1 = some (tableKey table) then
        countTable group table else table).map tableKey = tables.map tableKey := by
      rw [List.map_map]
      exact List.map_congr_left fun table _ => hkey table
    rw [List.foldl_cons, rewriteFirst_eq_map hdistinct]
    change groups.foldl _ (tables.map fun table =>
      if firstOf tables group.1 = some (tableKey table) then countTable group table
      else table) = _
    rw [ih (by rw [hkeys]; exact hdistinct), List.map_map]
    apply List.map_congr_left
    intro table _
    simp only [Function.comp_apply, firstOf_map hkey, List.foldl_cons]

theorem items_foldl_countTable {count : Int} (table : Table)
    (hcount : ∀ group ∈ groups, firstOf tables group.1 = some (tableKey table) → group.2.1 = count)
    (hsome : table.items = count ∨
      ∃ group ∈ groups, firstOf tables group.1 = some (tableKey table)) :
    (groups.foldl (fun table group =>
      if firstOf tables group.1 = some (tableKey table) then countTable group table
      else table) table).items = count := by
  induction groups generalizing table with
  | nil =>
    rcases hsome with hitems | ⟨group, hgroup, -⟩
    · exact hitems
    · cases hgroup
  | cons group groups ih =>
    rw [List.foldl_cons]
    by_cases hfirst : firstOf tables group.1 = some (tableKey table)
    · rw [if_pos hfirst]
      exact ih _ (fun other hother => hcount other (List.mem_cons_of_mem _ hother))
        (Or.inl (hcount group List.mem_cons_self hfirst))
    · rw [if_neg hfirst]
      refine ih _ (fun other hother => hcount other (List.mem_cons_of_mem _ hother)) ?_
      rcases hsome with hitems | ⟨other, hother, hown⟩
      · exact Or.inl hitems
      · rcases List.mem_cons.mp hother with rfl | hlater
        · exact absurd hown hfirst
        · exact Or.inr ⟨other, hlater, hown⟩

theorem tableKey_foldl_countTable (table : Table) :
    tableKey (groups.foldl (fun table group =>
      if firstOf tables group.1 = some (tableKey table) then countTable group table
      else table) table) = tableKey table := by
  induction groups generalizing table with
  | nil => rfl
  | cons group groups ih =>
    rw [List.foldl_cons, ih]
    split <;> rfl

variable {random : RandomSource} {world : World MongoStore} {held : Contents}

theorem mem_tableStatistics {items : List Item} {documents : Collection}
    (hrelated : List.Forall₂ Item.StoredAs items documents) {group : String × Int × Int}
    (hgroup : group ∈ tableStatistics documents) :
    group.2.1 = items.countP fun item => item.tableName = group.1 := by
  obtain ⟨name, -, rfl⟩ := List.mem_map.mp hgroup
  have hcount := forall₂_countP hrelated fun item document hstored =>
    (show decide (item.tableName = name) = decide (groupName document = name) by
      rw [groupName, getStringValue_of_textField hstored.tableName])
  change ((documents.filter _).length : Int) = _
  rw [← List.countP_eq_length_filter, ← hcount]

theorem exists_tableStatistics {items : List Item} {documents : Collection}
    (hrelated : List.Forall₂ Item.StoredAs items documents) {item : Item} (hitem : item ∈ items) :
    ∃ group ∈ tableStatistics documents, group.1 = item.tableName := by
  obtain ⟨document, hdocument, hstored⟩ := exists_of_forall₂_left hrelated hitem
  refine ⟨_, List.mem_map_of_mem (List.mem_dedup.mpr (List.mem_map_of_mem hdocument)), ?_⟩
  change groupName document = item.tableName
  rw [groupName, getStringValue_of_textField hstored.tableName]

theorem Holds.adjustItemCounters (hholds : Holds random world held)
    (hdistinct : (held.tables.map tableKey).Nodup) :
    ∃ after tables, adjustItemCounters.run [] world = .returns () after ∧
      Holds random after { held with tables } ∧
      List.Forall₂ (fun new old => tableKey new = tableKey old ∧
        new.items = if firstOf held.tables old.name = some (tableKey old) then
          (held.items.countP fun item => item.tableName = old.name : Int) else 0)
        tables held.tables := by
  have hkeys : (held.tables.map (countTable ("", 0, 0))).map tableKey =
      held.tables.map tableKey := by
    rw [List.map_map]
    rfl
  have hfirst : ∀ name,
      firstOf (held.tables.map (countTable ("", 0, 0))) name = firstOf held.tables name :=
    firstOf_map fun _ => rfl
  have hreset : world.store.tables.updateMany []
      { set := [(["size"], .int64 0), (["items"], .int64 0)] } =
      (held.tables.map (countTable ("", 0, 0))).map Table.document := by
    rw [Collection.updateMany, hholds.tables, rewriteWhere, List.map_map, List.map_map]
    apply List.map_congr_left
    intro table _
    exact apply_counters table 0 0
  refine ⟨_, (tableStatistics world.store.items).foldl (fun tables group =>
      rewriteFirst (fun table => table.name = group.1) (countTable group) tables)
      (held.tables.map (countTable ("", 0, 0))), ?_, hholds.withTables (Nat.le_refl _), ?_⟩
  · simp only [MongoRepository.adjustItemCounters, Action.run_bind, readItems, readTables,
      Call.run_readStore, Outcome.andThen_returns, writeTables, Call.run_writeStore, hreset,
      foldl_updateOne]
  · rw [foldl_countTable _ (hkeys ▸ hdistinct), List.map_map, List.forall₂_map_left_iff,
      List.forall₂_same]
    intro old hold
    refine ⟨tableKey_foldl_countTable _ _, ?_⟩
    simp only [Function.comp_apply, hfirst]
    split
    next hown =>
      apply items_foldl_countTable
      · intro group hgroup hfound
        rw [mem_tableStatistics hholds.items hgroup, ← name_of_firstOf hfound]
        rfl
      · by_cases hitems : ∃ item ∈ held.items, item.tableName = old.name
        · obtain ⟨item, hitem, hname⟩ := hitems
          obtain ⟨group, hgroup, hgroupName⟩ := exists_tableStatistics hholds.items hitem
          refine Or.inr ⟨group, hgroup, ?_⟩
          rw [hgroupName, hname]
          exact hown
        · left
          change (0 : Int) = _
          rw [eq_comm, Int.natCast_eq_zero, List.countP_eq_zero]
          intro item hitem hname
          exact hitems ⟨item, hitem, of_decide_eq_true hname⟩
    next hother =>
      refine items_foldl_countTable _ _ ?_ (Or.inl rfl)
      intro group _ hfound
      rw [← name_of_firstOf hfound] at hfound
      exact absurd hfound hother

end Statistics

end MongoRepository

end AwsMock.DynamoDb
