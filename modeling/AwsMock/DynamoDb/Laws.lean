import AwsMock.DynamoDb.Service
import AwsMock.DynamoDb.MongoContents

/-! # What the service may rely on

The laws both repositories obey, as functions on the tables and items they
hold, and what the service makes of them. The repositories differ in which
tables `tableExists` finds and which items `deleteItems` removes.
-/

namespace AwsMock.DynamoDb

open Foundation BsonUtils Mapper

variable {Store : Type}

theorem Item.isIn_eq (region name : String) (item : Item) :
    item.isIn region name = decide (item.place = (region, name)) := by
  rw [Item.isIn, Item.place, Bool.eq_iff_iff, Bool.and_eq_true]
  simp

theorem Table.isNamed_eq (region name : String) (table : Table) :
    table.isNamed region name = decide (tableKey table = (region, name)) := by
  rw [Table.isNamed, tableKey, Bool.eq_iff_iff, Bool.and_eq_true]
  simp

theorem place_of_mapPutItemRequest {now : Time} {request : Dto.PutItemRequest} {item : Item}
    (hmap : mapPutItemRequest now request = .ok item) :
    item.place = (request.region, request.tableName) := by
  obtain ⟨attributes, -, hitem⟩ := bind_eq_ok.mp hmap
  cases hitem
  rfl

structure Table.SameMake (first second : Table) : Prop where
  region : first.region = second.region
  name : first.name = second.name
  keySchema : first.keySchema = second.keySchema
  attributeDefinitions : first.attributeDefinitions = second.attributeDefinitions
  provisionedThroughput : first.provisionedThroughput = second.provisionedThroughput
  billingMode : first.billingMode = second.billingMode
  tags : first.tags = second.tags

theorem Table.SameMake.refl (table : Table) : table.SameMake table :=
  ⟨rfl, rfl, rfl, rfl, rfl, rfl, rfl⟩

variable {first second : Table}

theorem Table.SameMake.isNamed_eq (hsame : first.SameMake second)
    (region name : String) : first.isNamed region name = second.isNamed region name := by
  rw [Table.isNamed, Table.isNamed, hsame.region, hsame.name]

structure Table.Agrees (first second : Table) : Prop where
  region : first.region = second.region
  name : first.name = second.name
  keySchema : first.keySchema = second.keySchema
  items : first.items = second.items

theorem Table.Agrees.refl (table : Table) : table.Agrees table := ⟨rfl, rfl, rfl, rfl⟩

structure Behaviour where
  /-- The tables `tableExists` finds. -/
  finds : String → String → Table → Bool
  /-- The items `deleteItems` removes. -/
  removes : String → String → Item → Bool
  /-- The items a lookup by place and keys finds. -/
  looksFor : String → String → KeyValue → KeyValue → Item → Bool
  /-- Whether an item that is found can be read. -/
  readable : Item → Prop
  /-- The attributes that are read where some were stored. -/
  reads : Attributes → Except CoreException Attributes
  /-- Whether storing an item in a table replaces an item that is there. -/
  overwrites : Contents → Table → Item → Prop
  /-- The number of items a recount gives a table. -/
  recount : Contents → Table → Nat
  /-- Whether the items that a recount gives to a table are in its region. -/
  recountable : Contents → Prop

/-- The laws of the functions that look up, create and delete tables. `holds`
relates a store to its contents. -/
structure Repository.Lawful (db : Repository Store) (holds : World Store → Contents → Prop)
    (behaviour : Behaviour) : Prop where
  unique : ∀ {world held other}, holds world held → holds world other →
    List.Forall₂ (fun first second => first.SameMake second ∧ first.items = second.items)
      held.tables other.tables ∧
    List.Forall₂ (fun first second : Item =>
      first.region = second.region ∧ first.tableName = second.tableName) held.items other.items
  finds_of_isNamed : ∀ {region name table}, table.isNamed region name = true →
    behaviour.finds region name table = true
  tableExists : ∀ {world held}, holds world held → ∀ region name,
    (db.tableExists region name).run [] world =
      .returns (held.tables.any (behaviour.finds region name)) world
  getTable_found : ∀ {world held region name table}, holds world held → ∀ now,
    held.tables.find? (Table.isNamed region name) = some table →
    ∃ read after, (db.getTableByRegionName now region name).run [] world = .returns read after ∧
      holds after held ∧ read.Agrees table
  getTable_missing : ∀ {world held region name}, holds world held → ∀ now,
    held.tables.find? (Table.isNamed region name) = none →
    ∃ message, (db.getTableByRegionName now region name).run [] world =
      .halts (.exception (.database message)) world
  createTable : ∀ {world held}, holds world held → ∀ now table, ∃ oid created modified result after,
      (db.createTable now table).run [] world = .returns result after ∧
      holds after
        { held with tables := held.tables ++ [{ table with oid, created, modified }] }
  deleteTable : ∀ {world held}, holds world held → ∀ region name,
    ∃ after, (db.deleteTable region name).run [] world = .returns () after ∧ holds after
        { held with tables := held.tables.filter fun table => !table.isNamed region name }
  deleteItems : ∀ {world held}, holds world held → ∀ now region name,
    ∃ after, (db.deleteItems now region name).run [] world =
        .returns (held.items.countP (behaviour.removes region name) : Nat) after ∧
      holds after
        { held with items := held.items.filter fun item => !behaviour.removes region name item }

/-- The laws of the functions that put requests and recounts use. -/
structure Repository.Counting (db : Repository Store) (holds : World Store → Contents → Prop)
    (behaviour : Behaviour) : Prop where
  updateTable : ∀ {world held old}, holds world held → ∀ now table,
    held.tables.find? (Table.isNamed table.region table.name) = some old →
    ∃ result after rewrite, (db.updateTable now table).run [] world = .returns result after ∧
      holds after { held with
        tables := rewriteFirst (Table.isNamed table.region table.name) rewrite held.tables } ∧
      ∀ other, (rewrite other).Agrees table
  itemExists : ∀ {world held}, holds world held → ∀ item,
    (db.itemExists item).run [] world = .returns (held.items.any (behaviour.looksFor item.region
      item.tableName item.partitionKey item.sortKey)) world
  getItem_missing : ∀ {world held region name partitionKey sortKey}, holds world held → ∀ now,
    (∀ item, held.items.find? (behaviour.looksFor region name partitionKey sortKey) = some item →
      ¬ behaviour.readable item) →
    ∃ exn, (db.getItemByKeys now region name partitionKey sortKey).run [] world =
      .halts (.exception exn) world
  putItem : ∀ {world held item table}, holds world held → ∀ now,
    held.tables.find? (Table.isNamed item.region item.tableName) = some table →
    ¬ behaviour.overwrites held table item →
    (∃ stored created after, (db.createOrUpdateItem now item).run [] world =
        .returns created after ∧
      holds after { held with items := held.items ++ [stored] } ∧
      stored.place = item.place) ∨
    ∃ exn after items,
      (db.createOrUpdateItem now item).run [] world = .halts (.exception exn) after ∧
      holds after { held with items } ∧ items.map Item.place = held.items.map Item.place
  adjustItemCounters : ∀ {world held}, holds world held → (held.tables.map tableKey).Nodup →
    ∃ after tables, db.adjustItemCounters.run [] world = .returns () after ∧
      holds after { held with tables } ∧
      List.Forall₂ (fun new old => tableKey new = tableKey old ∧
        new.items = behaviour.recount held old) tables held.tables
  recount_eq_iff : ∀ held : Contents, (∀ table ∈ held.tables, behaviour.recount held table =
        held.items.countP (Item.isIn table.region table.name)) ↔ behaviour.recountable held

theorem list_eq_of_field {α : Type} {write : α → Document} {read : Document → α}
    (hread : ∀ el, read (write el) = el) {first second : List α}
    (hfield : (if first ≠ [] then some (Value.array (first.map fun el => .document (write el)))
      else none) = if second ≠ [] then
        some (Value.array (second.map fun el => .document (write el))) else none) :
    first = second := by
  have hinjective : Function.Injective fun el => Value.document (write el) := by
    intro left right heq
    injection heq with heq
    rw [← hread left, heq, hread]
  by_cases hfirst : first = []
  · by_cases hsecond : second = []
    · rw [hfirst, hsecond]
    · simp [hfirst, hsecond] at hfield
  · by_cases hsecond : second = []
    · simp [hfirst, hsecond] at hfield
    · rw [if_pos hfirst, if_pos hsecond] at hfield
      injection hfield with hfield
      injection hfield with hfield
      exact hinjective.list_map hfield

theorem Table.sameMake_of_document
    (hdocument : first.document = second.document) : first.SameMake second := by
  have hfield : ∀ name, first.document.get? name = second.document.get? name :=
    fun name => congrArg (Document.get? name) hdocument
  have htext : ∀ name left right, first.document.get? name = some (.scalar (.string left)) →
      second.document.get? name = some (.scalar (.string right)) → left = right := by
    intro name left right hleft hright
    have heq := hleft.symm.trans ((hfield name).trans hright)
    injection heq with heq
    injection heq with heq
    injection heq
  have hthroughput := hfield "provisionedThroughput"
  rw [get?_document_provisionedThroughput, get?_document_provisionedThroughput] at hthroughput
  have hdefinitions := hfield "attributeDefinitions"
  rw [get?_document_attributeDefinitions, get?_document_attributeDefinitions] at hdefinitions
  have hkeys := hfield "keySchema"
  rw [get?_document_keySchema, get?_document_keySchema] at hkeys
  have htags := hfield "tags"
  rw [get?_document_tags, get?_document_tags] at htags
  refine ⟨htext "region" _ _ (get?_document_region _) (get?_document_region _),
    htext "name" _ _ (get?_document_name _) (get?_document_name _),
    list_eq_of_field KeySchema.fromDocument_toDocument hkeys,
    list_eq_of_field AttributeDefinition.fromDocument_toDocument hdefinitions, ?_,
    htext "billingMode" _ _ (get?_document_billingMode _) (get?_document_billingMode _),
    list_eq_of_field Tag.fromDocument_toDocument htags⟩
  simp only [ProvisionedThroughput.toDocument, Option.some.injEq, Value.document.injEq,
    List.cons.injEq, Prod.mk.injEq, Value.scalar.injEq, Scalar.int64.injEq, Scalar.date.injEq,
    true_and, and_true] at hthroughput
  obtain ⟨hreads, hwrites, hdecrease, hincrease, hdecreases⟩ := hthroughput
  cases hfirst : first.provisionedThroughput
  cases hsecond : second.provisionedThroughput
  simp_all

theorem Table.items_of_document
    (hdocument : first.document = second.document) : first.items = second.items := by
  have hfield := congrArg (Document.get? "items") hdocument
  rw [get?_document_items, get?_document_items] at hfield
  injection hfield with hfield
  injection hfield with hfield
  injection hfield

theorem countP_tableName_eq_iff {items : List Item} {table : Table} :
    items.countP (fun item => item.tableName = table.name) =
        items.countP (Item.isIn table.region table.name) ↔
      ∀ item ∈ items, item.tableName = table.name → item.region = table.region := by
  have hin : ∀ item : Item, item.isIn table.region table.name = true ↔
      item.region = table.region ∧ item.tableName = table.name := by
    intro item
    rw [Item.isIn, Bool.and_eq_true, decide_eq_true_eq, decide_eq_true_eq]
  constructor
  · intro hcount item hitem hname
    have hnamed : ∀ item ∈ items, item.isIn table.region table.name = true →
        decide (item.tableName = table.name) = true :=
      fun item _ hplaced => decide_eq_true ((hin item).mp hplaced).2
    have hplaced := forall_of_countP_eq hnamed hcount item hitem (decide_eq_true hname)
    exact ((hin item).mp hplaced).1
  · intro hregion
    apply List.countP_congr
    intro item hitem
    rw [hin, decide_eq_true_eq]
    exact ⟨fun hname => ⟨hregion item hitem hname, hname⟩, And.right⟩

def memoryBehaviour : Behaviour where
  finds := MemoryRepository.findsTable
  removes := Item.isIn
  looksFor region tableName partitionKey sortKey item :=
    item.isIn region tableName && item.hasKeys partitionKey sortKey
  readable _ := True
  reads := .ok
  overwrites held _ item := ∃ other ∈ held.items, MemoryRepository.isSameItem item other = true
  recount held table := held.items.countP fun item => item.tableName = table.name
  recountable held := ∀ table ∈ held.tables, ∀ item ∈ held.items,
    item.tableName = table.name → item.region = table.region

def mongoBehaviour : Behaviour where
  finds := MongoRepository.findsTable
  removes _ := Item.isDeletedWith
  looksFor := Item.isFound
  readable item := ∃ read, item.reread = .ok read
  reads attributes := do fromBsonMap (← toBsonMap attributes)
  overwrites held table item :=
    (∃ other ∈ held.items,
      other.isFound item.region item.tableName item.partitionKey item.sortKey = true) ∧
    ∃ modified old replaced,
      MongoRepository.Replaces held table { item with modified } old replaced ∧
      ∃ read, replaced.reread = .ok read
  recount held table :=
    if MongoRepository.firstOf held.tables table.name = some (tableKey table) then
      held.items.countP fun item => item.tableName = table.name else 0
  recountable held := ∀ table ∈ held.tables, ∀ item ∈ held.items,
    MongoRepository.firstOf held.tables item.tableName = some (tableKey table) →
      item.region = table.region

namespace MongoRepository

theorem Holds.map_place_replaced {random : RandomSource} {world : World MongoStore}
    {held : Contents} (hholds : Holds random world held) {table : Table} {item old replaced : Item}
    (hreplaces : Replaces held table item old replaced) :
    (rewriteFirst (fun other => other.oid = old.oid) (fun _ => replaced) held.items).map
      Item.place = held.items.map Item.place := by
  obtain ⟨_, _, keyed, -, hfind, hreplaced⟩ := hreplaces.found
  have hplace : replaced.place = old.place := by rw [hreplaced, Item.place, Item.place]
  apply map_rewriteFirst_of_preserved
  intro other hother hselect
  have heq : other = old := List.inj_on_of_nodup_map hholds.nodup hother
    (List.mem_of_find?_eq_some hfind) (of_decide_eq_true hselect)
  rw [hplace, heq]

theorem recount_eq_iff (held : Contents) :
    (∀ table ∈ held.tables, mongoBehaviour.recount held table =
        held.items.countP (Item.isIn table.region table.name)) ↔
      mongoBehaviour.recountable held := by
  have hfirst : ∀ table : Table, firstOf held.tables table.name = some (tableKey table) →
      mongoBehaviour.recount held table =
        held.items.countP fun item => item.tableName = table.name := fun table hfirst => if_pos hfirst
  constructor
  · intro hcount table htable item hitem hfound
    have hname := name_of_firstOf hfound
    rw [← hname] at hfound
    have hcounted := hcount table htable
    rw [hfirst table hfound, countP_tableName_eq_iff] at hcounted
    exact hcounted item hitem hname.symm
  · intro hrecount table htable
    by_cases hfound : firstOf held.tables table.name = some (tableKey table)
    · rw [hfirst table hfound, countP_tableName_eq_iff]
      intro item hitem hname
      exact hrecount table htable item hitem (by rw [hname, hfound])
    · -- the items of the name are all in the region of the first table
      have hnone : mongoBehaviour.recount held table = 0 := if_neg hfound
      rw [hnone, eq_comm, List.countP_eq_zero]
      intro item hitem hin
      rw [Item.isIn, Bool.and_eq_true, decide_eq_true_eq, decide_eq_true_eq] at hin
      obtain ⟨first, hmem, hfirstOf⟩ := exists_firstOf htable
      have hregion := hrecount first hmem item hitem (by rw [hin.2, hfirstOf])
      have hname := name_of_firstOf hfirstOf
      apply hfound
      rw [hfirstOf, tableKey, tableKey, hname, ← hregion, hin.1]

end MongoRepository

variable (random : RandomSource)

theorem memoryRepository_lawful :
    (memoryRepository random).Lawful (MemoryRepository.Holds random) memoryBehaviour where
  unique hholds hother := by
    have heq := hholds.contents_eq.symm.trans hother.contents_eq
    subst heq
    exact ⟨List.forall₂_same.mpr fun table _ => ⟨.refl table, rfl⟩,
      List.forall₂_same.mpr fun item _ => ⟨rfl, rfl⟩⟩
  finds_of_isNamed := by
    intro region name table hnamed
    rw [Table.isNamed, Bool.and_eq_true] at hnamed
    change MemoryRepository.findsTable region name table = true
    rw [MemoryRepository.findsTable, hnamed.1, hnamed.2, Bool.or_true]
    rfl
  tableExists hholds := hholds.tableExists
  getTable_found hholds _ hfind := by
    obtain ⟨after, hrun, hafter⟩ := hholds.getTable_found hfind
    exact ⟨_, after, hrun, hafter, .refl _⟩
  getTable_missing hholds _ hfind := ⟨_, hholds.getTable_missing hfind⟩
  createTable hholds _ table := by
    obtain ⟨after, hrun, hafter⟩ := hholds.createTable table
    exact ⟨_, _, _, _, after, hrun, hafter⟩
  deleteTable hholds := hholds.deleteTable
  deleteItems hholds _ := hholds.deleteItems

theorem mongoRepository_lawful :
    (mongoRepository random).Lawful (MongoRepository.Holds random) mongoBehaviour where
  unique hholds hother := by
    constructor
    · have hdocuments := hholds.tables.symm.trans hother.tables
      rw [← List.forall₂_eq_eq_eq, List.forall₂_map_left_iff, List.forall₂_map_right_iff]
        at hdocuments
      exact hdocuments.imp fun _ _ heq =>
        ⟨Table.sameMake_of_document heq, Table.items_of_document heq⟩
    · exact forall₂_of_common hholds.items hother.items fun _ _ _ hfirst hsecond =>
        ⟨textField_inj (hfirst.region.symm.trans hsecond.region),
          textField_inj (hfirst.tableName.symm.trans hsecond.tableName)⟩
  finds_of_isNamed := by
    intro region name table hnamed
    rw [Table.isNamed, Bool.and_eq_true] at hnamed
    change MongoRepository.findsTable region name table = true
    rw [MongoRepository.findsTable, hnamed.1, hnamed.2, Bool.or_true, Bool.or_true]
    rfl
  tableExists hholds := hholds.tableExists
  getTable_found hholds now hfind :=
    ⟨_, _, hholds.getTable_found now hfind, hholds, rfl, rfl, rfl, rfl⟩
  getTable_missing hholds now hfind := ⟨_, hholds.getTable_missing now hfind⟩
  createTable hholds now table := by
    obtain ⟨after, hrun, hafter⟩ := hholds.createTable now table
    exact ⟨_, _, _, _, after, hrun, hafter⟩
  deleteTable hholds := hholds.deleteTable
  deleteItems hholds := hholds.deleteItems

theorem memoryRepository_counting :
    (memoryRepository random).Counting (MemoryRepository.Holds random) memoryBehaviour where
  updateTable hholds _ _ hfind := by
    obtain ⟨after, hrun, hafter⟩ := hholds.updateTable hfind
    exact ⟨_, after, _, hrun, hafter, fun _ => ⟨rfl, rfl, rfl, rfl⟩⟩
  itemExists hholds := hholds.itemExists
  getItem_missing := by
    intro world held region name partitionKey sortKey hholds now hnone
    have hfind : held.items.find? (fun other => other.isIn region name &&
        other.hasKeys partitionKey sortKey) = none := by
      cases hfound : held.items.find? (fun other => other.isIn region name &&
        other.hasKeys partitionKey sortKey) with
      | none => rfl
      | some item => exact absurd trivial (hnone item hfound)
    exact ⟨_, hholds.getItem_missing hfind⟩
  putItem := by
    intro world held item table hholds now _ hnew
    have hnone : ∀ other ∈ held.items, MemoryRepository.isSameItem item other = false :=
      fun other hother => Bool.eq_false_iff.mpr fun hsame => hnew ⟨other, hother, hsame⟩
    obtain ⟨after, hrun, hafter⟩ := hholds.putItem_new now hnone
    exact Or.inl ⟨_, _, after, hrun, hafter, rfl⟩
  adjustItemCounters hholds _ := by
    obtain ⟨after, hrun, hafter⟩ := hholds.adjustItemCounters
    refine ⟨after, _, hrun, hafter, ?_⟩
    rw [List.forall₂_map_left_iff, List.forall₂_same]
    intro table _
    refine ⟨rfl, ?_⟩
    change ((List.filter _ _).length : Int) = (List.countP _ _ : Nat)
    rw [← List.countP_eq_length_filter]
  recount_eq_iff := by
    intro held
    apply forall₂_congr
    intro table _
    exact countP_tableName_eq_iff

theorem mongoRepository_counting :
    (mongoRepository random).Counting (MongoRepository.Holds random) mongoBehaviour where
  updateTable hholds now _ hfind := by
    obtain ⟨after, hrun, hafter⟩ := hholds.updateTable now hfind
    exact ⟨_, after, _, hrun, hafter, fun _ => ⟨rfl, rfl, rfl, rfl⟩⟩
  itemExists hholds := hholds.itemExists
  getItem_missing := by
    intro world held region name partitionKey sortKey hholds now hnone
    have hrun := hholds.getItem now region name partitionKey sortKey
    cases hfind : held.items.find? (Item.isFound region name partitionKey sortKey) with
    | none =>
      rw [hfind] at hrun
      exact ⟨_, hrun⟩
    | some item =>
      rw [hfind] at hrun
      cases hread : item.reread with
      | ok read => exact absurd ⟨read, hread⟩ (hnone item hfind)
      | error exn =>
        change _ = (Call.ofExcept item.reread).run [] world at hrun
        rw [hread] at hrun
        exact ⟨exn, hrun⟩
  putItem := by
    intro world held item table hholds now hfind hnew
    have hcreate : (mongoRepository random).createOrUpdateItem now item =
        MongoRepository.createOrUpdateItem random now item := rfl
    rw [hcreate, MongoRepository.createOrUpdateItem, Action.run_bind, hholds.itemExists,
      Outcome.andThen_returns]
    by_cases hexists : held.items.any (Item.isFound item.region item.tableName
        item.partitionKey item.sortKey) = true
    · rw [if_pos hexists]
      right
      rcases hholds.replaceItem now hfind with
        ⟨exn, hrun⟩ | ⟨old, replaced, after, hreplaces, hrun, hafter⟩
      · rw [MongoRepository.updateItem, Action.run_rethrow, hrun]
        exact ⟨_, world, _, rfl, hholds, rfl⟩
      · cases hread : replaced.reread with
        | ok read =>
          exact absurd ⟨List.any_eq_true.mp hexists, now, old, replaced, hreplaces, read, hread⟩
            hnew
        | error exn =>
          -- the new item is stored, and cannot be read for the answer
          rw [hread] at hrun
          rw [MongoRepository.updateItem, Action.run_rethrow, hrun]
          exact ⟨_, after, _, rfl, hafter, hholds.map_place_replaced hreplaces⟩
    · rw [if_neg hexists]
      rcases hholds.createItem now item with ⟨size, after, hrun, hafter⟩ | ⟨exn, hrun⟩
      · exact Or.inl ⟨_, _, after, hrun, hafter, rfl⟩
      · exact Or.inr ⟨exn, world, _, hrun, hholds, rfl⟩
  adjustItemCounters hholds hdistinct := by
    obtain ⟨after, tables, hrun, hafter, hcounted⟩ := hholds.adjustItemCounters hdistinct
    refine ⟨after, tables, hrun, hafter, hcounted.imp fun new old hcount => ⟨hcount.1, ?_⟩⟩
    rw [hcount.2]
    change _ = ((if _ then _ else _ : Nat) : Int)
    split <;> rfl
  recount_eq_iff := MongoRepository.recount_eq_iff

namespace Service

variable (context : Context) {db : Repository Store} {holds : World Store → Contents → Prop}
  {behaviour : Behaviour} {world : World Store} {held : Contents} (now : Time) {region name : String}

/-- A call whose body returns is not affected by its `catch` block. -/
theorem run_catchJson {α : Type} {text : String} {body : Call Mutex Store α} {value : α}
    {after : World Store} (hbody : body.run [] world = .returns value after) :
    (catchJson text body).run [] world = .returns value after :=
  Action.run_rethrow_eq_returns.mpr hbody

theorem run_requireTable {text : String}
    (hexists : (db.tableExists region name).run [] world = .returns true world) :
    (requireTable db text region name).run [] world = .returns () world := by
  rw [requireTable, Action.run_bind, hexists]
  rfl

theorem keyedItem_eq {first second : Table} (hschema : first.keySchema = second.keySchema)
    (request : Dto.PutItemRequest) (item : Item) :
    keyedItem context request first item = keyedItem context request second item := by
  simp only [keyedItem, Table.getPartitionKeyName, Table.getSortKeyName, Table.keyName, hschema]

theorem run_countTable (hcounting : db.Counting holds behaviour) (hholds : holds world held)
    {table read : Table} (hfind : held.tables.find? (Table.isNamed region name) = some table)
    (hagrees : read.Agrees table) (created : Item) :
    ∃ result after rewrite, (db.updateTable now (countedTable read created)).run [] world =
        .returns result after ∧
      holds after { held with
        tables := rewriteFirst (Table.isNamed region name) rewrite held.tables } ∧
      ∀ other, (rewrite other).Agrees (countedTable read created) := by
  have hnamed := List.find?_some hfind
  rw [Table.isNamed_eq, decide_eq_true_eq] at hnamed
  have hregion : (countedTable read created).region = region :=
    hagrees.region.trans (congrArg Prod.fst hnamed)
  have hname : (countedTable read created).name = name :=
    hagrees.name.trans (congrArg Prod.snd hnamed)
  have hupdated := hcounting.updateTable hholds now (countedTable read created)
    (by rw [hregion, hname]; exact hfind)
  rwa [hregion, hname] at hupdated

theorem find?_of_isNamed (hexists : ∃ table ∈ held.tables, table.isNamed region name = true) :
    ∃ table, held.tables.find? (Table.isNamed region name) = some table := by
  obtain ⟨table, htable, hnamed⟩ := hexists
  exact Option.isSome_iff_exists.mp (List.find?_isSome.mpr ⟨table, htable, hnamed⟩)

section

variable (hlawful : db.Lawful holds behaviour) (hholds : holds world held)
include hlawful hholds

section

variable (hexists : ∃ table ∈ held.tables, table.isNamed region name = true)
include hexists

theorem tableExists_of_isNamed :
    (db.tableExists region name).run [] world = .returns true world := by
  rw [hlawful.tableExists hholds]
  congr 1
  rw [List.any_eq_true]
  obtain ⟨table, htable, hnamed⟩ := hexists
  exact ⟨table, htable, hlawful.finds_of_isNamed hnamed⟩

theorem run_deleteTable :
    ∃ response after, (deleteTable db now ⟨region, name⟩).run [] world = .returns response after ∧
      holds after ⟨held.tables.filter fun table => !table.isNamed region name,
          held.items.filter fun item => !behaviour.removes region name item⟩ := by
  obtain ⟨table, hfind⟩ := find?_of_isNamed hexists
  obtain ⟨read, found, hget, hfound, -⟩ := hlawful.getTable_found hholds now hfind
  obtain ⟨emptied, hitems, hemptied⟩ := hlawful.deleteItems hfound now region name
  obtain ⟨after, htable, hafter⟩ := hlawful.deleteTable hemptied region name
  refine ⟨⟨read.region, read.name, read.oid, read.arn, held.items.countP (behaviour.removes region name)⟩,
    after, ?_, hafter⟩
  rw [deleteTable, Action.run_bind,
    run_requireTable (tableExists_of_isNamed hlawful hholds hexists), Outcome.andThen_returns]
  apply run_catchJson
  simp only [Action.run_bind, hget, hitems, htable, Outcome.andThen_returns, Action.run_pure]

end

theorem run_deleteTable_missing (hnone : ∀ table ∈ held.tables, table.isNamed region name = false) :
    ∃ exn, (deleteTable db now ⟨region, name⟩).run [] world = .halts (.exception exn) world := by
  have hfind : held.tables.find? (Table.isNamed region name) = none :=
    List.find?_eq_none.mpr fun table htable => Bool.eq_false_iff.mp (hnone table htable)
  obtain ⟨message, hget⟩ := hlawful.getTable_missing hholds now hfind
  rw [deleteTable, Action.run_bind]
  cases hexists : held.tables.any (behaviour.finds region name) with
  | true =>
    rw [run_requireTable (by rw [hlawful.tableExists hholds, hexists]), Outcome.andThen_returns,
      catchJson, Action.run_rethrow, Action.run_bind, hget]
    exact ⟨_, rfl⟩
  | false =>
    rw [requireTable, Action.run_bind, hlawful.tableExists hholds, hexists]
    exact ⟨_, rfl⟩

variable (request : Dto.CreateTableRequest)

theorem run_createTable
    (hnone : ∀ table ∈ held.tables, behaviour.finds request.region request.tableName table = false) :
    ∃ oid created modified response after,
      (createTable context db now request).run [] world = .returns response after ∧
      holds after { held with tables := held.tables ++
        [{ newTable context now request with oid, created, modified }] } := by
  have hexists : held.tables.any (behaviour.finds request.region request.tableName) = false :=
    List.any_eq_false.mpr fun table htable => Bool.eq_false_iff.mp (hnone table htable)
  obtain ⟨oid, created, modified, result, after, hcreate, hafter⟩ :=
    hlawful.createTable hholds now (newTable context now request)
  refine ⟨oid, created, modified, createTableResponse request result, after, ?_, hafter⟩
  rw [createTable, Action.run_bind, hlawful.tableExists hholds, hexists, Outcome.andThen_returns,
    if_neg Bool.false_ne_true]
  apply run_catchJson
  rw [Action.run_bind, hcreate]
  rfl

theorem run_createTable_elsewhere
    (hfound : ∃ table ∈ held.tables, behaviour.finds request.region request.tableName table = true)
    (hnone : ∀ table ∈ held.tables, table.isNamed request.region request.tableName = false) :
    ∃ message, (createTable context db now request).run [] world =
      .halts (.exception (.database message)) world := by
  have hfind : held.tables.find? (Table.isNamed request.region request.tableName) = none :=
    List.find?_eq_none.mpr fun table htable => Bool.eq_false_iff.mp (hnone table htable)
  obtain ⟨message, hget⟩ := hlawful.getTable_missing hholds now hfind
  refine ⟨message, ?_⟩
  rw [createTable, Action.run_bind, hlawful.tableExists hholds,
    (List.any_eq_true.mpr hfound : held.tables.any _ = true), Outcome.andThen_returns,
    if_pos rfl, Action.run_bind, hget]
  rfl

end

end Service

section Samples

def sampleContext : Context := ⟨"000000000000", 280⟩

def sampleTable : Table :=
  { Table.fresh 0 with
    oid := "u", region := "eu-central-1", name := "orders", keySchema := [⟨"id", "HASH"⟩],
    billingMode := "PAY_PER_REQUEST" }

def sampleContents : Contents := ⟨[sampleTable], []⟩

def sampleMemory : World MemoryStore :=
  ⟨⟨UnorderedMap.empty.assign "u" sampleTable, .empty⟩, 1⟩

def sampleMongo : World MongoStore := ⟨⟨[sampleTable.document], []⟩, 1⟩

theorem holds_sampleMemory : MemoryRepository.Holds .growing sampleMemory sampleContents where
  contents_eq := rfl
  drawn := by
    intro key hkey
    rw [List.mem_singleton.mp hkey]
    exact ⟨0, Nat.zero_lt_one, rfl⟩

theorem holds_sampleMongo : MongoRepository.Holds .growing sampleMongo sampleContents where
  tables := rfl
  items := List.Forall₂.nil
  drawn := fun _ hitem => absurd hitem List.not_mem_nil
  nodup := List.nodup_nil

end Samples

end AwsMock.DynamoDb
