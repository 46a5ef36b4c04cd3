import AwsMock.DynamoDb.Repository

/-! # What the in-memory repository holds

The tables and items of a store as plain lists, and what the functions of
`DynamoDbMemoryRepository` do to them. Object ids are drawn when an entity is
created, so a new one is not in the store yet.
-/

namespace AwsMock.DynamoDb

open Foundation

structure Contents where
  tables : List Table
  items : List Item

def tableKey (table : Table) : String × String := (table.region, table.name)

def Item.place (item : Item) : String × String := (item.region, item.tableName)

/-- Whether an item is listed for a region and a table, of which either may be left out. -/
def Item.isListed (region tableName : String) (item : Item) : Bool :=
  (region = "" || item.region = region) && (tableName = "" || item.tableName = tableName)

namespace MemoryRepository

/-- A table is listed with its key as object id, which every read gives it. -/
def contents (store : MemoryStore) : Contents where
  tables := store.tables.entries.map fun entry => { entry.2 with oid := entry.1 }
  items := store.items.values

structure Holds (random : RandomSource) (world : World MemoryStore) (held : Contents) : Prop where
  contents_eq : contents world.store = held
  drawn : ∀ key ∈ world.store.tables.keys ++ world.store.items.keys,
    ∃ draw < world.draws, key = random.uuid draw

/-- Whether a table is found by `tableExists`. -/
def findsTable (region tableName : String) (table : Table) : Bool :=
  (region = "" || table.region = region) && table.name = tableName

section Reads

variable {random : RandomSource} {world : World MemoryStore} {held : Contents}

variable (hholds : Holds random world held)
include hholds

theorem Holds.fresh {key : String}
    (hkey : key ∈ world.store.tables.keys ++ world.store.items.keys) :
    key ≠ random.uuid world.draws := by
  obtain ⟨draw, hdraw, rfl⟩ := hholds.drawn key hkey
  intro heq
  exact absurd (random.uuid_injective heq) (Nat.ne_of_lt hdraw)

theorem Holds.find?_tables (region name : String) :
    held.tables.find? (Table.isNamed region name) =
      (world.store.tables.findIf (Table.isNamed region name)).map
        fun entry => { entry.2 with oid := entry.1 } := by
  rw [← hholds.contents_eq]
  change List.find? _ (List.map _ _) = _
  rw [List.find?_map]
  rfl

theorem Holds.tableExists (region tableName : String) :
    (tableExists region tableName).run [] world =
      .returns (held.tables.any (findsTable region tableName)) world := by
  have hany : ∀ (select : Table → Bool), (∀ table oid, select { table with oid } = select table) →
      (world.store.tables.findIf select).isSome = held.tables.any select := by
    intro select hselect
    rw [← hholds.contents_eq, Bool.eq_iff_iff, UnorderedMap.findIf, List.find?_isSome,
      List.any_eq_true]
    constructor
    · rintro ⟨entry, hentry, hfound⟩
      exact ⟨_, List.mem_map_of_mem hentry, (hselect _ _).trans hfound⟩
    · rintro ⟨table, htable, hfound⟩
      obtain ⟨entry, hentry, rfl⟩ := List.mem_map.mp htable
      exact ⟨entry, hentry, (hselect _ _).symm.trans hfound⟩
  rw [MemoryRepository.tableExists]
  by_cases hregion : region = ""
  · have hsame := hany (fun table => decide (table.name = tableName)) fun _ _ => rfl
    simp only [Action.run_bind, readTables, Call.run_readStore, Outcome.andThen_returns,
      Action.run_pure, hregion, ne_eq, not_true_eq_false, if_false, hsame]
    rfl
  · have hsame := hany (Table.isNamed region tableName) fun _ _ => rfl
    simp only [Action.run_bind, readTables, Call.run_readStore, Outcome.andThen_returns,
      Action.run_pure, ne_eq, hregion, not_false_eq_true, if_true, hsame]
    congr 2
    funext table
    simp [findsTable, hregion, Table.isNamed]

theorem Holds.listItems (region tableName : String) :
    (listItems region tableName).run [] world =
      .returns (held.items.filter (Item.isListed region tableName)) world := by
  have hitems : world.store.items.values = held.items := by
    rw [← hholds.contents_eq]
    rfl
  simp only [MemoryRepository.listItems, Action.run_bind, readItems, Call.run_readStore,
    Outcome.andThen_returns, Action.run_pure, hitems]
  congr 1
  have hregion : (if region = "" then held.items
      else held.items.filter fun item => item.region = region) =
      held.items.filter fun item => region = "" || item.region = region := by
    split
    next hempty => simp [hempty]
    next hempty => simp [hempty]
  rw [hregion]
  split
  next hempty =>
    congr 1
    funext item
    simp [Item.isListed, hempty]
  next hempty =>
    rw [List.filter_filter]
    congr 1
    funext item
    simp [Item.isListed, hempty, Bool.and_comm]

theorem Holds.countItems (region tableName : String) :
    (countItems region tableName).run [] world =
      .returns (held.items.countP fun item => region = "" || item.region = region : Nat) world := by
  have hitems : world.store.items.values = held.items := by
    rw [← hholds.contents_eq]
    rfl
  simp only [MemoryRepository.countItems, Action.run_bind, readItems, Call.run_readStore,
    Outcome.andThen_returns, Action.run_pure, UnorderedMap.countIf_eq_countP, hitems]
  by_cases hempty : region = ""
  · have hsize : world.store.items.size = held.items.length := by
      rw [← hitems, UnorderedMap.size, UnorderedMap.values, List.length_map]
    simp [hempty, hsize]
  · simp [hempty]

end Reads

section Writes

variable {random : RandomSource} {world : World MemoryStore} {held : Contents}

variable (hholds : Holds random world held)
include hholds

theorem Holds.getTable_found {region name : String}
    {table : Table} (hfind : held.tables.find? (Table.isNamed region name) = some table) :
    ∃ after, (getTableByRegionName region name).run [] world = .returns table after ∧
      Holds random after held := by
  rw [hholds.find?_tables, Option.map_eq_some_iff] at hfind
  obtain ⟨⟨key, old⟩, hfound, rfl⟩ := hfind
  refine ⟨⟨{ world.store with
    tables := world.store.tables.assign key { old with oid := key } }, world.draws⟩, ?_, ?_, ?_⟩
  · simp only [getTableByRegionName, Action.run_bind, readTables, Call.run_readStore,
      Outcome.andThen_returns, hfound, writeTables, Call.run_writeStore, Action.run_pure]
  · rw [← hholds.contents_eq]
    simp only [contents, UnorderedMap.entries_assign_of_findIf _ hfound]
    congr 1
    -- the entry found changes in its object id only, which the listing sets anyway
    exact map_rewriteFirst_of_find? hfound rfl
  · intro other hother
    rw [UnorderedMap.keys_assign_of_findIf _ hfound] at hother
    exact hholds.drawn other hother

theorem Holds.getTable_missing {region name : String}
    (hfind : held.tables.find? (Table.isNamed region name) = none) :
    (getTableByRegionName region name).run [] world =
      .halts (.exception (.database ("Get table by region and name failed, region: " ++ region ++
        " name: " ++ name))) world := by
  rw [hholds.find?_tables, Option.map_eq_none_iff] at hfind
  simp only [getTableByRegionName, Action.run_bind, readTables, Call.run_readStore,
    Outcome.andThen_returns, hfind, Action.run_raise]

theorem Holds.createTable (table : Table) :
    ∃ after, (createTable random table).run [] world =
        .returns { table with oid := random.uuid world.draws } after ∧
      Holds random after
        { held with tables := held.tables ++ [{ table with oid := random.uuid world.draws }] } := by
  have hnew : random.uuid world.draws ∉ world.store.tables.keys := fun hkey =>
    hholds.fresh (List.mem_append_left _ hkey) rfl
  refine ⟨⟨{ world.store with
    tables := world.store.tables.assign (random.uuid world.draws)
      { table with oid := random.uuid world.draws } }, world.draws + 1⟩, rfl, ?_, ?_⟩
  · rw [← hholds.contents_eq]
    simp only [contents, UnorderedMap.entries_assign_of_new _ hnew, List.map_append,
      List.map_cons, List.map_nil]
  · intro key hkey
    rw [UnorderedMap.keys, UnorderedMap.entries_assign_of_new _ hnew] at hkey
    simp only [List.map_append, List.map_cons, List.map_nil, List.mem_append,
      List.mem_singleton] at hkey
    rcases hkey with (hold | rfl) | hold
    · obtain ⟨draw, hdraw, heq⟩ := hholds.drawn key (List.mem_append_left _ hold)
      exact ⟨draw, Nat.lt_succ_of_lt hdraw, heq⟩
    · exact ⟨world.draws, Nat.lt_succ_self _, rfl⟩
    · obtain ⟨draw, hdraw, heq⟩ := hholds.drawn key (List.mem_append_right _ hold)
      exact ⟨draw, Nat.lt_succ_of_lt hdraw, heq⟩

theorem Holds.updateTable {table old : Table}
    (hfind : held.tables.find? (Table.isNamed table.region table.name) = some old) :
    ∃ after, (updateTable table).run [] world = .returns table after ∧
      Holds random after { held with
        tables := rewriteFirst (Table.isNamed table.region table.name)
          (fun other => { table with oid := other.oid }) held.tables } := by
  rw [hholds.find?_tables, Option.map_eq_some_iff] at hfind
  obtain ⟨⟨key, old⟩, hfound, -⟩ := hfind
  refine ⟨⟨{ world.store with tables := world.store.tables.assign key table }, world.draws⟩,
    ?_, ?_, ?_⟩
  · simp only [MemoryRepository.updateTable, Action.run_scopedLock_free (List.not_mem_nil),
      Action.run_bind, readTables, Call.run_readStore, Outcome.andThen_returns, hfound,
      writeTables, Call.run_writeStore, Action.run_pure]
  · rw [← hholds.contents_eq]
    simp only [contents, UnorderedMap.entries_assign_of_findIf _ hfound]
    congr 1
    exact map_rewriteFirst (fun _ _ => rfl) fun _ _ _ => rfl
  · intro other hother
    rw [UnorderedMap.keys_assign_of_findIf _ hfound] at hother
    exact hholds.drawn other hother

theorem Holds.deleteTable (region tableName : String) :
    ∃ after, (deleteTable region tableName).run [] world = .returns () after ∧
      Holds random after { held with
        tables := held.tables.filter fun table => !table.isNamed region tableName } := by
  refine ⟨⟨{ world.store with
    tables := world.store.tables.eraseIf (Table.isNamed region tableName) }, world.draws⟩,
    rfl, ?_, ?_⟩
  · rw [← hholds.contents_eq]
    simp only [contents, UnorderedMap.eraseIf, List.filter_map]
    rfl
  · intro key hkey
    rcases List.mem_append.mp hkey with hold | hold
    · exact hholds.drawn key (List.mem_append_left _ (UnorderedMap.keys_eraseIf_subset _ _ hold))
    · exact hholds.drawn key (List.mem_append_right _ hold)

theorem Holds.eraseItems (select : Item → Bool) :
    Holds random ⟨{ world.store with items := world.store.items.eraseIf select }, world.draws⟩
      { held with items := held.items.filter fun item => !select item } := by
  constructor
  · rw [← hholds.contents_eq]
    simp only [contents, UnorderedMap.values_eraseIf]
  · intro key hkey
    rcases List.mem_append.mp hkey with hold | hold
    · exact hholds.drawn key (List.mem_append_left _ hold)
    · exact hholds.drawn key (List.mem_append_right _ (UnorderedMap.keys_eraseIf_subset _ _ hold))

theorem Holds.deleteItems (region tableName : String) :
    ∃ after, (deleteItems region tableName).run [] world =
        .returns (held.items.countP (Item.isIn region tableName) : Nat) after ∧
      Holds random after { held with
        items := held.items.filter fun item => !item.isIn region tableName } := by
  refine ⟨_, ?_, hholds.eraseItems (Item.isIn region tableName)⟩
  rw [← hholds.contents_eq]
  simp only [MemoryRepository.deleteItems, Action.run_scopedLock_free (List.not_mem_nil),
    Action.run_bind, readItems, Call.run_readStore, Outcome.andThen_returns, writeItems,
    Call.run_writeStore, Action.run_pure, UnorderedMap.countIf_eq_countP, contents]

end Writes

section Items

variable {random : RandomSource} {world : World MemoryStore} {held : Contents}

section

variable (hholds : Holds random world held)
include hholds

theorem Holds.items_eq :
    world.store.items.values = held.items := by
  rw [← hholds.contents_eq]
  rfl

theorem Holds.find?_items (select : Item → Bool) :
    held.items.find? select = (world.store.items.findIf select).map Prod.snd := by
  rw [UnorderedMap.map_snd_findIf, hholds.items_eq]

theorem Holds.itemExists (item : Item) :
    (itemExists item).run [] world = .returns (held.items.any (isSameItem item)) world := by
  have hany : (world.store.items.findIf (isSameItem item)).isSome =
      held.items.any (isSameItem item) := by
    rw [← Option.isSome_map, ← hholds.find?_items, Bool.eq_iff_iff, List.find?_isSome,
      List.any_eq_true]
  simp only [MemoryRepository.itemExists, Action.run_bind, readItems, Call.run_readStore,
    Outcome.andThen_returns, Action.run_pure, hany]

end

variable {partitionKey sortKey : KeyValue} {region tableName : String} {item : Item}

variable (hholds : Holds random world held)
include hholds

theorem Holds.getItem_found (hfind : held.items.find? (fun other => other.isIn region tableName &&
      other.hasKeys partitionKey sortKey) = some item) :
    (getItemByKeys region tableName partitionKey sortKey).run [] world =
      .returns item world := by
  rw [hholds.find?_items, Option.map_eq_some_iff] at hfind
  obtain ⟨⟨key, found⟩, hfound, rfl⟩ := hfind
  simp only [getItemByKeys, Action.run_bind, readItems, Call.run_readStore,
    Outcome.andThen_returns, hfound, Action.run_pure]

theorem Holds.getItem_missing (hfind : held.items.find? (fun other => other.isIn region tableName &&
      other.hasKeys partitionKey sortKey) = none) :
    (getItemByKeys region tableName partitionKey sortKey).run [] world =
      .halts (.exception (.database ("Get item by keys failed, region: " ++ region ++
        ", tableName: " ++ tableName))) world := by
  rw [hholds.find?_items, Option.map_eq_none_iff] at hfind
  simp only [getItemByKeys, Action.run_bind, readItems, Call.run_readStore,
    Outcome.andThen_returns, hfind, Action.run_raise]

theorem Holds.createItem (item : Item) :
    ∃ after, (createItem random item).run [] world =
        .returns { item with oid := random.uuid world.draws } after ∧
      Holds random after
        { held with items := held.items ++ [{ item with oid := random.uuid world.draws }] } := by
  have hnew : random.uuid world.draws ∉ world.store.items.keys := fun hkey =>
    hholds.fresh (List.mem_append_right _ hkey) rfl
  refine ⟨⟨{ world.store with
    items := world.store.items.assign (random.uuid world.draws)
      { item with oid := random.uuid world.draws } }, world.draws + 1⟩, rfl, ?_, ?_⟩
  · rw [← hholds.contents_eq]
    simp only [contents, UnorderedMap.values, UnorderedMap.entries_assign_of_new _ hnew,
      List.map_append, List.map_cons, List.map_nil]
  · intro key hkey
    rw [UnorderedMap.keys, UnorderedMap.keys, UnorderedMap.entries_assign_of_new _ hnew] at hkey
    simp only [List.map_append, List.map_cons, List.map_nil, List.mem_append,
      List.mem_singleton] at hkey
    rcases hkey with hold | hold | rfl
    · obtain ⟨draw, hdraw, heq⟩ := hholds.drawn key (List.mem_append_left _ hold)
      exact ⟨draw, Nat.lt_succ_of_lt hdraw, heq⟩
    · obtain ⟨draw, hdraw, heq⟩ := hholds.drawn key (List.mem_append_right _ hold)
      exact ⟨draw, Nat.lt_succ_of_lt hdraw, heq⟩
    · exact ⟨world.draws, Nat.lt_succ_self _, rfl⟩

theorem Holds.putItem_new (now : Time)
    (hnew : ∀ other ∈ held.items, isSameItem item other = false) :
    ∃ after, (createOrUpdateItem random now item).run [] world =
        .returns { item with oid := random.uuid world.draws } after ∧
      Holds random after
        { held with items := held.items ++ [{ item with oid := random.uuid world.draws }] } := by
  obtain ⟨after, hcreate, hafter⟩ := hholds.createItem item
  refine ⟨after, ?_, hafter⟩
  have hnone : held.items.any (isSameItem item) = false :=
    List.any_eq_false.mpr fun other hother => Bool.eq_false_iff.mp (hnew other hother)
  rw [createOrUpdateItem, Action.run_bind, hholds.itemExists, hnone, Outcome.andThen_returns,
    if_neg Bool.false_ne_true, hcreate]

theorem Holds.putItem_old (now : Time) (hold : ∃ other ∈ held.items, isSameItem item other = true) :
    ∃ after, (createOrUpdateItem random now item).run [] world = .returns item after ∧
      Holds random after
        { held with items := rewriteFirst (isSameItem item) (fun _ => item) held.items } := by
  have hsome : held.items.any (isSameItem item) = true := List.any_eq_true.mpr hold
  obtain ⟨old, hfind⟩ : ∃ old, held.items.find? (isSameItem item) = some old :=
    Option.isSome_iff_exists.mp (List.find?_isSome.mpr hold)
  rw [hholds.find?_items, Option.map_eq_some_iff] at hfind
  obtain ⟨⟨key, old⟩, hfound, -⟩ := hfind
  refine ⟨⟨{ world.store with items := world.store.items.assign key item }, world.draws⟩,
    ?_, ?_, ?_⟩
  · rw [createOrUpdateItem, Action.run_bind, hholds.itemExists, hsome, Outcome.andThen_returns,
      if_pos rfl]
    simp only [updateItem, Action.run_scopedLock_free (List.not_mem_nil), Action.run_bind,
      readItems, Call.run_readStore, Outcome.andThen_returns, hfound, writeItems,
      Call.run_writeStore, Action.run_pure]
  · rw [← hholds.contents_eq]
    simp only [contents, UnorderedMap.values, UnorderedMap.entries_assign_of_findIf _ hfound]
    congr 1
    exact map_rewriteFirst (fun _ _ => rfl) fun _ _ _ => rfl
  · intro other hother
    rw [UnorderedMap.keys_assign_of_findIf _ hfound] at hother
    exact hholds.drawn other hother

theorem Holds.deleteItem (region tableName partitionKey sortKey : String) :
    ∃ after, (deleteItem region tableName partitionKey sortKey).run [] world = .returns () after ∧
      Holds random after { held with items := held.items.filter fun item =>
        !(item.isIn region tableName && item.hasKeys (.string partitionKey) (.string sortKey)) } :=
  ⟨_, rfl, hholds.eraseItems _⟩

theorem Holds.adjustItemCounters :
    ∃ after, adjustItemCounters.run [] world = .returns () after ∧
      Holds random after { held with tables := held.tables.map fun table =>
        let counted := held.items.filter fun item => item.tableName = table.name
        { table with items := counted.length, size := (counted.map Item.size).sum } } := by
  refine ⟨_, rfl, ?_, ?_⟩
  · rw [← hholds.contents_eq]
    simp only [contents, UnorderedMap.rewriteIf, List.map_map]
    rfl
  · intro key hkey
    refine hholds.drawn key ?_
    rcases List.mem_append.mp hkey with hold | hold
    · refine List.mem_append_left _ ?_
      simpa [UnorderedMap.keys, UnorderedMap.rewriteIf] using hold
    · exact List.mem_append_right _ hold

end Items

end MemoryRepository

end AwsMock.DynamoDb
