import AwsMock.DynamoDb.Laws

/-! # Items under string keys

The service looks items up by two strings. Where no other item is found under
them, both repositories read, replace and delete exactly the item that has them
as its keys.
-/

namespace AwsMock.DynamoDb

open Foundation BsonUtils

variable {Store : Type}

def Item.key (item : Item) : (String × String) × KeyValue × KeyValue :=
  (item.place, item.partitionKey, item.sortKey)

abbrev stringsKey (region name partitionKey sortKey : String) :
    (String × String) × KeyValue × KeyValue :=
  ((region, name), .string partitionKey, .string sortKey)

/-- A lookup by two strings finds the item under them and no other. -/
def Behaviour.Pinned (behaviour : Behaviour) (held : Contents)
    (region name partitionKey sortKey : String) : Prop :=
  ∀ item ∈ held.items,
    behaviour.looksFor region name (.string partitionKey) (.string sortKey) item =
      decide (item.key = stringsKey region name partitionKey sortKey)

/-- The keys of the item are strings, and are those its attributes give it. -/
structure Item.KeyedBy (item : Item) (table : Table) (partitionKey sortKey : String) : Prop where
  partitionKey_eq : item.partitionKey = .string partitionKey
  sortKey_eq : item.sortKey = .string sortKey
  partition : lookup table.getPartitionKeyName item.attributes = some (.string partitionKey)
  sort : if table.getSortKeyName = "" then sortKey = "" else
    lookup table.getSortKeyName item.attributes = some (.string sortKey)

/-- The laws of the functions that read, store and delete one item. -/
structure Repository.Keyed (db : Repository Store) (holds : World Store → Contents → Prop)
    (behaviour : Behaviour) : Prop where
  itemExistsByKeys : ∀ {world held region name}, holds world held →
    (∀ item ∈ held.items, item.isIn region name = true →
      ∃ partitionKey sortKey, item.key = stringsKey region name partitionKey sortKey) →
    ∀ partitionKey sortKey, ∃ found,
      (db.itemExistsByKeys region name partitionKey sortKey).run [] world = .returns found world ∧
      ((∃ item ∈ held.items, item.key = stringsKey region name partitionKey sortKey) → found = true)
  getItem_some : ∀ {world held region name partitionKey sortKey item attributes},
    holds world held → behaviour.Pinned held region name partitionKey sortKey →
    findKey Item.key (stringsKey region name partitionKey sortKey) held.items = some item →
    behaviour.reads item.attributes = .ok attributes → ∀ now,
    ∃ read, (db.getItemByKeys now region name (.string partitionKey) (.string sortKey)).run []
      world = .returns read world ∧ read.attributes = attributes
  getItem_none : ∀ {world held region name partitionKey sortKey},
    holds world held → behaviour.Pinned held region name partitionKey sortKey →
    findKey Item.key (stringsKey region name partitionKey sortKey) held.items = none → ∀ now,
    ∃ message, (db.getItemByKeys now region name (.string partitionKey) (.string sortKey)).run []
      world = .halts (.exception (.database message)) world
  putItem : ∀ {world held table item attributes partitionKey sortKey}, holds world held →
    held.tables.find? (Table.isNamed item.region item.tableName) = some table →
    behaviour.Pinned held item.region item.tableName partitionKey sortKey →
    item.KeyedBy table partitionKey sortKey → behaviour.reads item.attributes = .ok attributes →
    (∀ old, findKey Item.key item.key held.items = some old →
      ∃ read, behaviour.reads old.attributes = .ok read) → ∀ now,
    ∃ stored created after, (db.createOrUpdateItem now item).run [] world = .returns created after ∧
      holds after { held with items := upsert Item.key stored held.items } ∧
      stored.key = item.key ∧ behaviour.reads stored.attributes = .ok attributes
  deleteItem : ∀ {world held region name partitionKey sortKey old attributes}, holds world held →
    behaviour.Pinned held region name partitionKey sortKey →
    findKey Item.key (stringsKey region name partitionKey sortKey) held.items = some old →
    behaviour.reads old.attributes = .ok attributes → (∀ other ∈ held.items, other.key = old.key → other = old) →
    ∀ now, ∃ after, (db.deleteItem now region name partitionKey sortKey).run [] world =
        .returns () after ∧
      holds after { held with
        items := removeKey Item.key (stringsKey region name partitionKey sortKey) held.items }

variable {region name partitionKey sortKey : String} {item : Item}

theorem find?_looksFor {behaviour : Behaviour} {held : Contents}
    (hpinned : behaviour.Pinned held region name partitionKey sortKey) :
    held.items.find? (behaviour.looksFor region name (.string partitionKey) (.string sortKey)) =
      findKey Item.key (stringsKey region name partitionKey sortKey) held.items :=
  List.find?_congr hpinned

theorem any_looksFor {behaviour : Behaviour} {held : Contents}
    (hpinned : behaviour.Pinned held region name partitionKey sortKey) :
    held.items.any (behaviour.looksFor region name (.string partitionKey) (.string sortKey)) =
      held.items.any fun item => item.key = stringsKey region name partitionKey sortKey := by
  rw [Bool.eq_iff_iff, List.any_eq_true, List.any_eq_true]
  exact exists_congr fun item => and_congr_right fun hitem => by rw [hpinned item hitem]

theorem Item.KeyedBy.key_eq {table : Table} {partitionKey sortKey : String}
    (hkeyed : item.KeyedBy table partitionKey sortKey) :
    item.key = stringsKey item.region item.tableName partitionKey sortKey := by
  rw [Item.key, hkeyed.partitionKey_eq, hkeyed.sortKey_eq, Item.place]

theorem Item.isIn_iff_place {region name : String} :
    item.isIn region name = true ↔ item.place = (region, name) := by
  rw [Item.isIn, Item.place, Bool.and_eq_true, decide_eq_true_eq, decide_eq_true_eq, Prod.mk.injEq]

namespace MemoryRepository

variable {random : RandomSource} {world : World MemoryStore} {held : Contents}

theorem looksFor_eq (region name : String) (partitionKey sortKey : KeyValue) (item : Item) :
    (item.isIn region name && item.hasKeys partitionKey sortKey) =
      decide (item.key = ((region, name), partitionKey, sortKey)) := by
  rw [Bool.eq_iff_iff, Bool.and_eq_true, Item.isIn_iff_place, Item.hasKeys, Bool.and_eq_true,
    decide_eq_true_eq, decide_eq_true_eq, decide_eq_true_eq, Item.key]
  simp

theorem pinned (held : Contents) (region name partitionKey sortKey : String) :
    memoryBehaviour.Pinned held region name partitionKey sortKey :=
  fun item _ => looksFor_eq region name (.string partitionKey) (.string sortKey) item

theorem Holds.itemExistsByKeys (hholds : Holds random world held) {region name : String}
    (hstrings : ∀ item ∈ held.items, item.isIn region name = true →
      ∃ partitionKey sortKey, item.key = stringsKey region name partitionKey sortKey)
    (partitionKey sortKey : String) :
    (itemExistsByKeys region name partitionKey sortKey).run [] world =
      .returns (held.items.any fun item =>
        item.key = stringsKey region name partitionKey sortKey) world := by
  have htest : ∀ item ∈ held.items, matchesStrings region name partitionKey sortKey item =
      .ok (decide (item.key = stringsKey region name partitionKey sortKey)) := by
    intro item hitem
    rw [matchesStrings]
    by_cases hin : item.isIn region name = true
    · rw [if_pos hin]
      obtain ⟨first, second, hkey⟩ := hstrings item hitem hin
      injection hkey with hplace hkeys
      injection hkeys with hfirst hsecond
      rw [hfirst, hsecond, Item.key, hplace, hfirst, hsecond]
      by_cases hsame : first = partitionKey
      · simp [stringKey, hsame, bind, Except.bind, pure, Except.pure]
      · simp [stringKey, hsame, bind, Except.bind, pure, Except.pure]
    · rw [if_neg hin, decide_eq_false]
      · rfl
      · intro hkey
        injection hkey with hplace _
        exact hin (Item.isIn_iff_place.mpr hplace)
  rw [MemoryRepository.itemExistsByKeys, Action.run_bind, readItems, Call.run_readStore,
    Outcome.andThen_returns, hholds.items_eq, anyM_eq_ok htest, Call.run_ofExcept_ok]

end MemoryRepository

theorem memoryRepository_keyed (random : RandomSource) :
    (memoryRepository random).Keyed (MemoryRepository.Holds random) memoryBehaviour where
  itemExistsByKeys hholds hstrings partitionKey sortKey := by
    refine ⟨_, hholds.itemExistsByKeys hstrings partitionKey sortKey, ?_⟩
    rintro ⟨item, hitem, hkey⟩
    exact List.any_eq_true.mpr ⟨item, hitem, decide_eq_true hkey⟩
  getItem_some hholds hpinned hfind hreads _ := by
    injection hreads with hreads
    rw [← find?_looksFor hpinned] at hfind
    exact ⟨_, hholds.getItem_found hfind, hreads⟩
  getItem_none hholds hpinned hfind _ := by
    rw [← find?_looksFor hpinned] at hfind
    exact ⟨_, hholds.getItem_missing hfind⟩
  putItem := by
    intro world held table item attributes partitionKey sortKey hholds _ _ _ hreads _ now
    have hsame : ∀ other : Item, MemoryRepository.isSameItem item other =
        decide (other.key = item.key) := fun other =>
      MemoryRepository.looksFor_eq item.region item.tableName item.partitionKey item.sortKey other
    cases hfind : findKey Item.key item.key held.items with
    | none =>
      have hnew : ∀ other ∈ held.items, MemoryRepository.isSameItem item other = false := by
        intro other hother
        rw [hsame, decide_eq_false_iff_not]
        exact findKey_eq_none.mp hfind other hother
      obtain ⟨after, hrun, hafter⟩ := hholds.putItem_new now hnew
      have hkey : Item.key { item with oid := random.uuid world.draws } = item.key := rfl
      refine ⟨_, _, after, hrun, ?_, hkey, hreads⟩
      rwa [upsert_of_findKey_none (by rw [hkey]; exact hfind)]
    | some old =>
      have hold : ∃ other ∈ held.items, MemoryRepository.isSameItem item other = true :=
        ⟨old, mem_of_findKey hfind, by rw [hsame, decide_eq_true_eq]; exact key_of_findKey hfind⟩
      obtain ⟨after, hrun, hafter⟩ := hholds.putItem_old now hold
      refine ⟨item, item, after, hrun, ?_, rfl, hreads⟩
      rw [upsert_of_findKey_some hfind]
      rwa [funext hsame] at hafter
  deleteItem := by
    intro world held region name partitionKey sortKey old attributes hholds _ _ _ _ _
    obtain ⟨after, hrun, hafter⟩ := hholds.deleteItem region name partitionKey sortKey
    refine ⟨after, hrun, ?_⟩
    have hremove : held.items.filter (fun item => !(item.isIn region name &&
        item.hasKeys (.string partitionKey) (.string sortKey))) =
        removeKey Item.key (stringsKey region name partitionKey sortKey) held.items := by
      apply List.filter_congr
      intro item _
      rw [MemoryRepository.looksFor_eq, decide_not]
    rwa [hremove] at hafter

namespace MongoRepository

variable {random : RandomSource} {world : World MongoStore} {held : Contents}

theorem Holds.itemExistsByKeys (hholds : Holds random world held)
    (region name partitionKey sortKey : String) :
    ∃ found, (itemExistsByKeys region name partitionKey sortKey).run [] world =
        .returns found world ∧
      ((∃ item ∈ held.items, item.key = stringsKey region name partitionKey sortKey) →
        found = true) := by
  refine ⟨_, rfl, ?_⟩
  rintro ⟨item, hitem, hkey⟩
  obtain ⟨document, hdocument, hstored⟩ := exists_of_forall₂_left hholds.items hitem
  injection hkey with hplace hkeys
  injection hplace with hregion hname
  injection hkeys with hpartition hsort
  have hfirst : document.get? "partitionKey" = some (.scalar (.string partitionKey)) := by
    rw [hstored.partitionKey, hpartition]
    rfl
  have hsecond : document.get? "sortKey" = some (.scalar (.string sortKey)) := by
    rw [hstored.sortKey, hsort]
    rfl
  rw [anyDocument_eq, List.any_eq_true]
  refine ⟨document, hdocument, ?_⟩
  rw [accepts_append, accepts_append, accepts_placeFilter hstored, accepts_unlessEmpty,
    accepts_unlessEmpty, hfirst, hsecond, Item.isListed, hregion, hname]
  simp [Condition.holds, Value.is_scalar]

theorem typedKeys_of_keyedBy {item : Item} {table : Table} {partitionKey sortKey : String}
    (hkeyed : item.KeyedBy table partitionKey sortKey) :
    typedKeys table item = .ok (.string partitionKey, .string sortKey, item) := by
  have hpartition : item.attribute table.getPartitionKeyName = .string partitionKey := by
    rw [Item.attribute, hkeyed.partition]
    rfl
  have hwith : ∀ name value, lookup name item.attributes = some value →
      item.withAttribute name = item := by
    intro name value hlookup
    rw [Item.withAttribute, hlookup]
    rfl
  have hsort := hkeyed.sort
  by_cases hname : table.getSortKeyName = ""
  · rw [if_pos hname] at hsort
    simp only [typedKeys, hpartition, hwith _ _ hkeyed.partition, dynamoVariantToKeyValue, hname,
      hsort, bind, Except.bind, pure, Except.pure, ne_eq, not_true_eq_false, if_false]
  · rw [if_neg hname] at hsort
    have hattribute : item.attribute table.getSortKeyName = .string sortKey := by
      rw [Item.attribute, hsort]
      rfl
    simp only [typedKeys, hpartition, hwith _ _ hkeyed.partition, dynamoVariantToKeyValue, hname,
      hattribute, hwith _ _ hsort, bind, Except.bind, pure, Except.pure, ne_eq, not_false_eq_true,
      if_true]

theorem Holds.upsert_eq (hholds : Holds random world held) {old replaced : Item}
    (hfind : findKey Item.key replaced.key held.items = some old) :
    rewriteFirst (fun other => other.oid = old.oid) (fun _ => replaced) held.items =
      upsert Item.key replaced held.items := by
  have hmem := mem_of_findKey hfind
  have hold : held.items.find? (fun other => other.oid = old.oid) = some old := by
    cases hfound : held.items.find? fun other => other.oid = old.oid with
    | none =>
      exact absurd (decide_eq_true rfl) (List.find?_eq_none.mp hfound old hmem)
    | some other =>
      have hoid : other.oid = old.oid := by simpa using List.find?_some hfound
      rw [List.inj_on_of_nodup_map hholds.nodup (List.mem_of_find?_eq_some hfound) hmem hoid]
  rw [upsert_of_findKey_some hfind, rewriteFirst_eq_map hholds.nodup,
    rewriteFirst_eq_map hholds.nodup, hold]
  rw [findKey] at hfind
  rw [hfind]

end MongoRepository

theorem Item.exists_toBsonMap {attributes : Attributes}
    (hreads : item.rereadAttributes = .ok attributes) :
    ∃ fields, toBsonMap item.attributes = .ok fields := by
  obtain ⟨fields, hfields, -⟩ := bind_eq_ok.mp hreads
  exact ⟨fields, hfields⟩

theorem mongoRepository_keyed (random : RandomSource) :
    (mongoRepository random).Keyed (MongoRepository.Holds random) mongoBehaviour where
  itemExistsByKeys hholds _ := hholds.itemExistsByKeys _ _
  getItem_some := by
    intro world held region name partitionKey sortKey item attributes hholds hpinned hfind hreads now
    have hrun := hholds.getItem now region name (.string partitionKey) (.string sortKey)
    have hfound := find?_looksFor hpinned
    change held.items.find? (Item.isFound _ _ _ _) = _ at hfound
    rw [hfound, hfind] at hrun
    have hread : item.reread = .ok { item with attributes } :=
      Item.reread_eq_ok.mpr ⟨attributes, hreads, rfl⟩
    change _ = (Call.ofExcept item.reread).run [] world at hrun
    rw [hread] at hrun
    exact ⟨_, hrun, rfl⟩
  getItem_none := by
    intro world held region name partitionKey sortKey hholds hpinned hfind now
    have hrun := hholds.getItem now region name (.string partitionKey) (.string sortKey)
    have hfound := find?_looksFor hpinned
    change held.items.find? (Item.isFound _ _ _ _) = _ at hfound
    rw [hfound, hfind] at hrun
    exact ⟨_, hrun⟩
  putItem := by
    intro world held table item attributes partitionKey sortKey hholds htable hpinned hkeyed hreads
      hreadable now
    have hcreate : (mongoRepository random).createOrUpdateItem now item =
        MongoRepository.createOrUpdateItem random now item := rfl
    have hany := any_looksFor hpinned
    change held.items.any (Item.isFound _ _ _ _) = _ at hany
    rw [← hkeyed.key_eq, ← hkeyed.partitionKey_eq, ← hkeyed.sortKey_eq] at hany
    have hfound := find?_looksFor hpinned
    change held.items.find? (Item.isFound _ _ _ _) = _ at hfound
    rw [← hkeyed.key_eq] at hfound
    obtain ⟨fields, hfields⟩ := Item.exists_toBsonMap hreads
    rw [hcreate, MongoRepository.createOrUpdateItem, Action.run_bind, hholds.itemExists, hany,
      Outcome.andThen_returns]
    cases hfind : findKey Item.key item.key held.items with
    | none =>
      obtain ⟨size, after, hrun, hafter⟩ := hholds.createItem_ok now item hfields
      have hnone : held.items.any (fun other => other.key = item.key) = false := by
        simpa using findKey_eq_none.mp hfind
      have hkey : Item.key { item with created := now, oid := random.uuid world.draws } =
          item.key := rfl
      rw [hnone, if_neg Bool.false_ne_true]
      refine ⟨_, _, after, hrun, ?_, hkey, hreads⟩
      rwa [upsert_of_findKey_none (by rw [hkey]; exact hfind)]
    | some old =>
      have hsome : held.items.any (fun other => other.key = item.key) = true :=
        List.any_eq_true.mpr ⟨old, mem_of_findKey hfind, decide_eq_true (key_of_findKey hfind)⟩
      have hmoved : Item.KeyedBy { item with modified := now } table partitionKey sortKey :=
        ⟨hkeyed.partitionKey_eq, hkeyed.sortKey_eq, hkeyed.partition, hkeyed.sort⟩
      have htyped := MongoRepository.typedKeys_of_keyedBy hmoved
      obtain ⟨read, hread⟩ := hreadable old hfind
      obtain ⟨replaced, after, hreplaced, hrun, hafter⟩ := hholds.replaceItem_found now htable
        htyped (hfound.trans hfind) ⟨_, Item.reread_eq_ok.mpr ⟨read, hread, rfl⟩⟩ hfields
      have hkey : replaced.key = item.key := by
        rw [hreplaced]
        change old.key = item.key
        exact key_of_findKey hfind
      have hreplacedReads : replaced.rereadAttributes = .ok attributes := by
        rw [hreplaced]
        exact hreads
      have hreread : replaced.reread = .ok { replaced with attributes } :=
        Item.reread_eq_ok.mpr ⟨attributes, hreplacedReads, rfl⟩
      rw [hsome, if_pos rfl, MongoRepository.updateItem]
      rw [hreread] at hrun
      refine ⟨replaced, _, after, Action.run_rethrow_eq_returns.mpr hrun, ?_, hkey, hreplacedReads⟩
      rwa [hholds.upsert_eq (by rw [hkey]; exact hfind)] at hafter
  deleteItem := by
    intro world held region name partitionKey sortKey old attributes hholds hpinned hfind hreads
      hsingle now
    have hfound := find?_looksFor hpinned
    change held.items.find? (Item.isFound _ _ _ _) = _ at hfound
    obtain ⟨after, hrun, hafter⟩ := hholds.deleteItem now (hfound.trans hfind)
      ⟨_, Item.reread_eq_ok.mpr ⟨attributes, hreads, rfl⟩⟩
    refine ⟨after, hrun, ?_⟩
    have hmem := mem_of_findKey hfind
    have hremove : removeKey Item.oid old.oid held.items =
        removeKey Item.key (stringsKey region name partitionKey sortKey) held.items := by
      apply List.filter_congr
      intro item hitem
      rw [decide_eq_decide, not_iff_not, ← key_of_findKey hfind]
      constructor
      · intro hoid
        rw [List.inj_on_of_nodup_map hholds.nodup hitem hmem hoid]
      · intro hkey
        rw [hsingle item hitem hkey]
    rwa [hremove] at hafter

end AwsMock.DynamoDb
