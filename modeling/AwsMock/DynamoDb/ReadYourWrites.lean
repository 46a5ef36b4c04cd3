import AwsMock.DynamoDb.ItemLaws
import AwsMock.DynamoDb.RoundTrip

/-! # Reading what was written

A table is a map from primary keys to attributes. The service makes the key of
an item of the strings of two attributes, and looks for an item without keys
before it deletes one. Over a run of puts and deletes whose keys are strings,
whose attributes are read back as they were written and whose deletes do delete,
`GetItem` returns what was last written under its key.
-/

namespace AwsMock.DynamoDb

open Foundation Mapper

variable {Store : Type}

/-- The primary key of attributes whose key attributes are strings. Without a
sort key, no string may stand under the empty name. -/
def Table.stringKey (table : Table) (attributes : Dto.AttributeMap) : Option (String × String) :=
  match lookup table.getPartitionKeyName attributes with
  | some (.s partitionKey) =>
    if table.getSortKeyName = "" then
      if attributes.stringValue "" = "" then some (partitionKey, "") else none
    else
      match lookup table.getSortKeyName attributes with
      | some (.s sortKey) => some (partitionKey, sortKey)
      | _ => none
  | _ => none

structure Table.HasStrings (table : Table) (attributes : Dto.AttributeMap)
    (partitionKey sortKey : String) : Prop where
  partition : lookup table.getPartitionKeyName attributes = some (.s partitionKey)
  sort : if table.getSortKeyName = "" then sortKey = "" else
    lookup table.getSortKeyName attributes = some (.s sortKey)
  partitionString : attributes.stringValue table.getPartitionKeyName = partitionKey
  sortString : attributes.stringValue table.getSortKeyName = sortKey

variable {attributes : Dto.AttributeMap} {partitionKey sortKey : String}

theorem Table.hasStrings_of_stringKey {table : Table}
    (hkey : table.stringKey attributes = some (partitionKey, sortKey)) :
    table.HasStrings attributes partitionKey sortKey := by
  rw [stringKey] at hkey
  split at hkey
  next first hpartition =>
    split at hkey
    next hname =>
      split at hkey
      next hstring =>
        cases hkey
        refine ⟨hpartition, by rw [if_pos hname], ?_, by rw [hname]; exact hstring⟩
        rw [Dto.AttributeMap.stringValue, hpartition]
        rfl
      next => cases hkey
    next hname =>
      split at hkey
      next second hsort =>
        cases hkey
        refine ⟨hpartition, by rw [if_neg hname]; exact hsort, ?_, ?_⟩
        · rw [Dto.AttributeMap.stringValue, hpartition]
          rfl
        · rw [Dto.AttributeMap.stringValue, hsort]
          rfl
      next => cases hkey
  next => cases hkey

theorem lookup_mapAttributeMap {mapped : Attributes}
    (hmap : mapAttributeMap attributes = .ok mapped) {name value : String}
    (hlookup : lookup name attributes = some (.s value)) :
    lookup name mapped = some (.string value) := by
  induction attributes generalizing mapped with
  | nil => cases hlookup
  | cons entry rest ih =>
    rw [mapAttributeMap] at hmap
    obtain ⟨first, hfirst, hrest⟩ := bind_eq_ok.mp hmap
    obtain ⟨others, hothers, hresult⟩ := bind_eq_ok.mp hrest
    cases hresult
    rw [lookup, List.find?_cons] at hlookup ⊢
    by_cases hname : entry.1 = name
    · simp only [hname, decide_true, Option.map_some, Option.some.injEq] at hlookup ⊢
      rw [hlookup] at hfirst
      cases hfirst
      rfl
    · simp only [hname, decide_false] at hlookup ⊢
      exact ih hothers hlookup

theorem Table.HasStrings.keyedBy (context : Context) {table : Table}
    {request : Dto.PutItemRequest} {item : Item} {now : Time}
    (hstrings : table.HasStrings request.attributes partitionKey sortKey)
    (hmap : mapPutItemRequest now request = .ok item) :
    (Service.keyedItem context request table item).KeyedBy table partitionKey sortKey := by
  obtain ⟨mapped, hmapped, hitem⟩ := bind_eq_ok.mp hmap
  cases hitem
  refine ⟨congrArg _ hstrings.partitionString, congrArg _ hstrings.sortString,
    lookup_mapAttributeMap hmapped hstrings.partition, ?_⟩
  have hsort := hstrings.sort
  split
  next hname => rwa [if_pos hname] at hsort
  next hname =>
    rw [if_neg hname] at hsort
    exact lookup_mapAttributeMap hmapped hsort

section Store

variable (behaviour : Behaviour) (held : Contents) (region name : String)

/-- The attributes under a key, as they are returned, with sets in order. -/
def Contents.shown (key : String × String) : Option Dto.AttributeMap :=
  (findKey Item.key (stringsKey region name key.1 key.2) held.items).bind fun item =>
    match behaviour.reads item.attributes with
    | .ok attributes => some (AttributeValue.canonicalMap (mapDynamoMap attributes))
    | .error _ => none

/-- The items of the table have keys of strings, can be read, and no two of them
have the same key. -/
structure Contents.IsKeyed : Prop where
  strings : ∀ item ∈ held.items, item.isIn region name = true →
    ∃ partitionKey sortKey, item.key = stringsKey region name partitionKey sortKey
  readable : ∀ item ∈ held.items, item.isIn region name = true →
    ∃ attributes, behaviour.reads item.attributes = .ok attributes
  distinct : ((held.items.filter (Item.isIn region name)).map Item.key).Nodup

structure Contents.Serves (table : Table) extends Contents.IsKeyed behaviour held region name where
  schema : ∃ found, held.tables.find? (Table.isNamed region name) = some found ∧
    found.keySchema = table.keySchema

variable {behaviour held region name}

theorem Contents.IsKeyed.exists_of_key (hkeyed : held.IsKeyed behaviour region name)
    {partitionKey sortKey : String} {item : Item}
    (hfind : findKey Item.key (stringsKey region name partitionKey sortKey) held.items = some item) :
    ∃ attributes, behaviour.reads item.attributes = .ok attributes := by
  have hkey := key_of_findKey hfind
  injection hkey with hplace _
  exact hkeyed.readable item (mem_of_findKey hfind) (Item.isIn_iff_place.mpr hplace)

end Store

section Requests

variable {db : Repository Store} {holds : World Store → Contents → Prop} {behaviour : Behaviour}
  {world : World Store} {held : Contents} {region name : String} {table : Table}
  (context : Context) (now : Time)

theorem Table.keyName_eq {first second : Table} (hschema : first.keySchema = second.keySchema)
    (keyType : String) : first.keyName keyType = second.keyName keyType := by
  rw [Table.keyName, Table.keyName, hschema]

theorem Table.stringKey_eq {first second : Table} (hschema : first.keySchema = second.keySchema)
    (attributes : Dto.AttributeMap) : first.stringKey attributes = second.stringKey attributes := by
  have hpartition : first.getPartitionKeyName = second.getPartitionKeyName :=
    Table.keyName_eq hschema "HASH"
  have hsort : first.getSortKeyName = second.getSortKeyName := Table.keyName_eq hschema "RANGE"
  rw [Table.stringKey, Table.stringKey, hpartition, hsort]

variable {partitionKey sortKey : String} {tables : List Table}

theorem exists_isNamed_of_find? {found : Table}
    (hfind : tables.find? (Table.isNamed region name) = some found) :
    ∃ table ∈ tables, table.isNamed region name = true :=
  ⟨found, List.mem_of_find?_eq_some hfind, List.find?_some hfind⟩

theorem run_getItem (hlawful : db.Lawful holds behaviour) (hkeyed : db.Keyed holds behaviour)
    (hholds : holds world held) (hserves : held.Serves behaviour region name table)
    {keys : Dto.AttributeMap}
    (hkey : table.stringKey keys = some (partitionKey, sortKey))
    (hpinned : behaviour.Pinned held region name partitionKey sortKey) :
    ∃ response after, (Service.getItem db now ⟨region, name, keys⟩).run [] world =
        .returns response after ∧
      AttributeValue.canonicalMap response.attributes =
        (held.shown behaviour region name (partitionKey, sortKey)).getD [] := by
  obtain ⟨found, hfind, hschema⟩ := hserves.schema
  obtain ⟨read, after, hget, hafter, hagrees⟩ := hlawful.getTable_found hholds now hfind
  rw [← Table.stringKey_eq (hagrees.keySchema.trans hschema)] at hkey
  have hstrings := Table.hasStrings_of_stringKey hkey
  obtain ⟨isThere, hexists, hany⟩ :=
    hkeyed.itemExistsByKeys hafter hserves.strings partitionKey sortKey
  suffices hbody : ∃ response, (do
      if ← db.itemExistsByKeys region name partitionKey sortKey then
        Service.getItemAttributes db now ⟨region, name, keys⟩ partitionKey sortKey
      else return {} : Call Mutex Store Dto.GetItemResponse).run [] after =
        .returns response after ∧
      AttributeValue.canonicalMap response.attributes =
        (held.shown behaviour region name (partitionKey, sortKey)).getD [] by
    obtain ⟨response, hbody, hattributes⟩ := hbody
    refine ⟨response, after, ?_, hattributes⟩
    rw [Service.getItem, Action.run_bind, Service.run_requireTable
      (Service.tableExists_of_isNamed hlawful hholds (exists_isNamed_of_find? hfind)),
      Outcome.andThen_returns, Action.run_rethrow_eq_returns, Action.run_bind, hget,
      Outcome.andThen_returns]
    simp only [hstrings.partitionString, hstrings.sortString]
    exact hbody
  rw [Action.run_bind, hexists, Outcome.andThen_returns, Contents.shown]
  cases hitem : findKey Item.key (stringsKey region name partitionKey sortKey) held.items with
  | some item =>
    have htrue : isThere = true := hany ⟨item, mem_of_findKey hitem, key_of_findKey hitem⟩
    obtain ⟨attributes, hreads⟩ := hserves.exists_of_key hitem
    obtain ⟨stored, hrun, hstored⟩ := hkeyed.getItem_some hafter hpinned hitem hreads now
    refine ⟨{ attributes := mapDynamoMap stored.attributes }, ?_, ?_⟩
    · rw [htrue, if_pos rfl]
      apply Action.run_tryCatch_of_returns
      rw [Action.run_bind, hrun]
      rfl
    · simp only [Option.bind_some, hreads, Option.getD_some, hstored]
  | none =>
    obtain ⟨message, hrun⟩ := hkeyed.getItem_none hafter hpinned hitem now
    refine ⟨{}, ?_, rfl⟩
    cases isThere with
    | false => rfl
    | true =>
      -- the search by strings skips empty ones; the lookup then finds nothing
      rw [if_pos rfl, Service.getItemAttributes, Action.run_tryCatch, Action.run_bind, hrun]
      rfl

theorem stringsKey_inj {first second : String × String} :
    stringsKey region name first.1 first.2 = stringsKey region name second.1 second.2 ↔
      first = second := by
  simp [Prod.ext_iff]

theorem Contents.Serves.upsert {stored : Item} {key : String × String}
    {attributes : Attributes} (hserves : held.Serves behaviour region name table)
    (hschema : ∃ found, tables.find? (Table.isNamed region name) = some found ∧
      found.keySchema = table.keySchema)
    (hkey : stored.key = stringsKey region name key.1 key.2)
    (hreads : behaviour.reads stored.attributes = .ok attributes) :
    Contents.Serves behaviour ⟨tables, Foundation.upsert Item.key stored held.items⟩ region name
        table ∧
      Contents.shown behaviour ⟨tables, Foundation.upsert Item.key stored held.items⟩ region name =
        (Write.put key (AttributeValue.canonicalMap (mapDynamoMap attributes))).apply
          (held.shown behaviour region name) := by
  have hplace : stored.place = (region, name) := congrArg Prod.fst hkey
  constructor
  · constructor
    · constructor
      · intro item hitem hin
        rcases mem_upsert hitem with rfl | hold
        · exact ⟨key.1, key.2, hkey⟩
        · exact hserves.strings item hold hin
      · intro item hitem hin
        rcases mem_upsert hitem with rfl | hold
        · exact ⟨attributes, hreads⟩
        · exact hserves.readable item hold hin
      · rw [filter_upsert]
        · exact nodup_upsert hserves.distinct
        · intro other hother
          have hsame : other.place = stored.place := congrArg Prod.fst hother
          rw [Item.isIn_eq, Item.isIn_eq, hsame]
        · exact Item.isIn_iff_place.mpr hplace
    · exact hschema
  · funext other
    rw [Contents.shown, findKey_upsert, hkey, Write.apply_put]
    by_cases hother : other = key
    · rw [if_pos (stringsKey_inj.mpr hother.symm), if_pos hother, Option.bind_some, hreads]
    · rw [if_neg (fun heq => hother (stringsKey_inj.mp heq).symm), if_neg hother, Contents.shown]

theorem Contents.Serves.removeKey {key : String × String}
    (hserves : held.Serves behaviour region name table)
    (hschema : ∃ found, tables.find? (Table.isNamed region name) = some found ∧
      found.keySchema = table.keySchema) :
    Contents.Serves behaviour
        ⟨tables, Foundation.removeKey Item.key (stringsKey region name key.1 key.2) held.items⟩
        region name table ∧
      Contents.shown behaviour
        ⟨tables, Foundation.removeKey Item.key (stringsKey region name key.1 key.2) held.items⟩
        region name =
        (Write.delete key).apply (held.shown behaviour region name) := by
  constructor
  · constructor
    · constructor
      · exact fun item hitem => hserves.strings item (List.mem_of_mem_filter hitem)
      · exact fun item hitem => hserves.readable item (List.mem_of_mem_filter hitem)
      · rw [filter_removeKey]
        exact nodup_removeKey hserves.distinct
    · exact hschema
  · funext other
    rw [Contents.shown, findKey_removeKey, Write.apply_delete]
    by_cases hother : other = key
    · rw [if_pos (stringsKey_inj.mpr hother), if_pos hother]
      rfl
    · rw [if_neg (fun heq => hother (stringsKey_inj.mp heq)), if_neg hother, Contents.shown]

theorem run_putItem (hlawful : db.Lawful holds behaviour) (hcounting : db.Counting holds behaviour)
    (hkeyed : db.Keyed holds behaviour) (hholds : holds world held)
    (hserves : held.Serves behaviour region name table) {request : Dto.PutItemRequest}
    (hregion : request.region = region) (hname : request.tableName = name)
    {item : Item} {attributes : Attributes}
    (hkey : table.stringKey request.attributes = some (partitionKey, sortKey))
    (hpinned : behaviour.Pinned held region name partitionKey sortKey)
    (hmap : mapPutItemRequest now request = .ok item)
    (hreads : behaviour.reads item.attributes = .ok attributes) :
    ∃ response after tables stored,
      (Service.putItem context db now request).run [] world = .returns response after ∧
      holds after ⟨tables, Foundation.upsert Item.key stored held.items⟩ ∧
      (∃ found, tables.find? (Table.isNamed region name) = some found ∧
        found.keySchema = table.keySchema) ∧
      stored.key = stringsKey region name partitionKey sortKey ∧
      behaviour.reads stored.attributes = .ok attributes := by
  subst hregion hname
  obtain ⟨found, hfind, hschema⟩ := hserves.schema
  obtain ⟨read, middle, hget, hmiddle, hagrees⟩ := hlawful.getTable_found hholds now hfind
  rw [← Table.stringKey_eq hschema] at hkey
  have hkeyedBy := (Table.hasStrings_of_stringKey hkey).keyedBy context hmap
  have hplace : (Service.keyedItem context request found item).place =
      (request.region, request.tableName) := by
    rw [← place_of_mapPutItemRequest hmap]
    rfl
  injection hplace with hregion hname
  have hstored := hkeyed.putItem hmiddle (by rw [hregion, hname]; exact hfind)
    (by rw [hregion, hname]; exact hpinned) hkeyedBy hreads (by
      rw [hkeyedBy.key_eq, hregion, hname]
      exact fun old hold => hserves.exists_of_key hold) now
  obtain ⟨stored, created, stocked, hput, hstocked, hkey', hreads'⟩ := hstored
  obtain ⟨result, after, rewrite, hupdate, hafter, hrewrite⟩ :=
    Service.run_countTable now hcounting hstocked hfind hagrees created
  have hrun : ∃ response, (Service.putItem context db now request).run [] world =
      .returns response after := by
    apply Exists.intro
    rw [Service.putItem, Action.run_bind, Service.run_requireTable
      (Service.tableExists_of_isNamed hlawful hholds (exists_isNamed_of_find? hfind)),
      Outcome.andThen_returns]
    apply Service.run_catchJson
    rw [hmap, Action.run_bind, Call.run_ofExcept_ok, Outcome.andThen_returns, Action.run_bind, hget,
      Outcome.andThen_returns, Action.run_bind, Service.keyedItem_eq context hagrees.keySchema, hput,
      Outcome.andThen_returns, Action.run_bind, hupdate, Outcome.andThen_returns]
    rfl
  obtain ⟨response, hrun⟩ := hrun
  refine ⟨response, after, _, stored, hrun, hafter, ?_, ?_, hreads'⟩
  · refine ⟨rewrite found, find?_rewriteFirst hfind ?_, ?_⟩
    · have hnamed := List.find?_some hfind
      rw [Table.isNamed, Bool.and_eq_true, decide_eq_true_eq, decide_eq_true_eq] at hnamed ⊢
      rw [(hrewrite found).region, (hrewrite found).name]
      exact ⟨hagrees.region.trans hnamed.1, hagrees.name.trans hnamed.2⟩
    · exact (hrewrite found).keySchema.trans (hagrees.keySchema.trans hschema)
  · rw [hkey', hkeyedBy.key_eq, hregion, hname]

theorem Contents.IsKeyed.eq_of_key (hserves : held.IsKeyed behaviour region name) {item other : Item}
    (hitem : item ∈ held.items) (hother : other ∈ held.items) (hplace : item.place = (region, name))
    (hkey : other.key = item.key) : other = item := by
  have hsame : other.place = item.place := congrArg Prod.fst hkey
  apply List.inj_on_of_nodup_map hserves.distinct _ _ hkey
  · exact List.mem_filter.mpr ⟨hother, Item.isIn_iff_place.mpr (hsame.trans hplace)⟩
  · exact List.mem_filter.mpr ⟨hitem, Item.isIn_iff_place.mpr hplace⟩

theorem after_run_deleteItem (hlawful : db.Lawful holds behaviour)
    (hcounting : db.Counting holds behaviour) (hkeyed : db.Keyed holds behaviour)
    (hholds : holds world held) (hserves : held.Serves behaviour region name table)
    {request : Dto.DeleteItemRequest} (hregion : request.region = region)
    (hname : request.tableName = name) {item : Item}
    (hkey : table.stringKey request.keys = some (partitionKey, sortKey))
    (hpinned : behaviour.Pinned held region name partitionKey sortKey)
    (hmap : mapDeleteItemRequest now request = .ok item)
    (hfound : (∃ item ∈ held.items, item.key = stringsKey region name partitionKey sortKey) →
      held.items.any (behaviour.looksFor region name (.string "") (.string "")) = true) :
    holds ((Service.deleteItem db now request).run [] world).after
      ⟨held.tables, Foundation.removeKey Item.key (stringsKey region name partitionKey sortKey)
        held.items⟩ := by
  subst hregion hname
  obtain ⟨table', hfind, hschema⟩ := hserves.schema
  obtain ⟨mapped, -, hitem⟩ := bind_eq_ok.mp hmap
  cases hitem
  rw [Service.deleteItem, Action.run_bind, hmap, Call.run_ofExcept_ok, Outcome.andThen_returns,
    Action.run_bind, hcounting.itemExists hholds, Outcome.andThen_returns]
  split
  next hexists =>
    obtain ⟨read, middle, hget, hmiddle, hagrees⟩ := hlawful.getTable_found hholds now hfind
    rw [← Table.stringKey_eq (hagrees.keySchema.trans hschema)] at hkey
    have hstrings := Table.hasStrings_of_stringKey hkey
    rw [Service.catchJson, Action.after_run_rethrow, Action.run_bind, hget, Outcome.andThen_returns]
    simp only [hstrings.partitionString, hstrings.sortString]
    rw [Action.run_bind]
    cases hold : findKey Item.key
        (stringsKey request.region request.tableName partitionKey sortKey) held.items with
    | none =>
      obtain ⟨message, hmissing⟩ := hkeyed.getItem_none hmiddle hpinned hold now
      rw [hmissing, removeKey_of_findKey_none hold]
      exact hmiddle
    | some old =>
      obtain ⟨attributes, hreads⟩ := hserves.exists_of_key hold
      obtain ⟨stored, hstored, -⟩ := hkeyed.getItem_some hmiddle hpinned hold hreads now
      have hplace : old.place = (request.region, request.tableName) :=
        congrArg Prod.fst (key_of_findKey hold)
      obtain ⟨after, hdelete, hafter⟩ := hkeyed.deleteItem hmiddle hpinned hold hreads
        (fun other hother => hserves.eq_of_key (mem_of_findKey hold) hother hplace) now
      rw [hstored, Outcome.andThen_returns, Action.run_bind, hdelete]
      exact hafter
  next hexists =>
    have hnone : findKey Item.key
        (stringsKey request.region request.tableName partitionKey sortKey) held.items = none :=
      findKey_eq_none.mpr fun item hitem hkey => hexists (hfound ⟨item, hitem, hkey⟩)
    rw [removeKey_of_findKey_none hnone]
    exact hholds

end Requests

section Writes

inductive ItemWrite where
  | put (now : Time) (attributes : Dto.AttributeMap)
  | delete (now : Time) (keys : Dto.AttributeMap)

variable (context : Context) (db : Repository Store) (holds : World Store → Contents → Prop)
  (behaviour : Behaviour) (region name : String) (table : Table)

def ItemWrite.run : ItemWrite → Call Mutex Store Unit
  | .put now attributes => do
      let _ ← Service.putItem context db now ⟨region, name, attributes⟩
      return ()
  | .delete now keys => do
      let _ ← Service.deleteItem db now ⟨region, name, keys⟩
      return ()

def ItemWrite.logged : ItemWrite → Option (Write (String × String) Dto.AttributeMap)
  | .put _ attributes =>
    (table.stringKey attributes).map fun key => .put key (AttributeValue.canonicalMap attributes)
  | .delete _ keys => (table.stringKey keys).map Write.delete

/-- When a write does what it is for. No other item is found under its key; the
attributes of a put are read back as they are; a delete finds an item without
keys when there is something to delete. -/
def ItemWrite.Takes (held : Contents) : ItemWrite → Prop
  | .put now attributes => ∃ item read, mapPutItemRequest now ⟨region, name, attributes⟩ = .ok item ∧
      behaviour.reads item.attributes = .ok read ∧
      AttributeValue.canonicalMap (mapDynamoMap read) = AttributeValue.canonicalMap attributes ∧
      ∀ key, table.stringKey attributes = some key → behaviour.Pinned held region name key.1 key.2
  | .delete now keys => ∃ item, mapDeleteItemRequest now ⟨region, name, keys⟩ = .ok item ∧
      ∀ key, table.stringKey keys = some key → behaviour.Pinned held region name key.1 key.2 ∧
        ((∃ item ∈ held.items, item.key = stringsKey region name key.1 key.2) →
          held.items.any (behaviour.looksFor region name (.string "") (.string "")) = true)

/-- A run of writes that have keys of strings and do what they are for. -/
inductive WritesTo (first : World Store) :
    List (Write (String × String) Dto.AttributeMap) → World Store → Prop
  | start : WritesTo first [] first
  | next {log : List (Write (String × String) Dto.AttributeMap)} {before : World Store}
      (write : ItemWrite) {entry : Write (String × String) Dto.AttributeMap}
      (hrun : WritesTo first log before) (hlogged : write.logged table = some entry)
      (htakes : ∀ held, holds before held → write.Takes behaviour region name table held) :
      WritesTo first (log ++ [entry]) ((write.run context db region name).run [] before).after

/-- Every read by a key of strings under which no other item is found returns
what a map has under the key. -/
def ReadsAs (world : World Store) (map : String × String → Option Dto.AttributeMap) : Prop :=
  ∀ now keys partitionKey sortKey, table.stringKey keys = some (partitionKey, sortKey) →
    (∀ held, holds world held → behaviour.Pinned held region name partitionKey sortKey) →
    ∃ response after, (Service.getItem db now ⟨region, name, keys⟩).run [] world =
        .returns response after ∧
      AttributeValue.canonicalMap response.attributes = (map (partitionKey, sortKey)).getD []

/-- The items under other keys than those written, in this and in other tables. -/
def Contents.unwritten (held : Contents) (log : List (Write (String × String) Dto.AttributeMap)) :
    List Item :=
  held.items.filter fun item =>
    item.key ∉ log.map fun entry => stringsKey region name entry.key.1 entry.key.2

variable {context db holds behaviour region name table} {world : World Store} {held : Contents}

variable {log : List (Write (String × String) Dto.AttributeMap)}
variable {entry : Write (String × String) Dto.AttributeMap}

theorem Contents.unwritten_append {items : List Item} (tables : List Table)
    (hitems : removeKey Item.key (stringsKey region name entry.key.1 entry.key.2) items =
      removeKey Item.key (stringsKey region name entry.key.1 entry.key.2) held.items) :
    Contents.unwritten region name ⟨tables, items⟩ (log ++ [entry]) =
      (held.unwritten region name log).filter
        fun item => item.key ≠ stringsKey region name entry.key.1 entry.key.2 := by
  have hother : ∀ item : Item, decide (item.key ∉ (log ++ [entry]).map
      fun entry => stringsKey region name entry.key.1 entry.key.2) = true →
      item.key ≠ stringsKey region name entry.key.1 entry.key.2 := by
    intro item hwritten heq
    rw [decide_eq_true_eq, List.map_append, List.mem_append, not_or, heq] at hwritten
    exact hwritten.2 (List.mem_singleton.mpr rfl)
  rw [unwritten, ← filter_removeKey_of_ne hother items, hitems, filter_removeKey_of_ne hother,
    unwritten, List.filter_filter]
  apply List.filter_congr
  intro item _
  simp [and_comm]

variable (hlawful : db.Lawful holds behaviour)
include hlawful

variable (hcounting : db.Counting holds behaviour)
include hcounting

theorem ItemWrite.after_run (hkeyed : db.Keyed holds behaviour)
    {write : ItemWrite}
    (hholds : holds world held) (hserves : held.Serves behaviour region name table)
    (hlogged : write.logged table = some entry)
    (htakes : write.Takes behaviour region name table held) :
    ∃ left, holds ((write.run context db region name).run [] world).after left ∧
      left.Serves behaviour region name table ∧
      left.shown behaviour region name = entry.apply (held.shown behaviour region name) ∧
      removeKey Item.key (stringsKey region name entry.key.1 entry.key.2) left.items =
        removeKey Item.key (stringsKey region name entry.key.1 entry.key.2) held.items := by
  cases write with
  | put now attributes =>
    obtain ⟨key, hkey, rfl⟩ := Option.map_eq_some_iff.mp hlogged
    obtain ⟨item, read, hmap, hreads, hsame, hpinned⟩ := htakes
    obtain ⟨response, after, tables, stored, hrun, hafter, hschema, hstored, hstoredReads⟩ :=
      run_putItem context now hlawful hcounting hkeyed hholds hserves rfl rfl hkey
        (hpinned key hkey) hmap hreads
    obtain ⟨hleft, hshown⟩ := hserves.upsert hschema hstored hstoredReads
    rw [ItemWrite.run, Action.after_run_bind_pure, hrun]
    refine ⟨_, hafter, hleft, ?_, ?_⟩
    · rw [hshown, hsame]
    · change removeKey Item.key (stringsKey region name key.1 key.2) _ = _
      rw [← hstored, removeKey_upsert, hstored]
      rfl
  | delete now keys =>
    obtain ⟨key, hkey, rfl⟩ := Option.map_eq_some_iff.mp hlogged
    obtain ⟨item, hmap, hcondition⟩ := htakes
    obtain ⟨hpinned, hfound⟩ := hcondition key hkey
    have hafter := after_run_deleteItem now hlawful hcounting hkeyed hholds hserves rfl rfl hkey
      hpinned hmap hfound
    obtain ⟨hleft, hshown⟩ := hserves.removeKey hserves.schema
    rw [ItemWrite.run, Action.after_run_bind_pure]
    refine ⟨_, hafter, hleft, hshown, ?_⟩
    exact removeKey_of_findKey_none ((findKey_removeKey _ _ _).trans (if_pos rfl))

theorem WritesTo.shown (hkeyed : db.Keyed holds behaviour)
    {last : World Store}
    (hholds : holds world held) (hserves : held.Serves behaviour region name table)
    (hrun : WritesTo context db holds behaviour region name table world log last) :
    ∃ left, holds last left ∧ left.Serves behaviour region name table ∧
      left.shown behaviour region name = Write.outcome (held.shown behaviour region name) log ∧
      left.unwritten region name log = held.unwritten region name log := by
  induction hrun with
  | start => exact ⟨held, hholds, hserves, rfl, rfl⟩
  | next write _ hlogged htakes ih =>
    obtain ⟨left, hleft, hleftServes, hshown, hunwritten⟩ := ih
    obtain ⟨after, hafter, hafterServes, hafterShown, hothers⟩ :=
      ItemWrite.after_run hlawful hcounting hkeyed hleft hleftServes hlogged (htakes left hleft)
    refine ⟨after, hafter, hafterServes, ?_, ?_⟩
    · rw [hafterShown, hshown, ← Write.foldl_apply, ← Write.foldl_apply, List.foldl_append]
      rfl
    · rw [Contents.unwritten_append after.tables hothers, hunwritten,
        ← Contents.unwritten_append held.tables rfl]

theorem WritesTo.readsAs (hkeyed : db.Keyed holds behaviour)
    {last : World Store}
    (hholds : holds world held) (hserves : held.Serves behaviour region name table)
    (hrun : WritesTo context db holds behaviour region name table world log last) :
    ReadsAs db holds behaviour region name table last
        (Write.outcome (held.shown behaviour region name) log) ∧
      ∃ left, holds last left ∧ left.unwritten region name log = held.unwritten region name log := by
  obtain ⟨left, hleft, hleftServes, hshown, hunwritten⟩ :=
    hrun.shown hlawful hcounting hkeyed hholds hserves
  refine ⟨?_, left, hleft, hunwritten⟩
  intro now keys partitionKey sortKey hkey hpinned
  rw [← hshown]
  exact run_getItem now hlawful hkeyed hleft hleftServes hkey (hpinned left hleft)

end Writes

section Repositories

theorem MongoRepository.pinned {held : Contents} {region name partitionKey sortKey : String}
    (hregion : region ≠ "") (hname : name ≠ "")
    (hsort : sortKey = "" → ∀ item ∈ held.items, item.place = (region, name) →
      item.partitionKey = .string partitionKey → item.sortKey = .string "") :
    mongoBehaviour.Pinned held region name partitionKey sortKey := by
  intro item hitem
  change item.isFound region name (.string partitionKey) (.string sortKey) = _
  rw [Bool.eq_iff_iff, decide_eq_true_eq, Item.key, Item.isFound, Item.isListed, Item.place]
  simp only [hregion, hname, decide_false, Bool.false_or, Bool.and_eq_true, decide_eq_true_eq,
    Bool.or_eq_true, Prod.mk.injEq, KeyValue.string.injEq]
  constructor
  · rintro ⟨⟨hplace, hpartition⟩, hempty | hsame⟩
    · refine ⟨hplace, hpartition, ?_⟩
      rw [hempty]
      exact hsort hempty item hitem (Prod.ext hplace.1 hplace.2) hpartition
    · exact ⟨hplace, hpartition, hsame⟩
  · rintro ⟨hplace, hpartition, hsame⟩
    exact ⟨⟨hplace, hpartition⟩, Or.inr hsame⟩

variable (context : Context) (random : RandomSource) (region name : String) (table : Table)

/-- In both repositories a read returns what was last written under its key, and
no item under another key changes. -/
theorem readsAs_of_writesTo :
    (∀ first held log last, MemoryRepository.Holds random first held →
      held.Serves memoryBehaviour region name table →
      WritesTo context (memoryRepository random) (MemoryRepository.Holds random) memoryBehaviour
        region name table first log last →
      ReadsAs (memoryRepository random) (MemoryRepository.Holds random) memoryBehaviour region name
          table last (Write.outcome (held.shown memoryBehaviour region name) log) ∧
        ∃ left, MemoryRepository.Holds random last left ∧
          left.unwritten region name log = held.unwritten region name log) ∧
    ∀ first held log last, MongoRepository.Holds random first held →
      held.Serves mongoBehaviour region name table →
      WritesTo context (mongoRepository random) (MongoRepository.Holds random) mongoBehaviour
        region name table first log last →
      ReadsAs (mongoRepository random) (MongoRepository.Holds random) mongoBehaviour region name
          table last (Write.outcome (held.shown mongoBehaviour region name) log) ∧
        ∃ left, MongoRepository.Holds random last left ∧
          left.unwritten region name log = held.unwritten region name log := by
  constructor
  · intro first held log last hholds hserves hrun
    exact hrun.readsAs (memoryRepository_lawful random) (memoryRepository_counting random)
      (memoryRepository_keyed random) hholds hserves
  · intro first held log last hholds hserves hrun
    exact hrun.readsAs (mongoRepository_lawful random) (mongoRepository_counting random)
      (mongoRepository_keyed random) hholds hserves

def newOrder : ItemWrite := .put 0 [("id", .s "1"), ("state", .s "new")]

def dropOrder : ItemWrite := .delete 0 [("id", .s "1")]

def afterWrites {Store : Type} (db : Repository Store) (world : World Store)
    (writes : List ItemWrite) : World Store :=
  writes.foldl (fun world write =>
    ((write.run sampleContext db "eu-central-1" "orders").run [] world).after) world

theorem serves_sampleContents (behaviour : Behaviour) :
    sampleContents.Serves behaviour "eu-central-1" "orders" sampleTable where
  strings _ hitem := absurd hitem List.not_mem_nil
  readable _ hitem := absurd hitem List.not_mem_nil
  distinct := List.nodup_nil
  schema := ⟨sampleTable, rfl, rfl⟩

theorem readsAs_newOrder :
    ReadsAs (memoryRepository .growing) (MemoryRepository.Holds .growing) memoryBehaviour
        "eu-central-1" "orders" sampleTable
        (afterWrites (memoryRepository .growing) sampleMemory [newOrder])
        (Write.outcome (fun _ => none) [.put ("1", "") [("id", .s "1"), ("state", .s "new")]]) ∧
      ReadsAs (mongoRepository .growing) (MongoRepository.Holds .growing) mongoBehaviour
        "eu-central-1" "orders" sampleTable
        (afterWrites (mongoRepository .growing) sampleMongo [newOrder])
        (Write.outcome (fun _ => none) [.put ("1", "") [("id", .s "1"), ("state", .s "new")]]) := by
  have hreads := readsAs_of_writesTo sampleContext .growing "eu-central-1" "orders" sampleTable
  constructor
  · refine (hreads.1 sampleMemory sampleContents _ _ holds_sampleMemory (serves_sampleContents _)
      (.next newOrder .start rfl ?_)).1
    intro held hholds
    exact ⟨_, _, rfl, rfl, rfl, fun key _ => MemoryRepository.pinned held _ _ _ _⟩
  · refine (hreads.2 sampleMongo sampleContents _ _ holds_sampleMongo (serves_sampleContents _)
      (.next newOrder .start rfl ?_)).1
    intro held hholds
    refine ⟨_, _, rfl, rfl, rfl, fun key _ => ?_⟩
    apply MongoRepository.pinned (by decide) (by decide)
    intro _ item hitem
    rw [List.forall₂_nil_right_iff.mp hholds.items] at hitem
    exact absurd hitem List.not_mem_nil

theorem not_reads_dropOrder :
    ¬ ∀ (writes : List ItemWrite) (log : List (Write (String × String) Dto.AttributeMap)),
      List.Forall₂ (fun write entry => write.logged sampleTable = some entry) writes log →
      ∀ response after, (Service.getItem (memoryRepository .growing) 0
          ⟨"eu-central-1", "orders", [("id", .s "1")]⟩).run []
          (afterWrites (memoryRepository .growing) sampleMemory writes) = .returns response after →
        AttributeValue.canonicalMap response.attributes =
          (Write.outcome (fun _ => none) log ("1", "")).getD [] := by
  intro hreads
  have hlogged : List.Forall₂ (fun write entry => ItemWrite.logged sampleTable write = some entry)
      [newOrder, dropOrder]
      [.put ("1", "") [("id", .s "1"), ("state", .s "new")], .delete ("1", "")] :=
    .cons rfl (.cons rfl .nil)
  have hnothing := hreads _ _ hlogged ⟨[("id", .s "1"), ("state", .s "new")]⟩ _ rfl
  cases hnothing

end Repositories

end AwsMock.DynamoDb
