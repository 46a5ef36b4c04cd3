import AwsMock.DynamoDb.Laws

/-! # Bulk operations on one table

`DeleteAllItems`, `DeleteTable` and `Scan` against what they are for: they act
on the items of one table, and leave other tables and regions alone.
-/

namespace AwsMock.DynamoDb

open Foundation Mapper

variable {Store : Type}

section Purpose

variable (context : Context) (db : Repository Store) (holds : World Store → Contents → Prop)
  (now : Time) (world : World Store) (held : Contents) (region name : String)

/-- `DeleteAllItems` leaves the table as it was made and without items, and
touches no other table and no item of another one. -/
def EmptiesTable : Prop :=
  ∃ after left,
    (Service.deleteAllItems context db now ⟨region, name⟩).run [] world = .returns () after ∧
    holds after left ∧
    left.items = held.items.filter (fun item => !item.isIn region name) ∧
    left.tables.filter (fun table => !table.isNamed region name) =
      held.tables.filter (fun table => !table.isNamed region name) ∧
    ∀ table ∈ held.tables, table.isNamed region name = true →
      ∃ again ∈ left.tables, again.SameMake table

/-- `DeleteTable` removes exactly the table and its items. -/
def DropsTable : Prop :=
  ∃ response after,
    (Service.deleteTable db now ⟨region, name⟩).run [] world = .returns response after ∧
    holds after ⟨held.tables.filter fun table => !table.isNamed region name,
        held.items.filter fun item => !item.isIn region name⟩

/-- `Scan` returns exactly the items of the table, and their number. -/
def ScansTable : Prop :=
  ∃ response after, (Service.scan db now ⟨region, name⟩).run [] world = .returns response after ∧
    holds after held ∧
    response.items = (held.items.filter (Item.isIn region name)).map
      (fun item => mapDynamoMap item.attributes) ∧
    response.count = (held.items.filter (Item.isIn region name)).length

structure ServesTable : Prop where
  empties : EmptiesTable context db holds now world held region name
  drops : DropsTable db holds now world held region name
  scans : ScansTable db holds now world held region name

end Purpose

/-- A table that is made as a creation request makes it that gives a name only. -/
structure Table.IsBare (table : Table) : Prop where
  keySchema : table.keySchema = []
  attributeDefinitions : table.attributeDefinitions = []
  provisionedThroughput : table.provisionedThroughput = {}
  billingMode : table.billingMode = "PAY_PER_REQUEST"
  tags : table.tags = []

section Deletion

variable (context : Context) {db : Repository Store} {holds : World Store → Contents → Prop}
  {behaviour : Behaviour} (now : Time) {world : World Store} {held : Contents} {region name : String}
  (hlawful : db.Lawful holds behaviour) (hholds : holds world held)
  (hexists : ∃ table ∈ held.tables, table.isNamed region name = true)
include hlawful hholds hexists

theorem dropsTable_of_removes
    (hremoves : ∀ item ∈ held.items, behaviour.removes region name item = item.isIn region name) :
    DropsTable db holds now world held region name := by
  obtain ⟨response, after, hrun, hafter⟩ := Service.run_deleteTable now hlawful hholds hexists
  refine ⟨response, after, hrun, ?_⟩
  rwa [List.filter_congr fun item hitem => congrArg not (hremoves item hitem)] at hafter

theorem countP_of_dropsTable (hdrops : DropsTable db holds now world held region name) :
    held.items.countP (behaviour.removes region name) = held.items.countP (Item.isIn region name) := by
  obtain ⟨response, after, hrun, hafter⟩ := Service.run_deleteTable now hlawful hholds hexists
  obtain ⟨_, _, hsame, hdropped⟩ := hdrops
  rw [hrun] at hsame
  injection hsame with _ hworld
  subst hworld
  have hlength := (hlawful.unique hafter hdropped).2.length_eq
  have hremoved := length_eq_countP_add (behaviour.removes region name) held.items
  have hinside := length_eq_countP_add (Item.isIn region name) held.items
  change (held.items.filter _).length = (held.items.filter _).length at hlength
  omega

theorem run_deleteAllItems
    (hapart : ∀ table ∈ held.tables, behaviour.finds region name table = true →
      table.isNamed region name = true) :
    ∃ oid created modified after,
      (Service.deleteAllItems context db now ⟨region, name⟩).run [] world = .returns () after ∧
      holds after ⟨held.tables.filter (fun table => !table.isNamed region name) ++
            [{ Service.newTable context now { region, tableName := name } with
              oid, created, modified }],
          held.items.filter fun item => !behaviour.removes region name item⟩ := by
  obtain ⟨response, deleted, hdelete, hdeleted⟩ :=
    Service.run_deleteTable now hlawful hholds hexists
  have hnone : ∀ table ∈ held.tables.filter (fun table => !table.isNamed region name),
      behaviour.finds region name table = false := by
    intro table htable
    obtain ⟨hmem, hother⟩ := List.mem_filter.mp htable
    rw [Bool.not_eq_true'] at hother
    rw [Bool.eq_false_iff]
    exact fun hfound => Bool.eq_false_iff.mp hother (hapart table hmem hfound)
  obtain ⟨oid, created, modified, remade, after, hcreate, hafter⟩ :=
    Service.run_createTable context now hlawful hdeleted { region, tableName := name } hnone
  refine ⟨oid, created, modified, after, ?_, hafter⟩
  rw [Service.deleteAllItems, Action.run_bind, Service.run_requireTable
    (Service.tableExists_of_isNamed hlawful hholds hexists), Outcome.andThen_returns]
  apply Service.run_catchJson
  simp only [Action.run_bind, hdelete, hcreate, Outcome.andThen_returns, Action.run_pure]

theorem apart_of_emptiesTable
    (hempties : EmptiesTable context db holds now world held region name) :
    ∀ table ∈ held.tables, behaviour.finds region name table = true →
      table.isNamed region name = true := by
  intro table htable hfound
  by_contra hother
  rw [Bool.not_eq_true] at hother
  obtain ⟨response, deleted, hdelete, hdeleted⟩ :=
    Service.run_deleteTable now hlawful hholds hexists
  have hleft : table ∈ held.tables.filter fun table => !table.isNamed region name :=
    List.mem_filter.mpr ⟨htable, by rw [hother]; rfl⟩
  obtain ⟨message, hcreate⟩ := Service.run_createTable_elsewhere context now hlawful hdeleted
    { region, tableName := name } ⟨table, hleft, hfound⟩
    (fun other hmem => by simpa using (List.mem_filter.mp hmem).2)
  obtain ⟨after, left, hrun, -⟩ := hempties
  rw [Service.deleteAllItems, Action.run_bind, Service.run_requireTable
    (Service.tableExists_of_isNamed hlawful hholds hexists), Outcome.andThen_returns,
    Service.catchJson, Action.run_rethrow_eq_returns] at hrun
  simp only [Action.run_bind, hdelete, hcreate, Outcome.andThen_returns,
    Outcome.andThen_halts] at hrun
  cases hrun

theorem emptiesTable_iff
    (hremoves : ∀ item ∈ held.items, behaviour.removes region name item = item.isIn region name) :
    EmptiesTable context db holds now world held region name ↔
      (∀ table ∈ held.tables, behaviour.finds region name table = true →
        table.isNamed region name = true) ∧
      ∀ table ∈ held.tables, table.isNamed region name = true → table.IsBare := by
  constructor
  · intro hempties
    have hapart := apart_of_emptiesTable context now hlawful hholds hexists hempties
    refine ⟨hapart, fun table htable hnamed => ?_⟩
    obtain ⟨oid, created, modified, after, hrun, hafter⟩ :=
      run_deleteAllItems context now hlawful hholds hexists hapart
    obtain ⟨_, left, hsame, hleft, -, -, hagain⟩ := hempties
    rw [hrun] at hsame
    injection hsame with _ hworld
    subst hworld
    obtain ⟨again, hmem, hmake⟩ := hagain table htable hnamed
    obtain ⟨made, hmade, hstored, -⟩ :=
      exists_of_forall₂_right (hlawful.unique hafter hleft).1 hmem
    have hsame := hstored.isNamed_eq region name
    rw [hmake.isNamed_eq, hnamed] at hsame
    rcases List.mem_append.mp hmade with hold | hnew
    · have hother := (List.mem_filter.mp hold).2
      rw [hsame] at hother
      cases hother
    · rw [List.mem_singleton] at hnew
      subst hnew
      exact {
        keySchema := hmake.keySchema.symm.trans hstored.keySchema.symm
        attributeDefinitions :=
          hmake.attributeDefinitions.symm.trans hstored.attributeDefinitions.symm
        provisionedThroughput :=
          hmake.provisionedThroughput.symm.trans hstored.provisionedThroughput.symm
        billingMode := hmake.billingMode.symm.trans hstored.billingMode.symm
        tags := hmake.tags.symm.trans hstored.tags.symm }
  · rintro ⟨hapart, hbare⟩
    obtain ⟨oid, created, modified, after, hrun, hafter⟩ :=
      run_deleteAllItems context now hlawful hholds hexists hapart
    have hnew : Table.isNamed region name
        { Service.newTable context now { region, tableName := name } with
          oid, created, modified } = true := by
      simp [Table.isNamed, Service.newTable]
    refine ⟨after, _, hrun, hafter, ?_, ?_, ?_⟩
    · exact List.filter_congr fun item hitem => congrArg not (hremoves item hitem)
    · rw [List.filter_append, List.filter_filter]
      simp [hnew]
    · intro table htable hnamed
      have hmade := hbare table htable hnamed
      rw [Table.isNamed, Bool.and_eq_true, decide_eq_true_eq, decide_eq_true_eq] at hnamed
      exact ⟨_, List.mem_append_right _ List.mem_cons_self, {
        region := hnamed.1.symm
        name := hnamed.2.symm
        keySchema := hmade.keySchema.symm
        attributeDefinitions := hmade.attributeDefinitions.symm
        provisionedThroughput := hmade.provisionedThroughput.symm
        billingMode := hmade.billingMode.symm
        tags := hmade.tags.symm }⟩

end Deletion

theorem Item.isListed_of_isIn {region name : String} {item : Item}
    (hin : item.isIn region name = true) : item.isListed region name = true := by
  rw [Item.isIn, Bool.and_eq_true] at hin
  rw [Item.isListed, hin.1, hin.2, Bool.or_true, Bool.or_true]
  rfl

theorem filter_isListed {items : List Item} {region name : String}
    (hlisted : ∀ item ∈ items, item.isListed region name = true → item.isIn region name = true) :
    items.filter (Item.isListed region name) = items.filter (Item.isIn region name) := by
  apply List.filter_congr
  intro item hitem
  rw [Bool.eq_iff_iff]
  exact ⟨hlisted item hitem, Item.isListed_of_isIn⟩

namespace MemoryRepository

structure ServedApart (held : Contents) (region name : String) : Prop where
  found : ∀ table ∈ held.tables, findsTable region name table = true →
    table.isNamed region name = true
  bare : ∀ table ∈ held.tables, table.isNamed region name = true → table.IsBare
  counted : ∀ item ∈ held.items, (region = "" || item.region = region) = true →
    item.isIn region name = true

variable {random : RandomSource} (now : Time) {world : World MemoryStore} {held : Contents}
  {region name : String}

theorem scansTable_iff (hholds : Holds random world held)
    (hexists : ∃ table ∈ held.tables, table.isNamed region name = true) :
    ScansTable (memoryRepository random) (Holds random) now world held region name ↔
      ∀ item ∈ held.items, (region = "" || item.region = region) = true →
        item.isIn region name = true := by
  have hrun : (Service.scan (memoryRepository random) now ⟨region, name⟩).run [] world =
      .returns {
        region
        tableName := name
        count := held.items.countP fun item => region = "" || item.region = region
        scannedCount := (held.items.filter (Item.isListed region name)).length
        items := (held.items.filter (Item.isListed region name)).map
          fun item => mapDynamoMap item.attributes } world := by
    have hlist : ((memoryRepository random).listItems now region name).run [] world = _ :=
      hholds.listItems region name
    have hcount : ((memoryRepository random).countItems region name).run [] world = _ :=
      hholds.countItems region name
    rw [Service.scan, Action.run_bind, Service.run_requireTable
      (Service.tableExists_of_isNamed (memoryRepository_lawful random) hholds hexists),
      Outcome.andThen_returns]
    apply Service.run_catchJson
    simp only [Action.run_bind, hlist, hcount, Outcome.andThen_returns, Action.run_pure]
  constructor
  · rintro ⟨response, after, hscan, -, -, hcount⟩
    rw [hrun] at hscan
    injection hscan with hresponse
    subst hresponse
    apply forall_of_countP_eq
    · intro item _ hin
      rw [Item.isIn, Bool.and_eq_true] at hin
      rw [hin.1, Bool.or_true]
    · rw [List.countP_eq_length_filter (p := Item.isIn region name)]
      exact Int.ofNat_inj.mp hcount
  · intro hcounted
    have hlisted : ∀ item ∈ held.items, item.isListed region name = true →
        item.isIn region name = true := by
      intro item hitem hlist
      rw [Item.isListed, Bool.and_eq_true] at hlist
      exact hcounted item hitem hlist.1
    refine ⟨_, world, hrun, hholds, ?_, ?_⟩
    · change (held.items.filter _).map _ = _
      rw [filter_isListed hlisted]
    · change ((held.items.countP _ : Nat) : Int) = _
      rw [List.countP_eq_length_filter]
      congr 2
      apply List.filter_congr
      intro item hitem
      rw [Bool.eq_iff_iff]
      refine ⟨hcounted item hitem, fun hin => ?_⟩
      rw [Item.isIn, Bool.and_eq_true] at hin
      rw [hin.1, Bool.or_true]

end MemoryRepository

namespace MongoRepository

def Survives (item : Item) : Prop :=
  ∃ attributes, item.rereadAttributes = .ok attributes ∧
    mapDynamoMap attributes = mapDynamoMap item.attributes

/-- When the MongoDB repository serves a table: no table is found in its place,
it is bare, no other item is removed or listed with its items, and its items can
be read. -/
structure ServedApart (held : Contents) (region name : String) : Prop where
  found : ∀ table ∈ held.tables, findsTable region name table = true →
    table.isNamed region name = true
  bare : ∀ table ∈ held.tables, table.isNamed region name = true → table.IsBare
  removed : ∀ item ∈ held.items, item.isDeletedWith name = item.isIn region name
  listed : ∀ item ∈ held.items, item.isListed region name = true → item.isIn region name = true
  readable : ∀ item ∈ held.items, item.isIn region name = true → Survives item

variable {random : RandomSource} (now : Time) {world : World MongoStore} {held : Contents}
  {region name : String}

variable (hholds : Holds random world held)
include hholds

variable (hexists : ∃ table ∈ held.tables, table.isNamed region name = true)
include hexists

theorem run_scan
    {response : Dto.ScanResponse} {after : World MongoStore} :
    (Service.scan (mongoRepository random) now ⟨region, name⟩).run [] world =
        .returns response after ↔
      ∃ reads, (held.items.filter (Item.isListed region name)).mapM Item.reread = .ok reads ∧
        after = world ∧ response = {
          region
          tableName := name
          count := held.items.countP (Item.isListed region name)
          scannedCount := reads.length
          items := reads.map fun item => mapDynamoMap item.attributes } := by
  have hlist : ((mongoRepository random).listItems now region name).run [] world = _ :=
    hholds.listItems now region name
  have hcount : ((mongoRepository random).countItems region name).run [] world = _ :=
    hholds.countItems region name
  rw [Service.scan, Action.run_bind, Service.run_requireTable
    (Service.tableExists_of_isNamed (mongoRepository_lawful random) hholds hexists),
    Outcome.andThen_returns, Service.catchJson, Action.run_rethrow_eq_returns,
    Action.run_bind, hlist]
  cases (held.items.filter (Item.isListed region name)).mapM Item.reread with
  | error exc =>
    constructor
    · intro hrun
      cases hrun
    · rintro ⟨reads, hreads, -⟩
      cases hreads
  | ok reads =>
    rw [Call.run_ofExcept_ok, Outcome.andThen_returns, Action.run_bind, hcount]
    constructor
    · intro hrun
      injection hrun with hresponse hworld
      exact ⟨reads, rfl, hworld.symm, hresponse.symm⟩
    · rintro ⟨_, hreads, rfl, rfl⟩
      cases hreads
      rfl

theorem scansTable_iff :
    ScansTable (mongoRepository random) (Holds random) now world held region name ↔
      (∀ item ∈ held.items, item.isListed region name = true → item.isIn region name = true) ∧
      ∀ item ∈ held.items, item.isIn region name = true → Survives item := by
  have hreads : ∀ items : List Item, (∃ reads, items.mapM Item.reread = .ok reads ∧
        List.Forall₂ (fun read item => mapDynamoMap read.attributes =
          mapDynamoMap item.attributes) reads items) ↔ ∀ item ∈ items, Survives item := by
    intro items
    rw [exists_mapM_forall₂]
    refine forall₂_congr fun item _ => ?_
    simp only [Item.reread_eq_ok, Survives]
    constructor
    · rintro ⟨read, ⟨attributes, hattributes, rfl⟩, hsame⟩
      exact ⟨attributes, hattributes, hsame⟩
    · rintro ⟨attributes, hattributes, hsame⟩
      exact ⟨_, ⟨attributes, hattributes, rfl⟩, hsame⟩
  constructor
  · rintro ⟨response, after, hscan, -, hitems, hcount⟩
    obtain ⟨reads, hread, rfl, rfl⟩ := (run_scan now hholds hexists).mp hscan
    have hlisted : ∀ item ∈ held.items, item.isListed region name = true →
        item.isIn region name = true := by
      apply forall_of_countP_eq fun item _ => Item.isListed_of_isIn
      rw [List.countP_eq_length_filter (p := Item.isIn region name)]
      exact Int.ofNat_inj.mp hcount
    refine ⟨hlisted, fun item hitem hin => ?_⟩
    rw [filter_isListed hlisted] at hread
    refine (hreads _).mp ⟨reads, hread, ?_⟩ item (List.mem_filter.mpr ⟨hitem, hin⟩)
    have hsame : List.Forall₂ Eq _ _ := List.forall₂_eq_eq_eq ▸ hitems
    rwa [List.forall₂_map_left_iff, List.forall₂_map_right_iff] at hsame
  · rintro ⟨hlisted, hsurvive⟩
    obtain ⟨reads, hread, hsame⟩ := (hreads (held.items.filter (Item.isIn region name))).mpr
      fun item hitem => hsurvive item (List.mem_filter.mp hitem).1 (List.mem_filter.mp hitem).2
    rw [← filter_isListed hlisted] at hread
    refine ⟨_, world, (run_scan now hholds hexists).mpr ⟨reads, hread, rfl, rfl⟩, hholds, ?_, ?_⟩
    · rw [← List.forall₂_eq_eq_eq, List.forall₂_map_left_iff, List.forall₂_map_right_iff]
      exact hsame
    · change ((held.items.countP _ : Nat) : Int) = _
      rw [List.countP_eq_length_filter, filter_isListed hlisted]

theorem removed_of_dropsTable
    (hdrops : DropsTable (mongoRepository random) (Holds random) now world held region name) :
    ∀ item ∈ held.items, item.isDeletedWith name = item.isIn region name := by
  have hcount := countP_of_dropsTable now (mongoRepository_lawful random) hholds hexists hdrops
  change held.items.countP (Item.isDeletedWith name) = _ at hcount
  by_cases hname : name = ""
  · -- nothing is removed under an empty name, so nothing may be in the table
    have hnone : ∀ item : Item, item.isDeletedWith name = false := by
      intro item
      by_cases htable : item.tableName = "" <;> simp [Item.isDeletedWith, hname, htable]
    have hzero : held.items.countP (Item.isDeletedWith name) = 0 :=
      List.countP_eq_zero.mpr fun item _ => Bool.eq_false_iff.mp (hnone item)
    rw [hzero] at hcount
    intro item hitem
    rw [hnone, eq_comm, Bool.eq_false_iff]
    exact List.countP_eq_zero.mp hcount.symm item hitem
  · have himp : ∀ item ∈ held.items, item.isIn region name = true →
        item.isDeletedWith name = true := by
      intro item _ hin
      rw [Item.isIn, Bool.and_eq_true, decide_eq_true_eq, decide_eq_true_eq] at hin
      simp [Item.isDeletedWith, hin.2, hname]
    intro item hitem
    rw [Bool.eq_iff_iff]
    exact ⟨forall_of_countP_eq himp hcount item hitem, himp item hitem⟩

end MongoRepository

section Repositories

variable (context : Context) {random : RandomSource} (now : Time) {memory : World MemoryStore}
  {mongo : World MongoStore} {inMemory inMongo : Contents} {region name : String}

theorem servesTable_iff (hmemory : MemoryRepository.Holds random memory inMemory)
    (hmongo : MongoRepository.Holds random mongo inMongo)
    (hfirst : ∃ table ∈ inMemory.tables, table.isNamed region name = true)
    (hsecond : ∃ table ∈ inMongo.tables, table.isNamed region name = true) :
    (ServesTable context (memoryRepository random) (MemoryRepository.Holds random) now memory
        inMemory region name ↔ MemoryRepository.ServedApart inMemory region name) ∧
      (ServesTable context (mongoRepository random) (MongoRepository.Holds random) now mongo
        inMongo region name ↔ MongoRepository.ServedApart inMongo region name) := by
  have hinMemory := memoryRepository_lawful random
  have hinMongo := mongoRepository_lawful random
  constructor
  · have hempties := emptiesTable_iff context now hinMemory hmemory hfirst fun _ _ => rfl
    have hscans := MemoryRepository.scansTable_iff now hmemory hfirst
    constructor
    · rintro ⟨hempty, -, hscan⟩
      exact ⟨(hempties.mp hempty).1, (hempties.mp hempty).2, hscans.mp hscan⟩
    · rintro ⟨hfound, hbare, hcounted⟩
      exact ⟨hempties.mpr ⟨hfound, hbare⟩,
        dropsTable_of_removes now hinMemory hmemory hfirst fun _ _ => rfl, hscans.mpr hcounted⟩
  · have hscans := MongoRepository.scansTable_iff now hmongo hsecond
    constructor
    · rintro ⟨hempty, hdrop, hscan⟩
      have hremoved := MongoRepository.removed_of_dropsTable now hmongo hsecond hdrop
      have hempties := emptiesTable_iff context now hinMongo hmongo hsecond hremoved
      exact ⟨(hempties.mp hempty).1, (hempties.mp hempty).2, hremoved, (hscans.mp hscan).1,
        (hscans.mp hscan).2⟩
    · rintro ⟨hfound, hbare, hremoved, hlisted, hreadable⟩
      exact ⟨(emptiesTable_iff context now hinMongo hmongo hsecond hremoved).mpr ⟨hfound, hbare⟩,
        dropsTable_of_removes now hinMongo hmongo hsecond hremoved,
        hscans.mpr ⟨hlisted, hreadable⟩⟩

theorem servesTable_orders :
    (ServesTable sampleContext (memoryRepository .growing) (MemoryRepository.Holds .growing) 0
        sampleMemory sampleContents "eu-central-1" "orders" ↔
        MemoryRepository.ServedApart sampleContents "eu-central-1" "orders") ∧
      (ServesTable sampleContext (mongoRepository .growing) (MongoRepository.Holds .growing) 0
        sampleMongo sampleContents "eu-central-1" "orders" ↔
        MongoRepository.ServedApart sampleContents "eu-central-1" "orders") :=
  servesTable_iff sampleContext 0 holds_sampleMemory holds_sampleMongo
    ⟨_, List.mem_cons_self, rfl⟩ ⟨_, List.mem_cons_self, rfl⟩

theorem not_servesTable_keySchema :
    ¬ ServesTable sampleContext (memoryRepository .growing) (MemoryRepository.Holds .growing) 0
      sampleMemory sampleContents "eu-central-1" "orders" := by
  intro hserves
  have hbare := ((emptiesTable_iff sampleContext 0 (memoryRepository_lawful .growing)
    holds_sampleMemory ⟨_, List.mem_cons_self, rfl⟩ fun _ _ => rfl).mp hserves.empties).2
  have hkeys := (hbare sampleTable List.mem_cons_self rfl).keySchema
  cases hkeys

end Repositories

end AwsMock.DynamoDb
