import AwsMock.Foundation.Loop
import AwsMock.S3.Repository

/-! # Synchronization of objects and files

`SyncObjects` of the server: objects without a file are deleted bucket by bucket, and then the
files without an object. It is called with nothing else going on. The data directory is a list
of names.
-/

namespace AwsMock.S3

open Foundation

structure SyncRepository where
  listBuckets : Store → List Bucket
  getBucketObjectList : String → String → Nat → Store → List Object
  deleteObject : Object → Store → Store
  objectExistsInternalName : String → Store → Bool

namespace MemoryRepository

def getBucketObjectList (region bucket : String) (maxKeys : Nat) (store : Store) : List Object :=
  let objects := store.objects.values
  let objects := if region = "" then objects
    else objects.filter fun object => object.region = region
  let objects := if bucket = "" then objects
    else objects.filter fun object => object.bucket = bucket
  if 0 < maxKeys then objects.take maxKeys else objects

def sync : SyncRepository where
  listBuckets store := store.buckets.values
  getBucketObjectList := getBucketObjectList
  deleteObject := memoryRepository.deleteObject
  objectExistsInternalName filename store :=
    (store.objects.findIf fun object => object.internalName = filename).isSome

end MemoryRepository

namespace MongoRepository

def getBucketObjectList (region bucket : String) (maxKeys : Nat) (store : Store) : List Object :=
  let objects := store.objects.values.filter fun object =>
    object.region = region && object.bucket = bucket
  if 0 < maxKeys then objects.take maxKeys else objects

def sync : SyncRepository where
  listBuckets store := store.buckets.values
  getBucketObjectList := getBucketObjectList
  deleteObject := mongoRepository.deleteObject
  objectExistsInternalName filename store :=
    0 < store.objects.countIf fun object => filename = "" || object.internalName = filename

end MongoRepository

/-- `GetBasename` of a path in the directory: the extension is what begins with the last dot,
unless the name does. -/
def getBasename (fileName : String) : String :=
  let stem := (fileName.toList.reverse.dropWhile (· ≠ '.')).tail.reverse
  if stem = [] ∨ fileName = ".." then fileName else String.ofList stem

structure SyncWorld where
  store : Store
  files : List String
  named : "" ∉ files

section Server

variable (repository : SyncRepository) (region : String)

def syncRound (files : List String) (bucket : String) (store : Store) : Store ⊕ Store :=
  let objects := repository.getBucketObjectList region bucket 1000 store
  if objects.isEmpty then .inr store
  else .inl (objects.foldl (fun store object =>
    if object.internalName ∈ files then store else repository.deleteObject object store) store)

/-- The objects of one bucket after the other, when so many rounds are enough for each. -/
def syncBuckets (files : List String) (fuel : Nat) (buckets : List Bucket) (store : Store) :
    Option Store :=
  buckets.foldlM (fun store bucket =>
    Loop.rounds (syncRound repository region files bucket.name) fuel store) store

/-- `SyncObjects`: at last the files whose name, less an extension, no object has. -/
def syncObjects (fuel : Nat) (world : SyncWorld) : Option SyncWorld :=
  let buckets := repository.listBuckets world.store
  if buckets.isEmpty then some world
  else do
    let store ← syncBuckets repository region world.files fuel buckets world.store
    return {
      store
      files := world.files.filter fun file =>
        repository.objectExistsInternalName (getBasename file) store
      named := fun hmem => world.named (List.mem_of_mem_filter hmem) }

/-- It ends, the objects that are left are those that had a file, and the files that are left are
those of such an object. -/
def SyncsExactly (world : SyncWorld) : Prop :=
  ∃ fuel after, syncObjects repository region fuel world = some after ∧
    (∀ entry, entry ∈ after.store.objects.entries ↔
      entry ∈ world.store.objects.entries ∧ entry.2.internalName ∈ world.files) ∧
    ∀ file, file ∈ after.files ↔
      file ∈ world.files ∧ ∃ object ∈ after.store.objects.values, object.internalName = file

end Server

/-! ## What is listed and erased -/

structure SyncRepository.Describes (repository : SyncRepository)
    (lists : String → String → Object → Bool) (erases : Object → Object → Bool) : Prop where
  listBuckets (store : Store) : repository.listBuckets store = store.buckets.values
  getBucketObjectList (region bucket : String) (store : Store) :
    repository.getBucketObjectList region bucket 1000 store =
      (store.objects.values.filter (lists region bucket)).take 1000
  deleteObject (object : Object) (store : Store) : repository.deleteObject object store =
    { store with objects := store.objects.eraseIf (erases object) }
  erases_self (object : Object) : erases object object = true
  erases_trans (first second third : Object) : erases first second = true →
    erases second third = true → erases first third = true
  objectExistsInternalName {name : String} (store : Store) : name ≠ "" →
    (repository.objectExistsInternalName name store = true ↔
      ∃ object ∈ store.objects.values, object.internalName = name)

namespace MemoryRepository

def lists (region bucket : String) (object : Object) : Bool :=
  (region = "" || object.region = region) && (bucket = "" || object.bucket = bucket)

def erases (object other : Object) : Bool :=
  other.bucket = object.bucket && other.key = object.key

end MemoryRepository

namespace MongoRepository

def lists (region bucket : String) (object : Object) : Bool :=
  object.region = region && object.bucket = bucket

def erases (object : Object) : Object → Bool := Object.isAt object.region object.bucket object.key

end MongoRepository

/-- What has to hold before. If there is a bucket: an object has its file just when no object
that is listed is deleted with it, and a file belongs to an object just when its name without the
extension is the name of a file that does. -/
def SyncCondition (lists : String → String → Object → Bool) (erases : Object → Object → Bool)
    (region : String) (world : SyncWorld) : Prop :=
  if world.store.buckets.values = [] then
    (∀ object ∈ world.store.objects.values, object.internalName ∈ world.files) ∧
      ∀ file ∈ world.files, ∃ object ∈ world.store.objects.values, object.internalName = file
  else
    (∀ object ∈ world.store.objects.values, object.internalName ∈ world.files ↔
      ¬∃ listed ∈ world.store.objects.values,
        (∃ bucket ∈ world.store.buckets.values, lists region bucket.name listed = true) ∧
          erases listed object = true) ∧
      ∀ file ∈ world.files, (getBasename file ∈ world.files ∧
          ∃ object ∈ world.store.objects.values, object.internalName = getBasename file) ↔
        ∃ object ∈ world.store.objects.values, object.internalName = file

/-! ## Deleting along a list -/

section Wiping

variable {lists : String → String → Object → Bool} {erases : Object → Object → Bool}
variable {first second : List Object} {store : Store}

def Store.wipe (erases : Object → Object → Bool) (objects : List Object) (store : Store) : Store :=
  { store with
    objects := store.objects.eraseIf fun object => objects.any fun other => erases other object }

theorem Store.wipe_nil : store.wipe erases [] = store := by
  obtain ⟨buckets, objects⟩ := store
  refine congrArg (Store.mk buckets) (UnorderedMap.ext ?_)
  exact List.filter_eq_self.mpr fun _ _ => rfl

theorem mem_entries_wipe {objects : List Object} {entry : String × Object} :
    entry ∈ (store.wipe erases objects).objects.entries ↔
      entry ∈ store.objects.entries ∧ ∀ other ∈ objects, erases other entry.2 = false := by
  rw [Store.wipe, UnorderedMap.eraseIf, List.mem_filter, Bool.not_eq_true', List.any_eq_false]
  simp only [Bool.not_eq_true]

theorem mem_values_wipe {objects : List Object} {object : Object} :
    object ∈ (store.wipe erases objects).objects.values ↔
      object ∈ store.objects.values ∧ ∀ other ∈ objects, erases other object = false := by
  rw [Store.wipe, UnorderedMap.values_eraseIf, List.mem_filter, Bool.not_eq_true',
    List.any_eq_false]
  simp only [Bool.not_eq_true]

theorem Store.wipe_congr
    (hsame : ∀ object ∈ store.objects.values, (first.any fun other => erases other object) =
      second.any fun other => erases other object) :
    store.wipe erases first = store.wipe erases second := by
  refine congrArg (Store.mk store.buckets) (UnorderedMap.ext (List.filter_congr ?_))
  intro entry hentry
  exact congrArg not (hsame entry.2 (List.mem_map_of_mem hentry))

theorem Store.wipe_wipe :
    (store.wipe erases first).wipe erases second = store.wipe erases (first ++ second) := by
  refine congrArg (Store.mk store.buckets) (UnorderedMap.ext ?_)
  change List.filter _ (List.filter _ _) = List.filter _ _
  rw [List.filter_filter]
  refine List.filter_congr ?_
  intro entry _
  dsimp only
  rw [List.any_append, Bool.not_or, Bool.and_comm]

theorem Store.wipe_filter_wipe (htrans : ∀ first second third : Object, erases first second = true →
      erases second third = true → erases first third = true) (select : Object → Bool) :
    (store.wipe erases first).wipe erases
        ((store.wipe erases first).objects.values.filter select) =
      store.wipe erases (first ++ store.objects.values.filter select) := by
  rw [Store.wipe_wipe]
  refine Store.wipe_congr ?_
  intro object _
  rw [List.any_append, List.any_append, Bool.eq_iff_iff, Bool.or_eq_true, Bool.or_eq_true]
  constructor
  · rintro (hfirst | hlater)
    · exact .inl hfirst
    · obtain ⟨other, hother, herases⟩ := List.any_eq_true.mp hlater
      obtain ⟨hmem, hselect⟩ := List.mem_filter.mp hother
      refine .inr (List.any_eq_true.mpr ⟨other, ?_, herases⟩)
      exact List.mem_filter.mpr ⟨(mem_values_wipe.mp hmem).1, hselect⟩
  · rintro (hfirst | hlater)
    · exact .inl hfirst
    · obtain ⟨other, hother, herases⟩ := List.any_eq_true.mp hlater
      obtain ⟨hmem, hselect⟩ := List.mem_filter.mp hother
      by_cases hwiped : other ∈ (store.wipe erases first).objects.values
      · exact .inr (List.any_eq_true.mpr ⟨other, List.mem_filter.mpr ⟨hwiped, hselect⟩, herases⟩)
      · rw [mem_values_wipe, not_and] at hwiped
        have hsome := hwiped hmem
        push Not at hsome
        obtain ⟨earlier, hearlier, herased⟩ := hsome
        exact .inl (List.any_eq_true.mpr
          ⟨earlier, hearlier, htrans _ _ _ (Bool.not_eq_false _ ▸ herased) herases⟩)

end Wiping

/-! ## The loop over the pages -/

section Pages

variable {repository : SyncRepository} {lists : String → String → Object → Bool}
variable {erases : Object → Object → Bool} {region bucket : String} {files : List String}
variable {store after : Store}

variable (hdescribes : repository.Describes lists erases)
include hdescribes

theorem foldl_deleteObject (objects : List Object) (store : Store) :
    objects.foldl (fun store object => if object.internalName ∈ files then store
        else repository.deleteObject object store) store =
      store.wipe erases (objects.filter fun object => object.internalName ∉ files) := by
  induction objects generalizing store with
  | nil => exact Store.wipe_nil.symm
  | cons object objects ih =>
    rw [List.foldl_cons, ih]
    by_cases hfile : object.internalName ∈ files
    · rw [if_pos hfile, List.filter_cons_of_neg (by simpa using hfile)]
    · have hdelete : repository.deleteObject object store = store.wipe erases [object] := by
        rw [hdescribes.deleteObject, Store.wipe]
        simp only [List.any_cons, List.any_nil, Bool.or_false]
      rw [if_neg hfile, List.filter_cons_of_pos (by simpa using hfile), hdelete,
        Store.wipe_wipe]
      rfl

theorem syncRound_of_empty (hempty : store.objects.values.filter (lists region bucket) = []) :
    syncRound repository region files bucket store = .inr store := by
  rw [syncRound, hdescribes.getBucketObjectList, hempty]
  rfl

theorem syncRound_of_nonempty (hne : store.objects.values.filter (lists region bucket) ≠ []) :
    syncRound repository region files bucket store = .inl (store.wipe erases
      (((store.objects.values.filter (lists region bucket)).take 1000).filter fun object =>
        object.internalName ∉ files)) := by
  have hpage : ((store.objects.values.filter (lists region bucket)).take 1000).isEmpty = false := by
    rw [List.isEmpty_eq_false_iff, ne_eq, List.take_eq_nil_iff, not_or]
    exact ⟨by decide, hne⟩
  rw [syncRound, hdescribes.getBucketObjectList, hpage, foldl_deleteObject hdescribes]
  rfl

theorem of_rounds_syncRound {fuel : Nat}
    (hend : Loop.rounds (syncRound repository region files bucket) fuel store = some after) :
    (∀ entry ∈ after.objects.entries, entry ∈ store.objects.entries) ∧
      ∀ object ∈ after.objects.values, lists region bucket object = false := by
  induction fuel generalizing store with
  | zero => cases hend
  | succ fuel ih =>
    by_cases hempty : store.objects.values.filter (lists region bucket) = []
    · rw [Loop.rounds_of_leave (syncRound_of_empty hdescribes hempty)] at hend
      obtain rfl := Option.some.inj hend
      refine ⟨fun _ hentry => hentry, ?_⟩
      intro object hobject
      exact Bool.not_eq_true _ ▸ List.filter_eq_nil_iff.mp hempty object hobject
    · rw [Loop.rounds_of_go (syncRound_of_nonempty hdescribes hempty)] at hend
      obtain ⟨hsubset, hnone⟩ := ih hend
      exact ⟨fun entry hentry => (mem_entries_wipe.mp (hsubset entry hentry)).1, hnone⟩

theorem endsWith_syncRound
    (hmissing : ∀ object ∈ store.objects.values, lists region bucket object = true →
      object.internalName ∉ files) :
    Loop.EndsWith (syncRound repository region files bucket) store
      (store.wipe erases (store.objects.values.filter (lists region bucket))) := by
  induction hlength : (store.objects.values.filter (lists region bucket)).length using
    Nat.strongRecOn generalizing store with
  | _ length ih =>
    by_cases hempty : store.objects.values.filter (lists region bucket) = []
    · rw [hempty, Store.wipe_nil]
      exact Loop.endsWith_of_leave (syncRound_of_empty hdescribes hempty)
    · let page := (store.objects.values.filter (lists region bucket)).take 1000
      have hpage : ∀ object ∈ page, object ∈ store.objects.values.filter (lists region bucket) :=
        fun object hobject => List.mem_of_mem_take hobject
      have hgone : page.filter (fun object => object.internalName ∉ files) = page := by
        rw [List.filter_eq_self]
        intro object hobject
        obtain ⟨hmem, hlists⟩ := List.mem_filter.mp (hpage object hobject)
        exact decide_eq_true (hmissing object hmem hlists)
      have hgo := @syncRound_of_nonempty repository lists erases region bucket files store
        hdescribes hempty
      rw [hgone] at hgo
      have hshorter : ((store.wipe erases page).objects.values.filter
          (lists region bucket)).length < length := by
        rw [← hlength, Store.wipe, UnorderedMap.values_eraseIf, List.filter_comm,
          List.length_filter_lt_length_iff_exists]
        obtain ⟨object, rest, hcons⟩ := List.exists_cons_of_ne_nil hempty
        have hobject : object ∈ page := by
          change object ∈ List.take 1000 _
          rw [hcons]
          exact List.mem_cons_self
        refine ⟨object, hpage object hobject, ?_⟩
        rw [Bool.not_eq_true, Bool.not_eq_false', List.any_eq_true]
        exact ⟨object, hobject, hdescribes.erases_self object⟩
      have hrest := @ih _ hshorter (store.wipe erases page)
        (fun object hobject => hmissing object (mem_values_wipe.mp hobject).1) rfl
      rw [Store.wipe_filter_wipe hdescribes.erases_trans] at hrest
      rw [Loop.endsWith_iff_of_go hgo]
      have hsame : store.wipe erases (store.objects.values.filter (lists region bucket)) =
          store.wipe erases (page ++ store.objects.values.filter (lists region bucket)) := by
        refine Store.wipe_congr ?_
        intro object _
        rw [List.any_append, Bool.eq_iff_iff, Bool.or_eq_true]
        refine ⟨.inr, ?_⟩
        rintro (hearlier | hlater)
        · obtain ⟨other, hother, herases⟩ := List.any_eq_true.mp hearlier
          exact List.any_eq_true.mpr ⟨other, hpage other hother, herases⟩
        · exact hlater
      rw [hsame]
      exact hrest

end Pages

/-! ## All buckets -/

section Buckets

variable {repository : SyncRepository} {lists : String → String → Object → Bool}
variable {erases : Object → Object → Bool} {region : String} {files : List String}
variable {fuel more : Nat} {buckets : List Bucket} {store after : Store}

theorem syncBuckets_cons {bucket : Bucket} :
    syncBuckets repository region files fuel (bucket :: buckets) store =
      (Loop.rounds (syncRound repository region files bucket.name) fuel store).bind
        (syncBuckets repository region files fuel buckets) := rfl

theorem syncBuckets_of_le (hle : fuel ≤ more)
    (hend : syncBuckets repository region files fuel buckets store = some after) :
    syncBuckets repository region files more buckets store = some after := by
  induction buckets generalizing store with
  | nil => exact hend
  | cons bucket buckets ih =>
    rw [syncBuckets_cons] at hend ⊢
    obtain ⟨between, hfirst, hrest⟩ := Option.bind_eq_some_iff.mp hend
    rw [Loop.rounds_of_le hle hfirst]
    exact ih hrest

theorem of_syncBuckets (hdescribes : repository.Describes lists erases)
    (hend : syncBuckets repository region files fuel buckets store = some after) :
    (∀ entry ∈ after.objects.entries, entry ∈ store.objects.entries) ∧
      ∀ bucket ∈ buckets, ∀ object ∈ after.objects.values,
        lists region bucket.name object = false := by
  induction buckets generalizing store with
  | nil =>
    obtain rfl := Option.some.inj hend
    exact ⟨fun _ hentry => hentry, fun _ hmem => nomatch hmem⟩
  | cons bucket buckets ih =>
    rw [syncBuckets_cons] at hend
    obtain ⟨between, hfirst, hrest⟩ := Option.bind_eq_some_iff.mp hend
    obtain ⟨hsubset, hnone⟩ := of_rounds_syncRound hdescribes hfirst
    obtain ⟨hlater, hothers⟩ := ih hrest
    refine ⟨fun entry hentry => hsubset entry (hlater entry hentry), ?_⟩
    intro other hother object hobject
    rcases List.mem_cons.mp hother with rfl | hother
    · obtain ⟨entry, hentry, rfl⟩ := List.mem_map.mp hobject
      exact hnone _ (List.mem_map_of_mem (hlater entry hentry))
    · exact hothers other hother object hobject

def listed (lists : String → String → Object → Bool) (region : String) (buckets : List Bucket)
    (store : Store) : List Object :=
  store.objects.values.filter fun object =>
    buckets.any fun bucket => lists region bucket.name object

theorem mem_listed {object : Object} : object ∈ listed lists region buckets store ↔
    object ∈ store.objects.values ∧ ∃ bucket ∈ buckets, lists region bucket.name object = true := by
  rw [listed, List.mem_filter, List.any_eq_true]

theorem exists_syncBuckets (hdescribes : repository.Describes lists erases)
    (hmissing : ∀ object ∈ listed lists region buckets store, object.internalName ∉ files) :
    ∃ fuel, syncBuckets repository region files fuel buckets store =
      some (store.wipe erases (listed lists region buckets store)) := by
  induction buckets generalizing store with
  | nil =>
    have hnone : listed lists region [] store = [] :=
      List.filter_eq_nil_iff.mpr fun _ _ hfalse => nomatch hfalse
    refine ⟨0, ?_⟩
    rw [hnone, Store.wipe_nil]
    rfl
  | cons bucket buckets ih =>
    let first := store.objects.values.filter (lists region bucket.name)
    obtain ⟨fuel, hfirst⟩ := @endsWith_syncRound repository lists erases region bucket.name files
      store hdescribes fun object hobject hlists =>
        hmissing object (mem_listed.mpr ⟨hobject, bucket, List.mem_cons_self, hlists⟩)
    obtain ⟨more, hrest⟩ := @ih (store.wipe erases first) (by
      intro object hobject
      obtain ⟨hmem, other, hother, hlists⟩ := mem_listed.mp hobject
      exact hmissing object (mem_listed.mpr
        ⟨(mem_values_wipe.mp hmem).1, other, List.mem_cons_of_mem _ hother, hlists⟩))
    refine ⟨max fuel more, ?_⟩
    rw [syncBuckets_cons, Loop.rounds_of_le (Nat.le_max_left fuel more) hfirst, Option.bind_some,
      syncBuckets_of_le (Nat.le_max_right fuel more) hrest, listed,
      Store.wipe_filter_wipe hdescribes.erases_trans]
    refine congrArg some (Store.wipe_congr ?_)
    intro object _
    rw [List.any_append, Bool.eq_iff_iff, Bool.or_eq_true, List.any_eq_true, List.any_eq_true,
      List.any_eq_true]
    constructor
    · rintro (⟨other, hother, herases⟩ | ⟨other, hother, herases⟩)
      · obtain ⟨hmem, hlists⟩ := List.mem_filter.mp hother
        exact ⟨other, mem_listed.mpr ⟨hmem, bucket, List.mem_cons_self, hlists⟩, herases⟩
      · obtain ⟨hmem, later, hlater, hlists⟩ := mem_listed.mp hother
        exact ⟨other, mem_listed.mpr ⟨hmem, later, List.mem_cons_of_mem _ hlater, hlists⟩, herases⟩
    · rintro ⟨other, hother, herases⟩
      obtain ⟨hmem, later, hlater, hlists⟩ := mem_listed.mp hother
      rcases List.mem_cons.mp hlater with rfl | hlater
      · exact .inl ⟨other, List.mem_filter.mpr ⟨hmem, hlists⟩, herases⟩
      · exact .inr ⟨other, mem_listed.mpr ⟨hmem, later, hlater, hlists⟩, herases⟩

end Buckets

/-! ## Exact synchronization -/

section Exactness

variable {repository : SyncRepository} {lists : String → String → Object → Bool}
variable {erases : Object → Object → Bool} {region : String} {world : SyncWorld}

theorem getBasename_ne_empty {fileName : String} (hne : fileName ≠ "") :
    getBasename fileName ≠ "" := by
  rw [getBasename]
  split
  next => exact hne
  next hstem =>
    intro hempty
    exact hstem (.inl (String.ofList_eq_empty_iff.mp hempty))

theorem syncsExactly_of_no_bucket (hdescribes : repository.Describes lists erases)
    (hnone : world.store.buckets.values = []) :
    SyncsExactly repository region world ↔
      (∀ object ∈ world.store.objects.values, object.internalName ∈ world.files) ∧
        ∀ file ∈ world.files, ∃ object ∈ world.store.objects.values,
          object.internalName = file := by
  have hsync : ∀ fuel, syncObjects repository region fuel world = some world := by
    intro fuel
    rw [syncObjects, hdescribes.listBuckets, hnone]
    rfl
  constructor
  · rintro ⟨fuel, after, hafter, hobjects, hfiles⟩
    obtain rfl := Option.some.inj ((hsync fuel).symm.trans hafter)
    constructor
    · intro object hobject
      obtain ⟨entry, hentry, rfl⟩ := List.mem_map.mp hobject
      exact ((hobjects entry).mp hentry).2
    · intro file hfile
      exact ((hfiles file).mp hfile).2
  · rintro ⟨hobjects, hfiles⟩
    refine ⟨0, world, hsync 0, ?_, ?_⟩
    · intro entry
      refine ⟨fun hentry => ⟨hentry, ?_⟩, fun hboth => hboth.1⟩
      exact hobjects entry.2 (List.mem_map_of_mem hentry)
    · intro file
      exact ⟨fun hfile => ⟨hfile, hfiles file hfile⟩, fun hboth => hboth.1⟩

theorem exists_internalName_iff {after : Store} {files : List String}
    (hobjects : ∀ entry, entry ∈ after.objects.entries ↔
      entry ∈ world.store.objects.entries ∧ entry.2.internalName ∈ files) (name : String) :
    (∃ object ∈ after.objects.values, object.internalName = name) ↔
      name ∈ files ∧ ∃ object ∈ world.store.objects.values, object.internalName = name := by
  constructor
  · rintro ⟨object, hobject, rfl⟩
    obtain ⟨entry, hentry, rfl⟩ := List.mem_map.mp hobject
    obtain ⟨hmem, hfile⟩ := (hobjects entry).mp hentry
    exact ⟨hfile, entry.2, List.mem_map_of_mem hmem, rfl⟩
  · rintro ⟨hfile, object, hobject, rfl⟩
    obtain ⟨entry, hentry, rfl⟩ := List.mem_map.mp hobject
    exact ⟨entry.2, List.mem_map_of_mem ((hobjects entry).mpr ⟨hentry, hfile⟩), rfl⟩

theorem syncsExactly_of_bucket (hdescribes : repository.Describes lists erases)
    (hsome : world.store.buckets.values ≠ []) :
    SyncsExactly repository region world ↔ SyncCondition lists erases region world := by
  rw [SyncCondition, if_neg hsome]
  let buckets := world.store.buckets.values
  let wiped := world.store.wipe erases (listed lists region buckets world.store)
  have hsync : ∀ fuel, syncObjects repository region fuel world =
      (syncBuckets repository region world.files fuel buckets world.store).map fun store =>
        { store
          files := world.files.filter fun file =>
            repository.objectExistsInternalName (getBasename file) store
          named := fun hmem => world.named (List.mem_of_mem_filter hmem) } := by
    intro fuel
    rw [syncObjects, hdescribes.listBuckets, if_neg (by simpa using hsome)]
    change _ = Option.map _ (syncBuckets _ _ _ _ world.store.buckets.values _)
    cases syncBuckets repository region world.files fuel world.store.buckets.values world.store with
    | none => rfl
    | some store => rfl
  have hwiped : ∀ entry : String × Object, entry ∈ wiped.objects.entries ↔
      entry ∈ world.store.objects.entries ∧ ¬∃ listed ∈ world.store.objects.values,
        (∃ bucket ∈ buckets, lists region bucket.name listed = true) ∧
          erases listed entry.2 = true := by
    intro entry
    rw [mem_entries_wipe]
    refine and_congr_right fun _ => ?_
    constructor
    · rintro hnone ⟨object, hobject, hlisted, herases⟩
      rw [hnone object (mem_listed.mpr ⟨hobject, hlisted⟩)] at herases
      cases herases
    · intro hnone object hobject
      obtain ⟨hmem, hlisted⟩ := mem_listed.mp hobject
      exact Bool.eq_false_iff.mpr fun herases => hnone ⟨object, hmem, hlisted, herases⟩
  have hfileName : ∀ file ∈ world.files, getBasename file ≠ "" := by
    intro file hfile
    exact getBasename_ne_empty fun hempty => world.named (hempty ▸ hfile)
  constructor
  · rintro ⟨fuel, after, hafter, hobjects, hfiles⟩
    obtain ⟨store, hstore, rfl⟩ := Option.map_eq_some_iff.mp ((hsync fuel).symm.trans hafter)
    obtain ⟨-, hnone⟩ := of_syncBuckets hdescribes hstore
    have hmissing : ∀ object ∈ listed lists region buckets world.store,
        object.internalName ∉ world.files := by
      intro object hobject hfile
      obtain ⟨hmem, bucket, hbucket, hlists⟩ := mem_listed.mp hobject
      obtain ⟨entry, hentry, rfl⟩ := List.mem_map.mp hmem
      have hleft := hnone bucket hbucket entry.2
        (List.mem_map_of_mem ((hobjects entry).mpr ⟨hentry, hfile⟩))
      rw [hleft] at hlists
      cases hlists
    obtain ⟨more, hmore⟩ := exists_syncBuckets hdescribes hmissing
    obtain rfl : store = wiped := Option.some.inj
      ((syncBuckets_of_le (Nat.le_max_left fuel more) hstore).symm.trans
        (syncBuckets_of_le (Nat.le_max_right fuel more) hmore))
    constructor
    · intro object hobject
      obtain ⟨entry, hentry, rfl⟩ := List.mem_map.mp hobject
      have hentries := (hobjects entry).symm.trans (hwiped entry)
      rwa [and_iff_right hentry, and_iff_right hentry] at hentries
    · intro file hfile
      have hiff := hfiles file
      rw [List.mem_filter, and_iff_right hfile, and_iff_right hfile,
        hdescribes.objectExistsInternalName _ (hfileName file hfile),
        exists_internalName_iff hobjects, exists_internalName_iff hobjects,
        and_iff_right hfile] at hiff
      exact hiff
  · rintro ⟨hobject, hfile⟩
    have hmissing : ∀ object ∈ listed lists region buckets world.store,
        object.internalName ∉ world.files := by
      intro object hlisted hmem
      obtain ⟨hvalue, hbucket⟩ := mem_listed.mp hlisted
      exact (hobject object hvalue).mp hmem ⟨object, hvalue, hbucket, hdescribes.erases_self object⟩
    obtain ⟨fuel, hstore⟩ := exists_syncBuckets hdescribes hmissing
    have hobjects : ∀ entry, entry ∈ wiped.objects.entries ↔
        entry ∈ world.store.objects.entries ∧ entry.2.internalName ∈ world.files := by
      intro entry
      rw [hwiped]
      refine and_congr_right fun hentry => ?_
      exact (hobject entry.2 (List.mem_map_of_mem hentry)).symm
    refine ⟨fuel, _, (hsync fuel).trans (congrArg _ hstore), hobjects, ?_⟩
    intro name
    change name ∈ List.filter _ _ ↔ _
    rw [List.mem_filter]
    refine and_congr_right fun hname => ?_
    rw [hdescribes.objectExistsInternalName _ (hfileName name hname)]
    refine (exists_internalName_iff hobjects _).trans ((hfile name hname).trans ?_)
    refine Iff.trans ?_ (exists_internalName_iff hobjects name).symm
    rw [and_iff_right hname]

theorem syncsExactly_iff_of_describes (hdescribes : repository.Describes lists erases)
    (region : String) (world : SyncWorld) :
    SyncsExactly repository region world ↔ SyncCondition lists erases region world := by
  by_cases hnone : world.store.buckets.values = []
  · rw [SyncCondition, if_pos hnone]
    exact syncsExactly_of_no_bucket hdescribes hnone
  · exact syncsExactly_of_bucket hdescribes hnone

end Exactness

/-! ## The two repositories -/

theorem findIf_isSome_iff {α : Type} {map : UnorderedMap String α} {select : α → Bool} :
    (map.findIf select).isSome = true ↔ ∃ value ∈ map.values, select value = true := by
  rw [UnorderedMap.findIf, List.find?_isSome, UnorderedMap.values]
  constructor
  · rintro ⟨entry, hmem, hselect⟩
    exact ⟨entry.2, List.mem_map_of_mem hmem, hselect⟩
  · rintro ⟨value, hmem, hselect⟩
    obtain ⟨entry, hentry, rfl⟩ := List.mem_map.mp hmem
    exact ⟨entry, hentry, hselect⟩

theorem MemoryRepository.sync_describes :
    MemoryRepository.sync.Describes MemoryRepository.lists MemoryRepository.erases where
  listBuckets _ := rfl
  getBucketObjectList region bucket store := by
    have hlist : MemoryRepository.sync.getBucketObjectList region bucket 1000 store =
        MemoryRepository.getBucketObjectList region bucket 1000 store := rfl
    rw [hlist, MemoryRepository.getBucketObjectList, if_pos (by decide)]
    refine congrArg _ ?_
    by_cases hregion : region = ""
    · by_cases hbucket : bucket = ""
      · rw [if_pos hbucket, if_pos hregion]
        refine (List.filter_eq_self.mpr fun object _ => ?_).symm
        simp [MemoryRepository.lists, hregion, hbucket]
      · rw [if_neg hbucket, if_pos hregion]
        refine List.filter_congr fun object _ => ?_
        simp [MemoryRepository.lists, hregion, hbucket]
    · by_cases hbucket : bucket = ""
      · rw [if_pos hbucket, if_neg hregion]
        refine List.filter_congr fun object _ => ?_
        simp [MemoryRepository.lists, hregion, hbucket]
      · rw [if_neg hbucket, if_neg hregion, List.filter_filter]
        refine List.filter_congr fun object _ => ?_
        simp [MemoryRepository.lists, hregion, hbucket, Bool.and_comm]
  deleteObject _ _ := rfl
  erases_self object := by simp [MemoryRepository.erases]
  erases_trans first second third hfirst hsecond := by
    simp only [MemoryRepository.erases, Bool.and_eq_true, decide_eq_true_eq] at *
    exact ⟨hsecond.1.trans hfirst.1, hsecond.2.trans hfirst.2⟩
  objectExistsInternalName store _ := by
    refine findIf_isSome_iff.trans ?_
    simp only [decide_eq_true_eq]

theorem MongoRepository.sync_describes :
    MongoRepository.sync.Describes MongoRepository.lists MongoRepository.erases where
  listBuckets _ := rfl
  getBucketObjectList _ _ _ := rfl
  deleteObject _ _ := rfl
  erases_self object := by simp [MongoRepository.erases, Object.isAt]
  erases_trans first second third hfirst hsecond := by
    simp only [MongoRepository.erases, Object.isAt, Bool.and_eq_true, decide_eq_true_eq] at *
    obtain ⟨⟨hregion, hbucket⟩, hkey⟩ := hfirst
    obtain ⟨⟨hregion', hbucket'⟩, hkey'⟩ := hsecond
    exact ⟨⟨hregion'.trans hregion, hbucket'.trans hbucket⟩, hkey'.trans hkey⟩
  objectExistsInternalName {name} store hne := by
    change decide (0 < store.objects.countIf _) = true ↔ _
    rw [decide_eq_true_iff, UnorderedMap.countIf_eq_countP, List.countP_pos_iff]
    simp only [hne, decide_false, Bool.false_or, decide_eq_true_eq]

/-- Both repositories are synchronized exactly under the condition on what they list and what they
delete. -/
theorem syncsExactly_iff (region : String) (world : SyncWorld) :
    (SyncsExactly MemoryRepository.sync region world ↔
      SyncCondition MemoryRepository.lists MemoryRepository.erases region world) ∧
    (SyncsExactly MongoRepository.sync region world ↔
      SyncCondition MongoRepository.lists MongoRepository.erases region world) :=
  ⟨syncsExactly_iff_of_describes MemoryRepository.sync_describes region world,
    syncsExactly_iff_of_describes MongoRepository.sync_describes region world⟩

/-! ## An object with its file -/

def keptWorld : SyncWorld where
  store :=
    { buckets := ⟨[("b", { Bucket.blank 0 with region := "eu-central-1", name := "bucket" })],
        List.nodup_singleton _⟩
      objects := ⟨[("o", { Object.blank 0 with
          region := "eu-central-1", bucket := "bucket", key := "key"
          internalName := "0123456789abcdef" })], List.nodup_singleton _⟩ }
  files := ["0123456789abcdef"]
  named := by decide

/-- An object that has its file is fetched again and again. -/
theorem not_syncsExactly_kept :
    ¬SyncsExactly MemoryRepository.sync "eu-central-1" keptWorld ∧
      ¬SyncsExactly MongoRepository.sync "eu-central-1" keptWorld := by
  have hsome : keptWorld.store.buckets.values ≠ [] := List.cons_ne_nil _ _
  constructor
  · rw [syncsExactly_of_bucket MemoryRepository.sync_describes hsome, SyncCondition, if_neg hsome]
    rintro ⟨hobjects, -⟩
    exact (hobjects _ List.mem_cons_self).mp List.mem_cons_self
      ⟨_, List.mem_cons_self, ⟨_, List.mem_cons_self, by decide⟩, by decide⟩
  · rw [syncsExactly_of_bucket MongoRepository.sync_describes hsome, SyncCondition, if_neg hsome]
    rintro ⟨hobjects, -⟩
    exact (hobjects _ List.mem_cons_self).mp List.mem_cons_self
      ⟨_, List.mem_cons_self, ⟨_, List.mem_cons_self, by decide⟩, by decide⟩

end AwsMock.S3
