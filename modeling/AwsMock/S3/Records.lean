import AwsMock.S3.Repository

/-! # The records of a store

What both repositories say about the buckets and objects they keep, under their object
ids. The object id inside a record is left out: a read of the in-memory repository sets
it, and no other read changes a record.
-/

namespace AwsMock.S3

open Foundation

structure Records where
  buckets : List (String × Bucket)
  objects : List (String × Object)
deriving DecidableEq, Repr

def Bucket.withoutId (bucket : Bucket) : Bucket := { bucket with oid := "" }

def Object.withoutId (object : Object) : Object := { object with oid := "" }

theorem place_of_isAt {region bucket key : String} {object : Object}
    (hat : object.isAt region bucket key = true) :
    object.region = region ∧ object.bucket = bucket ∧ object.key = key := by
  unfold Object.isAt at hat
  rw [Bool.and_eq_true, Bool.and_eq_true, decide_eq_true_iff, decide_eq_true_iff,
    decide_eq_true_iff] at hat
  exact ⟨hat.1.1, hat.1.2, hat.2⟩

namespace Store

def records (store : Store) : Records where
  buckets := store.buckets.entries.map fun entry => (entry.1, entry.2.withoutId)
  objects := store.objects.entries.map fun entry => (entry.1, entry.2.withoutId)

variable {store : Store}

theorem records_writeBucket {oid : String} {old bucket : Bucket}
    (hmem : (oid, old) ∈ store.buckets.entries) (hsame : bucket.withoutId = old.withoutId) :
    (store.writeBucket oid bucket).records = store.records := by
  have hentries := UnorderedMap.map_assignEntries_of_mem
    (f := fun entry => (entry.1, entry.2.withoutId)) store.buckets.nodup hmem
    (congrArg (Prod.mk oid) hsame)
  exact congrArg (fun buckets => Records.mk buckets store.records.objects) hentries

theorem records_writeObject {oid : String} {old object : Object}
    (hmem : (oid, old) ∈ store.objects.entries) (hsame : object.withoutId = old.withoutId) :
    (store.writeObject oid object).records = store.records := by
  have hentries := UnorderedMap.map_assignEntries_of_mem
    (f := fun entry => (entry.1, entry.2.withoutId)) store.objects.nodup hmem
    (congrArg (Prod.mk oid) hsame)
  exact congrArg (Records.mk store.records.buckets) hentries

variable {α : Type}

theorem mem_of_findIf {map : UnorderedMap String α} {select : α → Bool}
    {entry : String × α} (hfound : map.findIf select = some entry) :
    entry ∈ map.entries ∧ select entry.2 = true := by
  unfold UnorderedMap.findIf at hfound
  have hselect := List.find?_some hfound
  exact ⟨List.mem_of_find?_eq_some hfound, hselect⟩

theorem any_withoutId {map : UnorderedMap String α} {withoutId : α → α}
    {select : α → Bool} (hselect : ∀ record, select (withoutId record) = select record) :
    ((map.entries.map fun entry => (entry.1, withoutId entry.2)).any fun entry =>
      select entry.2) = (map.findIf select).isSome := by
  rw [List.any_map, UnorderedMap.findIf, Bool.eq_iff_iff, List.any_eq_true, List.find?_isSome]
  constructor
  · rintro ⟨entry, hmem, hentry⟩
    exact ⟨entry, hmem, (hselect entry.2).symm.trans hentry⟩
  · rintro ⟨entry, hmem, hentry⟩
    exact ⟨entry, hmem, (hselect entry.2).trans hentry⟩

theorem findIf_buckets {store : Store} {select : Bucket → Bool}
    (hselect : ∀ bucket : Bucket, select bucket.withoutId = select bucket) :
    (store.buckets.findIf select).isSome = store.records.buckets.any fun entry => select entry.2 :=
  (any_withoutId hselect).symm

theorem findIf_objects {store : Store} {select : Object → Bool}
    (hselect : ∀ object : Object, select object.withoutId = select object) :
    (store.objects.findIf select).isSome = store.records.objects.any fun entry => select entry.2 :=
  (any_withoutId hselect).symm

theorem countIf_pos {map : UnorderedMap String α} {select : α → Bool} :
    decide (0 < map.countIf select) = (map.findIf select).isSome := by
  rw [UnorderedMap.countIf, UnorderedMap.findIf, Bool.eq_iff_iff, decide_eq_true_iff,
    List.countP_pos_iff, List.find?_isSome]

theorem filter_withoutId {entries : List (String × α)} {withoutId : α → α}
    {select : α → Bool} (hselect : ∀ record, select (withoutId record) = select record) :
    (entries.filter fun entry => !select entry.2).map (fun entry => (entry.1, withoutId entry.2)) =
      (entries.map fun entry => (entry.1, withoutId entry.2)).filter fun entry =>
        !select entry.2 := by
  rw [List.filter_map]
  congr 1
  apply List.filter_congr
  intro entry _
  exact congrArg not (hselect entry.2).symm

end Store

namespace Records

variable (records : Records)

def hasBucket (region name : String) : Bool :=
  records.buckets.any fun entry => entry.2.isNamed region name

def hasObject (region bucket key : String) : Bool :=
  records.objects.any fun entry => entry.2.isAt region bucket key

def eraseObjects (select : Object → Bool) : Records :=
  { records with objects := records.objects.filter fun entry => !select entry.2 }

end Records

theorem Store.records_eraseIf {store : Store} {select : Object → Bool}
    (hselect : ∀ object : Object, select object.withoutId = select object) :
    ({ store with objects := store.objects.eraseIf select } : Store).records =
      store.records.eraseObjects select :=
  congrArg (Records.mk store.records.buckets) (Store.filter_withoutId hselect)

/-- What the two repositories have in common: they find the same records, and reading
does not change them. -/
structure Repository.IsFaithful (repository : Repository) : Prop where
  bucketExists : ∀ region name store, repository.bucketExists region name store =
    store.records.hasBucket region name
  getBucketByRegionName : ∀ now region name store,
    (repository.getBucketByRegionName now region name store).2.records = store.records
  isNamed_bucket : ∀ now region name store, repository.bucketExists region name store = true →
    (repository.getBucketByRegionName now region name store).1.isNamed region name = true
  hasObjects : ∀ bucket store, repository.hasObjects bucket store =
    store.records.objects.any fun entry => isInBucket bucket entry.2
  objectExists : ∀ region bucket key store, repository.objectExists region bucket key store =
    store.records.hasObject region bucket key
  getObject : ∀ now region bucket key store,
    (repository.getObject now region bucket key store).2.records = store.records
  isAt_object : ∀ now region bucket key store,
    repository.objectExists region bucket key store = true →
    (repository.getObject now region bucket key store).1.isAt region bucket key = true
  purgeBucket : ∀ bucket store, (repository.purgeBucket bucket store).records =
    store.records.eraseObjects (isInBucket bucket)

namespace MemoryRepository

theorem records_getBucketIf (now : Time) (select : Bucket → Bool) (store : Store) :
    (getBucketIf now select store).2.records = store.records := by
  unfold getBucketIf
  split
  next oid bucket hfound =>
    exact Store.records_writeBucket (Store.mem_of_findIf hfound).1 rfl
  next => rfl

theorem records_getObjectIf (now : Time) (select : Object → Bool) (store : Store) :
    (getObjectIf now select store).2.records = store.records := by
  unfold getObjectIf
  split
  next oid object hfound =>
    exact Store.records_writeObject (Store.mem_of_findIf hfound).1 rfl
  next => rfl

theorem newest_spec {region bucket key : String} {entries : List (String × Object)}
    {start found : Option (String × Object)}
    (hfound : newest region bucket key entries start = found) :
    (∀ entry, found = some entry →
      (entry ∈ entries ∧ entry.2.isAt region bucket key = true) ∨ start = some entry) ∧
    (found = none → start = none ∧ ∀ entry ∈ entries, entry.2.isAt region bucket key = false) := by
  induction entries generalizing start with
  | nil =>
    obtain rfl : start = found := hfound
    exact ⟨fun entry hentry => .inr hentry, fun hnone => ⟨hnone, nofun⟩⟩
  | cons entry entries ih =>
    unfold newest at hfound
    split at hfound
    next hat =>
      cases hstart : start with
      | none =>
        rw [hstart] at hfound
        obtain ⟨hsome, hnone⟩ := ih hfound
        refine ⟨?_, fun hempty => nomatch (hnone hempty).1⟩
        intro other hother
        rcases hsome other hother with ⟨hmem, hselect⟩ | heq
        · exact .inl ⟨List.mem_cons_of_mem _ hmem, hselect⟩
        · obtain rfl := Option.some.inj heq
          exact .inl ⟨List.mem_cons_self, hat⟩
      | some best =>
        rw [hstart] at hfound
        obtain ⟨hsome, hnone⟩ := ih hfound
        refine ⟨?_, fun hempty => nomatch (hnone hempty).1⟩
        intro other hother
        rcases hsome other hother with ⟨hmem, hselect⟩ | heq
        · exact .inl ⟨List.mem_cons_of_mem _ hmem, hselect⟩
        · have heq := Option.some.inj heq
          split at heq
          next =>
            subst heq
            exact .inl ⟨List.mem_cons_self, hat⟩
          next => exact .inr (congrArg some heq)
    next hnot =>
      obtain ⟨hsome, hnone⟩ := ih hfound
      refine ⟨?_, ?_⟩
      · intro other hother
        rcases hsome other hother with ⟨hmem, hselect⟩ | heq
        · exact .inl ⟨List.mem_cons_of_mem _ hmem, hselect⟩
        · exact .inr heq
      · intro hempty
        obtain ⟨hstart, hrest⟩ := hnone hempty
        refine ⟨hstart, ?_⟩
        intro other hother
        rcases List.mem_cons.mp hother with rfl | hmem
        · exact eq_false_of_ne_true hnot
        · exact hrest other hmem

theorem records_getObject (now : Time) (region bucket key : String) (store : Store) :
    (getObject now region bucket key store).2.records = store.records := by
  unfold getObject
  split
  next oid object hfound =>
    rcases (newest_spec hfound).1 _ rfl with ⟨hmem, _⟩ | hnone
    · exact Store.records_writeObject hmem rfl
    · cases hnone
  next => rfl

theorem isFaithful : memoryRepository.IsFaithful where
  bucketExists region name store := Store.findIf_buckets fun _ => rfl
  getBucketByRegionName now region name store := records_getBucketIf now _ store
  isNamed_bucket now region name store hexists := by
    change (getBucketIf now (Bucket.isNamed · region name) store).1.isNamed region name = true
    unfold getBucketIf
    split
    next oid bucket hfound => exact (Store.mem_of_findIf hfound).2
    next hnone =>
      change Option.isSome _ = true at hexists
      rw [hnone] at hexists
      cases hexists
  hasObjects bucket store :=
    Store.countIf_pos.trans (Store.findIf_objects fun _ => rfl)
  objectExists region bucket key store := Store.findIf_objects fun _ => rfl
  getObject := records_getObject
  isAt_object now region bucket key store hexists := by
    change (getObject now region bucket key store).1.isAt region bucket key = true
    unfold getObject
    split
    next oid object hfound =>
      rcases (newest_spec hfound).1 _ rfl with ⟨_, hat⟩ | hnone
      · exact hat
      · cases hnone
    next hnone =>
      obtain ⟨entry, hfound⟩ := Option.isSome_iff_exists.mp hexists
      obtain ⟨hmem, hat⟩ := Store.mem_of_findIf hfound
      exact absurd hat (Bool.eq_false_iff.mp ((newest_spec hnone).2 rfl |>.2 entry hmem))
  purgeBucket bucket store := Store.records_eraseIf fun _ => rfl

end MemoryRepository

namespace MongoRepository

variable {entries : List (String × Object)} {region bucket key : String}

theorem mem_of_newest
    {entry : String × Object} (hfound : newest region bucket key entries = some entry) :
    entry ∈ entries ∧ entry.2.isAt region bucket key = true := by
  have hmem := List.mem_of_mem_head? hfound
  rw [List.mem_mergeSort] at hmem
  exact List.mem_filter.mp hmem

theorem newest_isSome
    {entry : String × Object} (hmem : entry ∈ entries)
    (hat : entry.2.isAt region bucket key = true) :
    newest region bucket key entries ≠ none := by
  intro hnone
  have hempty := List.head?_eq_none_iff.mp hnone
  have hsorted : entry ∈ (entries.filter fun entry => entry.2.isAt region bucket key).mergeSort
      fun left right => right.2.modified ≤ left.2.modified :=
    List.mem_mergeSort.mpr (List.mem_filter.mpr ⟨hmem, hat⟩)
  rw [hempty] at hsorted
  exact absurd hsorted List.not_mem_nil

theorem isFaithful : mongoRepository.IsFaithful where
  bucketExists region name store := Store.findIf_buckets fun _ => rfl
  getBucketByRegionName now region name store := by
    change (getBucketIf now _ store).2.records = store.records
    unfold getBucketIf
    split <;> rfl
  isNamed_bucket now region name store hexists := by
    change (getBucketIf now (Bucket.isNamed · region name) store).1.isNamed region name = true
    unfold getBucketIf
    split
    next oid bucket hfound => exact (Store.mem_of_findIf hfound).2
    next hnone =>
      change Option.isSome _ = true at hexists
      rw [hnone] at hexists
      cases hexists
  hasObjects bucket store :=
    Store.countIf_pos.trans (Store.findIf_objects fun _ => rfl)
  objectExists region bucket key store := Store.findIf_objects fun _ => rfl
  getObject now region bucket key store := by
    change (getObject now region bucket key store).2.records = store.records
    unfold getObject
    split <;> rfl
  isAt_object now region bucket key store hexists := by
    change (getObject now region bucket key store).1.isAt region bucket key = true
    unfold getObject
    split
    next oid object hfound => exact (mem_of_newest hfound).2
    next hnone =>
      obtain ⟨entry, hfound⟩ := Option.isSome_iff_exists.mp hexists
      obtain ⟨hmem, hat⟩ := Store.mem_of_findIf hfound
      exact absurd hnone (newest_isSome hmem hat)
  purgeBucket bucket store := Store.records_eraseIf fun _ => rfl

end MongoRepository

end AwsMock.S3
