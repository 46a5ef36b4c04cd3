import AwsMock.S3.ServiceLaws

/-! # Deletions

What the four calls that delete remove. A call removes what its repository selects, or is
refused and removes nothing. The two repositories select by different criteria, and
neither always by all that a request names.
-/

namespace AwsMock.S3

open Foundation

inductive Deletion where
  | deleteObject (region bucket key : String)
  | deleteObjects (region bucket : String) (keys : List String)
  | purgeBucket (region bucket : String)
  | deleteBucket (region name : String)
deriving DecidableEq, Repr

namespace Deletion

def call (surroundings : Surroundings) (now : Time) : Deletion → ServiceCall Unit
  | .deleteObject region bucket key => S3Service.deleteObject surroundings now region bucket key
  | .deleteObjects region bucket keys => S3Service.deleteObjects surroundings now region bucket keys
  | .purgeBucket region bucket => S3Service.purgeBucket surroundings now region bucket
  | .deleteBucket region name => S3Service.deleteBucket surroundings now region name

def namesObject : Deletion → Object → Bool
  | .deleteObject region bucket key, object => object.isAt region bucket key
  | .deleteObjects region bucket keys, object =>
    object.region = region && object.bucket = bucket && object.key ∈ keys
  | .purgeBucket region bucket, object => object.region = region && object.bucket = bucket
  | .deleteBucket _ _, _ => false

def namesBucket : Deletion → Bucket → Bool
  | .deleteBucket region name, bucket => bucket.isNamed region name
  | _, _ => false

def exactly (deletion : Deletion) (records : Records) : Records where
  buckets := records.buckets.filter fun entry => !deletion.namesBucket entry.2
  objects := records.objects.filter fun entry => !deletion.namesObject entry.2

/-- A call removes the records its request names. One that throws may leave all of them. -/
def IsExact (surroundings : Surroundings) (now : Time) (deletion : Deletion)
    (world : World Storage) : Prop :=
  ((deletion.call surroundings now).run [] world).Ends
    (fun _ => Holds (deletion.exactly world.store.database.records))
    fun after => Holds (deletion.exactly world.store.database.records) after ∨
      Holds world.store.database.records after

/-- Both repositories remove the records a request names, whatever the services that are
notified do. -/
def IsExactInBoth (surroundings : Surroundings) (now : Time) (deletion : Deletion)
    (world : World Storage) : Prop :=
  ∀ deliver,
    IsExact { surroundings with repository := memoryRepository, deliver } now deletion world ∧
      IsExact { surroundings with repository := mongoRepository, deliver } now deletion world

def isRefused (records : Records) : Deletion → Bool
  | .deleteObject region bucket _ | .deleteObjects region bucket _ | .purgeBucket region bucket =>
    !records.hasBucket region bucket
  | .deleteBucket region name => !records.hasBucket region name ||
      records.objects.any fun entry => entry.2.region = region && entry.2.bucket = name

def finds (records : Records) : Deletion → Bool
  | .deleteObject region bucket key => records.hasObject region bucket key
  | _ => true

/-- What the in-memory repository removes: an object goes in every region. -/
def inMemory : Deletion → Records → Records
  | .deleteObject _ bucket key, records =>
    records.eraseObjects fun object => object.bucket = bucket && object.key = key
  | deletion, records => deletion.exactly records

/-- What the document database removes: criteria that are empty are left out, and the
first bucket of a name goes. -/
def inMongo : Deletion → Records → Records
  | .deleteObjects region bucket keys, records =>
    records.eraseObjects fun object =>
      (region = "" || object.region = region) && (bucket = "" || object.bucket = bucket) &&
        (keys = [] || object.key ∈ keys)
  | .deleteBucket _ name, records =>
    { records with buckets := records.buckets.eraseP fun entry => entry.2.name = name }
  | deletion, records => deletion.exactly records

end Deletion

structure Repository.Removes (repository : Repository) (effect : Deletion → Records → Records) :
    Prop where
  deleteObject : ∀ {region bucket key : String} {object : Object} (store : Store),
    object.isAt region bucket key = true →
    (repository.deleteObject object store).records =
      effect (.deleteObject region bucket key) store.records
  deleteObjects : ∀ region bucket keys store,
    (repository.deleteObjects region bucket keys store).records =
      effect (.deleteObjects region bucket keys) store.records
  purgeBucket : ∀ {region name : String} {bucket : Bucket} (store : Store),
    bucket.isNamed region name = true →
    (repository.purgeBucket bucket store).records = effect (.purgeBucket region name) store.records
  deleteBucket : ∀ bucket store, (repository.deleteBucket bucket store).records =
    effect (.deleteBucket bucket.region bucket.name) store.records

namespace Deletion

variable {records : Records}

theorem exactly_of_not_bucket {deletion : Deletion}
    (hnone : ∀ bucket, deletion.namesBucket bucket = false) :
    deletion.exactly records = records.eraseObjects deletion.namesObject := by
  apply congrArg (Records.mk · (records.eraseObjects deletion.namesObject).objects)
  apply List.filter_eq_self.mpr
  intro entry _
  rw [hnone]
  rfl

theorem exactly_deleteObject (region bucket key : String) :
    (Deletion.deleteObject region bucket key).exactly records =
      records.eraseObjects (Object.isAt region bucket key) :=
  exactly_of_not_bucket fun _ => rfl

theorem exactly_deleteObjects (region bucket : String) (keys : List String) :
    (Deletion.deleteObjects region bucket keys).exactly records =
      records.eraseObjects fun object =>
        object.region = region && object.bucket = bucket && object.key ∈ keys :=
  exactly_of_not_bucket fun _ => rfl

theorem exactly_purgeBucket (region bucket : String) :
    (Deletion.purgeBucket region bucket).exactly records =
      records.eraseObjects fun object => object.region = region && object.bucket = bucket :=
  exactly_of_not_bucket fun _ => rfl

theorem exactly_deleteBucket (region name : String) :
    (Deletion.deleteBucket region name).exactly records =
      { records with buckets := records.buckets.filter fun entry => !entry.2.isNamed region name } :=
  congrArg (Records.mk ((Deletion.deleteBucket region name).exactly records).buckets)
    (List.filter_eq_self.mpr fun _ _ => rfl)

variable {region name : String}

theorem isInBucket_of_isNamed {bucket : Bucket} (hnamed : bucket.isNamed region name = true) :
    isInBucket bucket = fun object => object.region = region && object.bucket = name := by
  unfold Bucket.isNamed at hnamed
  rw [Bool.and_eq_true, decide_eq_true_iff, decide_eq_true_iff] at hnamed
  obtain ⟨rfl, rfl⟩ := hnamed
  rfl

theorem removes_memory : memoryRepository.Removes inMemory where
  deleteObject store hat := by
    obtain ⟨_, rfl, rfl⟩ := place_of_isAt hat
    exact Store.records_eraseIf fun _ => rfl
  deleteObjects region bucket keys store :=
    (Store.records_eraseIf fun _ => rfl).trans (exactly_deleteObjects region bucket keys).symm
  purgeBucket store hnamed := by
    change _ = exactly _ _
    rw [exactly_purgeBucket, ← isInBucket_of_isNamed hnamed]
    exact Store.records_eraseIf fun _ => rfl
  deleteBucket bucket store := by
    change _ = exactly _ _
    rw [exactly_deleteBucket]
    apply congrArg (Records.mk · store.records.objects)
    exact @Store.filter_withoutId Bucket store.buckets.entries Bucket.withoutId
      (Bucket.isNamed · bucket.region bucket.name) fun _ => rfl

theorem removes_mongo : mongoRepository.Removes inMongo where
  deleteObject store hat := by
    obtain ⟨rfl, rfl, rfl⟩ := place_of_isAt hat
    change _ = exactly _ _
    rw [exactly_deleteObject]
    exact Store.records_eraseIf fun _ => rfl
  deleteObjects region bucket keys store := Store.records_eraseIf fun _ => rfl
  purgeBucket store hnamed := by
    change _ = exactly _ _
    rw [exactly_purgeBucket, ← isInBucket_of_isNamed hnamed]
    exact Store.records_eraseIf fun _ => rfl
  deleteBucket bucket store := by
    apply congrArg (Records.mk · store.records.objects)
    change _ = List.eraseP _ (List.map _ _)
    rw [List.eraseP_map]
    rfl

variable {surroundings : Surroundings} {now : Time} {effect : Deletion → Records → Records}

section

variable (hfaithful : surroundings.repository.IsFaithful)
include hfaithful

variable (hremoves : surroundings.repository.Removes effect)
include hremoves

theorem satisfies_deleteObject
    (region bucket key : String) :
    (S3Service.deleteObject surroundings now region bucket key).Satisfies (Holds records)
      (fun _ world => records.hasBucket region bucket = true ∧
        if records.hasObject region bucket key then
          Holds (effect (.deleteObject region bucket key) records) world
        else Holds records world)
      fun world => records.hasBucket region bucket = false ∧ Holds records world ∨
        surroundings.Fails ∧ records.hasBucket region bucket = true ∧
          records.hasObject region bucket key = true ∧
          Holds (effect (.deleteObject region bucket key) records) world := by
  apply Action.Satisfies.bind (S3Service.satisfies_checkBucketExistence hfaithful region bucket
    fun hmissing world hholds => .inl ⟨hmissing, hholds⟩)
  intro _
  apply Action.Satisfies.assuming
  intro hbucket
  apply Action.Satisfies.bind (ServiceCall.satisfies_query fun store hstore =>
    (hfaithful.objectExists region bucket key store).trans
      (congrArg (Records.hasObject · region bucket key) hstore))
  intro found
  apply Action.Satisfies.assuming
  rintro rfl
  cases hfound : records.hasObject region bucket key with
  | false => exact Action.satisfies_pure fun _ hholds => ⟨hbucket, hholds⟩
  | true =>
    apply Action.Satisfies.rethrow
    apply Action.Satisfies.bind (ServiceCall.satisfies_perform
      (fun object => object.isAt region bucket key = true) fun store hstore =>
      ⟨(hfaithful.getObject now region bucket key store).trans hstore,
        hfaithful.isAt_object now region bucket key store
          ((hfaithful.objectExists region bucket key store).trans (hstore ▸ hfound))⟩)
    intro object
    apply Action.Satisfies.assuming
    intro hat
    apply Action.Satisfies.bind (ServiceCall.satisfies_execute fun store hstore =>
      (hremoves.deleteObject store hat).trans (congrArg _ hstore))
    intro _
    apply Action.Satisfies.bind (S3Service.satisfies_deleteFile _ _ _)
    intro _
    apply (S3Service.satisfies_checkNotifications hfaithful _ _ _ _ _ _ _ ?_).weaken
    · exact fun _ world hholds => ⟨hbucket, hholds⟩
    · exact fun hfails world hholds => .inr ⟨hfails, hbucket, rfl, hholds⟩

theorem satisfies_deleteObjects
    (region bucket : String)
    (keys : List String) :
    (S3Service.deleteObjects surroundings now region bucket keys).Satisfies (Holds records)
      (fun _ world => records.hasBucket region bucket = true ∧
        Holds (effect (.deleteObjects region bucket keys) records) world)
      fun world => (records.hasBucket region bucket = false ∨ surroundings.Fails) ∧
        Holds records world := by
  apply Action.Satisfies.bind (S3Service.satisfies_checkBucketExistence hfaithful region bucket
    fun hmissing world hholds => ⟨.inl hmissing, hholds⟩)
  intro _
  apply Action.Satisfies.assuming
  intro hbucket
  apply Action.Satisfies.bind (Action.satisfies_forM keys ?_)
  · intro _ held world hholds
    exact ⟨hbucket, (hremoves.deleteObjects region bucket keys world.store.database).trans
      (congrArg _ hholds)⟩
  · intro key _
    apply Action.Satisfies.ite
    · intro _
      apply Action.Satisfies.bind
        (ServiceCall.satisfies_read (hfaithful.getObject now region bucket key))
      intro object
      apply Action.Satisfies.bind (S3Service.satisfies_deleteFile _ _ _)
      intro _
      exact S3Service.satisfies_checkNotifications hfaithful _ _ _ _ _ _ _
        fun hfails world hholds => ⟨.inr hfails, hholds⟩
    · exact fun _ => Action.satisfies_pure fun _ => id

theorem satisfies_purgeBucket
    (region bucket : String) :
    (S3Service.purgeBucket surroundings now region bucket).Satisfies (Holds records)
      (fun _ world => records.hasBucket region bucket = true ∧
        Holds (effect (.purgeBucket region bucket) records) world)
      fun world => records.hasBucket region bucket = false ∧ Holds records world := by
  apply Action.Satisfies.bind (S3Service.satisfies_checkBucketExistence hfaithful region bucket
    fun hmissing world hholds => ⟨hmissing, hholds⟩)
  intro _
  apply Action.Satisfies.assuming
  intro hbucket
  apply Action.Satisfies.rethrow
  apply Action.Satisfies.bind (ServiceCall.satisfies_perform
    (fun entity => entity.isNamed region bucket = true) fun store hstore =>
    ⟨(hfaithful.getBucketByRegionName now region bucket store).trans hstore,
      hfaithful.isNamed_bucket now region bucket store
        ((hfaithful.bucketExists region bucket store).trans (hstore ▸ hbucket))⟩)
  intro entity
  apply Action.Satisfies.assuming
  intro hnamed
  apply Action.Satisfies.bind (ServiceCall.satisfies_anyQuery _)
  intro objects
  apply Action.Satisfies.bind (Action.satisfies_forM _ fun object _ =>
    S3Service.satisfies_deleteFile _ _ _)
  intro _ held world hholds
  exact ⟨hbucket, (hremoves.purgeBucket world.store.database hnamed).trans (congrArg _ hholds)⟩

theorem satisfies_deleteBucket
    (region name : String) :
    (S3Service.deleteBucket surroundings now region name).Satisfies (Holds records)
      (fun _ world => (Deletion.deleteBucket region name).isRefused records = false ∧
        Holds (effect (.deleteBucket region name) records) world)
      fun world => (Deletion.deleteBucket region name).isRefused records = true ∧
        Holds records world := by
  apply Action.Satisfies.bind (S3Service.satisfies_checkBucketExistence hfaithful region name
    fun hmissing world hholds => ⟨by change (!_ || _) = true; rw [hmissing]; rfl, hholds⟩)
  intro _
  apply Action.Satisfies.assuming
  intro hbucket
  let blank := Bucket.blank now
  apply Action.Satisfies.bind (@ServiceCall.satisfies_query _ _ _ _
    (records.objects.any fun entry => entry.2.region = region && entry.2.bucket = name)
    fun store hstore => (hfaithful.hasObjects { blank with region, name } store).trans
      (congrArg (fun records => records.objects.any
        fun entry => isInBucket { blank with region, name } entry.2) hstore))
  intro found
  apply Action.Satisfies.assuming
  rintro rfl
  cases hobjects : records.objects.any fun entry =>
    entry.2.region = region && entry.2.bucket = name with
  | true =>
    exact Action.satisfies_raise fun _ hholds => ⟨by change (!_ || _) = true; rw [hbucket, hobjects]; rfl, hholds⟩
  | false =>
    intro held world hholds
    exact ⟨by change (!_ || _) = false; rw [hbucket, hobjects]; rfl, (hremoves.deleteBucket { blank with region, name }
      world.store.database).trans (congrArg _ hholds)⟩

theorem satisfies_call
    (deletion : Deletion) :
    (deletion.call surroundings now).Satisfies (Holds records)
      (fun _ world => deletion.isRefused records = false ∧
        if deletion.finds records then Holds (effect deletion records) world
        else Holds records world)
      fun world => deletion.isRefused records = true ∧ Holds records world ∨
        surroundings.Fails ∧ (Holds records world ∨
          deletion.isRefused records = false ∧ deletion.finds records = true ∧
            Holds (effect deletion records) world) := by
  cases deletion with
  | deleteObject region bucket key =>
    apply (satisfies_deleteObject hfaithful hremoves region bucket key).imp
    · exact fun _ world hpost => ⟨congrArg not hpost.1, hpost.2⟩
    · rintro world (⟨hmissing, hholds⟩ | ⟨hfails, hbucket, hfound, hholds⟩)
      · exact .inl ⟨congrArg not hmissing, hholds⟩
      · exact .inr ⟨hfails, .inr ⟨congrArg not hbucket, hfound, hholds⟩⟩
  | deleteObjects region bucket keys =>
    apply (satisfies_deleteObjects hfaithful hremoves region bucket keys).imp
    · exact fun _ world hpost => ⟨congrArg not hpost.1, hpost.2⟩
    · rintro world ⟨hmissing | hfails, hholds⟩
      · exact .inl ⟨congrArg not hmissing, hholds⟩
      · exact .inr ⟨hfails, .inl hholds⟩
  | purgeBucket region bucket =>
    apply (satisfies_purgeBucket hfaithful hremoves region bucket).imp
    · exact fun _ world hpost => ⟨congrArg not hpost.1, hpost.2⟩
    · exact fun world hhalted => .inl ⟨congrArg not hhalted.1, hhalted.2⟩
  | deleteBucket region name =>
    exact (satisfies_deleteBucket hfaithful hremoves region name).imp
      (fun _ world hpost => hpost) fun world hhalted => .inl hhalted

end

theorem exactly_of_not_finds {deletion : Deletion} (hfinds : deletion.finds records = false) :
    deletion.exactly records = records := by
  cases deletion with
  | deleteObject region bucket key =>
    rw [exactly_deleteObject]
    apply congrArg (Records.mk records.buckets)
    apply List.filter_eq_self.mpr
    intro entry hentry
    rw [List.any_eq_false.mp hfinds entry hentry |> eq_false_of_ne_true]
    rfl
  | _ => cases hfinds

theorem isExact_iff {repository : Repository} (hfaithful : repository.IsFaithful)
    (hremoves : repository.Removes effect) (deletion : Deletion) (world : World Storage) :
    (∀ deliver, IsExact { surroundings with repository, deliver } now deletion world) ↔
      (deletion.isRefused world.store.database.records = false →
        deletion.finds world.store.database.records = true →
        effect deletion world.store.database.records =
          deletion.exactly world.store.database.records) := by
  constructor
  · intro hexact hrefused hfinds
    let served : Surroundings := { surroundings with repository, deliver := fun _ => .ok () }
    have hends := @satisfies_call world.store.database.records served now effect hfaithful
      hremoves deletion [] world rfl
    have hexact : IsExact served now deletion world := hexact _
    unfold IsExact at hexact
    revert hends hexact
    cases (deletion.call served now).run [] world with
    | returns value after =>
      rintro ⟨_, hends⟩ hexact
      rw [if_pos hfinds] at hends
      exact hends.symm.trans hexact
    | halts halt after =>
      rintro (⟨hother, _⟩ | ⟨⟨_, _, hfails⟩, _⟩) _
      · rw [hrefused] at hother
        cases hother
      · cases hfails
  · intro hequal deliver
    let served : Surroundings := { surroundings with repository, deliver }
    have hends := @satisfies_call world.store.database.records served now effect hfaithful
      hremoves deletion [] world rfl
    change Outcome.Ends _ _ ((deletion.call served now).run [] world)
    revert hends
    cases (deletion.call served now).run [] world with
    | returns value after =>
      rintro ⟨hrefused, hends⟩
      cases hfinds : deletion.finds world.store.database.records with
      | true =>
        rw [if_pos hfinds, hequal hrefused hfinds] at hends
        exact hends
      | false =>
        rw [hfinds] at hends
        exact Eq.trans hends (exactly_of_not_finds hfinds).symm
    | halts halt after =>
      rintro (⟨_, hholds⟩ | ⟨_, hholds | ⟨hrefused, hfinds, hholds⟩⟩)
      · exact .inr hholds
      · exact .inr hholds
      · rw [hequal hrefused hfinds] at hholds
        exact .inl hholds

/-- When neither repository removes more or less than a request names. An object that is
deleted is in no other region. Deleting objects names all that meets the criteria which
are not empty. The bucket that is deleted is the first one of its name. -/
def IsHarmless (records : Records) : Deletion → Prop
  | .deleteObject region bucket key => records.hasBucket region bucket = true →
      records.hasObject region bucket key = true → ∀ entry ∈ records.objects,
        entry.2.bucket = bucket → entry.2.key = key → entry.2.region = region
  | .deleteObjects region bucket keys => records.hasBucket region bucket = true →
      ∀ entry ∈ records.objects, (region = "" ∨ entry.2.region = region) →
        (bucket = "" ∨ entry.2.bucket = bucket) → (keys = [] ∨ entry.2.key ∈ keys) →
        entry.2.region = region ∧ entry.2.bucket = bucket ∧ entry.2.key ∈ keys
  | .purgeBucket _ _ => True
  | .deleteBucket region name => records.hasBucket region name = true →
      (∀ entry ∈ records.objects, entry.2.region = region → entry.2.bucket ≠ name) →
      ∀ entry ∈ records.buckets, entry.2.isNamed region name = true →
        records.buckets.find? (fun other => other.2.name = name) = some entry

theorem eraseObjects_eq_iff {first second : Object → Bool} :
    records.eraseObjects first = records.eraseObjects second ↔
      ∀ entry ∈ records.objects, first entry.2 = second entry.2 := by
  unfold Records.eraseObjects
  rw [Records.mk.injEq, and_iff_right rfl, filter_eq_filter_iff]
  constructor
  · intro hequal entry hentry
    exact Bool.not_inj (hequal entry hentry)
  · intro hequal entry hentry
    exact congrArg not (hequal entry hentry)

theorem eraseObjects_eq_iff_of_imp {wide narrow : Object → Bool}
    (himp : ∀ object, narrow object = true → wide object = true) :
    records.eraseObjects wide = records.eraseObjects narrow ↔
      ∀ entry ∈ records.objects, wide entry.2 = true → narrow entry.2 = true := by
  rw [eraseObjects_eq_iff]
  constructor
  · intro hequal entry hentry hwide
    rw [← hequal entry hentry, hwide]
  · intro hnarrow entry hentry
    rw [Bool.eq_iff_iff]
    exact ⟨hnarrow entry hentry, himp entry.2⟩

theorem inMemory_deleteObject_iff (region bucket key : String) :
    (Deletion.deleteObject region bucket key).inMemory records =
        (Deletion.deleteObject region bucket key).exactly records ↔
      ∀ entry ∈ records.objects,
        entry.2.bucket = bucket → entry.2.key = key → entry.2.region = region := by
  rw [exactly_deleteObject]
  unfold inMemory
  rw [eraseObjects_eq_iff_of_imp]
  · apply forall₂_congr
    intro entry _
    simp only [Object.isAt, Bool.and_eq_true, decide_eq_true_iff]
    constructor
    · exact fun hat hbucket hkey => (hat ⟨hbucket, hkey⟩).1.1
    · exact fun hregion hplace => ⟨⟨hregion hplace.1 hplace.2, hplace.1⟩, hplace.2⟩
  · intro object hat
    obtain ⟨_, rfl, rfl⟩ := place_of_isAt hat
    simp only [decide_true, Bool.and_self]

theorem inMongo_deleteObjects_iff (region bucket : String) (keys : List String) :
    (Deletion.deleteObjects region bucket keys).inMongo records =
        (Deletion.deleteObjects region bucket keys).exactly records ↔
      ∀ entry ∈ records.objects, (region = "" ∨ entry.2.region = region) →
        (bucket = "" ∨ entry.2.bucket = bucket) → (keys = [] ∨ entry.2.key ∈ keys) →
        entry.2.region = region ∧ entry.2.bucket = bucket ∧ entry.2.key ∈ keys := by
  rw [exactly_deleteObjects]
  unfold inMongo
  rw [eraseObjects_eq_iff_of_imp]
  · apply forall₂_congr
    intro entry _
    simp only [Bool.and_eq_true, Bool.or_eq_true, decide_eq_true_iff, and_imp, and_assoc]
  · intro object hnamed
    simp only [Bool.and_eq_true, Bool.or_eq_true, decide_eq_true_iff] at hnamed ⊢
    exact ⟨⟨.inr hnamed.1.1, .inr hnamed.1.2⟩, .inr hnamed.2⟩

theorem inMongo_deleteBucket_iff (hnodup : records.buckets.Nodup)
    (hbucket : records.hasBucket region name = true) :
    (Deletion.deleteBucket region name).inMongo records =
        (Deletion.deleteBucket region name).exactly records ↔
      ∀ entry ∈ records.buckets, entry.2.isNamed region name = true →
        records.buckets.find? (fun other => other.2.name = name) = some entry := by
  obtain ⟨entry, hentry, hnamed⟩ := List.any_eq_true.mp hbucket
  rw [exactly_deleteBucket]
  unfold inMongo
  rw [Records.mk.injEq, and_iff_left rfl]
  apply eraseP_eq_filter_iff hnodup
  · intro other hother
    unfold Bucket.isNamed at hother
    rw [Bool.and_eq_true] at hother
    exact hother.2
  · exact ⟨entry, hentry, hnamed⟩

theorem isRefused_deleteBucket :
    (Deletion.deleteBucket region name).isRefused records = false ↔
      records.hasBucket region name = true ∧
        ∀ entry ∈ records.objects, entry.2.region = region → entry.2.bucket ≠ name := by
  unfold isRefused
  rw [Bool.or_eq_false_iff, List.any_eq_false]
  apply and_congr
  · exact ⟨@Bool.not_inj _ true, congrArg not⟩
  · apply forall₂_congr
    intro entry _
    rw [Bool.and_eq_true, decide_eq_true_iff, decide_eq_true_iff, not_and]

theorem nodup_records (store : Store) : store.records.buckets.Nodup := by
  apply List.Nodup.of_map Prod.fst
  unfold Store.records
  rw [List.map_map]
  exact store.buckets.nodup

/-- A deletion removes the records its request names, from both repositories, exactly when
it is harmless. -/
theorem isExactInBoth_iff (surroundings : Surroundings) (now : Time) (deletion : Deletion)
    (world : World Storage) :
    IsExactInBoth surroundings now deletion world ↔
      IsHarmless world.store.database.records deletion := by
  unfold IsExactInBoth
  rw [forall_and, isExact_iff MemoryRepository.isFaithful removes_memory,
    isExact_iff MongoRepository.isFaithful removes_mongo]
  have hnodup := nodup_records world.store.database
  generalize world.store.database.records = records at hnodup
  cases deletion with
  | deleteObject region bucket key =>
    constructor
    · intro hexact hbucket hfound
      exact (inMemory_deleteObject_iff region bucket key).mp
        (hexact.1 (congrArg not hbucket) hfound)
    · intro hharmless
      refine ⟨?_, fun _ _ => rfl⟩
      intro hrefused hfound
      exact (inMemory_deleteObject_iff region bucket key).mpr
        (hharmless (@Bool.not_inj _ true hrefused) hfound)
  | deleteObjects region bucket keys =>
    constructor
    · intro hexact hbucket
      exact (inMongo_deleteObjects_iff region bucket keys).mp (hexact.2 (congrArg not hbucket) rfl)
    · intro hharmless
      refine ⟨fun _ _ => rfl, ?_⟩
      intro hrefused _
      exact (inMongo_deleteObjects_iff region bucket keys).mpr
        (hharmless (@Bool.not_inj _ true hrefused))
  | purgeBucket region bucket =>
    exact iff_true_intro ⟨fun _ _ => rfl, fun _ _ => rfl⟩
  | deleteBucket region name =>
    have hrefused := @isRefused_deleteBucket records region name
    constructor
    · intro hexact hbucket hempty
      exact (inMongo_deleteBucket_iff hnodup hbucket).mp
        (hexact.2 (hrefused.mpr ⟨hbucket, hempty⟩) rfl)
    · intro hharmless
      refine ⟨fun _ _ => rfl, ?_⟩
      intro hnot _
      obtain ⟨hbucket, hempty⟩ := hrefused.mp hnot
      exact (inMongo_deleteBucket_iff hnodup hbucket).mpr (hharmless hbucket hempty)

def twoRegions : World Storage where
  store :=
    { database :=
        { buckets := (UnorderedMap.empty.assign "1"
            { region := "eu", name := "b", created := 0, modified := 0 }).assign "2"
            { region := "us", name := "b", created := 0, modified := 0 }
          objects := (UnorderedMap.empty.assign "3"
            { region := "eu", bucket := "b", key := "k", created := 0, modified := 0 }).assign "4"
            { region := "us", bucket := "b", key := "k", created := 0, modified := 0 } }
      files := fun _ => none
      transferFiles := fun _ => none
      uploads := fun _ => none
      tasks := []
      deliveries := [] }
  draws := 0

/-- The in-memory repository deletes the object in the other region, and the document
database deletes a bucket of objects when no key is given. -/
theorem not_isExactInBoth_everywhere :
    ¬∀ surroundings now deletion world, IsExactInBoth surroundings now deletion world := by
  intro hall
  have hequal := (isExact_iff MemoryRepository.isFaithful removes_memory
    (.deleteObject "eu" "b" "k") twoRegions).mp
    (fun deliver => (hall (.plain memoryRepository) 0 _ _ deliver).1) (by decide) (by decide)
  exact absurd hequal (by decide)

end Deletion

end AwsMock.S3
