import AwsMock.S3.ServiceLaws

/-! # Versions

What the calls that change an object do to its versions. Each of them holds a copy of one
version, and the repositories write it over the first object they find without looking at
its version.
-/

namespace AwsMock.S3

open Foundation

/-- The later one of two entries, and the first one of two of the same time. -/
def newer (best entry : String × Object) : String × Object :=
  if best.2.modified < entry.2.modified then entry else best

theorem newer_assoc (first second third : String × Object) :
    newer (newer first second) third = newer first (newer second third) := by
  unfold newer
  split
  next hsecond =>
    split
    next hthird => exact (if_pos (Int.lt_trans hsecond hthird)).symm
    next => rfl
  next hsecond =>
    split
    next hthird =>
      have hother := Int.lt_of_le_of_lt (Int.not_lt.mp hsecond) hthird
      rw [if_pos hother, if_pos hthird]
    next hthird =>
      split
      next => rfl
      next => rfl

namespace MemoryRepository

variable {region bucket key : String}

theorem newest_some (entries : List (String × Object)) (best : String × Object) :
    newest region bucket key entries (some best) =
      some ((newest region bucket key entries none).elim best (newer best)) := by
  induction entries generalizing best with
  | nil => rfl
  | cons entry entries ih =>
    unfold newest
    split
    next =>
      change newest region bucket key entries (some (newer best entry)) = _
      rw [ih]
      change _ = some ((newest region bucket key entries (some entry)).elim best (newer best))
      rw [ih entry]
      cases newest region bucket key entries none with
      | none => rfl
      | some other => exact congrArg some (newer_assoc best entry other)
    next => exact ih best

theorem newest_map {change : String × Object → String × Object}
    (hat : ∀ entry, (change entry).2.isAt region bucket key = entry.2.isAt region bucket key)
    (hmodified : ∀ entry, (change entry).2.modified = entry.2.modified)
    (entries : List (String × Object)) (found : Option (String × Object)) :
    newest region bucket key (entries.map change) (found.map change) =
      (newest region bucket key entries found).map change := by
  induction entries generalizing found with
  | nil => rfl
  | cons entry entries ih =>
    rw [List.map_cons]
    unfold newest
    rw [hat]
    split
    next =>
      cases found with
      | none => exact ih (some entry)
      | some best =>
        have hnewer : newer (change best) (change entry) = change (newer best entry) := by
          unfold newer
          rw [hmodified, hmodified, apply_ite change]
        change newest region bucket key _ (some (newer (change best) (change entry))) = _
        rw [hnewer]
        exact ih (some (newer best entry))
    next => exact ih found

end MemoryRepository

namespace MongoRepository

variable {region bucket key : String}

theorem head?_mergeSort_cons (entry : String × Object) (entries : List (String × Object)) :
    ((entry :: entries).mergeSort fun left right => right.2.modified ≤ left.2.modified).head? =
      some ((entries.mergeSort
        fun left right => right.2.modified ≤ left.2.modified).head?.elim entry (newer entry)) := by
  have htrans : ∀ first second third : String × Object,
      decide (second.2.modified ≤ first.2.modified) = true →
      decide (third.2.modified ≤ second.2.modified) = true →
      decide (third.2.modified ≤ first.2.modified) = true := by
    intro first second third hfirst hsecond
    rw [decide_eq_true_iff] at hfirst hsecond ⊢
    exact Int.le_trans hsecond hfirst
  have htotal : ∀ first second : String × Object,
      (decide (second.2.modified ≤ first.2.modified) ||
        decide (first.2.modified ≤ second.2.modified)) = true := by
    intro first second
    rw [Bool.or_eq_true, decide_eq_true_iff, decide_eq_true_iff]
    exact Int.le_total _ _
  obtain ⟨before, after, hsorted, hrest, hbefore⟩ :=
    List.mergeSort_cons htrans htotal entry entries
  have hpairwise := List.pairwise_mergeSort htrans htotal (entry :: entries)
  rw [hsorted] at hpairwise ⊢
  rw [hrest]
  cases before with
  | nil =>
    cases after with
    | nil => rfl
    | cons other after =>
      have hle := (List.pairwise_cons.mp hpairwise).1 other List.mem_cons_self
      rw [decide_eq_true_iff] at hle
      exact congrArg some (if_neg (Int.not_lt.mpr hle)).symm
  | cons other before =>
    have hlt := hbefore other List.mem_cons_self
    rw [Bool.not_eq_true', decide_eq_false_iff_not, Int.not_le] at hlt
    exact congrArg some (if_pos hlt).symm

theorem newest_eq (entries : List (String × Object)) :
    newest region bucket key entries = MemoryRepository.newest region bucket key entries none := by
  induction entries with
  | nil =>
    unfold newest
    rw [List.filter_nil, List.mergeSort_nil]
    rfl
  | cons entry entries ih =>
    unfold newest at ih ⊢
    unfold MemoryRepository.newest
    rw [List.filter_cons]
    split
    next =>
      rw [head?_mergeSort_cons, ih]
      exact (MemoryRepository.newest_some entries entry).symm
    next => exact ih

end MongoRepository

namespace Records

def getObject (records : Records) (now : Time) (region bucket key : String) : Object :=
  ((MemoryRepository.newest region bucket key records.objects none).map Prod.snd).getD
    (Object.blank now)

def rewriteObject (select : Object → Bool) (rewrite : Object → Object) (records : Records) :
    Records :=
  { records with
    objects := rewriteFirst (fun entry => select entry.2) (fun entry => (entry.1, rewrite entry.2))
      records.objects }

end Records

inductive Change where
  | updateObject (request : S3Service.UpdateObjectRequest)
  | completeMultipartUpload (request : S3Service.CompleteMultipartUploadRequest)
  | createHashes (task : HashTask)
deriving DecidableEq, Repr

namespace Change

def call (surroundings : Surroundings) (now : Time) : Change → ServiceCall Unit
  | .updateObject request => S3Service.updateObject surroundings now request
  | .completeMultipartUpload request => S3Service.completeMultipartUpload surroundings now request
  | .createHashes task => S3Service.createHashes surroundings now task

def isOfKey : Change → Object → Bool
  | .updateObject request => Object.isAt request.region request.bucket request.key
  | .completeMultipartUpload request => Object.isAt request.region request.bucket request.key
  | .createHashes task => Object.isAt task.object.region task.object.bucket task.object.key

/-- Whether a change is made: an upload that is not there is not completed. -/
def isAccepted (world : World Storage) : Change → Bool
  | .updateObject request =>
    world.store.database.records.hasBucket request.region request.bucket &&
      world.store.database.records.hasObject request.region request.bucket request.key
  | .completeMultipartUpload request => (world.store.uploads request.uploadId).isSome
  | .createHashes _ => true

def heldObject (now : Time) (records : Records) : Change → Object
  | .updateObject request => records.getObject now request.region request.bucket request.key
  | .completeMultipartUpload request =>
    records.getObject now request.region request.bucket request.key
  | .createHashes task => task.object

def compute (surroundings : Surroundings) (world : World Storage) : Change → Object → Object
  | .updateObject request, object => { object with
      metadata := request.metadata
      storageClass := .fromString request.storageClass }
  | .completeMultipartUpload request, object =>
    let parts := (world.store.uploads request.uploadId).getD []
    let content := appendBinaryFiles (listFilesByPrefix parts)
    { object with
      size := content.length
      md5sum := surroundings.md5 content
      sha1sum := surroundings.sha1 content
      sha256sum := surroundings.sha256 content
      internalName := surroundings.random.uuid world.draws
      contentType := surroundings.magic content }
  | .createHashes task, object =>
    S3Service.withChecksum surroundings task.algorithm
      ((world.store.files object.internalName).getD []) object

/-- An object without the fields that a change computes, its time stamp and its id. -/
def unset : Change → Object → Object
  | .updateObject _, object => { object with
      oid := "", modified := 0, metadata := [], storageClass := .standard }
  | .completeMultipartUpload _, object => { object with
      oid := "", modified := 0, size := 0, md5sum := "", sha1sum := "", sha256sum := ""
      internalName := "", contentType := "" }
  | .createHashes task, object =>
    if task.algorithm = "SHA1" then { object with oid := "", modified := 0, sha1sum := "" }
    else if task.algorithm = "SHA256" ∨ task.algorithm = "MD5" then
      { object with oid := "", modified := 0, sha256sum := "" }
    else { object with oid := "", modified := 0 }

/-- The version a call refers to gets the fields it computes and perhaps a time stamp, and
no other version changes. A call that is not accepted changes none. -/
def KeepsVersions (surroundings : Surroundings) (now : Time) (change : Change)
    (world : World Storage) : Prop :=
  let records := world.store.database.records
  let after := ((change.call surroundings now).run [] world).after.store.database.records
  if change.isAccepted world then
    ∃ stamp, after = records.rewriteObject (fun object => change.isOfKey object &&
        object.versionId = (change.heldObject now records).versionId)
      fun object => { change.compute surroundings world object with modified := stamp }
  else after = records

def KeepsVersionsInBoth (surroundings : Surroundings) (now : Time) (change : Change)
    (world : World Storage) : Prop :=
  KeepsVersions { surroundings with repository := memoryRepository } now change world ∧
    KeepsVersions { surroundings with repository := mongoRepository } now change world

/-- The first object of the bucket name and the key, in whatever region, is a version of
the key, and the copy that the call holds differs from it in computed fields only. -/
def IsCurrent (now : Time) (change : Change) (world : World Storage) : Prop :=
  let records := world.store.database.records
  let held := change.heldObject now records
  change.isAccepted world = true → ∀ entry, records.objects.find?
        (fun entry => entry.2.bucket = held.bucket && entry.2.key = held.key) = some entry →
      change.isOfKey entry.2 = true ∧ change.unset entry.2 = change.unset held

end Change

structure Repository.Overwrites (repository : Repository)
    (selects : String → String → String → Object → Bool) (stamp : Time → Time → Time) : Prop where
  isFaithful : repository.IsFaithful
  getObject : ∀ now region bucket key store,
    (repository.getObject now region bucket key store).1.withoutId =
      store.records.getObject now region bucket key
  updateObject : ∀ now object store, (repository.updateObject now object store).2.records =
      store.records.rewriteObject (selects object.region object.bucket object.key)
        fun _ => { object with oid := "", modified := stamp now object.modified }

/-- The in-memory repository asks for the bucket and the key. -/
def hasKey (_region bucket key : String) (object : Object) : Bool :=
  object.bucket = bucket && object.key = key

theorem hasKey_of_isAt (region bucket key : String) (object : Object)
    (hat : object.isAt region bucket key = true) : hasKey region bucket key object = true := by
  obtain ⟨_, rfl, rfl⟩ := place_of_isAt hat
  unfold hasKey
  simp only [decide_true, Bool.and_self]

theorem isAt_of_hasKey {region bucket key : String} {object : Object}
    (hregion : object.region = region) (hkey : hasKey region bucket key object = true) :
    object.isAt region bucket key = true := by
  unfold hasKey at hkey
  unfold Object.isAt
  rw [decide_eq_true hregion, Bool.true_and]
  exact hkey

theorem Store.records_assign {store : Store} {select : Object → Bool} {oid : String}
    {old object : Object} (hfound : store.objects.findIf select = some (oid, old))
    (hselect : ∀ object : Object, select object.withoutId = select object) :
    (store.writeObject oid object).records =
      store.records.rewriteObject select fun _ => object.withoutId := by
  apply congrArg (Records.mk store.records.buckets)
  change List.map _ (store.objects.assign oid object).entries = _
  rw [UnorderedMap.entries_assign_of_findIf object hfound]
  exact map_rewriteFirst (fun entry _ => hselect entry.2) fun entry _ _ => rfl

theorem Store.records_rewrite_none {store : Store} {select : Object → Bool}
    {rewrite : Object → Object} (hnone : store.objects.findIf select = none)
    (hselect : ∀ object : Object, select object.withoutId = select object) :
    store.records.rewriteObject select rewrite = store.records := by
  apply congrArg (Records.mk store.records.buckets)
  apply rewriteFirst_of_none
  intro entry hentry
  obtain ⟨other, hother, rfl⟩ := List.mem_map.mp hentry
  rw [hselect]
  exact eq_false_of_ne_true (List.find?_eq_none.mp hnone other hother)

theorem Store.getObject_records (store : Store) (now : Time) (region bucket key : String) :
    store.records.getObject now region bucket key =
      ((MemoryRepository.newest region bucket key store.objects.entries none).map
        fun entry => entry.2.withoutId).getD (Object.blank now) := by
  have hnewest : MemoryRepository.newest region bucket key store.records.objects none =
      (MemoryRepository.newest region bucket key store.objects.entries none).map
        fun entry => (entry.1, entry.2.withoutId) :=
    @MemoryRepository.newest_map region bucket key
      (fun entry => (entry.1, entry.2.withoutId)) (fun _ => rfl) (fun _ => rfl) _ none
  unfold Records.getObject
  rw [hnewest, Option.map_map]
  rfl

theorem overwrites_memory : memoryRepository.Overwrites hasKey fun _ modified => modified where
  isFaithful := MemoryRepository.isFaithful
  getObject now region bucket key store := by
    rw [Store.getObject_records]
    change (MemoryRepository.getObject now region bucket key store).1.withoutId = _
    unfold MemoryRepository.getObject
    cases MemoryRepository.newest region bucket key store.objects.entries none with
    | none => rfl
    | some entry => rfl
  updateObject now object store := by
    change (MemoryRepository.updateObject now object store).2.records = _
    unfold MemoryRepository.updateObject
    split
    next oid old hfound => exact Store.records_assign hfound fun _ => rfl
    next hnone => exact (Store.records_rewrite_none hnone fun _ => rfl).symm

theorem overwrites_mongo : mongoRepository.Overwrites Object.isAt fun now _ => now where
  isFaithful := MongoRepository.isFaithful
  getObject now region bucket key store := by
    rw [Store.getObject_records, ← MongoRepository.newest_eq]
    change (MongoRepository.getObject now region bucket key store).1.withoutId = _
    unfold MongoRepository.getObject
    cases MongoRepository.newest region bucket key store.objects.entries with
    | none => rfl
    | some entry => rfl
  updateObject now object store := by
    change (MongoRepository.updateObject now object store).2.records = _
    unfold MongoRepository.updateObject
    dsimp only
    split
    next oid old hfound => exact Store.records_assign hfound fun _ => rfl
    next hnone => exact (Store.records_rewrite_none hnone fun _ => rfl).symm

namespace Change

variable {surroundings : Surroundings} {now : Time} {records : Records}
variable {selects : String → String → String → Object → Bool} {stamp : Time → Time → Time}

def written (selects : String → String → String → Object → Bool) (stamp : Time → Time → Time)
    (now : Time) (records : Records) (held : Object) (compute : Object → Object) : Records :=
  records.rewriteObject (selects held.region held.bucket held.key) fun _ =>
    { compute held with oid := "", modified := stamp now held.modified }

section

variable (hoverwrites : surroundings.repository.Overwrites selects stamp)
include hoverwrites

theorem satisfies_getObject (region bucket key : String) {halted : World Storage → Prop} :
    (ServiceCall.perform (surroundings.repository.getObject now region bucket key)).Satisfies
      (Holds records)
      (fun object world => Holds records world ∧
        object.withoutId = records.getObject now region bucket key) halted := by
  apply ServiceCall.satisfies_perform fun object : Object =>
    object.withoutId = records.getObject now region bucket key
  intro store hstore
  exact ⟨(hoverwrites.isFaithful.getObject now region bucket key store).trans hstore,
    (hoverwrites.getObject now region bucket key store).trans
      (congrArg (Records.getObject · now region bucket key) hstore)⟩

theorem satisfies_updateObject (request : S3Service.UpdateObjectRequest) {after : Records}
    (hafter : after =
      if records.hasBucket request.region request.bucket &&
          records.hasObject request.region request.bucket request.key then
        written selects stamp now records
          (records.getObject now request.region request.bucket request.key) fun object =>
          { object with
            metadata := request.metadata
            storageClass := .fromString request.storageClass }
      else records) :
    (S3Service.updateObject surroundings now request).Satisfies (Holds records)
      (fun _ => Holds after) (Holds after) := by
  apply Action.Satisfies.bind (S3Service.satisfies_checkBucketExistence hoverwrites.isFaithful
    request.region request.bucket ?_)
  · intro _
    apply Action.Satisfies.assuming
    intro hbucket
    apply Action.Satisfies.bind (ServiceCall.satisfies_query fun store hstore =>
      (hoverwrites.isFaithful.objectExists request.region request.bucket request.key store).trans
        (congrArg (Records.hasObject · request.region request.bucket request.key) hstore))
    intro found
    apply Action.Satisfies.assuming
    rintro rfl
    cases hfound : records.hasObject request.region request.bucket request.key with
    | false =>
      rw [hfound, Bool.and_false] at hafter
      exact Action.satisfies_raise fun _ hholds => hafter ▸ hholds
    | true =>
      rw [hbucket, hfound] at hafter
      apply Action.Satisfies.bind (satisfies_getObject hoverwrites _ _ _)
      intro object
      apply Action.Satisfies.assuming
      intro hobject
      apply Action.Satisfies.bind (ServiceCall.satisfies_update fun store hstore => ?_)
      · exact fun _ => Action.satisfies_pure fun _ => id
      · rw [hoverwrites.updateObject, hstore, hafter, ← hobject]
        rfl
  · intro hbucket world hholds
    rw [hbucket, Bool.false_and] at hafter
    exact hafter ▸ hholds

theorem satisfies_completeMultipartUpload
    (request : S3Service.CompleteMultipartUploadRequest) (world : World Storage) {after : Records}
    (hafter : after =
      if (world.store.uploads request.uploadId).isSome then
        written selects stamp now world.store.database.records
          (world.store.database.records.getObject now request.region request.bucket request.key)
          (compute surroundings world (.completeMultipartUpload request))
      else world.store.database.records) :
    (S3Service.completeMultipartUpload surroundings now request).Satisfies
      (fun other => other = world) (fun _ => Holds after) (Holds after) := by
  rintro held world rfl
  have hobject := hoverwrites.getObject now request.region request.bucket request.key
    world.store.database
  have hrecords := hoverwrites.isFaithful.getObject now request.region request.bucket request.key
    world.store.database
  unfold S3Service.completeMultipartUpload
  rw [Action.run_bind, ServiceCall.run_perform, Outcome.andThen_returns, Action.run_bind,
    Call.run_readStore, Outcome.andThen_returns]
  cases hparts : world.store.uploads request.uploadId with
  | none =>
    rw [hparts] at hafter
    exact hrecords.trans hafter.symm
  | some parts =>
    rw [hparts, Option.isSome_some, if_pos rfl] at hafter
    refine (?_ : Action.Satisfies (fun other =>
      Holds world.store.database.records other ∧ other.draws = world.draws) _ (fun _ =>
        Holds after) (Holds after)) held _ ⟨hrecords, rfl⟩
    apply Action.Satisfies.bind ServiceCall.satisfies_draw
    intro draw
    apply Action.Satisfies.assuming
    rintro rfl
    apply Action.Satisfies.bind (ServiceCall.satisfies_writeFile _ _)
    intro _
    apply Action.Satisfies.bind (@ServiceCall.satisfies_update _ after _ _ _ ?_)
    · intro stored
      apply Action.Satisfies.bind (ServiceCall.satisfies_calculateHashes _ _)
      intro _
      apply Action.Satisfies.bind (ServiceCall.satisfies_writeUpload _ _)
      intro _
      exact S3Service.satisfies_checkNotifications hoverwrites.isFaithful _ _ _ _ _ _ _
        fun _ _ => id
    · intro store hstore
      have hgetD : (world.store.uploads request.uploadId).getD [] = parts := by
        rw [hparts]
        rfl
      rw [hoverwrites.updateObject, hstore, hafter, ← hobject, ← hgetD]
      rfl

end

theorem withChecksum_eq (algorithm : String) (content : Bytes) (object : Object) :
    ∃ sha1sum sha256sum, S3Service.withChecksum surroundings algorithm content object =
      { object with sha1sum, sha256sum } := by
  unfold S3Service.withChecksum
  split
  · exact ⟨_, object.sha256sum, rfl⟩
  · split
    · exact ⟨object.sha1sum, _, rfl⟩
    · split
      · exact ⟨object.sha1sum, _, rfl⟩
      · exact ⟨object.sha1sum, object.sha256sum, rfl⟩

theorem records_call (hoverwrites : surroundings.repository.Overwrites selects stamp)
    (change : Change) (world : World Storage) :
    ((change.call surroundings now).run [] world).after.store.database.records =
      if change.isAccepted world then
        written selects stamp now world.store.database.records
          (change.heldObject now world.store.database.records) (change.compute surroundings world)
      else world.store.database.records := by
  cases change with
  | updateObject request => exact (satisfies_updateObject hoverwrites request rfl).after rfl
  | completeMultipartUpload request =>
    exact (satisfies_completeMultipartUpload hoverwrites request world rfl).after rfl
  | createHashes task =>
    change ((surroundings.repository.updateObject now _ world.store.database).2).records =
      written selects stamp now world.store.database.records task.object
        fun object => S3Service.withChecksum surroundings task.algorithm
          ((world.store.files object.internalName).getD []) object
    rw [hoverwrites.updateObject]
    unfold written
    obtain ⟨sha1sum, sha256sum, hchecksum⟩ := @withChecksum_eq surroundings task.algorithm
      ((world.store.files task.object.internalName).getD []) task.object
    simp only [hchecksum]

theorem compute_keeps (change : Change) (world : World Storage) (object : Object) :
    (change.compute surroundings world object).region = object.region ∧
      (change.compute surroundings world object).bucket = object.bucket ∧
      (change.compute surroundings world object).key = object.key ∧
      (change.compute surroundings world object).versionId = object.versionId := by
  cases change with
  | updateObject request => exact ⟨rfl, rfl, rfl, rfl⟩
  | completeMultipartUpload request => exact ⟨rfl, rfl, rfl, rfl⟩
  | createHashes task =>
    obtain ⟨sha1sum, sha256sum, hchecksum⟩ := @withChecksum_eq surroundings task.algorithm
      ((world.store.files object.internalName).getD []) object
    change (S3Service.withChecksum surroundings task.algorithm
        ((world.store.files object.internalName).getD []) object).region = _ ∧
      (S3Service.withChecksum surroundings task.algorithm
        ((world.store.files object.internalName).getD []) object).bucket = _ ∧
      (S3Service.withChecksum surroundings task.algorithm
        ((world.store.files object.internalName).getD []) object).key = _ ∧
      (S3Service.withChecksum surroundings task.algorithm
        ((world.store.files object.internalName).getD []) object).versionId = _
    rw [hchecksum]
    exact ⟨rfl, rfl, rfl, rfl⟩

theorem unset_keeps (change : Change) (object : Object) :
    (change.unset object).versionId = object.versionId ∧
      (change.unset object).region = object.region := by
  unfold unset
  split
  · exact ⟨rfl, rfl⟩
  · exact ⟨rfl, rfl⟩
  · split
    · exact ⟨rfl, rfl⟩
    · split
      · exact ⟨rfl, rfl⟩
      · exact ⟨rfl, rfl⟩

theorem exists_stamp_iff (change : Change) (world : World Storage) {object held : Object}
    {modified : Time} (hoid : object.oid = "") :
    (∃ stamp, { change.compute surroundings world held with oid := "", modified } =
        { change.compute surroundings world object with modified := stamp }) ↔
      change.unset object = change.unset held := by
  cases object
  cases held
  cases change with
  | updateObject request =>
    unfold compute unset
    simp only [Object.mk.injEq] at hoid ⊢
    grind
  | completeMultipartUpload request =>
    unfold compute unset
    simp only [Object.mk.injEq] at hoid ⊢
    grind
  | createHashes task =>
    simp only [compute, unset, S3Service.withChecksum]
    by_cases hsha1 : task.algorithm = "SHA1"
    · simp only [if_pos hsha1, Object.mk.injEq] at hoid ⊢
      grind
    by_cases hsha256 : task.algorithm = "SHA256"
    · simp only [hsha256, true_or, if_true, Object.mk.injEq] at hoid ⊢
      grind
    by_cases hmd5 : task.algorithm = "MD5"
    · simp only [hmd5, or_true, if_true, Object.mk.injEq] at hoid ⊢
      grind
    · simp only [if_neg hsha1, hsha256, hmd5, or_self, if_false, Object.mk.injEq] at hoid ⊢
      grind

variable {change : Change}

theorem isOfKey_iff {object other : Object} (hobject : change.isOfKey object = true) :
    change.isOfKey other = other.isAt object.region object.bucket object.key := by
  cases change with
  | updateObject request =>
    obtain ⟨hregion, hbucket, hkey⟩ := place_of_isAt hobject
    rw [hregion, hbucket, hkey]
    rfl
  | completeMultipartUpload request =>
    obtain ⟨hregion, hbucket, hkey⟩ := place_of_isAt hobject
    rw [hregion, hbucket, hkey]
    rfl
  | createHashes task =>
    obtain ⟨hregion, hbucket, hkey⟩ := place_of_isAt hobject
    rw [hregion, hbucket, hkey]
    rfl

theorem isAt_getObject {region bucket key : String} {entry : String × Object}
    (hentry : entry ∈ records.objects) (hat : entry.2.isAt region bucket key = true) :
    (records.getObject now region bucket key).isAt region bucket key = true := by
  unfold Records.getObject
  cases hnewest : MemoryRepository.newest region bucket key records.objects none with
  | none =>
    rw [((MemoryRepository.newest_spec hnewest).2 rfl).2 entry hentry] at hat
    cases hat
  | some found =>
    rcases (MemoryRepository.newest_spec hnewest).1 found rfl with ⟨_, hfound⟩ | hnone
    · exact hfound
    · cases hnone

theorem isOfKey_heldObject {world : World Storage} (haccepted : change.isAccepted world = true) :
    change.isOfKey (change.heldObject now world.store.database.records) = true ∨
      (∃ request, change = .completeMultipartUpload request) ∧
        ∀ entry ∈ world.store.database.records.objects, change.isOfKey entry.2 = false := by
  cases change with
  | updateObject request =>
    obtain ⟨entry, hentry, hat⟩ := List.any_eq_true.mp (Bool.and_eq_true_iff.mp haccepted).2
    exact .inl (isAt_getObject hentry hat)
  | completeMultipartUpload request =>
    by_cases hfound : ∃ entry ∈ world.store.database.records.objects,
        entry.2.isAt request.region request.bucket request.key = true
    · obtain ⟨entry, hentry, hat⟩ := hfound
      exact .inl (isAt_getObject hentry hat)
    · refine .inr ⟨⟨request, rfl⟩, ?_⟩
      intro entry hentry
      exact eq_false_of_ne_true fun hat => hfound ⟨entry, hentry, hat⟩
  | createHashes task =>
    left
    change task.object.isAt task.object.region task.object.bucket task.object.key = true
    unfold Object.isAt
    simp only [decide_true, Bool.and_self]

theorem written_eq_iff {world : World Storage} {held : Object} {modified : Time}
    (hoid : ∀ entry ∈ records.objects, entry.2.oid = "")
    (himp : ∀ entry ∈ records.objects,
      (change.isOfKey entry.2 && entry.2.versionId = held.versionId) = true →
      selects held.region held.bucket held.key entry.2 = true)
    (hmove : ∀ entry ∈ records.objects,
      (change.isOfKey entry.2 && entry.2.versionId = held.versionId) = false →
      { change.compute surroundings world held with oid := "", modified } ≠ entry.2) :
    (∃ stamp, records.rewriteObject (selects held.region held.bucket held.key)
          (fun _ => { change.compute surroundings world held with oid := "", modified }) =
        records.rewriteObject
          (fun object => change.isOfKey object && object.versionId = held.versionId)
          fun object => { change.compute surroundings world object with modified := stamp }) ↔
      ∀ entry, records.objects.find?
          (fun entry => selects held.region held.bucket held.key entry.2) = some entry →
        change.isOfKey entry.2 = true ∧ change.unset entry.2 = change.unset held := by
  have hfirst : ∀ stamp, records.rewriteObject (selects held.region held.bucket held.key)
          (fun _ => { change.compute surroundings world held with oid := "", modified }) =
        records.rewriteObject
          (fun object => change.isOfKey object && object.versionId = held.versionId)
          (fun object => { change.compute surroundings world object with modified := stamp }) ↔
      ∀ entry, records.objects.find?
          (fun entry => selects held.region held.bucket held.key entry.2) = some entry →
        (change.isOfKey entry.2 && entry.2.versionId = held.versionId) = true ∧
          (entry.1, { change.compute surroundings world held with oid := "", modified }) =
            (entry.1, { change.compute surroundings world entry.2 with modified := stamp }) := by
    intro stamp
    unfold Records.rewriteObject
    rw [Records.mk.injEq, and_iff_right rfl]
    apply rewriteFirst_eq_rewriteFirst_iff himp
    intro entry hentry hnarrow hequal
    exact hmove entry hentry hnarrow (congrArg Prod.snd hequal)
  constructor
  · rintro ⟨stamp, hequal⟩ entry hfound
    obtain ⟨hnarrow, hrewrite⟩ := (hfirst stamp).mp hequal entry hfound
    exact ⟨(Bool.and_eq_true_iff.mp hnarrow).1, (exists_stamp_iff change world
      (hoid entry (List.mem_of_find?_eq_some hfound))).mp ⟨stamp, (Prod.mk.inj hrewrite).2⟩⟩
  · intro hcurrent
    cases hfound : records.objects.find?
        fun entry => selects held.region held.bucket held.key entry.2 with
    | none =>
      refine ⟨modified, (hfirst modified).mpr ?_⟩
      rw [hfound]
      nofun
    | some entry =>
      obtain ⟨hkey, hunset⟩ := hcurrent entry hfound
      obtain ⟨stamp, hstamp⟩ := (exists_stamp_iff change world
        (hoid entry (List.mem_of_find?_eq_some hfound))).mpr hunset
      refine ⟨stamp, (hfirst stamp).mpr ?_⟩
      intro other hother
      obtain rfl := Option.some.inj (hfound.symm.trans hother)
      refine ⟨?_, congrArg (Prod.mk entry.1) hstamp⟩
      rw [hkey, Bool.true_and, decide_eq_true_iff, ← (unset_keeps change entry.2).1, hunset,
        (unset_keeps change held).1]

theorem oid_records (store : Store) : ∀ entry ∈ store.records.objects, entry.2.oid = "" := by
  intro entry hentry
  obtain ⟨other, _, rfl⟩ := List.mem_map.mp hentry
  rfl

theorem keepsVersions_iff (hoverwrites : surroundings.repository.Overwrites selects stamp)
    (hselects : ∀ region bucket key object,
      Object.isAt region bucket key object = true → selects region bucket key object = true)
    (change : Change) (world : World Storage)
    (hfresh : ∀ entry ∈ world.store.database.records.objects,
      entry.2.internalName ≠ surroundings.random.uuid world.draws) :
    KeepsVersions surroundings now change world ↔ (change.isAccepted world = true → ∀ entry,
        world.store.database.records.objects.find? (fun entry =>
            selects (change.heldObject now world.store.database.records).region
              (change.heldObject now world.store.database.records).bucket
              (change.heldObject now world.store.database.records).key entry.2) = some entry →
          change.isOfKey entry.2 = true ∧ change.unset entry.2 =
              change.unset (change.heldObject now world.store.database.records)) := by
  unfold KeepsVersions
  rw [records_call hoverwrites]
  cases haccepted : change.isAccepted world with
  | false => simp
  | true =>
    rw [if_pos rfl, if_pos rfl, forall_prop_of_true rfl]
    have hheld := @isOfKey_heldObject now change world haccepted
    revert hheld
    generalize change.heldObject now world.store.database.records = held
    intro hheld
    apply written_eq_iff (oid_records world.store.database)
    · intro entry hentry hnarrow
      obtain ⟨hkey, _⟩ := Bool.and_eq_true_iff.mp hnarrow
      rcases hheld with hheld | ⟨_, hnone⟩
      · exact hselects _ _ _ _ ((isOfKey_iff hheld).symm.trans hkey)
      · rw [hnone entry hentry] at hkey
        cases hkey
    · intro entry hentry hnarrow hequal
      obtain ⟨hregion, hbucket, hkey, hversion⟩ := @compute_keeps surroundings change world held
      rcases hheld with hheld | ⟨⟨request, rfl⟩, _⟩
      · rw [Bool.eq_false_iff] at hnarrow
        apply hnarrow
        rw [← hequal, Bool.and_eq_true, decide_eq_true_iff]
        refine ⟨?_, hversion⟩
        rw [isOfKey_iff hheld]
        unfold Object.isAt
        simp only [hregion, hbucket, hkey, decide_true, Bool.and_self]
      · exact hfresh entry hentry (congrArg Object.internalName hequal).symm

/-- UpdateObject, CompleteMultipartUpload and the hash creator keep the other versions in
both repositories exactly when the first object of the bucket name and the key is the version
they refer to. The name of a new file is new. -/
theorem keepsVersionsInBoth_iff (surroundings : Surroundings) (now : Time) (change : Change)
    (world : World Storage)
    (hfresh : ∀ entry ∈ world.store.database.objects.entries,
      entry.2.internalName ≠ surroundings.random.uuid world.draws) :
    KeepsVersionsInBoth surroundings now change world ↔ change.IsCurrent now world := by
  have hfresh : ∀ entry ∈ world.store.database.records.objects,
      entry.2.internalName ≠ surroundings.random.uuid world.draws := by
    intro entry hentry
    obtain ⟨other, hother, rfl⟩ := List.mem_map.mp hentry
    exact hfresh other hother
  have hmemory := @keepsVersions_iff { surroundings with repository := memoryRepository } now _ _
    overwrites_memory hasKey_of_isAt change world hfresh
  have hmongo := @keepsVersions_iff { surroundings with repository := mongoRepository } now _ _
    overwrites_mongo (fun _ _ _ _ => id) change world hfresh
  unfold KeepsVersionsInBoth
  rw [hmemory, hmongo]
  constructor
  · exact fun hboth => hboth.1
  · intro hcurrent
    refine ⟨hcurrent, ?_⟩
    intro haccepted entry hfound
    have hat := List.find?_some hfound
    -- the object found by bucket and key is in the region of the copy
    cases hother : world.store.database.records.objects.find? fun entry =>
      hasKey (change.heldObject now world.store.database.records).region
        (change.heldObject now world.store.database.records).bucket
        (change.heldObject now world.store.database.records).key entry.2 with
    | none =>
      exact absurd (hasKey_of_isAt _ _ _ _ hat)
        (List.find?_eq_none.mp hother entry (List.mem_of_find?_eq_some hfound))
    | some other =>
      obtain ⟨hkey, hunset⟩ := hcurrent haccepted other hother
      have hregion : other.2.region =
          (change.heldObject now world.store.database.records).region := by
        rw [← (unset_keeps change other.2).2, hunset, (unset_keeps change _).2]
      have hplace := List.find?_some hother
      have hsame := find?_of_imp
        (fun entry : String × Object => hasKey_of_isAt _ _ _ entry.2) hother
        (isAt_of_hasKey hregion hplace)
      obtain rfl := Option.some.inj (hsame.symm.trans hfound)
      exact ⟨hkey, hunset⟩

def twoVersions : World Storage where
  store :=
    { database :=
        { buckets := UnorderedMap.empty.assign "1"
            { region := "eu", name := "b", versionStatus := .enabled, created := 0, modified := 0 }
          objects := (UnorderedMap.empty.assign "2"
            { region := "eu", bucket := "b", key := "k", versionId := "v1", internalName := "f1"
              created := 1, modified := 1 }).assign "3"
            { region := "eu", bucket := "b", key := "k", versionId := "v2", internalName := "f2"
              created := 2, modified := 2 } }
      files := fun _ => none
      transferFiles := fun _ => none
      uploads := fun _ => none
      tasks := []
      deliveries := [] }
  draws := 0

theorem keepsVersionsInBoth_iff_twoVersions :
    KeepsVersionsInBoth (.plain memoryRepository) 3 (.createHashes
        ⟨"SHA1", { region := "eu", bucket := "b", key := "k", versionId := "v1"
                   internalName := "f1", created := 1, modified := 1 }⟩) twoVersions ↔
      IsCurrent 3 (.createHashes
        ⟨"SHA1", { region := "eu", bucket := "b", key := "k", versionId := "v1"
                   internalName := "f1", created := 1, modified := 1 }⟩) twoVersions :=
  keepsVersionsInBoth_iff (.plain memoryRepository) 3 _ twoVersions (by decide)

/-- Changing the metadata of the newest version overwrites the older one. -/
theorem not_keepsVersionsInBoth_everywhere :
    ¬∀ surroundings now change world, (∀ entry ∈ world.store.database.objects.entries,
        entry.2.internalName ≠ surroundings.random.uuid world.draws) →
      KeepsVersionsInBoth surroundings now change world := by
  intro hall
  have hkeeps := (hall (.plain memoryRepository) 3 (.updateObject
    { region := "eu", bucket := "b", key := "k", metadata := [("a", "1")]
      storageClass := "STANDARD" }) twoVersions (by decide)).1
  have hcurrent := (keepsVersions_iff overwrites_memory hasKey_of_isAt _ twoVersions
    (by decide)).mp hkeeps (by decide) _ rfl
  exact absurd hcurrent.2 (by decide)

end Change

end AwsMock.S3
