import AwsMock.Foundation.Runs
import AwsMock.S3.Transparency
import AwsMock.S3.Versions

/-! # Checksums belong to the content

Every record keeps the size and the digests of its file, through the calls that write
objects and the tasks that compute checksums later. Files are written once, under names that
are drawn, so that a record may be judged by the file it names whatever happens to others.
A content that arrives in base 64 is decoded after its size was taken, and the MD5 digest of a
task is kept as the SHA-256 digest.
-/

namespace AwsMock.S3

open Foundation

/-- A call that writes an object, or a task that has come to its turn. -/
inductive Write where
  | putObject (request : S3Service.PutObjectRequest) (stream : Bytes)
  | copyObject (request : S3Service.CopyObjectRequest)
  | moveObject (request : S3Service.MoveObjectRequest)
  | completeMultipartUpload (request : S3Service.CompleteMultipartUploadRequest)
  | updateObject (request : S3Service.UpdateObjectRequest)
  | createChecksums (index : Nat)

namespace Write

def runTask (surroundings : Surroundings) (now : Time) (index : Nat) : ServiceCall Unit := do
  match ← Call.readStore fun storage => storage.tasks[index]? with
  | none => return ()
  | some task =>
    Call.writeStore fun storage => { storage with tasks := storage.tasks.eraseIdx index }
    S3Service.createHashes surroundings now task

def call (surroundings : Surroundings) (now : Time) : Write → ServiceCall Unit
  | .putObject request stream => S3Service.putObject surroundings now request stream
  | .copyObject request => S3Service.copyObject surroundings now request
  | .moveObject request => S3Service.moveObject surroundings now request
  | .completeMultipartUpload request => S3Service.completeMultipartUpload surroundings now request
  | .updateObject request => S3Service.updateObject surroundings now request
  | .createChecksums index => runTask surroundings now index

/-- The state that a call leaves, whether it returns or throws. -/
def step (surroundings : Surroundings) (world : World Storage) (event : Time × Write) :
    World Storage :=
  ((event.2.call surroundings event.1).run [] world).after

end Write

section Properties

variable (surroundings : Surroundings)

/-- The digests of an object are those of a content, or there are none. -/
structure SumsBelong (content : Bytes) (object : Object) : Prop where
  md5 : object.md5sum = "" ∨ object.md5sum = surroundings.md5 content
  sha1 : object.sha1sum = "" ∨ object.sha1sum = surroundings.sha1 content
  sha256 : object.sha256sum = "" ∨ object.sha256sum = surroundings.sha256 content

/-- An object has the size and the digests of its file. It is the file that `GetObject`
returns for the object, as long as its bucket has no encryption. -/
def IsCorrect (files : String → Option Bytes) (object : Object) : Prop :=
  ∃ content, files object.internalName = some content ∧ object.size = content.length ∧
    SumsBelong surroundings content object

def AreCorrect (world : World Storage) : Prop :=
  ∀ entry ∈ world.store.database.objects.entries, IsCorrect surroundings world.store.files entry.2

/-- There are buckets without encryption, and neither objects nor tasks. -/
structure IsBlank (world : World Storage) : Prop where
  buckets : ∀ entry ∈ world.store.database.buckets.entries, entry.2.hasEncryption = false
  objects : world.store.database.objects.entries = []
  tasks : world.store.tasks = []

/-- The condition under which a call keeps all records correct. -/
def Heeds (selects : String → String → String → Object → Bool) (world : World Storage) :
    Time × Write → Prop
  | (now, .putObject request stream) =>
    let bucket := (surroundings.repository.getBucketByRegionName now request.region
      request.bucket world.store.database).1
    let content := stream.take request.contentLength
    surroundings.repository.bucketExists request.region request.bucket world.store.database = true →
      bucket.isVersioned = false → content.length = request.contentLength →
      surroundings.isBase64 content = true →
      (surroundings.base64Decode content).length = content.length
  | (_, .createChecksums index) =>
    ∀ task ∈ world.store.tasks[index]?,
      (world.store.database.objects.entries.any fun entry =>
        selects task.object.region task.object.bucket task.object.key entry.2) = true →
      ∃ content, world.store.files task.object.internalName = some content ∧
        task.object.size = content.length ∧
        (task.algorithm = "MD5" → surroundings.md5 content = "" ∨
          surroundings.md5 content = surroundings.sha256 content)
  | _ => True

end Properties

/-- What two repositories have in common besides: what they return, and where they put it. -/
structure Repository.Archives (repository : Repository)
    (selects : String → String → String → Object → Bool) (stamp : Time → Time → Time) : Prop where
  overwrites : repository.Overwrites selects stamp
  selects_withoutId : ∀ region bucket key object,
    selects region bucket key (Object.withoutId object) = selects region bucket key object
  selects_of_isAt : ∀ region bucket key object,
    Object.isAt region bucket key object = true → selects region bucket key object = true
  getBucket : ∀ now region name store,
    (∀ entry ∈ store.records.buckets, entry.2.hasEncryption = false) →
    (repository.getBucketByRegionName now region name store).1.hasEncryption = false
  getObject : ∀ now region bucket key store,
    (repository.getObject now region bucket key store).1.oid = "" ∨ ∃ entry ∈ store.records.objects,
        entry.2 = (repository.getObject now region bucket key store).1.withoutId
  getObjectVersion : ∀ now region bucket key version store,
    (repository.getObjectVersion now region bucket key version store).2.records = store.records ∧
      ((repository.getObjectVersion now region bucket key version store).1.oid = "" ∨
        ∃ entry ∈ store.records.objects,
          entry.2 = (repository.getObjectVersion now region bucket key version store).1.withoutId)
  getObjectMd5 : ∀ now region bucket key md5sum store,
    (repository.getObjectMd5 now region bucket key md5sum store).2.records = store.records
  createObject : ∀ oid object store,
    (repository.createObject oid object store).2.records.buckets = store.records.buckets ∧
      (∀ entry ∈ (repository.createObject oid object store).2.records.objects,
        entry ∈ store.records.objects ∨ entry.2 = object.withoutId) ∧
      ∃ entry ∈ (repository.createObject oid object store).2.records.objects,
        entry.2 = object.withoutId
  updateObject : ∀ now object store,
    (repository.updateObject now object store).1 = Object.blank now ∨
      { (repository.updateObject now object store).1 with oid := "", modified := 0 } =
        { object with oid := "", modified := 0 }

section Repositories

variable {store : Store}

theorem Store.mem_records {entry : String × Object} (hmem : entry ∈ store.objects.entries) :
    (entry.1, entry.2.withoutId) ∈ store.records.objects :=
  List.mem_map_of_mem hmem

theorem Store.records_writeObject_spec (oid : String) (object stored : Object)
    (hstored : stored.withoutId = object.withoutId) :
    (store.writeObject oid stored).records.buckets = store.records.buckets ∧
      (∀ entry ∈ (store.writeObject oid stored).records.objects,
        entry ∈ store.records.objects ∨ entry.2 = object.withoutId) ∧
      ∃ entry ∈ (store.writeObject oid stored).records.objects, entry.2 = object.withoutId := by
  refine ⟨rfl, ?_, ?_⟩
  · intro entry hmem
    obtain ⟨other, hother, rfl⟩ := List.mem_map.mp hmem
    rcases (UnorderedMap.mem_assignEntries store.objects.nodup).mp hother with rfl | ⟨hold, -⟩
    · exact .inr hstored
    · exact .inl (Store.mem_records hold)
  · have hmem : (oid, stored) ∈ (store.writeObject oid stored).objects.entries :=
      (UnorderedMap.mem_assignEntries store.objects.nodup).mpr (.inl rfl)
    exact ⟨_, Store.mem_records hmem, hstored⟩

theorem archives_memory : memoryRepository.Archives hasKey fun _ modified => modified where
  overwrites := overwrites_memory
  selects_withoutId _ _ _ _ := rfl
  selects_of_isAt region bucket key object := hasKey_of_isAt region bucket key object
  getBucket now region name store hplain := by
    change (MemoryRepository.getBucketIf now _ store).1.hasEncryption = false
    unfold MemoryRepository.getBucketIf
    split
    · next oid bucket hfound =>
        exact hplain _ (List.mem_map_of_mem (Store.mem_of_findIf hfound).1)
    · rfl
  getObject now region bucket key store := by
    change (MemoryRepository.getObject now region bucket key store).1.oid = "" ∨ ∃ entry ∈ store.records.objects,
      entry.2 = (MemoryRepository.getObject now region bucket key store).1.withoutId
    unfold MemoryRepository.getObject
    split
    · next oid object hfound =>
        rcases (MemoryRepository.newest_spec hfound).1 _ rfl with ⟨hmem, -⟩ | hnone
        · exact .inr ⟨_, Store.mem_records hmem, rfl⟩
        · cases hnone
    · exact .inl rfl
  getObjectVersion now region bucket key version store := by
    refine ⟨MemoryRepository.records_getObjectIf now _ store, ?_⟩
    change (MemoryRepository.getObjectIf now _ store).1.oid = "" ∨ ∃ entry ∈ store.records.objects,
      entry.2 = (MemoryRepository.getObjectIf now _ store).1.withoutId
    unfold MemoryRepository.getObjectIf
    split
    · next oid object hfound =>
        exact .inr ⟨_, Store.mem_records (Store.mem_of_findIf hfound).1, rfl⟩
    · exact .inl rfl
  getObjectMd5 now region bucket key md5sum store :=
    MemoryRepository.records_getObjectIf now _ store
  createObject oid object store := Store.records_writeObject_spec oid object _ rfl
  updateObject now object store := by
    change (MemoryRepository.updateObject now object store).1 = _ ∨
      ({ (MemoryRepository.updateObject now object store).1 with
        oid := "", modified := 0 } : Object) = _
    unfold MemoryRepository.updateObject
    split
    · exact .inr rfl
    · exact .inl rfl

theorem archives_mongo : mongoRepository.Archives Object.isAt fun now _ => now where
  overwrites := overwrites_mongo
  selects_withoutId _ _ _ _ := rfl
  selects_of_isAt _ _ _ _ := id
  getBucket now region name store hplain := by
    change (MongoRepository.getBucketIf now _ store).1.hasEncryption = false
    unfold MongoRepository.getBucketIf
    split <;> rfl
  getObject now region bucket key store := by
    change (MongoRepository.getObject now region bucket key store).1.oid = "" ∨ ∃ entry ∈ store.records.objects,
      entry.2 = (MongoRepository.getObject now region bucket key store).1.withoutId
    unfold MongoRepository.getObject
    split
    · next oid object hfound =>
        exact .inr ⟨_, Store.mem_records (MongoRepository.mem_of_newest hfound).1, rfl⟩
    · exact .inl rfl
  getObjectVersion now region bucket key version store := by
    change (MongoRepository.getObjectIf now _ store).2.records = store.records ∧
      ((MongoRepository.getObjectIf now _ store).1.oid = "" ∨ ∃ entry ∈ store.records.objects,
        entry.2 = (MongoRepository.getObjectIf now _ store).1.withoutId)
    unfold MongoRepository.getObjectIf
    split
    · next oid object hfound =>
        exact ⟨rfl, .inr ⟨_, Store.mem_records (Store.mem_of_findIf hfound).1, rfl⟩⟩
    · exact ⟨rfl, .inl rfl⟩
  getObjectMd5 now region bucket key md5sum store := by
    change (MongoRepository.getObjectIf now _ store).2.records = store.records
    unfold MongoRepository.getObjectIf
    split <;> rfl
  createObject oid object store := Store.records_writeObject_spec oid object _ rfl
  updateObject now object store := by
    change (MongoRepository.updateObject now object store).1 = _ ∨
      ({ (MongoRepository.updateObject now object store).1 with
        oid := "", modified := 0 } : Object) = _
    unfold MongoRepository.updateObject
    dsimp only
    split
    · exact .inr rfl
    · exact .inl rfl

end Repositories

section Stages

variable (surroundings : Surroundings)

def IsPast (draws : Nat) (name : String) : Prop :=
  ∀ draw, draws ≤ draw → surroundings.random.uuid draw ≠ name

structure IsIntact (world : World Storage) : Prop where
  plain : ∀ entry ∈ world.store.database.records.buckets, entry.2.hasEncryption = false
  names : ∀ entry ∈ world.store.database.records.objects,
    IsPast surroundings world.draws entry.2.internalName
  tasks : ∀ task ∈ world.store.tasks, IsPast surroundings world.draws task.object.internalName
  sums : ∀ task ∈ world.store.tasks, ∀ content,
    world.store.files task.object.internalName = some content →
      SumsBelong surroundings content task.object

structure Sound (correct : Prop) (world : World Storage) : Prop where
  intact : IsIntact surroundings world
  iff : (∀ entry ∈ world.store.database.records.objects,
    IsCorrect surroundings world.store.files entry.2) ↔ correct

structure IsFree (name : String) (world : World Storage) : Prop where
  sound : Sound surroundings True world
  past : IsPast surroundings world.draws name
  objects : ∀ entry ∈ world.store.database.records.objects, entry.2.internalName ≠ name
  tasks : ∀ task ∈ world.store.tasks, task.object.internalName ≠ name

structure IsWritten (name : String) (content : Bytes) (world : World Storage) : Prop where
  sound : Sound surroundings True world
  past : IsPast surroundings world.draws name
  file : world.store.files name = some content

structure SameView (before after : World Storage) : Prop where
  records : after.store.database.records = before.store.database.records
  files : after.store.files = before.store.files
  tasks : after.store.tasks = before.store.tasks
  draws : after.draws = before.draws

variable {surroundings} {correct : Prop} {name : String} {content : Bytes}
  {before after world : World Storage}

theorem IsIntact.of_view (hintact : IsIntact surroundings before) (hview : SameView before after) :
    IsIntact surroundings after := by
  obtain ⟨hrecords, hfiles, htasks, hdraws⟩ := hview
  refine ⟨?_, ?_, ?_, ?_⟩
  · rw [hrecords]
    exact hintact.plain
  · rw [hrecords, hdraws]
    exact hintact.names
  · rw [htasks, hdraws]
    exact hintact.tasks
  · rw [htasks, hfiles]
    exact hintact.sums

theorem Sound.of_view (hsound : Sound surroundings correct before)
    (hview : SameView before after) : Sound surroundings correct after := by
  refine ⟨hsound.intact.of_view hview, ?_⟩
  rw [hview.records, hview.files]
  exact hsound.iff

theorem IsFree.of_view (hfree : IsFree surroundings name before) (hview : SameView before after) :
    IsFree surroundings name after := by
  refine ⟨hfree.sound.of_view hview, ?_, ?_, ?_⟩
  · rw [hview.draws]
    exact hfree.past
  · rw [hview.records]
    exact hfree.objects
  · rw [hview.tasks]
    exact hfree.tasks

theorem Sound.congr {other : Prop} (hsound : Sound surroundings correct world)
    (hiff : correct ↔ other) : Sound surroundings other world :=
  ⟨hsound.intact, hsound.iff.trans hiff⟩

theorem Sound.isCorrect (hsound : Sound surroundings True world) {entry : String × Object}
    (hmem : entry ∈ world.store.database.records.objects) :
    IsCorrect surroundings world.store.files entry.2 :=
  hsound.iff.mpr trivial entry hmem

theorem IsPast.succ {draws : Nat} (hpast : IsPast surroundings draws name) :
    IsPast surroundings (draws + 1) name :=
  fun draw hdraw => hpast draw (Nat.le_of_succ_le hdraw)

theorem Sound.draw (hsound : Sound surroundings correct world) :
    Sound surroundings correct { world with draws := world.draws + 1 } :=
  ⟨⟨hsound.intact.plain, fun entry hmem => (hsound.intact.names entry hmem).succ,
    fun task hmem => (hsound.intact.tasks task hmem).succ, hsound.intact.sums⟩, hsound.iff⟩

theorem Sound.drawName (hsound : Sound surroundings True world) :
    IsFree surroundings (surroundings.random.uuid world.draws)
      { world with draws := world.draws + 1 } where
  sound := hsound.draw
  past draw hdraw heq := by
    have hsame := surroundings.random.uuid_injective heq
    change world.draws + 1 ≤ draw at hdraw
    omega
  objects entry hmem heq := hsound.intact.names entry hmem world.draws (Nat.le_refl _) heq.symm
  tasks task hmem heq := hsound.intact.tasks task hmem world.draws (Nat.le_refl _) heq.symm

theorem IsWritten.draw (hwritten : IsWritten surroundings name content world) :
    IsWritten surroundings name content { world with draws := world.draws + 1 } :=
  ⟨hwritten.sound.draw, hwritten.past.succ, hwritten.file⟩

theorem IsFree.writeFile (hfree : IsFree surroundings name world) (written : Option Bytes) :
    IsFree surroundings name { world with
      store := { world.store with files := Function.update world.store.files name written } } := by
  have hobject : ∀ object : Object, object.internalName ≠ name →
      Function.update world.store.files name written object.internalName =
        world.store.files object.internalName :=
    fun object hne => Function.update_of_ne hne written world.store.files
  refine ⟨⟨⟨hfree.sound.intact.plain, hfree.sound.intact.names, hfree.sound.intact.tasks, ?_⟩, ?_⟩,
    hfree.past, hfree.objects, hfree.tasks⟩
  · intro task hmem content hfile
    refine hfree.sound.intact.sums task hmem content ?_
    rw [← hobject task.object (hfree.tasks task hmem)]
    exact hfile
  · refine ⟨fun _ => trivial, fun _ entry hmem => ?_⟩
    obtain ⟨content, hfile, hsize, hsums⟩ := hfree.sound.isCorrect hmem
    refine ⟨content, ?_, hsize, hsums⟩
    change Function.update world.store.files name written entry.2.internalName = some content
    rw [hobject entry.2 (hfree.objects entry hmem)]
    exact hfile

theorem Sound.store (hsound : Sound surroundings True world) {object : Object} {stored : Prop}
    {database : Store}
    (hpast : IsPast surroundings world.draws object.internalName)
    (hbuckets : database.records.buckets = world.store.database.records.buckets)
    (hmem : ∀ entry ∈ database.records.objects, entry ∈ world.store.database.records.objects ∨
      stored ∧ ∃ modified, entry.2 = { object with oid := "", modified })
    (hput : stored → ∃ entry ∈ database.records.objects, ∃ modified,
      entry.2 = { object with oid := "", modified }) :
    Sound surroundings (stored → IsCorrect surroundings world.store.files object)
      { world with store := { world.store with database } } := by
  refine ⟨⟨?_, ?_, hsound.intact.tasks, hsound.intact.sums⟩, ?_, ?_⟩
  · intro entry hentry
    exact hsound.intact.plain entry (hbuckets ▸ hentry)
  · intro entry hentry
    rcases hmem entry hentry with hold | ⟨-, modified, hnew⟩
    · exact hsound.intact.names entry hold
    · rw [hnew]
      exact hpast
  · intro hall hstored
    obtain ⟨entry, hentry, modified, hnew⟩ := hput hstored
    have hcorrect := hall entry hentry
    rw [hnew] at hcorrect
    obtain ⟨content, hfile, hsize, hmd5, hsha1, hsha256⟩ := hcorrect
    exact ⟨content, hfile, hsize, hmd5, hsha1, hsha256⟩
  · intro hcorrect entry hentry
    rcases hmem entry hentry with hold | ⟨hstored, modified, hnew⟩
    · exact hsound.isCorrect hold
    · obtain ⟨content, hfile, hsize, hmd5, hsha1, hsha256⟩ := hcorrect hstored
      rw [hnew]
      exact ⟨content, hfile, hsize, hmd5, hsha1, hsha256⟩

end Stages

section Calls

open ServiceCall

variable {surroundings : Surroundings} {now : Time} {correct : Prop} {name : String}
  {content : Bytes} {holds halted : World Storage → Prop}
  {selects : String → String → String → Object → Bool} {stamp : Time → Time → Time}

theorem run_query {α : Type} (read : Store → α) (held : List Empty) (world : World Storage) :
    (query read).run held world = .returns (read world.store.database) world :=
  rfl

theorem satisfies_queryAny {α : Type} (read : Store → α) :
    (query read).Satisfies holds (fun _ => holds) halted :=
  fun _ _ => id

section

variable (hstable : ∀ before after, SameView before after → holds before → holds after)
include hstable

theorem satisfies_view {α : Type} {call : Store → α × Store}
    (hcall : ∀ store, (call store).2.records = store.records) :
    (perform call).Satisfies holds (fun _ => holds) halted :=
  fun _ world hholds => hstable world _ ⟨hcall _, rfl, rfl, rfl⟩ hholds

theorem keeps_send
    (delivery : Delivery) : (S3Service.send surroundings delivery).Keeps holds := by
  intro held world hholds
  have hkept : holds { world with
      store := { world.store with deliveries := world.store.deliveries ++ [delivery] } } :=
    hstable world _ ⟨rfl, rfl, rfl, rfl⟩ hholds
  rw [S3Service.send, Action.run_bind]
  cases surroundings.deliver delivery with
  | ok value => exact hkept
  | error exn => exact hkept

end

theorem keeps_checkNotifications (harchives : surroundings.repository.Archives selects stamp)
    (hstable : ∀ before after, SameView before after → holds before → holds after)
    (region bucket key : String) (size : Int) (etag versionId event : String) :
    (S3Service.checkNotifications surroundings now region bucket key size etag versionId
      event).Keeps holds := by
  unfold S3Service.checkNotifications
  apply Action.Keeps.bind (satisfies_view hstable
    (harchives.overwrites.isFaithful.getBucketByRegionName now region bucket))
  intro bucketEntity
  apply Action.Keeps.bind (Action.keeps_forM _ ?_) fun _ =>
    Action.Keeps.bind (Action.keeps_forM _ ?_) fun _ => Action.keeps_forM _ ?_
  · intro notification _
    exact Action.Satisfies.ite (fun _ => keeps_send hstable _) fun _ => Action.keeps_pure _
  · intro notification _
    exact Action.Satisfies.ite (fun _ => keeps_send hstable _) fun _ => Action.keeps_pure _
  · intro notification _
    refine Action.Satisfies.ite (fun _ => ?_) fun _ => Action.keeps_pure _
    unfold S3Service.sendLambdaInvocationRequest
    split
    · exact keeps_send hstable _
    · exact Action.keeps_pure _

theorem keeps_checkBucketExistence (region bucket : String) :
    (S3Service.checkBucketExistence surroundings region bucket).Keeps holds := by
  apply Action.Keeps.bind (Action.keeps_gets _)
  intro found
  exact Action.Satisfies.ite (fun _ => Action.keeps_pure _) fun _ => Action.keeps_raise _

theorem satisfies_checkEncryption {bucket : Bucket} (hplain : bucket.hasEncryption = false)
    (object : Object) : (S3Service.checkEncryption surroundings bucket object).Satisfies holds
      (fun _ => holds) halted := by
  unfold S3Service.checkEncryption
  rw [if_neg (by simp [hplain])]
  exact Action.satisfies_pure fun _ => id

theorem satisfies_drawName :
    (Call.draw : ServiceCall Nat).Satisfies (Sound surroundings True)
      (fun draw => IsFree surroundings (surroundings.random.uuid draw)) halted :=
  fun _ _ hsound => hsound.drawName

theorem satisfies_nextDraw (hdraw : ∀ world : World Storage, holds world →
    holds { world with draws := world.draws + 1 }) :
    (Call.draw : ServiceCall Nat).Satisfies holds (fun _ => holds) halted :=
  fun _ world hholds => hdraw world hholds

theorem satisfies_writeFree :
    (writeFile name (some content)).Satisfies (IsFree surroundings name)
      (fun _ world => IsFree surroundings name world ∧ world.store.files name = some content)
      halted :=
  fun _ world hfree => ⟨hfree.writeFile _, Function.update_self name _ world.store.files⟩

theorem satisfies_calculateHashes_written {object : Object}
    (hobject : (object.internalName = name ∧ SumsBelong surroundings content object) ∨
      (object.internalName = "" ∧ ∀ other, SumsBelong surroundings other object))
    (algorithm : String) :
    (calculateHashes algorithm object).Satisfies (IsWritten surroundings name content)
      (fun _ => IsWritten surroundings name content) halted := by
  refine Action.Satisfies.ite (fun _ _ world hwritten => ?_) fun _ =>
    Action.satisfies_pure fun _ => id
  obtain ⟨⟨⟨hplain, hnames, htasks, hkept⟩, hiff⟩, hpast, hfile⟩ := hwritten
  refine ⟨⟨⟨hplain, hnames, ?_, ?_⟩, hiff⟩, hpast, hfile⟩
  · intro task hmem
    rcases List.mem_append.mp hmem with hold | hnew
    · exact htasks task hold
    · rw [List.mem_singleton.mp hnew]
      change IsPast surroundings world.draws object.internalName
      rcases hobject with ⟨hname, -⟩ | ⟨hempty, -⟩
      · rw [hname]
        exact hpast
      · rw [hempty]
        exact fun draw _ => surroundings.random.uuid_ne_empty draw
  · intro task hmem other hother
    rcases List.mem_append.mp hmem with hold | hnew
    · exact hkept task hold other hother
    · rw [List.mem_singleton.mp hnew] at hother ⊢
      change world.store.files object.internalName = some other at hother
      rcases hobject with ⟨hname, hsums⟩ | ⟨-, hsums⟩
      · rw [hname, hfile] at hother
        cases hother
        exact hsums
      · exact hsums other

theorem isCorrect_iff {files : String → Option Bytes} {object : Object}
    (hname : object.internalName = name) (hfile : files name = some content) :
    IsCorrect surroundings files object ↔
      object.size = content.length ∧ SumsBelong surroundings content object := by
  constructor
  · rintro ⟨other, hother, hsize, hsums⟩
    rw [hname, hfile] at hother
    cases hother
    exact ⟨hsize, hsums⟩
  · rintro ⟨hsize, hsums⟩
    exact ⟨content, hname ▸ hfile, hsize, hsums⟩

section

variable (harchives : surroundings.repository.Archives selects stamp)
include harchives

theorem satisfies_createObject
    {object : Object} (hname : object.internalName = name) (oid : String) :
    (perform (surroundings.repository.createObject oid object)).Satisfies
      (IsWritten surroundings name content)
      (fun _ => Sound surroundings
        (object.size = content.length ∧ SumsBelong surroundings content object)) halted := by
  intro held world hwritten
  obtain ⟨hbuckets, hmem, hput⟩ := harchives.createObject oid object world.store.database
  have hstored := @Sound.store surroundings world hwritten.sound object True
    (surroundings.repository.createObject oid object world.store.database).2
    (hname ▸ hwritten.past) hbuckets
    (fun entry hentry => (hmem entry hentry).imp id fun hnew => ⟨trivial, object.modified, hnew⟩)
    fun _ => hput.imp fun entry hentry => ⟨hentry.1, object.modified, hentry.2⟩
  exact hstored.congr (true_imp_iff.trans (isCorrect_iff hname hwritten.file))

theorem Sound.updateObject
    {world : World Storage} (hsound : Sound surroundings True world) {object : Object}
    (hpast : IsPast surroundings world.draws object.internalName) :
    Sound surroundings
      ((world.store.database.records.objects.any fun entry =>
        selects object.region object.bucket object.key entry.2) = true →
        IsCorrect surroundings world.store.files object)
      { world with store := { world.store with
        database := (surroundings.repository.updateObject now object world.store.database).2 } } := by
  have hrecords := harchives.overwrites.updateObject now object world.store.database
  refine hsound.store hpast (by rw [hrecords]; rfl) ?_ ?_
  · intro entry hentry
    rw [hrecords] at hentry
    rcases of_mem_rewriteFirst hentry with hold | ⟨other, hother, hselect, heq⟩
    · exact .inl hold
    · refine .inr ⟨List.any_eq_true.mpr ⟨other, hother, hselect⟩, stamp now object.modified, ?_⟩
      rw [heq]
  · intro hfound
    obtain ⟨other, hother, hselect⟩ := List.any_eq_true.mp hfound
    obtain ⟨rewritten, -, -, hmem⟩ := @exists_mem_rewriteFirst _
      (fun entry : String × Object => selects object.region object.bucket object.key entry.2)
      (fun entry => (entry.1, { object with oid := "", modified := stamp now object.modified }))
      _ _ hother hselect
    rw [hrecords]
    exact ⟨_, hmem, stamp now object.modified, rfl⟩

theorem satisfies_createOrUpdateObject
    {object : Object}
    (hname : object.internalName = name) (oid : String) :
    (perform (surroundings.repository.createOrUpdateObject now oid object)).Satisfies
      (IsWritten surroundings name content)
      (fun _ => Sound surroundings
        (object.size = content.length ∧ SumsBelong surroundings content object)) halted := by
  intro held world hwritten
  have hcreate := @satisfies_createObject surroundings name content halted selects stamp harchives
    object hname oid held world hwritten
  change Sound surroundings _ { world with store := { world.store with
    database := (surroundings.repository.createOrUpdateObject now oid object
      world.store.database).2 } }
  unfold Repository.createOrUpdateObject
  split
  · next hexists =>
      rw [harchives.overwrites.isFaithful.objectExists, Records.hasObject,
        List.any_eq_true] at hexists
      obtain ⟨entry, hentry, hat⟩ := hexists
      have hfound : (world.store.database.records.objects.any fun entry =>
          selects object.region object.bucket object.key entry.2) = true :=
        List.any_eq_true.mpr ⟨entry, hentry, harchives.selects_of_isAt _ _ _ _ hat⟩
      have hstored := @Sound.updateObject surroundings now selects stamp harchives world
        hwritten.sound object (hname ▸ hwritten.past)
      exact hstored.congr ((imp_iff_right hfound).trans (isCorrect_iff hname hwritten.file))
  · exact hcreate

end

theorem isFree_stable : ∀ before after : World Storage, SameView before after →
    IsFree surroundings name before ∧ before.store.files name = some content →
    IsFree surroundings name after ∧ after.store.files name = some content :=
  fun _ _ hview hfree => ⟨hfree.1.of_view hview, hview.files ▸ hfree.2⟩

theorem sound_stable : ∀ before after : World Storage, SameView before after →
    Sound surroundings correct before → Sound surroundings correct after :=
  fun _ _ hview hsound => hsound.of_view hview

section

variable (harchives : surroundings.repository.Archives selects stamp)
include harchives

theorem satisfies_saveObject
    {bucket : Bucket} (hplain : bucket.hasEncryption = false)
    (request : S3Service.PutObjectRequest) (stream : Bytes)
    (hcorrect : correct ↔ (bucket.isVersioned = false →
      (stream.take request.contentLength).length = request.contentLength →
      surroundings.isBase64 (stream.take request.contentLength) = true →
      (surroundings.base64Decode (stream.take request.contentLength)).length =
        (stream.take request.contentLength).length)) :
    (S3Service.saveObject surroundings now request bucket stream).Satisfies
      (Sound surroundings True) (fun _ => Sound surroundings correct)
      (Sound surroundings correct) := by
  have htrue : correct → (True ↔ correct) := fun hholds => ⟨fun _ => hholds, fun _ => trivial⟩
  unfold S3Service.saveObject
  apply Action.Satisfies.bind satisfies_drawName
  intro draw
  apply Action.Satisfies.ite
  · intro hlength
    refine Action.satisfies_raise fun world hfree => hfree.sound.congr (htrue ?_)
    exact hcorrect.mpr fun _ hsame => absurd hsame hlength
  · intro hlength
    apply Action.Satisfies.bind satisfies_writeFree
    intro _
    apply Action.Satisfies.ite
    · intro hversioned
      have hholds : correct :=
        hcorrect.mpr fun hnot => absurd (hversioned.symm.trans hnot) (by simp)
      apply Action.Satisfies.bind (satisfies_view isFree_stable
        (harchives.getObjectMd5 now _ _ _ _))
      intro existing
      apply Action.Satisfies.ite
      · intro _ held world hfree
        exact ((hfree.1.writeFile none).sound).congr (htrue hholds)
      · intro _
        refine fun held world hfree =>
          (?_ : Action.Satisfies (IsWritten surroundings _ _) _ _ _) held world
            ⟨hfree.1.sound, hfree.1.past, hfree.2⟩
        apply Action.Satisfies.bind (satisfies_nextDraw fun _ hwritten => hwritten.draw)
        intro _
        apply Action.Satisfies.bind (satisfies_calculateHashes_written (.inl ⟨?_, ?_⟩) _)
        · intro _
          apply Action.Satisfies.bind (satisfies_nextDraw fun _ hwritten => hwritten.draw)
          intro _
          apply Action.Satisfies.bind ((satisfies_createObject harchives ?_ _).weaken
            fun _ _ hsound => hsound.congr ?_)
          · intro stored
            apply Action.Satisfies.bind (satisfies_checkEncryption hplain stored)
            intro _
            exact keeps_checkNotifications harchives sound_stable _ _ _ _ _ _ _
          · rfl
          · exact ⟨fun _ => hholds, fun _ => ⟨rfl, .inr rfl, .inl rfl, .inl rfl⟩⟩
        · rfl
        · exact ⟨.inr rfl, .inl rfl, .inl rfl⟩
    · intro hversioned
      apply Action.Satisfies.bind (fun held world (hfree : _ ∧ _) =>
        satisfies_writeFree held world hfree.1)
      intro _
      refine fun held world hfree =>
        (?_ : Action.Satisfies (IsWritten surroundings _ _) _ _ _) held world
          ⟨hfree.1.sound, hfree.1.past, hfree.2⟩
      apply Action.Satisfies.bind (satisfies_nextDraw fun _ hwritten => hwritten.draw)
      intro _
      apply Action.Satisfies.bind ((satisfies_createOrUpdateObject harchives ?_ _).weaken
        fun _ _ hsound => hsound.congr ?_)
      · intro stored
        apply Action.Satisfies.bind (satisfies_checkEncryption hplain stored)
        intro _
        exact keeps_checkNotifications harchives sound_stable _ _ _ _ _ _ _
      · rfl
      · have hsame := not_not.mp hlength
        rw [hcorrect]
        constructor
        · rintro ⟨hsize, -⟩ - - hbase
          change (request.contentLength : Int) = ((if _ then _ else _ : Bytes).length : Int) at hsize
          rw [if_pos hbase] at hsize
          exact (Int.ofNat.inj hsize).symm.trans hsame.symm
        · intro hdecoded
          refine ⟨?_, .inr rfl, .inl rfl, .inl rfl⟩
          change (request.contentLength : Int) = ((if _ then _ else _ : Bytes).length : Int)
          split
          · next hbase =>
              rw [hdecoded (eq_false_of_ne_true hversioned) hsame hbase, hsame]
          · rw [hsame]

theorem satisfies_putObject
    (request : S3Service.PutObjectRequest) (stream : Bytes) (world : World Storage) :
    (S3Service.putObject surroundings now request stream).Satisfies
      (fun other => Sound surroundings True other ∧ other = world)
      (fun _ => Sound surroundings
        (Heeds surroundings selects world (now, .putObject request stream)))
      (Sound surroundings (Heeds surroundings selects world (now, .putObject request stream))) := by
  rintro held world ⟨hsound, rfl⟩
  rw [S3Service.putObject, Action.run_bind]
  unfold S3Service.checkBucketExistence
  rw [Action.run_bind]
  cases hexists : surroundings.repository.bucketExists request.region request.bucket
      world.store.database with
  | false =>
    have hrun : (query (surroundings.repository.bucketExists request.region
        request.bucket)).run held world = .returns false world :=
      congrArg (Outcome.returns · world) hexists
    rw [hrun]
    refine hsound.congr ⟨fun _ hyes => ?_, fun _ => trivial⟩
    exact absurd (hexists.symm.trans hyes) Bool.false_ne_true
  | true =>
    have hrun : (query (surroundings.repository.bucketExists request.region
        request.bucket)).run held world = .returns true world :=
      congrArg (Outcome.returns · world) hexists
    rw [hrun]
    have hplain := harchives.getBucket now request.region request.bucket world.store.database
      hsound.intact.plain
    have hview : SameView world { world with store := { world.store with
        database := (surroundings.repository.getBucketByRegionName now request.region
          request.bucket world.store.database).2 } } :=
      ⟨harchives.overwrites.isFaithful.getBucketByRegionName now _ _ _, rfl, rfl, rfl⟩
    have hsave := @satisfies_saveObject surroundings now
      (Heeds surroundings selects world (now, .putObject request stream)) selects stamp
      harchives _ hplain request stream ⟨fun hheeds => hheeds hexists, fun hall _ => hall⟩
    have hcall : (perform (surroundings.repository.getBucketByRegionName now request.region
        request.bucket) >>= fun bucket =>
          S3Service.saveObject surroundings now request bucket stream).Satisfies
        (fun other => other = world)
        (fun _ => Sound surroundings
          (Heeds surroundings selects world (now, .putObject request stream)))
        (Sound surroundings
          (Heeds surroundings selects world (now, .putObject request stream))) := by
      rintro held other rfl
      rw [Action.run_bind, run_perform, Outcome.andThen_returns]
      exact hsave held _ (hsound.of_view hview)
    exact hcall.rethrow held world rfl

theorem mem_getObject
    {region bucket key : String} {store : Store}
    (hexists : surroundings.repository.objectExists region bucket key store = true) :
    ∃ entry ∈ store.records.objects,
      entry.2 = (surroundings.repository.getObject now region bucket key store).1.withoutId := by
  rw [harchives.overwrites.getObject]
  rw [harchives.overwrites.isFaithful.objectExists, Records.hasObject, List.any_eq_true] at hexists
  obtain ⟨entry, hentry, hat⟩ := hexists
  unfold Records.getObject
  cases hnewest : MemoryRepository.newest region bucket key store.records.objects none with
  | none =>
    have hnone := ((MemoryRepository.newest_spec hnewest).2 rfl).2 entry hentry
    exact absurd hat (Bool.eq_false_iff.mp hnone)
  | some found =>
    rcases (MemoryRepository.newest_spec hnewest).1 found rfl with ⟨hmem, -⟩ | hnone
    · exact ⟨found, hmem, rfl⟩
    · cases hnone

end

theorem Sound.of_read {world : World Storage} (hsound : Sound surroundings True world)
    {object : Object} (hmem : ∃ entry ∈ world.store.database.records.objects,
      entry.2 = object.withoutId) :
    IsPast surroundings world.draws object.internalName ∧
      IsCorrect surroundings world.store.files object := by
  obtain ⟨entry, hentry, heq⟩ := hmem
  have hpast := hsound.intact.names entry hentry
  have hcorrect := hsound.isCorrect hentry
  rw [heq] at hpast hcorrect
  obtain ⟨content, hfile, hsize, hmd5, hsha1, hsha256⟩ := hcorrect
  exact ⟨hpast, content, hfile, hsize, hmd5, hsha1, hsha256⟩

theorem sound_of_view {world : World Storage} (hsound : Sound surroundings correct world)
    {database : Store} (hrecords : database.records = world.store.database.records) :
    Sound surroundings correct { world with store := { world.store with database } } :=
  hsound.of_view ⟨hrecords, rfl, rfl, rfl⟩

theorem keeps_updateObject (harchives : surroundings.repository.Archives selects stamp)
    (request : S3Service.UpdateObjectRequest) :
    (S3Service.updateObject surroundings now request).Keeps (Sound surroundings True) := by
  apply Action.Keeps.bind (keeps_checkBucketExistence _ _)
  intro _ held world hsound
  rw [Action.run_bind, run_query, Outcome.andThen_returns]
  split
  · next hexists =>
      have hread := harchives.overwrites.isFaithful.getObject now request.region request.bucket
        request.key world.store.database
      obtain ⟨hpast, hcorrect⟩ := hsound.of_read (@mem_getObject surroundings now selects stamp
        harchives _ _ _ _ hexists)
      rw [Action.run_bind, run_perform, Outcome.andThen_returns, Action.run_bind, run_perform,
        Outcome.andThen_returns]
      refine (Sound.updateObject harchives (sound_of_view hsound hread) ?_).congr
        ⟨fun _ => trivial, fun _ _ => ?_⟩
      · exact hpast
      · obtain ⟨content, hfile, hsize, hmd5, hsha1, hsha256⟩ := hcorrect
        exact ⟨content, hfile, hsize, hmd5, hsha1, hsha256⟩
  · exact hsound

theorem satisfies_updateWritten (harchives : surroundings.repository.Archives selects stamp)
    {object : Object} (hname : object.internalName = name) (hsize : object.size = content.length)
    (hsums : SumsBelong surroundings content object) :
    (perform (surroundings.repository.updateObject now object)).Satisfies
      (IsWritten surroundings name content)
      (fun stored world => IsWritten surroundings name content world ∧
        ((stored.internalName = name ∧ SumsBelong surroundings content stored) ∨
          (stored.internalName = "" ∧ ∀ other, SumsBelong surroundings other stored))) halted := by
  intro held world hwritten
  have hupdated := (@Sound.updateObject surroundings now selects stamp harchives world
    hwritten.sound object (hname ▸ hwritten.past)).congr
      ⟨fun _ => trivial, fun _ _ => (isCorrect_iff hname hwritten.file).mpr ⟨hsize, hsums⟩⟩
  refine ⟨⟨hupdated, hwritten.past, hwritten.file⟩, ?_⟩
  rcases harchives.updateObject now object world.store.database with hblank | hsame
  · rw [hblank]
    exact .inr ⟨rfl, fun _ => ⟨.inl rfl, .inl rfl, .inl rfl⟩⟩
  · have hfile := congrArg Object.internalName hsame
    have hmd5 := congrArg Object.md5sum hsame
    have hsha1 := congrArg Object.sha1sum hsame
    have hsha256 := congrArg Object.sha256sum hsame
    dsimp only at hfile hmd5 hsha1 hsha256
    refine .inl ⟨hfile.trans hname, ?_, ?_, ?_⟩
    · rw [hmd5]
      exact hsums.md5
    · rw [hsha1]
      exact hsums.sha1
    · rw [hsha256]
      exact hsums.sha256

theorem satisfies_writeUpload_written (uploadId : String) (parts : Option (List (String × Bytes))) :
    (writeUpload uploadId parts).Satisfies (IsWritten surroundings name content)
      (fun _ => Sound surroundings True) halted :=
  fun _ _ hwritten => hwritten.sound.of_view ⟨rfl, rfl, rfl, rfl⟩

theorem keeps_completeMultipartUpload (harchives : surroundings.repository.Archives selects stamp)
    (request : S3Service.CompleteMultipartUploadRequest) :
    (S3Service.completeMultipartUpload surroundings now request).Keeps
      (Sound surroundings True) := by
  apply Action.Satisfies.bind (satisfies_view sound_stable
    (harchives.overwrites.isFaithful.getObject now _ _ _))
  intro object
  apply Action.Keeps.bind (Action.keeps_gets _)
  intro parts
  cases parts with
  | none => exact Action.keeps_pure _
  | some parts =>
    apply Action.Satisfies.bind satisfies_drawName
    intro draw
    apply Action.Satisfies.bind satisfies_writeFree
    intro _
    refine fun held world hfree =>
      (?_ : Action.Satisfies (IsWritten surroundings _ _) _ _ _) held world
        ⟨hfree.1.sound, hfree.1.past, hfree.2⟩
    apply Action.Satisfies.bind (satisfies_updateWritten harchives ?_ ?_ ?_)
    · intro stored
      apply Action.Satisfies.assuming
      intro hstored
      apply Action.Satisfies.bind (satisfies_calculateHashes_written hstored _)
      intro _
      apply Action.Satisfies.bind (satisfies_writeUpload_written _ _)
      intro _
      exact keeps_checkNotifications harchives sound_stable _ _ _ _ _ _ _
    · rfl
    · rfl
    · exact ⟨.inr rfl, .inr rfl, .inr rfl⟩

/-- The records are correct, and so is an object that was read. -/
def HasSource (surroundings : Surroundings) (object : Object) (world : World Storage) : Prop :=
  Sound surroundings True world ∧ IsCorrect surroundings world.store.files object

theorem hasSource_stable {object : Object} : ∀ before after : World Storage,
    SameView before after → HasSource surroundings object before →
    HasSource surroundings object after :=
  fun _ _ hview hsource => ⟨hsource.1.of_view hview, hview.files ▸ hsource.2⟩

theorem satisfies_storeCopy (harchives : surroundings.repository.Archives selects stamp)
    {α : Type} {source : Object} {target : Nat → Object} {next : Object → ServiceCall α}
    (hnext : ∀ stored, (next stored).Keeps (Sound surroundings True))
    (hname : ∀ draw, (target draw).internalName = name)
    (hsize : ∀ draw, (target draw).size = source.size)
    (hmd5 : ∀ draw, (target draw).md5sum = source.md5sum)
    (hsha1 : ∀ draw, (target draw).sha1sum = source.sha1sum)
    (hsha256 : ∀ draw, (target draw).sha256sum = source.sha256sum) :
    (do
      writeFile name (some content)
      let version ← Call.draw
      let oid ← Call.draw
      let stored ← perform (surroundings.repository.createObject (surroundings.random.uuid oid)
        (target version))
      next stored : ServiceCall α).Satisfies
      (fun world => IsFree surroundings name world ∧
        IsCorrect surroundings world.store.files source ∧
        world.store.files source.internalName = some content)
      (fun _ => Sound surroundings True) (Sound surroundings True) := by
  rintro held world ⟨hfree, ⟨other, hother, hlength, hsums⟩, hfile⟩
  rw [hfile] at hother
  cases hother
  refine (?_ : Action.Satisfies (IsFree surroundings name) _ _ _) held world hfree
  apply Action.Satisfies.bind satisfies_writeFree
  intro _
  refine fun held world hfree =>
    (?_ : Action.Satisfies (IsWritten surroundings _ _) _ _ _) held world
      ⟨hfree.1.sound, hfree.1.past, hfree.2⟩
  apply Action.Satisfies.bind (satisfies_nextDraw fun _ hwritten => hwritten.draw)
  intro version
  apply Action.Satisfies.bind (satisfies_nextDraw fun _ hwritten => hwritten.draw)
  intro oid
  apply Action.Satisfies.bind ((satisfies_createObject harchives (hname version) _).weaken
    fun _ _ hsound => hsound.congr ⟨fun _ => trivial, fun _ => ?_⟩)
  · exact hnext
  · refine ⟨(hsize version).trans hlength, ?_, ?_, ?_⟩
    · rw [hmd5]
      exact hsums.md5
    · rw [hsha1]
      exact hsums.sha1
    · rw [hsha256]
      exact hsums.sha256

theorem satisfies_readSource {source : Object} :
    (readFile source.internalName).Satisfies (fun world => IsFree surroundings name world ∧
        IsCorrect surroundings world.store.files source)
      (fun file world => IsFree surroundings name world ∧
        IsCorrect surroundings world.store.files source ∧
        world.store.files source.internalName = file) halted :=
  fun _ _ hpre => ⟨hpre.1, hpre.2, rfl⟩

theorem satisfies_drawTarget {source : Object} :
    (Call.draw : ServiceCall Nat).Satisfies (HasSource surroundings source)
      (fun draw world => IsFree surroundings (surroundings.random.uuid draw) world ∧
        IsCorrect surroundings world.store.files source) halted :=
  fun _ _ hsource => ⟨hsource.1.drawName, hsource.2⟩

section

variable (harchives : surroundings.repository.Archives selects stamp)
include harchives

theorem keeps_moveObject
    (request : S3Service.MoveObjectRequest) :
    (S3Service.moveObject surroundings now request).Keeps (Sound surroundings True) := by
  have hfaithful := harchives.overwrites.isFaithful
  apply Action.Keeps.bind (keeps_checkBucketExistence _ _)
  intro _ held world hsound
  rw [Action.run_bind, run_query, Outcome.andThen_returns]
  split
  · exact hsound
  · next hexists =>
      rw [Action.run_bind, run_query, Outcome.andThen_returns]
      split
      · exact hsound
      · have hbucket := hfaithful.getBucketByRegionName now request.region request.targetBucket
          world.store.database
        rw [Action.run_bind, run_perform, Outcome.andThen_returns, Action.run_bind, run_perform,
          Outcome.andThen_returns]
        have hfound : surroundings.repository.objectExists request.region request.sourceBucket
            request.sourceKey (surroundings.repository.getBucketByRegionName now request.region
              request.targetBucket world.store.database).2 = true := by
          rw [hfaithful.objectExists, hbucket, ← hfaithful.objectExists]
          exact eq_true_of_ne_false fun hnone => hexists (congrArg not hnone)
        have hread := sound_of_view hsound hbucket
        obtain ⟨-, hcorrect⟩ := hread.of_read (@mem_getObject surroundings now selects stamp
          harchives _ _ _ _ hfound)
        refine (?_ : Action.Satisfies (HasSource surroundings _) _ _ _) held _
          ⟨sound_of_view hread (hfaithful.getObject now _ _ _ _), hcorrect⟩
        apply Action.Satisfies.bind (satisfies_drawTarget)
        intro draw
        apply Action.Satisfies.bind satisfies_readSource
        intro file
        cases file with
        | none => exact Action.satisfies_raise fun _ hfree => hfree.1.sound
        | some content =>
          refine satisfies_storeCopy harchives (fun stored => ?_) ?_ ?_ ?_ ?_ ?_
          · exact keeps_checkNotifications harchives sound_stable _ _ _ _ _ _ _
          all_goals exact fun _ => rfl

theorem satisfies_findObject
    (bucket : Bucket) (region bucketName key versionId : String) :
    (S3Service.findObject surroundings now bucket region bucketName key versionId).Satisfies
      (Sound surroundings True)
      (fun object world => Sound surroundings True world ∧
        (object.oid ≠ "" → IsCorrect surroundings world.store.files object)) halted := by
  apply Action.Satisfies.ite
  · intro _ held world hsound
    obtain ⟨hrecords, hmem⟩ := harchives.getObjectVersion now region bucketName key versionId
      world.store.database
    exact ⟨sound_of_view hsound hrecords, fun hoid => (hsound.of_read (hmem.resolve_left hoid)).2⟩
  · intro _ held world hsound
    have hrecords := harchives.overwrites.isFaithful.getObject now region bucketName key
      world.store.database
    have hmem := harchives.getObject now region bucketName key world.store.database
    exact ⟨sound_of_view hsound hrecords, fun hoid => (hsound.of_read (hmem.resolve_left hoid)).2⟩

theorem keeps_copyObject
    (request : S3Service.CopyObjectRequest) :
    (S3Service.copyObject surroundings now request).Keeps (Sound surroundings True) := by
  have hfaithful := harchives.overwrites.isFaithful
  apply Action.Keeps.bind (keeps_checkBucketExistence _ _)
  intro _
  apply Action.Satisfies.bind (satisfies_view sound_stable
    (hfaithful.getBucketByRegionName now _ _))
  intro sourceBucket
  apply Action.Satisfies.bind (satisfies_findObject harchives _ _ _ _ _)
  intro source
  apply Action.Satisfies.ite
  · exact fun _ => Action.satisfies_raise fun _ hsound => hsound.1
  · intro hoid
    refine fun held world hsound =>
      (?_ : Action.Satisfies (HasSource surroundings source) _ _ _) held world
        ⟨hsound.1, hsound.2 hoid⟩
    apply Action.Satisfies.bind (satisfies_queryAny _)
    intro found
    apply Action.Satisfies.ite
    · exact fun _ => Action.satisfies_raise fun _ hsource => hsource.1
    · intro _
      apply Action.Satisfies.bind (satisfies_view hasSource_stable
        (hfaithful.getBucketByRegionName now _ _))
      intro targetBucket
      apply Action.Satisfies.bind (satisfies_drawTarget)
      intro draw
      apply Action.Satisfies.bind satisfies_readSource
      intro file
      cases file with
      | none => exact Action.satisfies_raise fun _ hfree => hfree.1.sound
      | some content =>
        refine satisfies_storeCopy harchives (fun stored => ?_) ?_ ?_ ?_ ?_ ?_
        · exact keeps_checkNotifications harchives sound_stable _ _ _ _ _ _ _
        all_goals exact fun _ => rfl

end

theorem isCorrect_withChecksum {files : String → Option Bytes} {task : HashTask}
    (hsums : ∀ content, files task.object.internalName = some content →
      SumsBelong surroundings content task.object) :
    IsCorrect surroundings files (S3Service.withChecksum surroundings task.algorithm
        ((files task.object.internalName).getD []) task.object) ↔
      ∃ content, files task.object.internalName = some content ∧
        task.object.size = content.length ∧ (task.algorithm = "MD5" →
          surroundings.md5 content = "" ∨
            surroundings.md5 content = surroundings.sha256 content) := by
  have hfields : ∀ content, (S3Service.withChecksum surroundings task.algorithm content
      task.object).internalName = task.object.internalName ∧
      (S3Service.withChecksum surroundings task.algorithm content task.object).size =
        task.object.size := by
    intro content
    obtain ⟨sha1sum, sha256sum, heq⟩ := @Change.withChecksum_eq surroundings task.algorithm content
      task.object
    rw [heq]
    exact ⟨rfl, rfl⟩
  unfold IsCorrect
  rw [(hfields _).1, (hfields _).2]
  apply exists_congr
  intro content
  apply and_congr_right
  intro hfile
  apply and_congr_right
  intro _
  have hbelong := hsums content hfile
  rw [hfile, Option.getD_some]
  unfold S3Service.withChecksum
  split_ifs with hsha1 hsha256 hmd5
  · refine ⟨fun _ hother => ?_, fun _ => ⟨hbelong.md5, .inr rfl, hbelong.sha256⟩⟩
    exact absurd (hsha1.symm.trans hother) (by decide)
  · refine ⟨fun _ hother => ?_, fun _ => ⟨hbelong.md5, hbelong.sha1, .inr rfl⟩⟩
    exact absurd (hsha256.symm.trans hother) (by decide)
  · exact ⟨fun hall _ => hall.sha256, fun hall => ⟨hbelong.md5, hbelong.sha1, hall hmd5⟩⟩
  · exact ⟨fun _ hother => absurd hother hmd5, fun _ => hbelong⟩

theorem satisfies_runTask (harchives : surroundings.repository.Archives selects stamp)
    (index : Nat) (world : World Storage) :
    (Write.runTask surroundings now index).Satisfies
      (fun other => Sound surroundings True other ∧ other = world)
      (fun _ => Sound surroundings (Heeds surroundings selects world (now, .createChecksums index)))
      (Sound surroundings (Heeds surroundings selects world (now, .createChecksums index))) := by
  rintro held world ⟨hsound, rfl⟩
  unfold Write.runTask Heeds
  rw [Action.run_bind, Call.run_readStore, Outcome.andThen_returns]
  cases htask : world.store.tasks[index]? with
  | none =>
    refine hsound.congr ⟨fun _ other hother => ?_, fun _ => trivial⟩
    rw [htask] at hother
    cases hother
  | some task =>
    have hmem : task ∈ world.store.tasks := List.mem_of_getElem? htask
    have herased : Sound surroundings True { world with
        store := { world.store with tasks := world.store.tasks.eraseIdx index } } :=
      ⟨⟨hsound.intact.plain, hsound.intact.names,
        fun other hother => hsound.intact.tasks other (List.mem_of_mem_eraseIdx hother),
        fun other hother => hsound.intact.sums other (List.mem_of_mem_eraseIdx hother)⟩,
        hsound.iff⟩
    obtain ⟨sha1sum, sha256sum, heq⟩ := @Change.withChecksum_eq surroundings task.algorithm
      ((world.store.files task.object.internalName).getD []) task.object
    have hupdated := @Sound.updateObject surroundings now selects stamp harchives _ herased
      (S3Service.withChecksum surroundings task.algorithm
        ((world.store.files task.object.internalName).getD []) task.object)
      (by rw [heq]; exact hsound.intact.tasks task hmem)
    refine hupdated.congr ?_
    have hplace : (world.store.database.records.objects.any fun entry =>
        selects task.object.region task.object.bucket task.object.key entry.2) =
        world.store.database.objects.entries.any fun entry =>
          selects task.object.region task.object.bucket task.object.key entry.2 := by
      change (world.store.database.objects.entries.map _).any _ = _
      rw [List.any_map]
      congr 1
      funext entry
      exact harchives.selects_withoutId _ _ _ entry.2
    have hfields : ∀ {place : Object → String}, (∀ object : Object, ∀ sha1sum sha256sum,
        place { object with sha1sum, sha256sum } = place object) →
        place (S3Service.withChecksum surroundings task.algorithm
          ((world.store.files task.object.internalName).getD []) task.object) =
          place task.object := by
      intro place hplace
      rw [heq]
      exact hplace _ _ _
    rw [@hfields Object.region fun _ _ _ => rfl, @hfields Object.bucket fun _ _ _ => rfl,
      @hfields Object.key fun _ _ _ => rfl]
    change ((world.store.database.records.objects.any fun entry =>
      selects task.object.region task.object.bucket task.object.key entry.2) = true → _) ↔ _
    rw [hplace, isCorrect_withChecksum (hsound.intact.sums task hmem)]
    constructor
    · intro hall other hother
      rw [htask] at hother
      cases hother
      exact hall
    · exact fun hall => hall task htask

end Calls

section Runs

variable {surroundings : Surroundings} {world : World Storage}
  {selects : String → String → String → Object → Bool} {stamp : Time → Time → Time}

theorem sound_step (harchives : surroundings.repository.Archives selects stamp)
    (event : Time × Write) (hsound : Sound surroundings True world) :
    Sound surroundings (Heeds surroundings selects world event)
      (Write.step surroundings world event) := by
  obtain ⟨now, write⟩ := event
  cases write with
  | putObject request stream =>
    exact (satisfies_putObject harchives request stream world).after ⟨hsound, rfl⟩
  | createChecksums index =>
    exact (satisfies_runTask harchives index world).after ⟨hsound, rfl⟩
  | copyObject request =>
    exact (keeps_copyObject harchives request).after hsound
  | moveObject request =>
    exact (keeps_moveObject harchives request).after hsound
  | completeMultipartUpload request =>
    exact (keeps_completeMultipartUpload harchives request).after hsound
  | updateObject request =>
    exact (keeps_updateObject harchives request).after hsound

theorem areCorrect_iff : AreCorrect surroundings world ↔
    ∀ entry ∈ world.store.database.records.objects,
      IsCorrect surroundings world.store.files entry.2 := by
  unfold AreCorrect Store.records
  rw [List.forall_mem_map]
  apply forall_congr'
  intro entry
  apply imp_congr_right
  intro _
  exact ⟨fun ⟨content, hfile, hsize, hmd5, hsha1, hsha256⟩ =>
      ⟨content, hfile, hsize, hmd5, hsha1, hsha256⟩,
    fun ⟨content, hfile, hsize, hmd5, hsha1, hsha256⟩ =>
      ⟨content, hfile, hsize, hmd5, hsha1, hsha256⟩⟩

theorem IsBlank.sound (hblank : IsBlank world) : Sound surroundings True world := by
  obtain ⟨hbuckets, hobjects, htasks⟩ := hblank
  have hrecords : world.store.database.records.objects = [] := by
    unfold Store.records
    rw [hobjects]
    rfl
  refine ⟨⟨?_, ?_, ?_, ?_⟩, fun _ => trivial, fun _ entry hmem => ?_⟩
  · intro entry hmem
    obtain ⟨other, hother, rfl⟩ := List.mem_map.mp hmem
    exact hbuckets other hother
  · intro entry hmem
    rw [hrecords] at hmem
    cases hmem
  · intro task hmem
    rw [htasks] at hmem
    cases hmem
  · intro task hmem
    rw [htasks] at hmem
    cases hmem
  · rw [hrecords] at hmem
    cases hmem

theorem always_areCorrect_iff (harchives : surroundings.repository.Archives selects stamp)
    (events : List (Time × Write)) (hblank : IsBlank world) :
    Runs.Always (Write.step surroundings) (AreCorrect surroundings) events world ↔
      Runs.Heeded (Write.step surroundings) (Heeds surroundings selects) events world := by
  have hsound : Sound surroundings True world := hblank.sound
  refine @Runs.always_iff_heeded_of_step _ _ _ (AreCorrect surroundings) (IsIntact surroundings)
    (Heeds surroundings selects) world ?_ events hsound.intact
    (areCorrect_iff.mpr (hsound.iff.mpr trivial))
  intro state event hintact hcorrect
  have hstep := sound_step harchives event ⟨hintact, fun _ => trivial,
    fun _ => areCorrect_iff.mp hcorrect⟩
  exact ⟨hstep.intact, areCorrect_iff.trans hstep.iff⟩

end Runs

abbrev Surroundings.over (surroundings : Surroundings) (repository : Repository) : Surroundings :=
  { surroundings with repository }

theorem isBlank_oneBucket : IsBlank oneBucket := ⟨by decide, rfl, rfl⟩

/-- Surroundings in which the content `TWFu` decodes to `Man`. -/
def Surroundings.decoding : Surroundings :=
  { Surroundings.plain memoryRepository with
    isBase64 := fun content => content = [84, 87, 70, 117]
    base64Decode := fun _ => [77, 97, 110] }

end AwsMock.S3
