import AwsMock.Foundation.Simulation
import AwsMock.S3.ServiceLaws

/-! # Encryption

What a client reads of an object that was encrypted. Nothing is stored of how a file was
encrypted: a file is decrypted by the current setting of its bucket. The service is compared
with one that encrypts nothing, over sequences of requests.
-/

namespace AwsMock.S3

open Foundation

def Surroundings.unencrypted (surroundings : Surroundings) : Surroundings :=
  { surroundings with cipher := fun _ => Equiv.refl Bytes }

def Bucket.setting (bucket : Bucket) : Option String :=
  if bucket.hasEncryption then some bucket.bucketEncryption.kmsKeyId else none

def Surroundings.seal (surroundings : Surroundings) : Option String → Bytes ≃ Bytes
  | none => Equiv.refl Bytes
  | some keyId => surroundings.cipher keyId

/-- The keys with which files have been encrypted. The service does not keep them. -/
abbrev Seals := String → Option String

/-- The call of `findObject`. -/
def foundObject (surroundings : Surroundings) (now : Time) (bucket : Bucket)
    (region name key versionId : String) : Store → Object × Store :=
  if bucket.isVersioned ∧ versionId ≠ "" then
    surroundings.repository.getObjectVersion now region name key versionId
  else surroundings.repository.getObject now region name key

inductive Request where
  | putBucketEncryption (region bucket sseAlgorithm kmsKeyId : String)
  | putObject (request : S3Service.PutObjectRequest) (stream : Bytes)
  | createMultipartUpload (request : S3Service.CreateMultipartUploadRequest)
  | uploadPart (stream : Bytes) (part : Nat) (uploadId : String) (length : Nat)
  | uploadPartCopy (request : S3Service.UploadPartCopyRequest)
  | completeMultipartUpload (request : S3Service.CompleteMultipartUploadRequest)
  | copyObject (request : S3Service.CopyObjectRequest)
  | uploadObjectCounter (request : S3Service.UploadObjectCounterRequest)
  | getObject (request : S3Service.GetObjectRequest)

inductive Reply where
  | done
  | upload (uploadId : String)
  | part (md5sum : String)
  | copied (content : Bytes)
  | object (response : S3Service.GetObjectResponse)
deriving DecidableEq, Repr

namespace Request

def call (surroundings : Surroundings) (now : Time) : Request → ServiceCall Reply
  | .putBucketEncryption region bucket sseAlgorithm kmsKeyId => do
      S3Service.putBucketEncryption surroundings now region bucket sseAlgorithm kmsKeyId
      return .done
  | .putObject request stream => do
      S3Service.putObject surroundings now request stream
      return .done
  | .createMultipartUpload request => do
      return .upload (← S3Service.createMultipartUpload surroundings now request)
  | .uploadPart stream part uploadId length => do
      return .part (← S3Service.uploadPart surroundings stream part uploadId length)
  | .uploadPartCopy request => do
      return .copied (← S3Service.uploadPartCopy surroundings now request)
  | .completeMultipartUpload request => do
      S3Service.completeMultipartUpload surroundings now request
      return .done
  | .copyObject request => do
      S3Service.copyObject surroundings now request
      return .done
  | .uploadObjectCounter request => do
      S3Service.uploadObjectCounter surroundings now request
      return .done
  | .getObject request => do
      return .object (← S3Service.getObject surroundings now request)

variable (surroundings : Surroundings) (now : Time) (world : World Storage)

def readsFile : Request → Option (String × Option String)
  | .getObject request =>
    let database := world.store.database
    let bucket := surroundings.repository.getBucketByRegionName now request.region
      request.bucket database
    let object := foundObject surroundings now bucket.1 request.region request.bucket request.key
      request.versionId bucket.2
    if surroundings.repository.bucketExists request.region request.bucket database = false ∨
        (request.key ≠ "" ∧ surroundings.repository.objectExists request.region request.bucket
          request.key database = false) ∨
        (bucket.1.isVersioned ∧ request.versionId ≠ "" ∧ object.1.oid = "") then none
    else some (object.1.internalName, bucket.1.setting)
  | .uploadPartCopy request =>
    let bucket := surroundings.repository.getBucketByRegionName now request.region
      request.sourceBucket world.store.database
    let source := foundObject surroundings now bucket.1 request.region request.sourceBucket
      request.sourceKey request.sourceVersionId bucket.2
    if source.1.oid = "" then none else some (source.1.internalName, none)
  | _ => none

/-- The file that is read for a reply was encrypted with the key it is decrypted with. -/
def isLegible (seals : Seals) (request : Request) : Bool :=
  match request.readsFile surroundings now world with
  | some (file, key) => (world.store.files file).isNone || seals file = key
  | none => true

def copySource (request : S3Service.CopyObjectRequest) : Option String :=
  let database := world.store.database
  let bucket := surroundings.repository.getBucketByRegionName now request.region
    request.sourceBucket database
  let source := foundObject surroundings now bucket.1 request.region request.sourceBucket
    request.sourceKey request.sourceVersionId bucket.2
  if surroundings.repository.bucketExists request.region request.sourceBucket database &&
      source.1.oid ≠ "" &&
      surroundings.repository.bucketExists request.region request.targetBucket source.2 &&
      (world.store.files source.1.internalName).isSome then
    some source.1.internalName
  else none

/-- The keys after a request: a new file is encrypted by the setting of its bucket when it
is put, as its source is when it is copied, and not at all when it is put together from
parts or uploaded by the user interface. -/
def sealsAfter (seals : Seals) : Request → Seals
  | .putObject request stream =>
    if surroundings.repository.bucketExists request.region request.bucket world.store.database &&
        (stream.take request.contentLength).length = request.contentLength then
      Function.update seals (surroundings.random.uuid world.draws)
        (surroundings.repository.getBucketByRegionName now request.region request.bucket
          world.store.database).1.setting
    else seals
  | .completeMultipartUpload request =>
    if (world.store.uploads request.uploadId).isSome then
      Function.update seals (surroundings.random.uuid world.draws) none
    else seals
  | .copyObject request =>
    match copySource surroundings now world request with
    | some file => Function.update seals (surroundings.random.uuid world.draws) (seals file)
    | none => seals
  | .uploadObjectCounter request =>
    if surroundings.repository.bucketArnExists request.bucketArn world.store.database then
      Function.update seals (surroundings.random.uuid world.draws) none
    else seals
  | _ => seals

end Request

/-- What a client gets for a request: a reply, or why there is none. -/
def replyOf : Outcome CoreException (World Storage) Reply → Except (Halt CoreException) Reply
  | .returns value _ => .ok value
  | .halts halt _ => .error halt

/-- What clients get for a sequence of requests, with the time of each. -/
def replies (surroundings : Surroundings) :
    List (Time × Request) → World Storage → List (Except (Halt CoreException) Reply)
  | [], _ => []
  | (now, request) :: requests, world =>
    let outcome := (request.call surroundings now).run [] world
    replyOf outcome :: replies surroundings requests outcome.after

/-- Every file that is read in a sequence was encrypted with the key it is decrypted with. -/
def areLegible (surroundings : Surroundings) :
    Seals → List (Time × Request) → World Storage → Bool
  | _, [], _ => true
  | seals, (now, request) :: requests, world =>
    request.isLegible surroundings now world seals &&
      areLegible surroundings (request.sealsAfter surroundings now world seals) requests
        ((request.call surroundings now).run [] world).after

/-- Clients get what they would get if nothing were encrypted. -/
def IsTransparent (surroundings : Surroundings) (requests : List (Time × Request))
    (world : World Storage) : Prop :=
  replies surroundings requests world = replies surroundings.unencrypted requests world

/-- A world as two services share it, one of which encrypts nothing. -/
structure Shared where
  database : Store
  draws : Nat
  uploads : String → Option (List (String × Bytes))
  /-- The files of the service that encrypts. -/
  files : String → Option Bytes

def unsealed (surroundings : Surroundings) (seals : Seals) (files : String → Option Bytes) :
    String → Option Bytes :=
  fun name => (files name).map (surroundings.seal (seals name)).symm

structure Twin (surroundings : Surroundings) (seals : Seals) (shared : Shared)
    (sealed plain : World Storage) : Prop where
  sealed_database : sealed.store.database = shared.database
  plain_database : plain.store.database = shared.database
  sealed_draws : sealed.draws = shared.draws
  plain_draws : plain.draws = shared.draws
  sealed_uploads : sealed.store.uploads = shared.uploads
  plain_uploads : plain.store.uploads = shared.uploads
  sealed_files : sealed.store.files = shared.files
  plain_files : plain.store.files = unsealed surroundings seals shared.files

/-- Two worlds of which one has its files encrypted with some keys. -/
def Sealed (surroundings : Surroundings) (seals : Seals) (sealed plain : World Storage) : Prop :=
  ∃ shared, Twin surroundings seals shared sealed plain

namespace Twin

open ServiceCall

variable {surroundings : Surroundings} {seals : Seals} {shared : Shared}

theorem yields_query {α : Type} (read : Store → α) :
    Action.Yields (Twin surroundings seals shared) (query read) (query read)
      (read shared.database) (read shared.database) (Twin surroundings seals shared) := by
  intro halted held sealed plain htwin
  exact ⟨⟨congrArg read htwin.sealed_database, congrArg read htwin.plain_database⟩, htwin⟩

theorem yields_perform {α : Type} (call : Store → α × Store) :
    Action.Yields (Twin surroundings seals shared) (perform call) (perform call)
      (call shared.database).1 (call shared.database).1
      (Twin surroundings seals { shared with database := (call shared.database).2 }) := by
  intro halted held sealed plain htwin
  have hsealed := congrArg call htwin.sealed_database
  have hplain := congrArg call htwin.plain_database
  exact ⟨⟨congrArg Prod.fst hsealed, congrArg Prod.fst hplain⟩,
    { htwin with
      sealed_database := congrArg Prod.snd hsealed
      plain_database := congrArg Prod.snd hplain }⟩

theorem yields_draw :
    Action.Yields (Twin surroundings seals shared) (Call.draw : ServiceCall Nat) Call.draw
      shared.draws shared.draws
      (Twin surroundings seals { shared with draws := shared.draws + 1 }) := by
  intro halted held sealed plain htwin
  exact ⟨⟨htwin.sealed_draws, htwin.plain_draws⟩,
    { htwin with
      sealed_draws := congrArg (· + 1) htwin.sealed_draws
      plain_draws := congrArg (· + 1) htwin.plain_draws }⟩

theorem yields_execute (write : Store → Store) :
    Action.Yields (Twin surroundings seals shared) (execute write) (execute write) () ()
      (Twin surroundings seals { shared with database := write shared.database }) := by
  intro halted held sealed plain htwin
  exact ⟨⟨rfl, rfl⟩,
    { htwin with
      sealed_database := congrArg write htwin.sealed_database
      plain_database := congrArg write htwin.plain_database }⟩

theorem yields_readUpload (uploadId : String) :
    Action.Yields (Twin surroundings seals shared)
      (Call.readStore fun storage => storage.uploads uploadId : ServiceCall _)
      (Call.readStore fun storage => storage.uploads uploadId)
      (shared.uploads uploadId) (shared.uploads uploadId) (Twin surroundings seals shared) := by
  intro halted held sealed plain htwin
  exact ⟨⟨congrFun htwin.sealed_uploads uploadId, congrFun htwin.plain_uploads uploadId⟩, htwin⟩

theorem yields_writeUpload (uploadId : String) (parts : Option (List (String × Bytes))) :
    Action.Yields (Twin surroundings seals shared) (writeUpload uploadId parts)
      (writeUpload uploadId parts) () ()
      (Twin surroundings seals
        { shared with uploads := Function.update shared.uploads uploadId parts }) := by
  intro halted held sealed plain htwin
  exact ⟨⟨rfl, rfl⟩,
    { htwin with
      sealed_uploads := congrArg (Function.update · uploadId parts) htwin.sealed_uploads
      plain_uploads := congrArg (Function.update · uploadId parts) htwin.plain_uploads }⟩

theorem yields_calculateHashes (algorithm : String) (object : Object) :
    Action.Yields (Twin surroundings seals shared) (calculateHashes algorithm object)
      (calculateHashes algorithm object) () () (Twin surroundings seals shared) := by
  intro halted
  apply Action.Agrees.ite
  · intro _ held sealed plain htwin
    exact ⟨⟨rfl, rfl⟩, { htwin with }⟩
  · exact fun _ => Action.agrees_pure fun _ _ htwin => ⟨⟨rfl, rfl⟩, htwin⟩

variable (name : String)

theorem yields_readFile :
    Action.Yields (Twin surroundings seals shared) (readFile name) (readFile name)
      (shared.files name) (unsealed surroundings seals shared.files name)
      (Twin surroundings seals shared) := by
  intro halted held sealed plain htwin
  exact ⟨⟨congrFun htwin.sealed_files name, congrFun htwin.plain_files name⟩, htwin⟩

theorem unsealed_update (key : Option String) (content : Option Bytes)
    (files : String → Option Bytes) :
    unsealed surroundings (Function.update seals name key) (Function.update files name content) =
      Function.update (unsealed surroundings seals files) name
        (content.map (surroundings.seal key).symm) := by
  funext other
  unfold unsealed
  by_cases hname : other = name
  · subst hname
    rw [Function.update_self, Function.update_self, Function.update_self]
  · rw [Function.update_of_ne hname, Function.update_of_ne hname, Function.update_of_ne hname]

theorem yields_writeFile (key : Option String) (content : Option Bytes) :
    Action.Yields (Twin surroundings seals shared) (writeFile name content)
      (writeFile name (content.map (surroundings.seal key).symm)) () ()
      (Twin surroundings (Function.update seals name key)
        { shared with files := Function.update shared.files name content }) := by
  intro halted held sealed plain htwin
  refine ⟨⟨rfl, rfl⟩, { htwin with sealed_files := ?_, plain_files := ?_ }⟩
  · exact congrArg (Function.update · name content) htwin.sealed_files
  · rw [unsealed_update, ← htwin.plain_files]

end Twin

namespace Sealed

open ServiceCall

variable {surroundings : Surroundings} {seals : Seals} {now : Time}

theorem agrees_of_twin {α : Type} {call call' : ServiceCall α}
    {post : α → α → World Storage → World Storage → Prop}
    {halted : World Storage → World Storage → Prop}
    (hcall : ∀ shared, Action.Agrees (Twin surroundings seals shared) call call' post halted) :
    Action.Agrees (Sealed surroundings seals) call call' post halted := by
  rintro held sealed plain ⟨shared, htwin⟩
  exact hcall shared held sealed plain htwin

theorem agrees_send (delivery : Delivery) :
    Action.Agrees (Sealed surroundings seals) (S3Service.send surroundings delivery)
      (S3Service.send surroundings delivery) (fun _ _ => Sealed surroundings seals)
      (Sealed surroundings seals) := by
  rintro held sealed plain ⟨shared, htwin⟩
  unfold S3Service.send
  rw [Action.run_bind, Action.run_bind]
  cases surroundings.deliver delivery with
  | ok value => exact ⟨shared, { htwin with }⟩
  | error exn => exact ⟨rfl, shared, { htwin with }⟩

theorem agrees_checkNotifications (region bucket key : String) (size : Int)
    (etag versionId event : String) :
    Action.Agrees (Sealed surroundings seals)
      (S3Service.checkNotifications surroundings now region bucket key size etag versionId event)
      (S3Service.checkNotifications surroundings now region bucket key size etag versionId event)
      (fun _ _ => Sealed surroundings seals) (Sealed surroundings seals) := by
  apply agrees_of_twin
  intro shared
  apply (Twin.yields_perform _).bind
  intro held sealed plain htwin
  refine (?_ : Action.Agrees (Sealed surroundings seals) _ _ _ _) held sealed plain ⟨_, htwin⟩
  apply Action.Agrees.bind (Action.agrees_forM _ ?_) fun _ _ =>
    Action.Agrees.bind (Action.agrees_forM _ ?_) fun _ _ => Action.agrees_forM _ ?_
  · intro notification _
    exact Action.Agrees.ite (fun _ => agrees_send _) fun _ => Action.agrees_pure fun _ _ => id
  · intro notification _
    exact Action.Agrees.ite (fun _ => agrees_send _) fun _ => Action.agrees_pure fun _ _ => id
  · intro notification _
    apply Action.Agrees.ite
    · intro _
      unfold S3Service.sendLambdaInvocationRequest
      split
      next => exact agrees_send _
      next => exact Action.agrees_pure fun _ _ => id
    · exact fun _ => Action.agrees_pure fun _ _ => id

end Sealed

structure Repository.ReturnsFile (repository : Repository) : Prop where
  createObject : ∀ oid object store,
    (repository.createObject oid object store).1.internalName = object.internalName
  createOrUpdateObject : ∀ now oid object store,
    (repository.createOrUpdateObject now oid object store).1.internalName = object.internalName

theorem returnsFile_memory : memoryRepository.ReturnsFile where
  createObject _ _ _ := rfl
  createOrUpdateObject now oid object store := by
    unfold Repository.createOrUpdateObject
    split
    next hexists =>
      change (MemoryRepository.updateObject now object store).1.internalName = _
      unfold MemoryRepository.updateObject
      split
      next => rfl
      next hnone =>
        obtain ⟨entry, hfound⟩ := Option.isSome_iff_exists.mp hexists
        have hmem := List.mem_of_find?_eq_some hfound
        have hat := List.find?_some hfound
        have hnot := List.find?_eq_none.mp hnone entry hmem
        obtain ⟨_, hbucket, hkey⟩ := place_of_isAt hat
        simp [hbucket, hkey] at hnot
    next => rfl

theorem returnsFile_mongo : mongoRepository.ReturnsFile where
  createObject _ _ _ := rfl
  createOrUpdateObject now oid object store := by
    unfold Repository.createOrUpdateObject
    split
    next hexists =>
      change (MongoRepository.updateObject now object store).1.internalName = _
      unfold MongoRepository.updateObject
      dsimp only
      split
      next => rfl
      next hnone =>
        obtain ⟨entry, hfound⟩ := Option.isSome_iff_exists.mp hexists
        exact absurd (List.find?_some hfound)
          (List.find?_eq_none.mp hnone entry (List.mem_of_find?_eq_some hfound))
    next => rfl

/-- Equal values in worlds whose files are encrypted with some keys. -/
def Alike {α : Type} (surroundings : Surroundings) (seals : Seals) (value value' : α)
    (sealed plain : World Storage) : Prop :=
  value = value' ∧ Sealed surroundings seals sealed plain

section Calls

open ServiceCall

variable {surroundings : Surroundings} {seals seals' : Seals} {now : Time} {shared : Shared}

variable {halted : World Storage → World Storage → Prop} {seals' : Seals}
variable {files : String → Option Bytes} {file : String}

theorem agrees_checkBucketExistence {α : Type} {region name : String} {next next' : ServiceCall α}
    {post : α → α → World Storage → World Storage → Prop}
    (hnext : surroundings.repository.bucketExists region name shared.database = true →
      Action.Agrees (Twin surroundings seals shared) next next' post halted)
    (hhalted : surroundings.repository.bucketExists region name shared.database = false →
      ∀ sealed plain, Twin surroundings seals shared sealed plain → halted sealed plain) :
    Action.Agrees (Twin surroundings seals shared)
      (S3Service.checkBucketExistence surroundings region name >>= fun _ => next)
      (S3Service.checkBucketExistence surroundings region name >>= fun _ => next') post halted := by
  intro held sealed plain htwin
  have hsealed := congrArg (surroundings.repository.bucketExists region name) htwin.sealed_database
  have hplain := congrArg (surroundings.repository.bucketExists region name) htwin.plain_database
  unfold S3Service.checkBucketExistence
  rw [Action.run_bind, Action.run_bind, Action.run_bind, Action.run_bind]
  change Outcome.Agrees _ _
    ((Action.run (if surroundings.repository.bucketExists region name sealed.store.database
      then _ else _) held sealed).andThen _)
    ((Action.run (if surroundings.repository.bucketExists region name plain.store.database
      then _ else _) held plain).andThen _)
  rw [hsealed, hplain]
  cases hexists : surroundings.repository.bucketExists region name shared.database with
  | true => exact hnext hexists held sealed plain htwin
  | false => exact ⟨rfl, hhalted hexists sealed plain htwin⟩

theorem yields_checkEncryption {bucket : Bucket} {object : Object}
    (hfile : object.internalName = file) :
    Action.Yields (Twin surroundings (Function.update seals file none) shared)
      (S3Service.checkEncryption surroundings bucket object)
      (S3Service.checkEncryption surroundings.unencrypted bucket object) () ()
      (Sealed surroundings (Function.update seals file bucket.setting)) := by
  subst hfile
  intro halted
  unfold S3Service.checkEncryption
  cases hencryption : bucket.hasEncryption with
  | true =>
    have hsetting : bucket.setting = some bucket.bucketEncryption.kmsKeyId := if_pos hencryption
    rw [if_pos rfl, if_pos rfl, hsetting]
    apply (Twin.yields_readFile object.internalName).bind
    have hplain : (unsealed surroundings (Function.update seals object.internalName none)
          shared.files object.internalName).map
            (surroundings.unencrypted.cipher bucket.bucketEncryption.kmsKeyId) =
        ((shared.files object.internalName).map
          (surroundings.cipher bucket.bucketEncryption.kmsKeyId)).map
            (surroundings.seal (some bucket.bucketEncryption.kmsKeyId)).symm := by
      unfold unsealed
      rw [Function.update_self]
      cases shared.files object.internalName with
      | none => rfl
      | some content =>
        exact congrArg some (Equiv.symm_apply_apply (surroundings.cipher _) content).symm
    rw [hplain]
    apply (Twin.yields_writeFile _ _ _).agrees
    intro sealed plain htwin
    rw [Function.update_idem] at htwin
    exact ⟨⟨rfl, rfl⟩, _, htwin⟩
  | false =>
    have hsetting : bucket.setting = none := if_neg (ne_true_of_eq_false hencryption)
    rw [if_neg Bool.false_ne_true, if_neg Bool.false_ne_true, hsetting]
    exact Action.agrees_pure fun _ _ htwin => ⟨⟨rfl, rfl⟩, shared, htwin⟩

def Shared.of (world : World Storage) : Shared where
  database := world.store.database
  draws := world.draws
  uploads := world.store.uploads
  files := world.store.files

theorem agrees_checkNotifications_done {region bucket key : String} {size : Int}
    {etag versionId event : String} :
    Action.Agrees (Sealed surroundings seals)
      (S3Service.checkNotifications surroundings now region bucket key size etag versionId event)
      (S3Service.checkNotifications surroundings.unencrypted now region bucket key size etag
        versionId event)
      (Alike surroundings seals) (Sealed surroundings seals) :=
  (Sealed.agrees_checkNotifications region bucket key size etag versionId event).imp
    (fun _ _ _ _ hsealed => ⟨rfl, hsealed⟩) fun _ _ => id

theorem agrees_putBucketEncryption (region bucket sseAlgorithm kmsKeyId : String) :
    Action.Agrees (Twin surroundings seals shared)
      (S3Service.putBucketEncryption surroundings now region bucket sseAlgorithm kmsKeyId)
      (S3Service.putBucketEncryption surroundings.unencrypted now region bucket sseAlgorithm
        kmsKeyId)
      (Alike surroundings seals) (Sealed surroundings seals) := by
  apply agrees_checkBucketExistence
  · intro _
    apply (Twin.yields_perform _).bind
    apply (Twin.yields_query _).bind
    split
    next updated _ =>
      apply (Twin.yields_execute _).agrees
      exact fun _ _ htwin => ⟨rfl, _, htwin⟩
    next => exact Action.agrees_undefinedBehaviour fun _ _ htwin => ⟨_, htwin⟩
  · exact fun _ _ _ htwin => ⟨_, htwin⟩

theorem agrees_saveObject (hreturns : surroundings.repository.ReturnsFile)
    (request : S3Service.PutObjectRequest) (bucket : Bucket) (stream : Bytes) :
    Action.Agrees (Twin surroundings seals shared)
      (S3Service.saveObject surroundings now request bucket stream)
      (S3Service.saveObject surroundings.unencrypted now request bucket stream)
      (Alike surroundings
        (if (stream.take request.contentLength).length = request.contentLength then
          Function.update seals (surroundings.random.uuid shared.draws) bucket.setting
        else seals))
      (Sealed surroundings
        (if (stream.take request.contentLength).length = request.contentLength then
          Function.update seals (surroundings.random.uuid shared.draws) bucket.setting
        else seals)) := by
  unfold S3Service.saveObject
  apply Twin.yields_draw.bind
  apply Action.Agrees.ite
  · intro hlength
    rw [if_neg hlength]
    exact Action.agrees_raise fun _ _ htwin => ⟨_, htwin⟩
  · intro hlength
    rw [if_pos (not_not.mp hlength)]
    apply (Twin.yields_writeFile _ none _).bind
    apply Action.Agrees.ite
    · intro _
      apply (Twin.yields_perform _).bind
      apply Action.Agrees.ite
      · intro _
        apply (Twin.yields_writeFile _ bucket.setting none).agrees
        intro sealed plain htwin
        rw [Function.update_idem] at htwin
        exact ⟨rfl, _, htwin⟩
      · intro _
        apply Twin.yields_draw.bind
        apply (Twin.yields_calculateHashes _ _).bind
        apply Twin.yields_draw.bind
        apply (Twin.yields_perform _).bind
        apply Action.Yields.bind (yields_checkEncryption ?_) agrees_checkNotifications_done
        exact hreturns.createObject _ _ _
    · intro _
      apply (Twin.yields_writeFile _ none _).bind
      rw [Function.update_idem]
      apply Twin.yields_draw.bind
      apply (Twin.yields_perform _).bind
      apply Action.Yields.bind (yields_checkEncryption ?_) agrees_checkNotifications_done
      exact hreturns.createOrUpdateObject _ _ _ _

theorem agrees_putObject (hreturns : surroundings.repository.ReturnsFile)
    (request : S3Service.PutObjectRequest) (stream : Bytes) (world : World Storage)
    (hseals : (Request.putObject request stream).sealsAfter surroundings now world seals = seals') :
    Action.Agrees (Twin surroundings seals (.of world))
      (S3Service.putObject surroundings now request stream)
      (S3Service.putObject surroundings.unencrypted now request stream)
      (Alike surroundings seals') (Sealed surroundings seals') := by
  unfold Request.sealsAfter at hseals
  apply agrees_checkBucketExistence
  · intro hbucket
    apply Action.Agrees.rethrow
    apply (Twin.yields_perform _).bind
    have hsave := @agrees_saveObject surroundings seals now
      { Shared.of world with
        database := (surroundings.repository.getBucketByRegionName now request.region
          request.bucket world.store.database).2 } hreturns request
      (surroundings.repository.getBucketByRegionName now request.region request.bucket
        world.store.database).1 stream
    change surroundings.repository.bucketExists _ _ world.store.database = true at hbucket
    simp only [hbucket, Bool.true_and, decide_eq_true_iff] at hseals
    rw [← hseals]
    exact hsave
  · intro hbucket sealed plain htwin
    change surroundings.repository.bucketExists _ _ world.store.database = false at hbucket
    simp only [hbucket, Bool.false_and, Bool.false_eq_true, if_false] at hseals
    exact ⟨_, hseals ▸ htwin⟩

theorem agrees_completeMultipartUpload (request : S3Service.CompleteMultipartUploadRequest)
    (world : World Storage)
    (hseals : (Request.completeMultipartUpload request).sealsAfter surroundings now world seals =
      seals') :
    Action.Agrees (Twin surroundings seals (.of world))
      (S3Service.completeMultipartUpload surroundings now request)
      (S3Service.completeMultipartUpload surroundings.unencrypted now request)
      (Alike surroundings seals') (Sealed surroundings seals') := by
  change (if ((Shared.of world).uploads request.uploadId).isSome then _ else _) = _ at hseals
  apply (Twin.yields_perform _).bind
  apply (Twin.yields_readUpload _).bind
  cases hparts : (Shared.of world).uploads request.uploadId with
  | none =>
    rw [hparts, Option.isSome_none, if_neg Bool.false_ne_true] at hseals
    exact Action.agrees_pure fun _ _ htwin => ⟨rfl, _, hseals ▸ htwin⟩
  | some parts =>
    rw [hparts, Option.isSome_some, if_pos rfl] at hseals
    rw [← hseals]
    apply Twin.yields_draw.bind
    apply (Twin.yields_writeFile _ none _).bind
    apply (Twin.yields_perform _).bind
    apply (Twin.yields_calculateHashes _ _).bind
    apply (Twin.yields_writeUpload _ _).bind
    intro held sealed plain htwin
    exact agrees_checkNotifications_done held sealed plain ⟨_, htwin⟩

theorem agrees_uploadObjectCounter (request : S3Service.UploadObjectCounterRequest)
    (world : World Storage)
    (hseals : (Request.uploadObjectCounter request).sealsAfter surroundings now world seals =
      seals') :
    Action.Agrees (Twin surroundings seals (.of world))
      (S3Service.uploadObjectCounter surroundings now request)
      (S3Service.uploadObjectCounter surroundings.unencrypted now request)
      (Alike surroundings seals') (Sealed surroundings seals') := by
  change (if surroundings.repository.bucketArnExists request.bucketArn world.store.database = true
    then _ else _) = _ at hseals
  apply (Twin.yields_query _).bind
  apply Action.Agrees.ite
  · intro hbucket
    rw [← (if_pos hbucket).symm.trans hseals]
    apply Twin.yields_draw.bind
    apply (Twin.yields_writeFile _ none _).bind
    apply Twin.yields_draw.bind
    apply (Twin.yields_perform _).bind
    intro held sealed plain htwin
    exact agrees_checkNotifications_done held sealed plain ⟨_, htwin⟩
  · intro hbucket
    rw [← (if_neg hbucket).symm.trans hseals]
    exact Action.agrees_raise fun _ _ htwin => ⟨_, htwin⟩

theorem agrees_createMultipartUpload (request : S3Service.CreateMultipartUploadRequest) :
    Action.Agrees (Twin surroundings seals shared)
      (S3Service.createMultipartUpload surroundings now request)
      (S3Service.createMultipartUpload surroundings.unencrypted now request)
      (Alike surroundings seals) (Sealed surroundings seals) := by
  apply agrees_checkBucketExistence
  · intro _
    apply Twin.yields_draw.bind
    apply (Twin.yields_writeUpload _ _).bind
    apply (Twin.yields_perform _).bind
    apply Twin.yields_draw.bind
    apply (Twin.yields_perform _).bind
    exact Action.agrees_pure fun _ _ htwin => ⟨rfl, _, htwin⟩
  · exact fun _ _ _ htwin => ⟨_, htwin⟩

theorem agrees_savePart (uploadId : String) (part : Nat) (content : Bytes) (length : Nat) :
    Action.Agrees (Twin surroundings seals shared) (S3Service.savePart uploadId part content length)
      (S3Service.savePart uploadId part content length)
      (fun _ _ => Sealed surroundings seals) halted := by
  apply (Twin.yields_readUpload _).bind
  split
  next => exact Action.agrees_pure fun _ _ htwin => ⟨_, htwin⟩
  next parts _ =>
    apply Action.Agrees.ite
    · exact fun _ => (Twin.yields_writeUpload _ _).agrees fun _ _ htwin => ⟨_, htwin⟩
    · exact fun _ => (Twin.yields_writeUpload _ _).agrees fun _ _ htwin => ⟨_, htwin⟩

theorem agrees_uploadPart (stream : Bytes) (part : Nat) (uploadId : String) (length : Nat) :
    Action.Agrees (Twin surroundings seals shared)
      (S3Service.uploadPart surroundings stream part uploadId length)
      (S3Service.uploadPart surroundings.unencrypted stream part uploadId length)
      (Alike surroundings seals) (Sealed surroundings seals) := by
  apply Action.Agrees.bind (agrees_savePart _ _ _ _)
  intro _ _
  apply Action.Agrees.ite
  · exact fun _ => Action.agrees_raise fun _ _ => id
  · exact fun _ => Action.agrees_pure fun _ _ hsealed => ⟨rfl, hsealed⟩

theorem findObject_eq (surroundings : Surroundings) (now : Time) (bucket : Bucket)
    (region name key versionId : String) :
    S3Service.findObject surroundings now bucket region name key versionId =
      perform (foundObject surroundings now bucket region name key versionId) := by
  unfold S3Service.findObject foundObject
  split <;> rfl

theorem unsealed_of_legible {key : Option String}
    (hlegible : ((files file).isNone || seals file = key) = true) :
    unsealed surroundings seals files file = (files file).map (surroundings.seal key).symm := by
  unfold unsealed
  cases hfile : files file with
  | none => rfl
  | some content =>
    rw [hfile, Option.isNone_some, Bool.false_or, decide_eq_true_iff] at hlegible
    rw [hlegible]

theorem unsealed_of_unencrypted (hlegible : ((files file).isNone || seals file = none) = true) :
    unsealed surroundings seals files file = files file := by
  rw [unsealed_of_legible hlegible]
  cases files file with
  | none => rfl
  | some content => rfl

theorem agrees_readFile {α : Type} {name : String} {next next' : Option Bytes → ServiceCall α}
    {post : α → α → World Storage → World Storage → Prop}
    (hnone : shared.files name = none →
      Action.Agrees (Twin surroundings seals shared) (next none) (next' none) post halted)
    (hsome : ∀ content, shared.files name = some content →
      Action.Agrees (Twin surroundings seals shared) (next (some content))
        (next' (some ((surroundings.seal (seals name)).symm content))) post halted) :
    Action.Agrees (Twin surroundings seals shared) (readFile name >>= next)
      (readFile name >>= next') post halted := by
  apply (Twin.yields_readFile name).bind
  unfold unsealed
  cases hfile : shared.files name with
  | none => exact hnone hfile
  | some content => exact hsome content hfile

theorem yields_readFile_unencrypted {name : String}
    (hlegible : ((shared.files name).isNone || seals name = none) = true) :
    Action.Yields (Twin surroundings seals shared) (readFile name) (readFile name)
      (shared.files name) (shared.files name) (Twin surroundings seals shared) := by
  intro halted
  have hread := @Twin.yields_readFile surroundings seals shared name halted
  rw [unsealed_of_unencrypted hlegible] at hread
  exact hread

theorem yields_checkDecryption {bucket : Bucket} {object : Object}
    (hlegible : ((shared.files object.internalName).isNone ||
      seals object.internalName = bucket.setting) = true) :
    Action.Yields (Twin surroundings seals shared)
      (S3Service.checkDecryption surroundings bucket object)
      (S3Service.checkDecryption surroundings.unencrypted bucket object)
      ((shared.files object.internalName).map (surroundings.seal bucket.setting).symm)
      ((shared.files object.internalName).map (surroundings.seal bucket.setting).symm)
      (Twin surroundings seals shared) := by
  intro halted
  apply (Twin.yields_readFile _).bind
  rw [unsealed_of_legible hlegible]
  cases hencryption : bucket.hasEncryption with
  | true =>
    have hsetting : bucket.setting = some bucket.bucketEncryption.kmsKeyId := if_pos hencryption
    rw [if_pos rfl, if_pos rfl, hsetting]
    apply Action.agrees_pure
    intro sealed plain htwin
    refine ⟨⟨rfl, ?_⟩, htwin⟩
    cases shared.files object.internalName with
    | none => rfl
    | some content => rfl
  | false =>
    have hsetting : bucket.setting = none := if_neg (ne_true_of_eq_false hencryption)
    rw [if_neg Bool.false_ne_true, if_neg Bool.false_ne_true, hsetting]
    apply Action.agrees_pure
    intro sealed plain htwin
    refine ⟨⟨?_, rfl⟩, htwin⟩
    cases shared.files object.internalName with
    | none => rfl
    | some content => rfl

theorem agrees_uploadPartCopy (request : S3Service.UploadPartCopyRequest) (world : World Storage)
    (hlegible : (Request.uploadPartCopy request).isLegible surroundings now world seals = true) :
    Action.Agrees (Twin surroundings seals (.of world))
      (S3Service.uploadPartCopy surroundings now request)
      (S3Service.uploadPartCopy surroundings.unencrypted now request)
      (Alike surroundings seals) (Sealed surroundings seals) := by
  unfold S3Service.uploadPartCopy
  apply (Twin.yields_perform _).bind
  rw [findObject_eq, findObject_eq]
  apply (Twin.yields_perform _).bind
  apply Action.Agrees.ite
  · exact fun _ => Action.agrees_raise fun _ _ htwin => ⟨_, htwin⟩
  · intro hoid
    have hreads : (Request.uploadPartCopy request).readsFile surroundings now world = some _ :=
      if_neg hoid
    unfold Request.isLegible at hlegible
    rw [hreads] at hlegible
    apply (yields_readFile_unencrypted hlegible).bind
    apply Action.Agrees.bind (agrees_savePart _ _ _ _)
    intro _ _
    apply Action.Agrees.ite
    · exact fun _ => Action.agrees_raise fun _ _ => id
    · exact fun _ => Action.agrees_pure fun _ _ hsealed => ⟨rfl, hsealed⟩

theorem agrees_getObject (request : S3Service.GetObjectRequest) (world : World Storage)
    (hlegible : (Request.getObject request).isLegible surroundings now world seals = true) :
    Action.Agrees (Twin surroundings seals (.of world))
      (S3Service.getObject surroundings now request)
      (S3Service.getObject surroundings.unencrypted now request)
      (Alike surroundings seals) (Sealed surroundings seals) := by
  apply agrees_checkBucketExistence
  · intro hbucket
    apply (Twin.yields_query _).bind
    apply Action.Agrees.ite
    · exact fun _ => Action.agrees_raise fun _ _ htwin => ⟨_, htwin⟩
    · intro hkey
      apply (Twin.yields_perform _).bind
      rw [findObject_eq, findObject_eq]
      apply (Twin.yields_perform _).bind
      apply Action.Agrees.ite
      · exact fun _ => Action.agrees_raise fun _ _ htwin => ⟨_, htwin⟩
      · intro hversion
        have hreads : (Request.getObject request).readsFile surroundings now world = some _ :=
          if_neg (by
            rintro (hmissing | hmissing | hmissing)
            · exact Bool.false_ne_true (hmissing.symm.trans hbucket)
            · exact hkey ⟨hmissing.1, congrArg not hmissing.2⟩
            · exact hversion hmissing)
        unfold Request.isLegible at hlegible
        rw [hreads] at hlegible
        apply (yields_checkDecryption hlegible).bind
        exact Action.agrees_pure fun _ _ htwin => ⟨rfl, _, htwin⟩
  · exact fun _ _ _ htwin => ⟨_, htwin⟩

theorem agrees_copyObject (request : S3Service.CopyObjectRequest) (world : World Storage)
    (hseals : (Request.copyObject request).sealsAfter surroundings now world seals = seals') :
    Action.Agrees (Twin surroundings seals (.of world))
      (S3Service.copyObject surroundings now request)
      (S3Service.copyObject surroundings.unencrypted now request)
      (Alike surroundings seals') (Sealed surroundings seals') := by
  have hskip : Request.copySource surroundings now world request = none → seals = seals' := by
    intro hnone
    unfold Request.sealsAfter at hseals
    simp only [hnone] at hseals
    exact hseals
  apply agrees_checkBucketExistence
  · intro hbucket
    apply (Twin.yields_perform _).bind
    rw [findObject_eq, findObject_eq]
    apply (Twin.yields_perform _).bind
    apply Action.Agrees.ite
    · intro hoid
      have hnone : Request.copySource surroundings now world request = none := by
        apply if_neg
        rw [Bool.and_eq_true, Bool.and_eq_true, Bool.and_eq_true, decide_eq_true_iff]
        exact fun hall => hall.1.1.2 hoid
      exact Action.agrees_raise fun _ _ htwin => ⟨_, hskip hnone ▸ htwin⟩
    · intro hoid
      apply (Twin.yields_query _).bind
      apply Action.Agrees.ite
      · intro htarget
        have hnone : Request.copySource surroundings now world request = none := by
          apply if_neg
          rw [Bool.and_eq_true, Bool.and_eq_true]
          exact fun hall => Bool.false_ne_true ((congrArg not hall.1.2).symm.trans htarget)
        exact Action.agrees_raise fun _ _ htwin => ⟨_, hskip hnone ▸ htwin⟩
      · intro htarget
        apply (Twin.yields_perform _).bind
        apply Twin.yields_draw.bind
        apply agrees_readFile
        · intro hfile
          have hnone : Request.copySource surroundings now world request = none := by
            apply if_neg
            rw [Bool.and_eq_true]
            exact fun hall => Bool.false_ne_true ((congrArg Option.isSome hfile).symm.trans hall.2)
          exact Action.agrees_raise fun _ _ htwin => ⟨_, hskip hnone ▸ htwin⟩
        · intro content hfile
          have hsource : Request.copySource surroundings now world request = some _ :=
            if_pos (by
              rw [Bool.and_eq_true, Bool.and_eq_true, Bool.and_eq_true, decide_eq_true_iff]
              exact ⟨⟨⟨hbucket, hoid⟩, @Bool.not_inj _ true (eq_false_of_ne_true htarget)⟩,
                congrArg Option.isSome hfile⟩)
          unfold Request.sealsAfter at hseals
          simp only [hsource] at hseals
          rw [← hseals]
          apply (Twin.yields_writeFile _ _ (some content)).bind
          apply Twin.yields_draw.bind
          apply Twin.yields_draw.bind
          apply (Twin.yields_perform _).bind
          intro held sealed plain htwin
          exact agrees_checkNotifications_done held sealed plain ⟨_, htwin⟩
  · intro hbucket sealed plain htwin
    have hnone : Request.copySource surroundings now world request = none := by
      apply if_neg
      rw [Bool.and_eq_true, Bool.and_eq_true, Bool.and_eq_true]
      exact fun hall => Bool.false_ne_true (hbucket.symm.trans hall.1.1.1)
    exact ⟨_, hskip hnone ▸ htwin⟩

theorem agrees_reply {α : Type} {call call' : ServiceCall α}
    (hcall : Action.Agrees (Twin surroundings seals shared) call call'
      (Alike surroundings seals') (Sealed surroundings seals')) (reply : α → Reply) :
    Action.Agrees (Twin surroundings seals shared) (do return reply (← call))
      (do return reply (← call')) (Alike surroundings seals') (Sealed surroundings seals') := by
  apply Action.Agrees.bind hcall
  intro value value'
  exact Action.agrees_pure fun _ _ halike => ⟨congrArg reply halike.1, halike.2⟩

theorem agrees_call (hreturns : surroundings.repository.ReturnsFile) (request : Request)
    (world : World Storage)
    (hlegible : request.isLegible surroundings now world seals = true) :
    Action.Agrees (Twin surroundings seals (.of world)) (request.call surroundings now)
      (request.call surroundings.unencrypted now)
      (Alike surroundings (request.sealsAfter surroundings now world seals))
      (Sealed surroundings (request.sealsAfter surroundings now world seals)) := by
  cases request with
  | putBucketEncryption region bucket sseAlgorithm kmsKeyId =>
    exact agrees_reply (agrees_putBucketEncryption _ _ _ _) fun _ => .done
  | putObject request stream =>
    exact agrees_reply (agrees_putObject hreturns request stream world rfl) fun _ => .done
  | createMultipartUpload request =>
    exact agrees_reply (agrees_createMultipartUpload request) .upload
  | uploadPart stream part uploadId length =>
    exact agrees_reply (agrees_uploadPart stream part uploadId length) .part
  | uploadPartCopy request =>
    exact agrees_reply (agrees_uploadPartCopy request world hlegible) .copied
  | completeMultipartUpload request =>
    exact agrees_reply (agrees_completeMultipartUpload request world rfl) fun _ => .done
  | copyObject request =>
    exact agrees_reply (agrees_copyObject request world rfl) fun _ => .done
  | uploadObjectCounter request =>
    exact agrees_reply (agrees_uploadObjectCounter request world rfl) fun _ => .done
  | getObject request =>
    exact agrees_reply (agrees_getObject request world hlegible) .object

end Calls

theorem Sealed.twin {surroundings : Surroundings} {seals : Seals} {world plain : World Storage}
    (hsealed : Sealed surroundings seals world plain) :
    Twin surroundings seals (.of world) world plain := by
  obtain ⟨shared, htwin⟩ := hsealed
  exact
    { sealed_database := rfl
      plain_database := htwin.plain_database.trans htwin.sealed_database.symm
      sealed_draws := rfl
      plain_draws := htwin.plain_draws.trans htwin.sealed_draws.symm
      sealed_uploads := rfl
      plain_uploads := htwin.plain_uploads.trans htwin.sealed_uploads.symm
      sealed_files := rfl
      plain_files := htwin.plain_files.trans (congrArg _ htwin.sealed_files.symm) }

theorem replyOf_eq {surroundings : Surroundings} {seals : Seals}
    {outcome outcome' : Outcome CoreException (World Storage) Reply}
    (hagrees : outcome.Agrees (Alike surroundings seals) (Sealed surroundings seals) outcome') :
    replyOf outcome = replyOf outcome' ∧
      Sealed surroundings seals outcome.after outcome'.after := by
  cases outcome with
  | returns value after =>
    cases outcome' with
    | returns value' after' => exact ⟨congrArg Except.ok hagrees.1, hagrees.2⟩
    | halts halt' after' => exact hagrees.elim
  | halts halt after =>
    cases outcome' with
    | returns value' after' => exact hagrees.elim
    | halts halt' after' => exact ⟨congrArg Except.error hagrees.1, hagrees.2⟩

theorem replies_eq {surroundings : Surroundings} (hreturns : surroundings.repository.ReturnsFile)
    (requests : List (Time × Request)) {seals : Seals} {world plain : World Storage}
    (hsealed : Sealed surroundings seals world plain)
    (hlegible : areLegible surroundings seals requests world = true) :
    replies surroundings requests world = replies surroundings.unencrypted requests plain := by
  induction requests generalizing seals world plain with
  | nil => rfl
  | cons head requests ih =>
    obtain ⟨now, request⟩ := head
    unfold areLegible at hlegible
    rw [Bool.and_eq_true] at hlegible
    obtain ⟨hreply, hafter⟩ := replyOf_eq
      (agrees_call hreturns request world hlegible.1 [] world plain hsealed.twin)
    unfold replies
    exact congrArg₂ List.cons hreply (ih hafter hlegible.2)

def oneBucket : World Storage where
  store :=
    { database :=
        { buckets := UnorderedMap.empty.assign "1"
            { region := "eu", name := "b", created := 0, modified := 0 }
          objects := UnorderedMap.empty }
      files := fun _ => none
      transferFiles := fun _ => none
      uploads := fun _ => none
      tasks := []
      deliveries := [] }
  draws := 0

end AwsMock.S3
