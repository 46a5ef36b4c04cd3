import AwsMock.Core.Http
import AwsMock.S3.Repository
import Mathlib.Logic.Equiv.Defs

/-! # The object service

`S3Service` over either repository, with the files it keeps: the data directory, the
directories of uploads and the transfer directory. Random names are draws, which never
repeat. A one time task is put in a list and run later. What other services do with a
notification, digests, content types and ciphers are parameters; a cipher is a bijection
on the contents of a file for each key id.
-/

namespace AwsMock.S3

open Foundation

structure EventRecord where
  eventName : String
  awsRegion : String
  configurationId : String
  bucketName : String
  key : String
  size : Int
  etag : String
  versionId : String
deriving DecidableEq, Repr

inductive Delivery where
  | queue (queueArn : String) (record : EventRecord)
  | topic (topicArn : String) (record : EventRecord)
  | lambda (functionName : String) (record : EventRecord)
deriving DecidableEq, Repr

structure Surroundings where
  repository : Repository
  random : RandomSource
  accountId : String
  transferBucket : String
  md5 : Bytes → String
  sha1 : Bytes → String
  sha256 : Bytes → String
  /-- The digest that a header carries in base 64, in hexadecimal digits. -/
  decodeMd5 : String → String
  magic : Bytes → String
  isBase64 : Bytes → Bool
  base64Decode : Bytes → Bytes
  cipher : String → Bytes ≃ Bytes
  deliver : Delivery → Except CoreException Unit

/-- Surroundings in which digests are the content itself, ciphers turn a content round
and every delivery succeeds. -/
def Surroundings.plain (repository : Repository) : Surroundings where
  repository
  random := .growing
  accountId := "000000000000"
  transferBucket := "transfer-server"
  md5 content := String.ofList (content.map fun byte => Char.ofNat byte.toNat)
  sha1 content := String.ofList (content.map fun byte => Char.ofNat byte.toNat)
  sha256 content := String.ofList (content.map fun byte => Char.ofNat byte.toNat)
  decodeMd5 := id
  magic _ := "application/octet-stream"
  isBase64 _ := false
  base64Decode := id
  cipher _ := ⟨List.reverse, List.reverse, List.reverse_reverse, List.reverse_reverse⟩
  deliver _ := .ok ()

structure HashTask where
  algorithm : String
  object : Object
deriving DecidableEq, Repr

structure Storage where
  database : Store
  files : String → Option Bytes
  transferFiles : String → Option Bytes
  uploads : String → Option (List (String × Bytes))
  tasks : List HashTask
  /-- The deliveries that were tried, in order. -/
  deliveries : List Delivery

abbrev ServiceCall (α : Type) := Call Empty Storage α

namespace ServiceCall

def query {α : Type} (read : Store → α) : ServiceCall α :=
  Call.readStore fun storage => read storage.database

def execute (write : Store → Store) : ServiceCall Unit :=
  Call.writeStore fun storage => { storage with database := write storage.database }

def perform {α : Type} (call : Store → α × Store) : ServiceCall α := do
  let result ← query call
  execute fun _ => result.2
  return result.1

def readFile (name : String) : ServiceCall (Option Bytes) :=
  Call.readStore fun storage => storage.files name

def writeFile (name : String) (content : Option Bytes) : ServiceCall Unit :=
  Call.writeStore fun storage =>
    { storage with files := Function.update storage.files name content }

def writeUpload (uploadId : String) (parts : Option (List (String × Bytes))) : ServiceCall Unit :=
  Call.writeStore fun storage =>
    { storage with uploads := Function.update storage.uploads uploadId parts }

/-- `AddOneTimeTask`. -/
def addOneTimeTask (task : HashTask) : ServiceCall Unit :=
  Call.writeStore fun storage => { storage with tasks := storage.tasks ++ [task] }

def calculateHashes (algorithm : String) (object : Object) : ServiceCall Unit :=
  if algorithm ≠ "" then addOneTimeTask { algorithm, object } else pure ()

end ServiceCall

def CoreException.jsonToService : CoreException → CoreException
  | .json message => .service message
  | other => other

/-- `CreateS3BucketArn`. -/
def createS3BucketArn (region accountId bucket : String) : String :=
  "arn:aws:s3:" ++ region ++ ":" ++ accountId ++ ":" ++ bucket

def extractNumber (filename : String) : Nat :=
  (StringUtils.afterLast filename '-').toList.foldl (fun number c => 10 * number + (c.toNat - 48)) 0

/-- `ListFilesByPrefix` of the directory of an upload: the path of every file has the
upload id in it. -/
def listFilesByPrefix (parts : List (String × Bytes)) : List (String × Bytes) :=
  parts.mergeSort fun left right => extractNumber left.1 ≤ extractNumber right.1

/-- `AppendBinaryFiles`. -/
def appendBinaryFiles (files : List (String × Bytes)) : Bytes := files.flatMap Prod.snd

def putFile (name : String) (content : Bytes) (files : List (String × Bytes)) :
    List (String × Bytes) :=
  files.filter (fun file => file.1 ≠ name) ++ [(name, content)]

/-- `CheckFilter`, the same for queues, topics and functions. -/
def checkFilter (filterRules : List FilterRule) (key : String) : Bool :=
  if filterRules = [] then true
  else filterRules.any fun rule =>
    (rule.name = "prefix" && rule.value.toList.isPrefixOf key.toList) ||
      (rule.name = "suffix" && rule.value.toList.isSuffixOf key.toList)

def hasEvent (events : List String) (event : String) : Bool :=
  events.any fun other => StringUtils.contains other event

namespace Bucket

variable (bucket : Bucket) (event : String)

def getQueueNotifications : List QueueNotification :=
  bucket.queueNotifications.filter fun notification => hasEvent notification.events event

def getTopicNotifications : List TopicNotification :=
  bucket.topicNotifications.filter fun notification => hasEvent notification.events event

def getLambdaNotifications : List LambdaNotification :=
  bucket.lambdaNotifications.filter fun notification => hasEvent notification.events event

end Bucket

namespace S3Service

open ServiceCall

variable (surroundings : Surroundings) (now : Time)

def checkBucketExistence (region name : String) : ServiceCall Unit := do
  if ← query (surroundings.repository.bucketExists region name) then return ()
  else Action.raise (.notFound
    ("Bucket does not exists, region: " ++ region ++ " name: " ++ name))

def send (delivery : Delivery) : ServiceCall Unit := do
  Call.writeStore fun storage => { storage with deliveries := storage.deliveries ++ [delivery] }
  Call.ofExcept (surroundings.deliver delivery)

/-- `SendLambdaInvocationRequest`: an ARN without a function name is skipped. -/
def sendLambdaInvocationRequest (lambdaArn : String) (record : EventRecord) : ServiceCall Unit :=
  match (StringUtils.split lambdaArn ':')[6]? with
  | some functionName => send surroundings (.lambda functionName record)
  | none => return ()

def checkNotifications (region bucket key : String) (size : Int) (etag versionId event : String) :
    ServiceCall Unit := do
  let bucketEntity ← perform (surroundings.repository.getBucketByRegionName now region bucket)
  let record (id : String) : EventRecord :=
    { eventName := event, awsRegion := region, configurationId := id,
      bucketName := bucketEntity.name, key, size, etag, versionId }
  (bucketEntity.getQueueNotifications event).forM fun notification =>
    if checkFilter notification.filterRules key then
      send surroundings (.queue notification.queueArn (record notification.id))
    else return ()
  (bucketEntity.getTopicNotifications event).forM fun notification =>
    if checkFilter notification.filterRules key then
      send surroundings (.topic notification.topicArn (record notification.id))
    else return ()
  (bucketEntity.getLambdaNotifications event).forM fun notification =>
    if checkFilter notification.filterRules key then
      sendLambdaInvocationRequest surroundings notification.lambdaArn (record notification.id)
    else return ()

/-- `DeleteObject` of the file system. -/
def deleteFile (bucket key internalName : String) : ServiceCall Unit := do
  if internalName ≠ "" then
    writeFile internalName none
    if bucket = surroundings.transferBucket then
      Call.writeStore fun storage =>
        { storage with transferFiles := Function.update storage.transferFiles key none }
    else return ()
  else return ()

/-- `CheckEncryption`. -/
def checkEncryption (bucket : Bucket) (object : Object) : ServiceCall Unit := do
  if bucket.hasEncryption then
    let content ← readFile object.internalName
    writeFile object.internalName
      (content.map (surroundings.cipher bucket.bucketEncryption.kmsKeyId))
  else return ()

/-- `CheckDecryption`: the file that is returned, decrypted into another one. -/
def checkDecryption (bucket : Bucket) (object : Object) : ServiceCall (Option Bytes) := do
  let content ← readFile object.internalName
  if bucket.hasEncryption then
    return content.map (surroundings.cipher bucket.bucketEncryption.kmsKeyId).symm
  else return content

def sanitizeContentType (contentType : String) (content : Bytes) : String :=
  if contentType = "" ∨ contentType = "application/octet-stream" ∨
      contentType = "binary/octet-stream" then surroundings.magic content
  else contentType

def findObject (bucket : Bucket) (region name key versionId : String) : ServiceCall Object :=
  if bucket.isVersioned ∧ versionId ≠ "" then
    perform (surroundings.repository.getObjectVersion now region name key versionId)
  else perform (surroundings.repository.getObject now region name key)

structure GetObjectRequest where
  region : String
  bucket : String
  key : String
  versionId : String := ""
deriving DecidableEq, Repr

structure GetObjectResponse where
  bucket : String
  key : String
  size : Int
  content : Option Bytes
  contentType : String
  metadata : Metadata
  md5sum : String
  created : Time
  modified : Time
  storageClass : StorageClass
deriving DecidableEq, Repr

def getObject (request : GetObjectRequest) : ServiceCall GetObjectResponse := do
  checkBucketExistence surroundings request.region request.bucket
  if request.key ≠ "" ∧ !(← query (surroundings.repository.objectExists request.region
      request.bucket request.key)) then
    Action.raise (.notFound "Object does not exist")
  else
    let bucketEntity ← perform (surroundings.repository.getBucketByRegionName now request.region
      request.bucket)
    let object ← findObject surroundings now bucketEntity request.region request.bucket request.key
      request.versionId
    if bucketEntity.isVersioned ∧ request.versionId ≠ "" ∧ object.oid = "" then
      Action.raise (.service "Object does not exist")
    else
      let content ← checkDecryption surroundings bucketEntity object
      return {
        bucket := object.bucket
        key := object.key
        size := object.size
        content
        contentType := object.contentType
        metadata := object.metadata
        md5sum := object.md5sum
        created := object.created
        modified := object.modified
        storageClass := object.storageClass }

structure PutObjectRequest where
  region : String
  bucket : String
  key : String
  owner : String := ""
  md5Sum : String := ""
  contentType : String := ""
  contentLength : Nat
  metadata : Metadata := []
  storageClass : String := ""
  checksumAlgorithm : String := ""
deriving DecidableEq, Repr

/-- `SaveObject`, with the bytes that the stream still has. -/
def saveObject (request : PutObjectRequest) (bucket : Bucket) (stream : Bytes) :
    ServiceCall Unit := do
  let fileName := surroundings.random.uuid (← Call.draw)
  let content := stream.take request.contentLength
  if content.length ≠ request.contentLength then
    Action.raise (.service ("Put object truncated, expected: " ++ toString request.contentLength ++
      ", received: " ++ toString content.length))
  else
    writeFile fileName (some content)
    -- default metadata is taken over when there is none
    let defaultMetadata := if bucket.defaultMetadata = [] then bucket.defaultMetadata else []
    let blank := Object.blank now
    let placed : Object := { blank with
      region := request.region
      bucket := request.bucket
      bucketArn := createS3BucketArn request.region surroundings.accountId request.bucket
      key := request.key
      owner := request.owner
      internalName := fileName
      storageClass := .fromString request.storageClass
      metadata := Metadata.merge defaultMetadata request.metadata }
    if bucket.isVersioned then
      let existing ← perform (surroundings.repository.getObjectMd5 now request.region request.bucket
        request.key (surroundings.decodeMd5 request.md5Sum))
      if existing.oid ≠ "" then writeFile fileName none
      else
        let versionId := surroundings.random.uuid (← Call.draw)
        let object := { placed with
          versionId
          contentType := request.contentType
          size := content.length
          md5sum := surroundings.md5 content }
        calculateHashes request.checksumAlgorithm object
        let oid := surroundings.random.uuid (← Call.draw)
        let stored ← perform (surroundings.repository.createObject oid object)
        checkEncryption surroundings bucket stored
        checkNotifications surroundings now request.region request.bucket request.key stored.size
          stored.md5sum stored.versionId "ObjectCreated"
    else
      let decoded := if surroundings.isBase64 content then surroundings.base64Decode content
        else content
      writeFile fileName (some decoded)
      let object := { placed with
        contentType := sanitizeContentType surroundings request.contentType decoded
        size := request.contentLength
        md5sum := surroundings.md5 decoded }
      let oid := surroundings.random.uuid (← Call.draw)
      let stored ← perform (surroundings.repository.createOrUpdateObject now oid object)
      checkEncryption surroundings bucket stored
      checkNotifications surroundings now request.region request.bucket request.key stored.size
        stored.md5sum stored.versionId "ObjectCreated"

/-- Every exception that leaves `SaveObject` becomes a service exception. -/
def putObject (request : PutObjectRequest) (stream : Bytes) : ServiceCall Unit := do
  checkBucketExistence surroundings request.region request.bucket
  Action.rethrow (fun exn => .service exn.what) do
    let bucket ← perform (surroundings.repository.getBucketByRegionName now request.region
      request.bucket)
    saveObject surroundings now request bucket stream

structure UpdateObjectRequest where
  region : String
  bucket : String
  key : String
  metadata : Metadata
  storageClass : String
deriving DecidableEq, Repr

def updateObject (request : UpdateObjectRequest) : ServiceCall Unit := do
  checkBucketExistence surroundings request.region request.bucket
  if ← query (surroundings.repository.objectExists request.region request.bucket request.key) then
    let object ← perform (surroundings.repository.getObject now request.region request.bucket
      request.key)
    let _ ← perform (surroundings.repository.updateObject now { object with
      metadata := request.metadata
      storageClass := .fromString request.storageClass })
  else Action.raise (.notFound "Bucket does not exist")

structure CreateMultipartUploadRequest where
  region : String
  bucket : String
  key : String
  user : String := ""
  metadata : Metadata := []
deriving DecidableEq, Repr

/-- The upload gets a directory, and the object a record without a file. -/
def createMultipartUpload (request : CreateMultipartUploadRequest) : ServiceCall String := do
  checkBucketExistence surroundings request.region request.bucket
  let uploadId := surroundings.random.uuid (← Call.draw)
  writeUpload uploadId (some [])
  let bucket ← perform (surroundings.repository.getBucketByRegionName now request.region
    request.bucket)
  let blank := Object.blank now
  let oid := surroundings.random.uuid (← Call.draw)
  let _ ← perform (surroundings.repository.createOrUpdateObject now oid { blank with
    region := request.region
    bucket := request.bucket
    bucketArn := bucket.arn
    key := request.key
    owner := request.user
    metadata := Metadata.merge bucket.defaultMetadata request.metadata })
  return uploadId

def partName (uploadId : String) (part : Nat) : String := uploadId ++ "-" ++ toString part

/-- The file of a part in the directory of its upload. A part that is cut short is
removed, and without the directory no file is written. -/
def savePart (uploadId : String) (part : Nat) (content : Bytes) (length : Nat) :
    ServiceCall Unit := do
  match ← Call.readStore fun storage => storage.uploads uploadId with
  | none => return ()
  | some parts =>
    if content.length ≠ length then
      writeUpload uploadId (some (parts.filter fun file => file.1 ≠ partName uploadId part))
    else writeUpload uploadId (some (putFile (partName uploadId part) content parts))

def uploadPart (stream : Bytes) (part : Nat) (uploadId : String) (length : Nat) :
    ServiceCall String := do
  let content := stream.take length
  savePart uploadId part content length
  if content.length ≠ length then
    Action.raise (.service ("Upload part truncated, expected: " ++ toString length ++
      ", received: " ++ toString content.length))
  else return surroundings.md5 content

structure UploadPartCopyRequest where
  region : String
  sourceBucket : String
  sourceKey : String
  sourceVersionId : String := ""
  uploadId : String
  partNumber : Nat
  min : Nat
  max : Nat
deriving DecidableEq, Repr

/-- `UploadPartCopy`: the bytes of the file of the source, as they are. -/
def uploadPartCopy (request : UploadPartCopyRequest) : ServiceCall Bytes := do
  let sourceBucket ← perform (surroundings.repository.getBucketByRegionName now request.region
    request.sourceBucket)
  let sourceObject ← findObject surroundings now sourceBucket request.region request.sourceBucket
    request.sourceKey request.sourceVersionId
  if sourceObject.oid = "" then
    Action.raise (.notFound ("Upload part copy source not found, sourceBucket: " ++
      request.sourceBucket ++ ", sourceKey: " ++ request.sourceKey))
  else
    let source := (← readFile sourceObject.internalName).getD []
    let length := request.max + 1 - request.min
    let copied := (source.drop request.min).take length
    savePart request.uploadId request.partNumber copied length
    if copied.length ≠ length then
      Action.raise (.service ("Upload part copy truncated, expected: " ++ toString length ++
        ", received: " ++ toString copied.length))
    else return copied

structure CompleteMultipartUploadRequest where
  region : String
  bucket : String
  key : String
  uploadId : String
  checksumAlgorithm : String := ""
deriving DecidableEq, Repr

def completeMultipartUpload (request : CompleteMultipartUploadRequest) : ServiceCall Unit := do
  let object ← perform (surroundings.repository.getObject now request.region request.bucket
    request.key)
  match ← Call.readStore fun storage => storage.uploads request.uploadId with
  | none => return ()
  | some parts =>
    let filename := surroundings.random.uuid (← Call.draw)
    let content := appendBinaryFiles (listFilesByPrefix parts)
    writeFile filename (some content)
    let stored ← perform (surroundings.repository.updateObject now { object with
      size := content.length
      md5sum := surroundings.md5 content
      sha1sum := surroundings.sha1 content
      sha256sum := surroundings.sha256 content
      internalName := filename
      contentType := surroundings.magic content })
    calculateHashes request.checksumAlgorithm stored
    writeUpload request.uploadId none
    checkNotifications surroundings now request.region request.bucket request.key stored.size
      stored.md5sum stored.versionId "ObjectCreated"

def withChecksum (algorithm : String) (content : Bytes) (object : Object) : Object :=
  if algorithm = "SHA1" then { object with sha1sum := surroundings.sha1 content }
  else if algorithm = "SHA256" then { object with sha256sum := surroundings.sha256 content }
  else if algorithm = "MD5" then { object with sha256sum := surroundings.md5 content }
  else object

/-- `S3HashCreator`, as a task calls it. -/
def createHashes (task : HashTask) : ServiceCall Unit := do
  let content := (← readFile task.object.internalName).getD []
  let _ ← perform (surroundings.repository.updateObject now
    (withChecksum surroundings task.algorithm content task.object))

structure CopyObjectRequest where
  region : String
  sourceBucket : String
  sourceKey : String
  sourceVersionId : String := ""
  targetBucket : String
  targetKey : String
  metadata : Metadata := []
deriving DecidableEq, Repr

def copyObject (request : CopyObjectRequest) : ServiceCall Unit := do
  checkBucketExistence surroundings request.region request.sourceBucket
  let sourceBucket ← perform (surroundings.repository.getBucketByRegionName now request.region
    request.sourceBucket)
  let sourceObject ← findObject surroundings now sourceBucket request.region request.sourceBucket
    request.sourceKey request.sourceVersionId
  if sourceObject.oid = "" then Action.raise (.notFound "Source object does not exist")
  else if !(← query (surroundings.repository.bucketExists request.region request.targetBucket)) then
    Action.raise (.notFound "Target bucket does not exist")
  else
    let targetBucket ← perform (surroundings.repository.getBucketByRegionName now request.region
      request.targetBucket)
    let targetFile := surroundings.random.uuid (← Call.draw)
    match ← readFile sourceObject.internalName with
    | none => Action.raise (.standard "boost::filesystem::copy_file")
    | some content =>
      writeFile targetFile (some content)
      let versionId := surroundings.random.uuid (← Call.draw)
      let blank := Object.blank now
      let oid := surroundings.random.uuid (← Call.draw)
      let stored ← perform (surroundings.repository.createObject oid { blank with
        region := request.region
        bucket := request.targetBucket
        bucketArn := createS3BucketArn request.region surroundings.accountId request.targetBucket
        key := request.targetKey
        owner := sourceObject.owner
        size := sourceObject.size
        md5sum := sourceObject.md5sum
        sha1sum := sourceObject.sha1sum
        sha256sum := sourceObject.sha256sum
        contentType := sourceObject.contentType
        localName := sourceObject.localName
        metadata := request.metadata
        internalName := targetFile
        versionId := if targetBucket.isVersioned then versionId else "" })
      checkNotifications surroundings now stored.region stored.bucket stored.key stored.size
        stored.md5sum stored.versionId "ObjectCreated"

structure MoveObjectRequest where
  region : String
  sourceBucket : String
  sourceKey : String
  targetBucket : String
  targetKey : String
  metadata : Metadata := []
deriving DecidableEq, Repr

/-- `MoveObject`, which leaves the source where it is. -/
def moveObject (request : MoveObjectRequest) : ServiceCall Unit := do
  checkBucketExistence surroundings request.region request.sourceBucket
  if !(← query (surroundings.repository.objectExists request.region request.sourceBucket
      request.sourceKey)) then
    Action.raise (.notFound "Source object does not exist")
  else if !(← query (surroundings.repository.bucketExists request.region request.targetBucket)) then
    Action.raise (.service "Target bucket does not exist")
  else
    let targetBucket ← perform (surroundings.repository.getBucketByRegionName now request.region
      request.targetBucket)
    let sourceObject ← perform (surroundings.repository.getObject now request.region
      request.sourceBucket request.sourceKey)
    let targetFile := surroundings.random.uuid (← Call.draw)
    match ← readFile sourceObject.internalName with
    | none => Action.raise (.standard "boost::filesystem::copy_file")
    | some content =>
      writeFile targetFile (some content)
      let versionId := surroundings.random.uuid (← Call.draw)
      let blank := Object.blank now
      let oid := surroundings.random.uuid (← Call.draw)
      let stored ← perform (surroundings.repository.createObject oid { blank with
        region := request.region
        bucket := request.targetBucket
        key := request.targetKey
        owner := sourceObject.owner
        size := sourceObject.size
        md5sum := sourceObject.md5sum
        sha1sum := sourceObject.sha1sum
        sha256sum := sourceObject.sha256sum
        contentType := sourceObject.contentType
        localName := sourceObject.localName
        metadata := request.metadata
        internalName := targetFile
        versionId := if targetBucket.isVersioned then versionId else "" })
      checkNotifications surroundings now stored.region stored.bucket stored.key stored.size
        stored.md5sum stored.versionId "ObjectCreated"

structure UploadObjectCounterRequest where
  region : String
  bucketArn : String
  bucketName : String
  objectKey : String
  user : String := ""
  contentType : String := ""
  metadata : Metadata := []
  /-- The content, which arrives in base 64. -/
  content : Bytes
deriving DecidableEq, Repr

def uploadObjectCounter (request : UploadObjectCounterRequest) : ServiceCall Unit := do
  if ← query (surroundings.repository.bucketArnExists request.bucketArn) then
    let fileName := surroundings.random.uuid (← Call.draw)
    writeFile fileName (some request.content)
    let blank := Object.blank now
    let oid := surroundings.random.uuid (← Call.draw)
    let stored ← perform (surroundings.repository.createOrUpdateObject now oid { blank with
      region := request.region
      bucket := request.bucketName
      bucketArn := createS3BucketArn request.region surroundings.accountId request.bucketName
      key := request.objectKey
      owner := request.user
      size := request.content.length
      contentType := sanitizeContentType surroundings request.contentType request.content
      metadata := request.metadata
      internalName := fileName
      md5sum := surroundings.md5 request.content })
    checkNotifications surroundings now request.region request.bucketName request.objectKey
      stored.size stored.md5sum stored.versionId "ObjectCreated"
  else Action.raise (.notFound ("Bucket does not exists, bucketArn: " ++ request.bucketArn))

def putBucketEncryption (region bucket sseAlgorithm kmsKeyId : String) : ServiceCall Unit := do
  checkBucketExistence surroundings region bucket
  let bucketEntity ← perform (surroundings.repository.getBucketByRegionName now region bucket)
  match ← query (surroundings.repository.updateBucket now
      { bucketEntity with bucketEncryption := { sseAlgorithm, kmsKeyId } }) with
  | some updated => execute fun _ => updated.2
  | none => Action.undefinedBehaviour

def deleteObject (region bucket key : String) : ServiceCall Unit := do
  checkBucketExistence surroundings region bucket
  if ← query (surroundings.repository.objectExists region bucket key) then
    Action.rethrow CoreException.jsonToService do
      let object ← perform (surroundings.repository.getObject now region bucket key)
      execute (surroundings.repository.deleteObject object)
      deleteFile surroundings object.bucket object.key object.internalName
      checkNotifications surroundings now region bucket key 0 object.md5sum object.versionId
        "ObjectRemoved"
  else return ()

/-- The file of the newest object of a key goes before the records do. -/
def deleteObjects (region bucket : String) (keys : List String) : ServiceCall Unit := do
  checkBucketExistence surroundings region bucket
  keys.forM fun key =>
    if key ≠ "" then do
      let object ← perform (surroundings.repository.getObject now region bucket key)
      deleteFile surroundings object.bucket object.key object.internalName
      checkNotifications surroundings now region bucket key 0 object.md5sum object.versionId
        "ObjectRemoved"
    else return ()
  execute (surroundings.repository.deleteObjects region bucket keys)

def purgeBucket (region bucketName : String) : ServiceCall Unit := do
  checkBucketExistence surroundings region bucketName
  Action.rethrow CoreException.jsonToService do
    let bucket ← perform (surroundings.repository.getBucketByRegionName now region bucketName)
    (← query (surroundings.repository.listBucket bucketName "")).forM fun object =>
      deleteFile surroundings object.bucket object.key object.internalName
    execute (surroundings.repository.purgeBucket bucket)

def deleteBucket (region bucket : String) : ServiceCall Unit := do
  checkBucketExistence surroundings region bucket
  let blank := Bucket.blank now
  let entity := { blank with region, name := bucket }
  if ← query (surroundings.repository.hasObjects entity) then
    Action.raise (.notFound "Bucket is not empty")
  else execute (surroundings.repository.deleteBucket entity)

end S3Service

end AwsMock.S3
