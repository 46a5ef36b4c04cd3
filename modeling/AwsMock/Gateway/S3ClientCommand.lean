import Mathlib.Algebra.Group.Nat.Defs
import AwsMock.Core.Http

/-! # The commands of S3 clients

What the gateway reads from a request before S3 handles it: the path, the query, the
user agent, and the command they stand for. Targets are parsed by a library, which
may fail. A failure that is not looked at, and an index that is out of range, are
undefined behaviour.
-/

namespace AwsMock.Gateway

open Http HttpUtils

inductive Fault where
  | undefinedBehaviour
  | exception
deriving DecidableEq, Repr

abbrev Checked := Except Fault

/-- The parsers of targets: the decoded segments of an origin form, and the decoded
parameters of a reference. -/
structure UrlLibrary where
  parseOriginForm : Bytes → Option (List Bytes)
  parseReference : Bytes → Option (List (Bytes × Bytes))

def plainLibrary : UrlLibrary where
  parseOriginForm target :=
    if target.head? = some 47 then
      let path := (target.takeWhile (· ≠ 63)).tail
      some (if path = [] then [] else Bytes.split path 47)
    else none
  parseReference target :=
    some (if 63 ∈ target then
      (Bytes.split (target.dropWhile (· ≠ 63)).tail 38).map fun part =>
        (part.takeWhile (· ≠ 61), (part.dropWhile (· ≠ 61)).tail)
    else [])

section Helpers

variable (urls : UrlLibrary)

def elementAt (parts : List Bytes) (index : Nat) : Checked Bytes :=
  match parts[index]? with
  | some part => .ok part
  | none => .error .undefinedBehaviour

def getPathParameters (uri : Bytes) : Checked (List Bytes) :=
  match urls.parseOriginForm uri with
  | some segments => .ok segments
  | none => .error .undefinedBehaviour

def getPathParameter (uri : Bytes) (index : Nat) : Checked Bytes := do
  return (← getPathParameters urls uri).getD index []

def hasPathParameters (uri : Bytes) (index : Nat) : Checked Bool := do
  return (← getPathParameters urls uri).length > index

def hasQueryParameter (uri name : Bytes) : Checked Bool :=
  match getQueryParameters uri with
  | some parameters => .ok (parameters.any fun parameter => parameter.1 = name)
  | none => .error .exception

def getStringParameter (uri name : Bytes) : Checked Bytes :=
  match urls.parseReference uri with
  | some params => .ok (((params.find? fun param => param.1 = name).map Prod.snd).getD [])
  | none => .error .exception

def getContentType (request : Request) : Bytes :=
  if !hasHeader request (ascii "Content-Type") then ascii "application/octet-stream"
  else if Bytes.contains (request.get (ascii "Content-Type")) (ascii "json") then
    ascii "application/json"
  else request.get (ascii "Content-Type")

def readDigits (text : Bytes) : Option Nat :=
  if text ≠ [] ∧ text.all Bytes.isDigit then
    some (text.foldl (fun number c => number * 10 + (c.toNat - 48)) 0)
  else none

/-- The parser of requests has accepted the digits of the header, `stol` has to find
them in the range of a long. -/
def getContentLength (request : Request) : Checked Nat :=
  if hasHeader request (ascii "Content-Length") then
    match readDigits (request.get (ascii "Content-Length")) with
    | some number => if number < 2 ^ 63 then .ok number else .error .exception
    | none => .error .exception
  else .ok 0

end Helpers

section UserAgents

inductive UserAgentType where
  | awsSdkJava1
  | awsSdkJava2
  | awsSdkCpp
  | awsCli
  | awsSdkUnknown
deriving DecidableEq, Repr

def userAgentTypeNames : List (UserAgentType × String) :=
  [(.awsSdkJava1, "aws-sdk-java/1"), (.awsSdkJava2, "aws-sdk-java/2"),
    (.awsSdkCpp, "aws-sdk-cpp/2"), (.awsCli, "aws-cli/2"), (.awsSdkUnknown, "")]

def userAgentTypeFromString (userAgentType : Bytes) : UserAgentType :=
  ((userAgentTypeNames.find? fun entry =>
    Bytes.startsWith userAgentType (ascii entry.2)).map Prod.fst).getD .awsSdkUnknown

structure UserAgent where
  type : UserAgentType := .awsSdkUnknown
  clientApplication : Bytes := []
  clientLanguage : Bytes := []
  clientOs : Bytes := []
  clientExecutableType : Bytes := []
  clientPrompt : Bytes := []
  clientModule : Bytes := []
  clientCommand : Bytes := []
  contentType : Bytes := []
deriving DecidableEq, Repr

def UserAgent.readClient (userAgent : UserAgent) (parts : List Bytes) : Checked UserAgent := do
  let clientApplication ← elementAt parts 0
  let clientLanguage ← elementAt parts 1
  let clientOs ← elementAt parts 2
  let clientExecutableType ← elementAt parts 3
  let clientPrompt ← elementAt parts 4
  let last ← elementAt parts (parts.length - 1)
  let command ← elementAt (Bytes.split last 35) 1
  let clientModule ← elementAt (Bytes.split command 46) 0
  let clientCommand ← elementAt (Bytes.split command 46) 1
  return { userAgent with
    clientApplication, clientLanguage, clientOs, clientExecutableType, clientPrompt,
    clientModule, clientCommand }

/-- `UserAgent::FromRequest`. -/
def UserAgent.fromRequest (request : Request) : Checked UserAgent := do
  if !hasHeader request (ascii "User-Agent") then
    return { type := .awsSdkCpp, contentType := ascii "xml" }
  let parts := Bytes.split (request.get (ascii "User-Agent")) 32
  let userAgent ←
    if parts.length ≥ 4 then
      let type := userAgentTypeFromString (parts.headD [])
      if type = .awsCli then UserAgent.readClient { type } parts else .ok { type }
    else .ok {}
  if hasHeader request (ascii "Content-Type") then
    return { userAgent with
      contentType := if Bytes.contains (request.get (ascii "Content-Type")) (ascii "json") then
        ascii "json" else ascii "xml" }
  return userAgent

end UserAgents

/-- `S3CommandType`. -/
inductive S3CommandType where
  | createBucket
  | listBuckets
  | listBucketCounters
  | listBucketArns
  | getBucket
  | purgeBucket
  | purgeAllBuckets
  | updateBucket
  | deleteBucket
  | listObjects
  | listObjectCounters
  | putObject
  | getObject
  | getObjectRange
  | copyObject
  | moveObject
  | deleteObject
  | deleteObjects
  | createMultipartUpload
  | uploadPart
  | uploadPartCopy
  | completeMultipartUpload
  | abortMultipartUpload
  | listObjectVersions
  | bucketNotification
  | putBucketNotificationConfiguration
  | getBucketNotificationConfiguration
  | putBucketEncryption
  | putBucketVersioning
  | putBucketLifecycleConfiguration
  | getBucketLifecycleConfiguration
  | deleteBucketLifecycle
  | getObjectCounter
  | listObjectVersionCounters
  | uploadObjectCounter
  | getEventSource
  | touchObject
  | updateObject
  | addBucketCounter
  | deleteBucketCounter
  | deleteObjectCounter
  | deleteAllObjects
  | reloadAllCounters
  | getBucketPolicy
  | putBucketPolicy
  | deleteBucketPolicy
  | getBucketAcl
  | putBucketAcl
  | getBucketLocation
  | getBucketCors
  | putBucketCors
  | deleteBucketCors
  | getBucketTagging
  | putBucketTagging
  | deleteBucketTagging
  | getBucketAccelerate
  | putBucketAccelerate
  | getBucketObjectLock
  | putBucketObjectLock
  | getBucketWebsite
  | putBucketWebsite
  | deleteBucketWebsite
  | getBucketRequestPayment
  | getBucketOwnershipControls
  | putBucketOwnershipControls
  | deleteBucketOwnershipControls
  | getBucketPublicAccessBlock
  | putBucketPublicAccessBlock
  | deleteBucketPublicAccessBlock
  | getBucketReplication
  | deleteBucketReplication
  | unknown
deriving DecidableEq, Repr

def s3CommandTypeNames : List (S3CommandType × String) :=
  [(.createBucket, "CreateBucket"), (.listBuckets, "ListBuckets"),
    (.listBucketCounters, "ListBucketCounters"), (.listBucketArns, "ListBucketArns"),
    (.getBucket, "GetBucket"), (.purgeBucket, "PurgeBucket"),
    (.purgeAllBuckets, "PurgeAllBuckets"), (.updateBucket, "UpdateBucket"),
    (.deleteBucket, "DeleteBucket"), (.listObjects, "ListObjects"),
    (.listObjectCounters, "ListObjectCounters"), (.putObject, "PutObject"),
    (.getObject, "GetObject"), (.getObjectRange, "GetObjectRange"), (.copyObject, "CopyObject"),
    (.moveObject, "MoveObject"), (.deleteObject, "DeleteObject"),
    (.deleteObjects, "DeleteObjects"), (.createMultipartUpload, "CreateMultipartUpload"),
    (.uploadPart, "PartMultipartUpload"), (.uploadPartCopy, "PartMultipartUploadCopy"),
    (.completeMultipartUpload, "CompleteMultipartUpload"),
    (.abortMultipartUpload, "AbortMultipartUpload"), (.listObjectVersions, "ListObjectVersions"),
    (.bucketNotification, "BucketNotification"),
    (.putBucketNotificationConfiguration, "PutBucketNotificationConfiguration"),
    (.getBucketNotificationConfiguration, "GetBucketNotificationConfiguration"),
    (.putBucketEncryption, "PurBucketEncryption"), (.putBucketVersioning, "PutBucketVersioning"),
    (.putBucketLifecycleConfiguration, "PutBucketLifecycleConfiguration"),
    (.getBucketLifecycleConfiguration, "GetBucketLifecycleConfiguration"),
    (.deleteBucketLifecycle, "DeleteBucketLifecycle"), (.getObjectCounter, "GetObjectCounter"),
    (.listObjectVersionCounters, "ListObjectVersionCounters"),
    (.uploadObjectCounter, "UploadObjectCounter"), (.getEventSource, "GetEventSource"),
    (.touchObject, "TouchObject"), (.updateObject, "UpdateObject"),
    (.addBucketCounter, "AddBucketCounter"), (.deleteBucketCounter, "DeleteBucketCounter"),
    (.deleteObjectCounter, "DeleteObjectCounter"), (.deleteAllObjects, "DeleteAllObjects"),
    (.reloadAllCounters, "ReloadAllCounters"), (.getBucketPolicy, "GetBucketPolicy"),
    (.putBucketPolicy, "PutBucketPolicy"), (.deleteBucketPolicy, "DeleteBucketPolicy"),
    (.getBucketAcl, "GetBucketAcl"), (.putBucketAcl, "PutBucketAcl"),
    (.getBucketLocation, "GetBucketLocation"), (.getBucketCors, "GetBucketCors"),
    (.putBucketCors, "PutBucketCors"), (.deleteBucketCors, "DeleteBucketCors"),
    (.getBucketTagging, "GetBucketTagging"), (.putBucketTagging, "PutBucketTagging"),
    (.deleteBucketTagging, "DeleteBucketTagging"), (.getBucketAccelerate, "GetBucketAccelerate"),
    (.putBucketAccelerate, "PutBucketAccelerate"), (.getBucketObjectLock, "GetBucketObjectLock"),
    (.putBucketObjectLock, "PutBucketObjectLock"), (.getBucketWebsite, "GetBucketWebsite"),
    (.putBucketWebsite, "PutBucketWebsite"), (.deleteBucketWebsite, "DeleteBucketWebsite"),
    (.getBucketRequestPayment, "GetBucketRequestPayment"),
    (.getBucketOwnershipControls, "GetBucketOwnershipControls"),
    (.putBucketOwnershipControls, "PutBucketOwnershipControls"),
    (.deleteBucketOwnershipControls, "DeleteBucketOwnershipControls"),
    (.getBucketPublicAccessBlock, "GetBucketPublicAccessBlock"),
    (.putBucketPublicAccessBlock, "PutBucketPublicAccessBlock"),
    (.deleteBucketPublicAccessBlock, "DeleteBucketPublicAccessBlock"),
    (.getBucketReplication, "GetBucketReplication"),
    (.deleteBucketReplication, "DeleteBucketReplication")]

/-- `S3CommandTypeFromString`, which does not regard case. -/
def s3CommandTypeFromString (commandType : Bytes) : S3CommandType :=
  ((s3CommandTypeNames.find? fun entry =>
    Bytes.iequals commandType (ascii entry.2)).map Prod.fst).getD .unknown

structure S3ClientCommand where
  region : Bytes
  user : Bytes
  method : Verb
  contentType : Bytes
  contentLength : Nat
  url : Bytes
  host : Bytes
  payload : Bytes
  contentMd5 : Bytes
  storageClass : Bytes
  bucket : Bytes
  key : Bytes
  prefixText : Bytes := []
  uploads : Bool
  uploadId : Bytes
  partNumber : Bool
  lifecycleRequest : Bool
  uploadPartCopy : Bool
  rangeRequest : Bool
  multipartRequest : Bool
  notificationRequest : Bool
  versionRequest : Bool
  copyRequest : Bool
  encryptionRequest : Bool
  command : S3CommandType := .unknown
deriving DecidableEq, Repr

section Buckets

variable (urls : UrlLibrary)

def isS3HostStyle (request : Request) : Bool :=
  hasHeader request (ascii "Host") && Bytes.contains (request.get (ascii "Host")) (ascii ".s3.")

def getS3HostStyleBucket (request : Request) : Bytes :=
  (request.get (ascii "Host")).takeWhile (· ≠ 46)

def getS3BucketName (request : Request) : Checked Bytes := do
  if isS3HostStyle request then return getS3HostStyleBucket request
  let pathBucket ← getPathParameter urls request.target 0
  if pathBucket ≠ [] then return pathBucket
  let hostBucket := getS3HostStyleBucket request
  if hostBucket ≠ [] ∧ hostBucket ≠ ascii "localhost" ∧ hostBucket ≠ ascii "127" ∧
      !hostBucket.all Bytes.isDigit then
    return hostBucket
  return []

def getS3ObjectKey (request : Request) : Checked Bytes := do
  if isS3HostStyle request then getPathParameter urls request.target 0
  else
    let segments ← getPathParameters urls request.target
    return (ascii "/").intercalate segments.tail

end Buckets

section Commands

def firstResource (uri : Bytes) (otherwise : Checked S3CommandType) :
    List (String × S3CommandType) → Checked S3CommandType
  | [] => otherwise
  | (name, command) :: rest => do
      if ← hasQueryParameter uri (ascii name) then return command
      firstResource uri otherwise rest

/-- The commands of `s3api`. -/
def s3apiCommands : List (String × S3CommandType) :=
  [("list-buckets", .listBuckets), ("create-multipart-upload", .createMultipartUpload),
    ("upload-part", .uploadPart), ("complete-multipart-upload", .completeMultipartUpload),
    ("put-bucket-notification-configuration", .putBucketNotificationConfiguration),
    ("get-bucket-notification-configuration", .getBucketNotificationConfiguration),
    ("put-bucket-encryption", .putBucketEncryption),
    ("put-bucket-versioning", .putBucketVersioning),
    ("list-object-versions", .listObjectVersions),
    ("put-bucket-lifecycle-configuration", .putBucketLifecycleConfiguration),
    ("get-bucket-lifecycle-configuration", .getBucketLifecycleConfiguration),
    ("delete-bucket-lifecycle", .deleteBucketLifecycle)]

def s3SimpleCommands : List (String × S3CommandType) :=
  [("mb", .createBucket), ("rb", .deleteBucket), ("rm", .deleteObject), ("mv", .moveObject)]

def findCommand (commands : List (String × S3CommandType)) (name : Bytes) :
    Option S3CommandType :=
  (commands.find? fun entry => ascii entry.1 = name).map Prod.snd

namespace S3ClientCommand

/-- `GetCommandFromUserAgent`. -/
def getCommandFromUserAgent (client : S3ClientCommand) (userAgent : UserAgent) : S3CommandType :=
  if userAgent.clientModule = ascii "s3api" then
    (findCommand s3apiCommands userAgent.clientCommand).getD client.command
  else
    match findCommand s3SimpleCommands userAgent.clientCommand with
    | some command => command
    | none =>
      if userAgent.clientCommand = ascii "ls" then
        if client.bucket = [] then .listBuckets else .listObjects
      else if userAgent.clientCommand = ascii "cp" then
        match client.method with
        | .put => if client.multipartRequest then .uploadPart else .putObject
        | .get => .getObject
        | .post =>
          if client.multipartRequest ∧ client.uploadId = [] then .createMultipartUpload
          else .completeMultipartUpload
        | _ => client.command
      else client.command

def getResources : List (String × S3CommandType) :=
  [("policy", .getBucketPolicy), ("acl", .getBucketAcl), ("location", .getBucketLocation),
    ("cors", .getBucketCors), ("tagging", .getBucketTagging),
    ("accelerate", .getBucketAccelerate), ("object-lock", .getBucketObjectLock),
    ("website", .getBucketWebsite), ("requestPayment", .getBucketRequestPayment),
    ("ownershipControls", .getBucketOwnershipControls),
    ("publicAccessBlock", .getBucketPublicAccessBlock),
    ("replication", .getBucketReplication), ("notification", .getBucketNotificationConfiguration),
    ("versions", .listObjectVersions)]

def putResources : List (String × S3CommandType) :=
  [("policy", .putBucketPolicy), ("acl", .putBucketAcl), ("cors", .putBucketCors),
    ("tagging", .putBucketTagging), ("accelerate", .putBucketAccelerate),
    ("object-lock", .putBucketObjectLock), ("website", .putBucketWebsite),
    ("ownershipControls", .putBucketOwnershipControls),
    ("publicAccessBlock", .putBucketPublicAccessBlock)]

def deleteResources : List (String × S3CommandType) :=
  [("policy", .deleteBucketPolicy), ("cors", .deleteBucketCors),
    ("tagging", .deleteBucketTagging), ("website", .deleteBucketWebsite),
    ("ownershipControls", .deleteBucketOwnershipControls),
    ("publicAccessBlock", .deleteBucketPublicAccessBlock),
    ("replication", .deleteBucketReplication)]

def getCommandFromMethod (client : S3ClientCommand) : Checked S3CommandType :=
  match client.method with
  | .get =>
    if client.bucket = [] then .ok .listBuckets
    else if client.key = [] then firstResource client.url (.ok .listObjects) getResources
    else if client.rangeRequest && !client.partNumber then .ok .getObjectRange
    else .ok .getObject
  | .put =>
    if client.multipartRequest then
      .ok (if client.uploadPartCopy then .uploadPartCopy else .uploadPart)
    else if client.copyRequest then .ok .copyObject
    else if client.encryptionRequest then .ok .putBucketEncryption
    else if client.notificationRequest then .ok .bucketNotification
    else if client.versionRequest then .ok .putBucketVersioning
    else if client.lifecycleRequest then .ok .putBucketLifecycleConfiguration
    else
      firstResource client.url (.ok (if client.key = [] then .createBucket else .putObject))
        putResources
  | .post =>
    if client.bucket ≠ [] ∧ client.key ≠ [] then
      if client.uploads then .ok .createMultipartUpload
      else if client.uploadId ≠ [] then .ok .completeMultipartUpload
      else .ok client.command
    else if client.bucket ≠ [] then .ok .deleteObjects
    else .ok client.command
  | .delete =>
    if client.multipartRequest then .ok .abortMultipartUpload
    else
      firstResource client.url (.ok (if client.key = [] then .deleteBucket else .deleteObject))
        deleteResources
  | _ => .ok client.command

/-- `S3ClientCommand::FromRequest`. -/
def fromRequest (urls : UrlLibrary) (request : Request) (region user : Bytes) :
    Checked S3ClientCommand := do
  let userAgent ← UserAgent.fromRequest request
  let contentLength ← getContentLength request
  let bucket ← getS3BucketName urls request
  let key ← getS3ObjectKey urls request
  let uploads ← hasQueryParameter request.target (ascii "uploads")
  let uploadId ← getStringParameter urls request.target (ascii "uploadId")
  let partNumber ← hasQueryParameter request.target (ascii "partNumber")
  let lifecycleRequest ← hasQueryParameter request.target (ascii "lifecycle")
  let notificationRequest ← hasQueryParameter request.target (ascii "notification")
  let versionRequest ← hasQueryParameter request.target (ascii "versioning")
  let encryptionRequest ← hasQueryParameter request.target (ascii "encryption")
  let client : S3ClientCommand := {
    region, user, contentLength, bucket, key, uploads, uploadId, partNumber, lifecycleRequest,
    notificationRequest, versionRequest, encryptionRequest
    method := request.method
    contentType := getContentType request
    url := request.target
    host := request.get (ascii "Host")
    payload := request.body
    contentMd5 := getHeaderValue request (ascii "Content-MD5")
    storageClass := getHeaderValue request (ascii "x-amz-storage-class")
    uploadPartCopy := hasHeader request (ascii "x-amz-copy-source") &&
      hasHeader request (ascii "x-amz-copy-source-range")
    rangeRequest := hasHeader request (ascii "Range")
    multipartRequest := uploads || uploadId ≠ [] || partNumber
    copyRequest := hasHeader request (ascii "x-amz-copy-source") }
  if userAgent.clientCommand ≠ [] then
    return { client with command := client.getCommandFromUserAgent userAgent }
  else if hasHeader request (ascii "x-awsmock-target") then
    return { client with
      command := s3CommandTypeFromString (getHeaderValue request (ascii "x-awsmock-action")) }
  else
    let command ← client.getCommandFromMethod
    -- only a list of versions has a prefix
    let prefixText ← if command = .listObjectVersions then
      getStringParameter urls request.target (ascii "prefix") else .ok []
    return { client with command, prefixText }

end S3ClientCommand

end Commands

end AwsMock.Gateway
