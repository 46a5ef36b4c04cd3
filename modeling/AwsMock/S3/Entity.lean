import AwsMock.Core.Text

/-! # Buckets and objects

The entities of the object store. Metadata is a `std::map`, as an association list
in which the first entry of a name counts.
-/

namespace AwsMock.S3

structure FilterRule where
  name : String
  value : String
deriving DecidableEq, Repr

structure QueueNotification where
  id : String
  queueArn : String
  events : List String
  filterRules : List FilterRule
deriving DecidableEq, Repr

structure TopicNotification where
  id : String
  topicArn : String
  events : List String
  filterRules : List FilterRule
deriving DecidableEq, Repr

structure LambdaNotification where
  id : String
  lambdaArn : String
  events : List String
  filterRules : List FilterRule
deriving DecidableEq, Repr

structure BucketEncryption where
  sseAlgorithm : String := ""
  kmsKeyId : String := ""
deriving DecidableEq, Repr

inductive BucketVersionStatus where
  | enabled
  | suspended
  | disabled
deriving DecidableEq, Repr

inductive StorageClass where
  | standard
  | standardIa
  | onezoneIa
  | expressOnezone
  | glacier
  | glacierIr
  | deepArchive
  | intelligentTiering
  | reducedRedundancy
deriving DecidableEq, Repr

/-- `StorageClassNames`. -/
def storageClassNames : List (StorageClass × String) :=
  [(.standard, "STANDARD"), (.standardIa, "STANDARD_IA"), (.onezoneIa, "ONEZONE_IA"),
    (.expressOnezone, "EXPRESS_ONEZONE"), (.glacier, "GLACIER"), (.glacierIr, "GLACIER_IR"),
    (.deepArchive, "DEEP_ARCHIVE"), (.intelligentTiering, "INTELLIGENT_TIERING"),
    (.reducedRedundancy, "REDUCED_REDUNDANCY")]

/-- `StorageClassFromString`. -/
def StorageClass.fromString (storageClass : String) : StorageClass :=
  ((storageClassNames.find? fun entry => entry.2 = storageClass).map Prod.fst).getD .standard

/-- `std::map<std::string, std::string>`. -/
abbrev Metadata := List (String × String)

/-- `merge`: entries of another map are moved over unless their name is there. -/
def Metadata.merge (metadata source : Metadata) : Metadata :=
  metadata ++ source.filter fun entry => entry.1 ∉ metadata.map Prod.fst

structure Bucket where
  oid : String := ""
  region : String := ""
  name : String := ""
  owner : String := ""
  arn : String := ""
  size : Int := 0
  keys : Int := 0
  queueNotifications : List QueueNotification := []
  topicNotifications : List TopicNotification := []
  lambdaNotifications : List LambdaNotification := []
  defaultMetadata : Metadata := []
  versionStatus : BucketVersionStatus := .disabled
  bucketEncryption : BucketEncryption := {}
  created : Time
  modified : Time
deriving DecidableEq, Repr

structure Object where
  oid : String := ""
  region : String := ""
  bucket : String := ""
  bucketArn : String := ""
  key : String := ""
  owner : String := ""
  size : Int := 0
  md5sum : String := ""
  sha1sum : String := ""
  sha256sum : String := ""
  contentType : String := ""
  metadata : Metadata := []
  internalName : String := ""
  versionId : String := ""
  localName : String := ""
  storageClass : StorageClass := .standard
  created : Time
  modified : Time
deriving DecidableEq, Repr

def Bucket.blank (now : Time) : Bucket := { created := now, modified := now }

def Object.blank (now : Time) : Object := { created := now, modified := now }

namespace Bucket

variable (bucket : Bucket)

def isVersioned : Bool := bucket.versionStatus = .enabled

def hasEncryption : Bool :=
  bucket.bucketEncryption.kmsKeyId ≠ "" && bucket.bucketEncryption.sseAlgorithm ≠ ""

def isNamed (region name : String) : Bool := bucket.region = region && bucket.name = name

/-- What `FromDocument` reads of the document that `ToDocument` writes. The encryption is
written under another name than it is read, and the events of a topic are not read. -/
def fromDocument : Bucket :=
  { bucket with
    bucketEncryption := {}
    topicNotifications := bucket.topicNotifications.map fun notification =>
      { notification with events := [] } }

end Bucket

def Object.isAt (region bucket key : String) (object : Object) : Bool :=
  object.region = region && object.bucket = bucket && object.key = key

end AwsMock.S3
