import AwsMock.Foundation.UnorderedMap
import AwsMock.S3.Entity

/-! # The repositories

`IS3Repository` and its two implementations. Both keep buckets and objects under object
ids: the one in hash maps, in the order of iteration, the other in collections, in
natural order. The mutexes of the first are not nested, so that a call never waits. A
clock reading and an id that is drawn are arguments.
-/

namespace AwsMock.S3

open Foundation

structure Store where
  buckets : UnorderedMap String Bucket
  objects : UnorderedMap String Object

namespace Store

variable (store : Store)

def writeBucket (oid : String) (bucket : Bucket) : Store :=
  { store with buckets := store.buckets.assign oid bucket }

def writeObject (oid : String) (object : Object) : Store :=
  { store with objects := store.objects.assign oid object }

end Store

/-- `IS3Repository`: the functions the service uses. No result of `updateBucket` stands
for an iterator that points at nothing. -/
structure Repository where
  bucketExists : String → String → Store → Bool
  bucketArnExists : String → Store → Bool
  getBucketByRegionName : Time → String → String → Store → Bucket × Store
  getBucketByArn : Time → String → Store → Bucket × Store
  updateBucket : Time → Bucket → Store → Option (Bucket × Store)
  hasObjects : Bucket → Store → Bool
  listBucket : String → String → Store → List Object
  purgeBucket : Bucket → Store → Store
  deleteBucket : Bucket → Store → Store
  objectExists : String → String → String → Store → Bool
  createObject : String → Object → Store → Object × Store
  updateObject : Time → Object → Store → Object × Store
  getObject : Time → String → String → String → Store → Object × Store
  getObjectMd5 : Time → String → String → String → String → Store → Object × Store
  getObjectVersion : Time → String → String → String → String → Store → Object × Store
  deleteObject : Object → Store → Store
  deleteObjects : String → String → List String → Store → Store

/-- `createOrUpdateObject`, the same in both. -/
def Repository.createOrUpdateObject (repository : Repository) (now : Time) (oid : String)
    (object : Object) (store : Store) : Object × Store :=
  if repository.objectExists object.region object.bucket object.key store then
    repository.updateObject now object store
  else repository.createObject oid object store

def isInBucket (bucket : Bucket) (object : Object) : Bool :=
  object.region = bucket.region && object.bucket = bucket.name

namespace MemoryRepository

/-- The bucket found gets its key as object id, here and in the store. -/
def getBucketIf (now : Time) (select : Bucket → Bool) (store : Store) : Bucket × Store :=
  match store.buckets.findIf select with
  | some (oid, bucket) =>
    let bucket := { bucket with oid }
    (bucket, store.writeBucket oid bucket)
  | none => (Bucket.blank now, store)

def getObjectIf (now : Time) (select : Object → Bool) (store : Store) : Object × Store :=
  match store.objects.findIf select with
  | some (oid, object) =>
    let object := { object with oid }
    (object, store.writeObject oid object)
  | none => (Object.blank now, store)

def updateBucket (bucket : Bucket) (store : Store) : Option (Bucket × Store) :=
  match store.buckets.findIf (Bucket.isNamed · bucket.region bucket.name) with
  | some (oid, _) => some (bucket, store.writeBucket oid bucket)
  | none => none

def createObject (oid : String) (object : Object) (store : Store) : Object × Store :=
  ({ object with oid }, store.writeObject oid { object with oid })

/-- The object is looked for without its region and its version. -/
def updateObject (now : Time) (object : Object) (store : Store) : Object × Store :=
  match store.objects.findIf fun other => other.bucket = object.bucket && other.key = object.key with
  | some (oid, _) => (object, store.writeObject oid object)
  | none => (Object.blank now, store)

/-- The loop of `getObject`, which keeps the first of the newest objects. -/
def newest (region bucket key : String) :
    List (String × Object) → Option (String × Object) → Option (String × Object)
  | [], found => found
  | entry :: entries, found =>
    if entry.2.isAt region bucket key then
      match found with
      | none => newest region bucket key entries (some entry)
      | some best =>
        newest region bucket key entries
          (some (if best.2.modified < entry.2.modified then entry else best))
    else newest region bucket key entries found

def getObject (now : Time) (region bucket key : String) (store : Store) : Object × Store :=
  match newest region bucket key store.objects.entries none with
  | some (oid, object) =>
    let object := { object with oid }
    (object, store.writeObject oid object)
  | none => (Object.blank now, store)

end MemoryRepository

/-- `S3MemoryRepository`. -/
def memoryRepository : Repository where
  bucketExists region name store := (store.buckets.findIf (Bucket.isNamed · region name)).isSome
  bucketArnExists arn store := (store.buckets.findIf fun bucket => bucket.arn = arn).isSome
  getBucketByRegionName now region name :=
    MemoryRepository.getBucketIf now (Bucket.isNamed · region name)
  getBucketByArn now arn := MemoryRepository.getBucketIf now fun bucket => bucket.arn = arn
  updateBucket _ := MemoryRepository.updateBucket
  hasObjects bucket store := 0 < store.objects.countIf (isInBucket bucket)
  listBucket bucket start store :=
    let objects := store.objects.values
    let objects := if bucket = "" then objects
      else objects.filter fun object => object.bucket = bucket
    if start = "" then objects
    else objects.filter fun object => StringUtils.startsWith object.key start
  purgeBucket bucket store :=
    { store with objects := store.objects.eraseIf (isInBucket bucket) }
  deleteBucket bucket store :=
    { store with buckets := store.buckets.eraseIf (Bucket.isNamed · bucket.region bucket.name) }
  objectExists region bucket key store :=
    (store.objects.findIf (Object.isAt region bucket key)).isSome
  createObject := MemoryRepository.createObject
  updateObject := MemoryRepository.updateObject
  getObject := MemoryRepository.getObject
  getObjectMd5 now region bucket key md5sum :=
    MemoryRepository.getObjectIf now fun object =>
      object.isAt region bucket key && object.md5sum = md5sum
  getObjectVersion now region bucket key version :=
    MemoryRepository.getObjectIf now fun object =>
      object.isAt region bucket key && object.versionId = version
  deleteObject object store :=
    { store with
      objects := store.objects.eraseIf fun other =>
        other.bucket = object.bucket && other.key = object.key }
  deleteObjects region bucket keys store :=
    { store with
      objects := store.objects.eraseIf fun object =>
        object.region = region && object.bucket = bucket && object.key ∈ keys }

namespace MongoRepository

/-- `find_one` on buckets. The object id is the one of the document. -/
def getBucketIf (now : Time) (select : Bucket → Bool) (store : Store) : Bucket × Store :=
  match store.buckets.findIf select with
  | some (oid, bucket) => ({ bucket.fromDocument with oid }, store)
  | none => (Bucket.blank now, store)

/-- `find_one` on objects. -/
def getObjectIf (now : Time) (select : Object → Bool) (store : Store) : Object × Store :=
  match store.objects.findIf select with
  | some (oid, object) => ({ object with oid }, store)
  | none => (Object.blank now, store)

/-- `find_one_and_update` with a document in place of the first one found. -/
def updateBucket (now : Time) (bucket : Bucket) (store : Store) : Option (Bucket × Store) :=
  let bucket := { bucket with modified := now }
  match store.buckets.findIf (Bucket.isNamed · bucket.region bucket.name) with
  | some (oid, _) => some ({ bucket.fromDocument with oid }, store.writeBucket oid bucket)
  | none => some (Bucket.blank now, store)

def createObject (oid : String) (object : Object) (store : Store) : Object × Store :=
  ({ object with oid }, store.writeObject oid object)

def updateObject (now : Time) (object : Object) (store : Store) : Object × Store :=
  let object := { object with modified := now }
  match store.objects.findIf (Object.isAt object.region object.bucket object.key) with
  | some (oid, _) => ({ object with oid }, store.writeObject oid object)
  | none => (Object.blank now, store)

def newest (region bucket key : String) (entries : List (String × Object)) :
    Option (String × Object) :=
  ((entries.filter fun entry => entry.2.isAt region bucket key).mergeSort
    fun left right => right.2.modified ≤ left.2.modified).head?

def getObject (now : Time) (region bucket key : String) (store : Store) : Object × Store :=
  match newest region bucket key store.objects.entries with
  | some (oid, object) => ({ object with oid }, store)
  | none => (Object.blank now, store)

def deleteOne (select : Bucket → Bool) (buckets : UnorderedMap String Bucket) :
    UnorderedMap String Bucket where
  entries := buckets.entries.eraseP fun entry => select entry.2
  nodup := buckets.nodup.sublist (List.eraseP_sublist.map Prod.fst)

end MongoRepository

/-- `S3MongoRepository`. A criterion that is empty is left out of some queries. -/
def mongoRepository : Repository where
  bucketExists region name store := (store.buckets.findIf (Bucket.isNamed · region name)).isSome
  bucketArnExists arn store := (store.buckets.findIf fun bucket => bucket.arn = arn).isSome
  getBucketByRegionName now region name :=
    MongoRepository.getBucketIf now (Bucket.isNamed · region name)
  getBucketByArn now arn := MongoRepository.getBucketIf now fun bucket => bucket.arn = arn
  updateBucket := MongoRepository.updateBucket
  hasObjects bucket store := 0 < store.objects.countIf (isInBucket bucket)
  -- the start of a key is a regular expression, here one of plain text
  listBucket bucket start store :=
    store.objects.values.filter fun object =>
      (bucket = "" || object.bucket = bucket) &&
        (start = "" || StringUtils.startsWith object.key start)
  purgeBucket bucket store :=
    { store with objects := store.objects.eraseIf (isInBucket bucket) }
  deleteBucket bucket store :=
    { store with
      buckets := MongoRepository.deleteOne (fun other => other.name = bucket.name) store.buckets }
  objectExists region bucket key store :=
    (store.objects.findIf (Object.isAt region bucket key)).isSome
  createObject := MongoRepository.createObject
  updateObject := MongoRepository.updateObject
  getObject := MongoRepository.getObject
  getObjectMd5 now region bucket key md5sum :=
    MongoRepository.getObjectIf now fun object =>
      object.isAt region bucket key && object.md5sum = md5sum
  getObjectVersion now region bucket key version :=
    MongoRepository.getObjectIf now fun object =>
      object.isAt region bucket key && object.versionId = version
  deleteObject object store :=
    { store with
      objects := store.objects.eraseIf (Object.isAt object.region object.bucket object.key) }
  deleteObjects region bucket keys store :=
    { store with
      objects := store.objects.eraseIf fun object =>
        (region = "" || object.region = region) && (bucket = "" || object.bucket = bucket) &&
          (keys = [] || object.key ∈ keys) }

end AwsMock.S3
