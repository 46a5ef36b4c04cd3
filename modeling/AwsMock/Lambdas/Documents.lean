import AwsMock.Core.Fields

/-! # Functions as documents

`ToDocument` and `FromDocument` of a function with its instances, environment, code and event
sources. Two times are written and never read, some numbers are read with a narrower type than
they are written with, and the environment and the code keep what the document does not have.
-/

namespace AwsMock.Lambdas.Entity

open Foundation BsonUtils

inductive RuntimeStatus where
  | starting | idle | running | failed | stopped | unknown
deriving DecidableEq, Repr

namespace RuntimeStatus

def toString : RuntimeStatus → String
  | .starting => "starting"
  | .idle => "idle"
  | .running => "running"
  | .failed => "failed"
  | .stopped => "stopped"
  | .unknown => "unknown"

def fromString (lambdaState : String) : RuntimeStatus :=
  if lambdaState = "starting" then .starting
  else if lambdaState = "idle" then .idle
  else if lambdaState = "running" then .running
  else if lambdaState = "failed" then .failed
  else if lambdaState = "stopped" then .stopped
  else .unknown

theorem fromString_toString (status : RuntimeStatus) : fromString status.toString = status := by
  cases status <;> decide

end RuntimeStatus

/-- The object id and the region are inherited and never written. -/
structure Instance where
  oid : String := ""
  region : String := ""
  instanceId : String := ""
  containerId : String := ""
  containerName : String := ""
  publicPort : Int := 0
  privatePort : Int := 8080
  hostName : String := ""
  status : RuntimeStatus := .unknown
  runtimeVersion : String := ""
  invocations : Int := 0
  avgDuration : Rat := 0
  lastStart : Time := 0
  lastInvocation : Time := 0
  lastStop : Time := 0

structure EphemeralStorage where
  size : Int := 512

structure Environment where
  vars : StringMap String := ∅

structure Code where
  zipFile : String := ""
  s3Bucket : String := ""
  s3Key : String := ""
  s3ObjectVersion : String := ""

structure EventSourceMapping where
  type : String := ""
  eventSourceArn : String := ""
  batchSize : Int := 10
  maximumBatchingWindowInSeconds : Int := 5
  enabled : Bool := false
  uuid : String := ""

structure Lambda where
  oid : String := ""
  region : String := ""
  user : String := ""
  function : String := ""
  runtime : String := ""
  role : String := ""
  handler : String := ""
  memorySize : Int := 128
  ephemeralStorage : EphemeralStorage := {}
  codeSize : Int := 0
  imageId : String := ""
  imageSize : Int := 0
  containerId : String := ""
  containerSize : Int := 0
  tags : StringMap String := ∅
  arn : String := ""
  timeout : Int32 := 3600
  concurrency : Int := 5
  environment : Environment := {}
  codeSha256 : String := ""
  code : Code := {}
  dockerTag : String := ""
  lastStarted : Time := 0
  lastInvocation : Time := 0
  instances : List Instance := []
  eventSources : List EventSourceMapping := []
  invocations : Int := 0
  avgDuration : Int := 0
  enabled : Bool := false
  created : Time := 0
  modified : Time := 0

/-! ## Instances -/

namespace Instance

def toDocument (instance' : Instance) : Document :=
  [("id", .scalar (.string instance'.instanceId)),
    ("containerId", .scalar (.string instance'.containerId)),
    ("containerName", .scalar (.string instance'.containerName)),
    ("hostName", .scalar (.string instance'.hostName)),
    ("publicPort", .scalar (.int32 instance'.publicPort)),
    ("privatePort", .scalar (.int32 instance'.privatePort)),
    ("invocations", .scalar (.int64 instance'.invocations)),
    ("avgDuration", .scalar (.double instance'.avgDuration)),
    ("status", .scalar (.string instance'.status.toString)),
    ("runtimeVersion", .scalar (.string instance'.runtimeVersion)),
    ("lastStart", .scalar (.date instance'.lastStart)),
    ("lastInvocation", .scalar (.date instance'.lastInvocation)),
    ("lastStop", .scalar (.date instance'.lastStop))]

def fromDocument (instance' : Instance) (mResult : Document) : Except CoreException Instance := do
  let publicPort ← getIntValue mResult "publicPort"
  let privatePort ← getIntValue mResult "privatePort"
  let invocations ← getLongValue mResult "invocations"
  return { instance' with
    instanceId := getStringValue mResult "id"
    containerId := getStringValue mResult "containerId"
    containerName := getStringValue mResult "containerName"
    hostName := getStringValue mResult "hostName"
    publicPort
    privatePort
    status := .fromString (getStringValue mResult "status")
    runtimeVersion := getStringValue mResult "runtimeVersion"
    invocations
    avgDuration := getDoubleValue mResult "avgDuration"
    lastStart := getDateValue mResult "lastStart"
    lastStop := getDateValue mResult "lastStop"
    lastInvocation := getDateValue mResult "lastInvocation" }

def withoutId (instance' : Instance) : Instance := { instance' with oid := "" }

def persisted (instance' : Instance) : Instance := { instance' with oid := "", region := "" }

theorem fromDocument_toDocument (instance' : Instance) :
    fromDocument {} instance'.toDocument = .ok instance'.persisted := by
  have hpublic : getIntValue instance'.toDocument "publicPort" = .ok instance'.publicPort :=
    getIntValue_of_int32 (by simp [toDocument, Document.get?_cons])
  have hprivate : getIntValue instance'.toDocument "privatePort" = .ok instance'.privatePort :=
    getIntValue_of_int32 (by simp [toDocument, Document.get?_cons])
  have hinvocations : getLongValue instance'.toDocument "invocations" = .ok instance'.invocations :=
    getLongValue_of_int64 (by simp [toDocument, Document.get?_cons])
  rw [fromDocument, hpublic, ok_bind, hprivate, ok_bind, hinvocations, ok_bind]
  simp [toDocument, persisted, getStringValue, getDoubleValue, getDateValue, Document.get?_cons,
    RuntimeStatus.fromString_toString]
  rfl

theorem persisted_eq_iff {instance' : Instance} :
    instance'.persisted = instance'.withoutId ↔ instance'.region = "" := by
  obtain ⟨_, region, _⟩ := instance'
  simp only [persisted, withoutId, mk.injEq, true_and, and_true]
  exact eq_comm

end Instance

/-! ## Event sources, code and environment -/

namespace EventSourceMapping

def toDocument (mapping : EventSourceMapping) : Document :=
  [("type", .scalar (.string mapping.type)),
    ("eventSourceArn", .scalar (.string mapping.eventSourceArn)),
    ("batchSize", .scalar (.int64 mapping.batchSize)),
    ("maximumBatchingWindowInSeconds",
      .scalar (.int64 mapping.maximumBatchingWindowInSeconds)),
    ("enabled", .scalar (.bool mapping.enabled)),
    ("uuid", .scalar (.string mapping.uuid))]

def fromDocument (mResult : Document) : Except CoreException EventSourceMapping := do
  let batchSize ← getIntValue mResult "batchSize"
  let maximumBatchingWindowInSeconds ← getIntValue mResult "maximumBatchingWindowInSeconds"
  return {
    type := getStringValue mResult "type"
    eventSourceArn := getStringValue mResult "eventSourceArn"
    batchSize
    maximumBatchingWindowInSeconds
    enabled := getBoolValue mResult "enabled"
    uuid := getStringValue mResult "uuid" }

def persisted (mapping : EventSourceMapping) : EventSourceMapping :=
  { mapping with
    batchSize := toInt32 mapping.batchSize
    maximumBatchingWindowInSeconds := toInt32 mapping.maximumBatchingWindowInSeconds }

theorem fromDocument_toDocument (mapping : EventSourceMapping) :
    fromDocument mapping.toDocument = .ok mapping.persisted := by
  have hsize : getIntValue mapping.toDocument "batchSize" = .ok (toInt32 mapping.batchSize) :=
    getIntValue_of_int64 (by simp [toDocument, Document.get?_cons])
  have hwindow : getIntValue mapping.toDocument "maximumBatchingWindowInSeconds" =
      .ok (toInt32 mapping.maximumBatchingWindowInSeconds) :=
    getIntValue_of_int64 (by simp [toDocument, Document.get?_cons])
  rw [fromDocument, hsize, ok_bind, hwindow, ok_bind]
  simp [toDocument, persisted, getStringValue, getBoolValue, Document.get?_cons]
  rfl

theorem persisted_eq_iff {mapping : EventSourceMapping} :
    mapping.persisted = mapping ↔
      Fits32 mapping.batchSize ∧ Fits32 mapping.maximumBatchingWindowInSeconds := by
  obtain ⟨_, _, batchSize, window, _, _⟩ := mapping
  simp only [persisted, mk.injEq, true_and, and_true, toInt32_eq_iff]

end EventSourceMapping

namespace Code

/-- The fields of an object are written only when there is a bucket. -/
def toDocument (code : Code) : Document :=
  (if code.s3Bucket = "" then []
    else [("s3Bucket", .scalar (.string code.s3Bucket)), ("s3Key", .scalar (.string code.s3Key)),
      ("s3ObjectVersion", .scalar (.string code.s3ObjectVersion))]) ++
  (if code.zipFile = "" then [] else [("zipFile", .scalar (.string code.zipFile))])

def fromDocument (code : Code) (mResult : Document) : Code :=
  let code := match mResult.get? "zipFile" with
    | some _ => { code with zipFile := getStringValue mResult "zipFile" }
    | none => code
  match mResult.get? "s3Bucket" with
  | some _ => { code with
      s3Bucket := getStringValue mResult "s3Bucket"
      s3Key := getStringValue mResult "s3Key"
      s3ObjectVersion := getStringValue mResult "s3ObjectVersion" }
  | none => code

/-- The code is written, or the entity has what is not written. -/
structure Restores (filled code : Code) : Prop where
  zipFile : code.zipFile = "" → filled.zipFile = ""
  object : code.s3Bucket = "" → filled.s3Bucket = "" ∧ filled.s3Key = code.s3Key ∧
    filled.s3ObjectVersion = code.s3ObjectVersion

def decoded (filled code : Code) : Code where
  zipFile := if code.zipFile = "" then filled.zipFile else code.zipFile
  s3Bucket := if code.s3Bucket = "" then filled.s3Bucket else code.s3Bucket
  s3Key := if code.s3Bucket = "" then filled.s3Key else code.s3Key
  s3ObjectVersion := if code.s3Bucket = "" then filled.s3ObjectVersion else code.s3ObjectVersion

theorem fromDocument_toDocument (filled code : Code) :
    fromDocument filled code.toDocument = decoded filled code := by
  by_cases hbucket : code.s3Bucket = "" <;> by_cases hzip : code.zipFile = "" <;>
    simp [fromDocument, toDocument, decoded, hbucket, hzip, getStringValue, Document.get?_cons]

theorem decoded_eq_iff {filled code : Code} : decoded filled code = code ↔ Restores filled code := by
  obtain ⟨zipFile, s3Bucket, s3Key, s3ObjectVersion⟩ := code
  rw [decoded, mk.injEq]
  constructor
  · rintro ⟨hzip, hbucket, hkey, hversion⟩
    constructor
    · rintro rfl
      exact hzip
    · rintro rfl
      exact ⟨hbucket, hkey, hversion⟩
  · rintro ⟨hzip, hobject⟩
    by_cases hnone : s3Bucket = ""
    · subst hnone
      obtain ⟨hbucket, hkey, hversion⟩ := hobject rfl
      refine ⟨?_, hbucket, hkey, hversion⟩
      split
      next hempty => exact (hzip hempty).trans hempty.symm
      next => rfl
    · simp only [hnone, if_false, and_true]
      split
      next hempty => exact (hzip hempty).trans hempty.symm
      next => rfl

end Code

def Environment.fromDocument (environment : Environment) (mResult : Document) :
    Except CoreException Environment := do
  let vars ← readIfFound mResult "variables" environment.vars
    (readDocumentField (readMap byKey getString Std.ExtTreeMap.insertIfNew environment.vars))
  return { vars }

/-! ## Functions -/

namespace Lambda

def toDocument (lambda : Lambda) : Document :=
  let lambdaDoc := setStringValue [] "region" lambda.region
  let lambdaDoc := setStringValue lambdaDoc "arn" lambda.arn
  let lambdaDoc := setStringValue lambdaDoc "user" lambda.user
  let lambdaDoc := setStringValue lambdaDoc "function" lambda.function
  let lambdaDoc := setStringValue lambdaDoc "runtime" lambda.runtime
  let lambdaDoc := setStringValue lambdaDoc "role" lambda.role
  let lambdaDoc := setStringValue lambdaDoc "handler" lambda.handler
  let lambdaDoc := setStringValue lambdaDoc "imageId" lambda.imageId
  let lambdaDoc := setLongValue lambdaDoc "memorySize" lambda.memorySize
  let lambdaDoc := setLongValue lambdaDoc "codeSize" lambda.codeSize
  let lambdaDoc := setLongValue lambdaDoc "imageSize" lambda.imageSize
  let lambdaDoc := setStringValue lambdaDoc "containerId" lambda.containerId
  let lambdaDoc := setLongValue lambdaDoc "containerSize" lambda.containerSize
  let lambdaDoc := setDocumentValue lambdaDoc "tags" (stringsDocument lambda.tags)
  let lambdaDoc := setDocumentValue lambdaDoc "ephemeralStorage"
    [("size", .scalar (.int64 lambda.ephemeralStorage.size))]
  let lambdaDoc := setLongValue lambdaDoc "timeout" lambda.timeout.toInt
  let lambdaDoc := setLongValue lambdaDoc "concurrency" lambda.concurrency
  let lambdaDoc := setStringValue lambdaDoc "codeSha256" lambda.codeSha256
  let lambdaDoc := setDocumentValue lambdaDoc "environment"
    [("variables", .document (stringsDocument lambda.environment.vars))]
  let lambdaDoc := setDocumentValue lambdaDoc "code" lambda.code.toDocument
  let lambdaDoc := setArrayValue lambdaDoc "instances"
    (lambda.instances.map fun instance' => .document instance'.toDocument)
  let lambdaDoc := setLongValue lambdaDoc "invocations" lambda.invocations
  let lambdaDoc := setLongValue lambdaDoc "avgDuration" lambda.avgDuration
  let lambdaDoc := setStringValue lambdaDoc "dockerTag" lambda.dockerTag
  let lambdaDoc := setBoolValue lambdaDoc "enabled" lambda.enabled
  let lambdaDoc := setArrayValue lambdaDoc "eventSources"
    (lambda.eventSources.map fun mapping => .document mapping.toDocument)
  let lambdaDoc := setDateValue lambdaDoc "lastStart" lambda.lastStarted
  let lambdaDoc := setDateValue lambdaDoc "lastInvocation" lambda.lastInvocation
  let lambdaDoc := setDateValue lambdaDoc "created" lambda.created
  setDateValue lambdaDoc "modified" lambda.modified

/-- Neither the last start nor the last invocation is read. -/
def fromDocument (lambda : Lambda) (mResult : Document) : Except CoreException Lambda := do
  let memorySize ← getLongValue mResult "memorySize"
  let ephemeralStorage ← getDocument (mResult.get? "ephemeralStorage")
  let size ← getLongValue ephemeralStorage "size"
  let codeSize ← getLongValue mResult "codeSize"
  let imageSize ← getLongValue mResult "imageSize"
  let containerSize ← getLongValue mResult "containerSize"
  let timeout ← getIntValue mResult "timeout"
  let concurrency ← getIntValue mResult "concurrency"
  let invocations ← getLongValue mResult "invocations"
  let avgDuration ← getLongValue mResult "avgDuration"
  let environment ← readIfFound mResult "environment" lambda.environment
    (readDocumentField lambda.environment.fromDocument)
  let tags ← readIfFound mResult "tags" lambda.tags
    (readDocumentField (readMap byKey getString Std.ExtTreeMap.insertIfNew ∅))
  let code ← readIfFound mResult "code" lambda.code
    (readDocumentField fun codeDoc => .ok (lambda.code.fromDocument codeDoc))
  let instances ← readIfFound mResult "instances" lambda.instances
    (readArrayField (readDocumentField (Instance.fromDocument {})) [])
  let eventSources ← readIfFound mResult "eventSources" lambda.eventSources
    (readArrayField (readDocumentField EventSourceMapping.fromDocument) [])
  return { lambda with
    oid := getOidValue mResult "_id"
    region := getStringValue mResult "region"
    user := getStringValue mResult "user"
    function := getStringValue mResult "function"
    runtime := getStringValue mResult "runtime"
    role := getStringValue mResult "role"
    handler := getStringValue mResult "handler"
    memorySize
    ephemeralStorage := { size }
    codeSize
    imageId := getStringValue mResult "imageId"
    imageSize
    containerId := getStringValue mResult "containerId"
    containerSize
    arn := getStringValue mResult "arn"
    codeSha256 := getStringValue mResult "codeSha256"
    timeout := Int32.ofInt timeout
    concurrency
    invocations
    avgDuration
    dockerTag := getStringValue mResult "dockerTag"
    enabled := getBoolValue mResult "enabled"
    created := getDateValue mResult "created"
    modified := getDateValue mResult "modified"
    environment
    tags
    code
    instances
    eventSources }

def fields (lambda : Lambda) : List (String × Option Value) :=
  [("region", textField lambda.region), ("arn", textField lambda.arn),
    ("user", textField lambda.user), ("function", textField lambda.function),
    ("runtime", textField lambda.runtime), ("role", textField lambda.role),
    ("handler", textField lambda.handler), ("imageId", textField lambda.imageId),
    ("memorySize", some (.scalar (.int64 lambda.memorySize))),
    ("codeSize", some (.scalar (.int64 lambda.codeSize))),
    ("imageSize", some (.scalar (.int64 lambda.imageSize))),
    ("containerId", textField lambda.containerId),
    ("containerSize", some (.scalar (.int64 lambda.containerSize))),
    ("tags", some (.document (stringsDocument lambda.tags))),
    ("ephemeralStorage",
      some (.document [("size", .scalar (.int64 lambda.ephemeralStorage.size))])),
    ("timeout", some (.scalar (.int64 lambda.timeout.toInt))),
    ("concurrency", some (.scalar (.int64 lambda.concurrency))),
    ("codeSha256", textField lambda.codeSha256),
    ("environment",
      some (.document [("variables", .document (stringsDocument lambda.environment.vars))])),
    ("code", some (.document lambda.code.toDocument)),
    ("instances",
      some (.array (lambda.instances.map fun instance' => .document instance'.toDocument))),
    ("invocations", some (.scalar (.int64 lambda.invocations))),
    ("avgDuration", some (.scalar (.int64 lambda.avgDuration))),
    ("dockerTag", textField lambda.dockerTag),
    ("enabled", some (.scalar (.bool lambda.enabled))),
    ("eventSources",
      some (.array (lambda.eventSources.map fun mapping => .document mapping.toDocument))),
    ("lastStart", some (.scalar (.date lambda.lastStarted))),
    ("lastInvocation", some (.scalar (.date lambda.lastInvocation))),
    ("created", some (.scalar (.date lambda.created))),
    ("modified", some (.scalar (.date lambda.modified)))]

theorem toDocument_eq (lambda : Lambda) : lambda.toDocument = Document.ofFields lambda.fields := by
  simp only [toDocument, setStringValue_eq, setLongValue_eq, setDateValue_eq, setDocumentValue_eq,
    setArrayValue_eq, setBoolValue_eq, ← Document.ofFields_append, List.nil_append,
    List.append_assoc]
  rfl

theorem nodup_fields (lambda : Lambda) : (lambda.fields.map Prod.fst).Nodup := by
  simp [fields]

theorem get?_toDocument {lambda : Lambda} {name : String} {value : Option Value} (place : Nat)
    (hfield : lambda.fields[place]? = some (name, value)) :
    lambda.toDocument.get? name = value := by
  rw [toDocument_eq]
  exact Document.get?_ofFields (nodup_fields lambda) place hfield

/-- What decoding the document of a function leaves in an entity. -/
def decoded (filled lambda : Lambda) : Lambda :=
  { lambda with
    oid := ""
    concurrency := toInt32 lambda.concurrency
    environment := ⟨.emplaceAll filled.environment.vars lambda.environment.vars⟩
    code := .decoded filled.code lambda.code
    lastStarted := filled.lastStarted
    lastInvocation := filled.lastInvocation
    instances := lambda.instances.map Instance.persisted
    eventSources := lambda.eventSources.map EventSourceMapping.persisted }

theorem fromDocument_toDocument (filled lambda : Lambda) :
    fromDocument filled lambda.toDocument = .ok (decoded filled lambda) := by
  have hstorage : getLongValue [("size", .scalar (.int64 lambda.ephemeralStorage.size))] "size" =
      .ok lambda.ephemeralStorage.size := getLongValue_of_int64 rfl
  have henvironment : filled.environment.fromDocument
      [("variables", .document (stringsDocument lambda.environment.vars))] =
        .ok ⟨.emplaceAll filled.environment.vars lambda.environment.vars⟩ := by
    have hfield : Document.get? "variables"
        [("variables", .document (stringsDocument lambda.environment.vars))] =
          some (.document (stringsDocument lambda.environment.vars)) := rfl
    rw [Environment.fromDocument, readIfFound_of_some hfield, readDocumentField_document,
      readMap_stringsDocument, ok_bind]
    rfl
  have htimeout : Int32.ofInt (toInt32 lambda.timeout.toInt) = lambda.timeout := by
    rw [toInt32_of_fits lambda.timeout.le_toInt lambda.timeout.toInt_lt, Int32.ofInt_toInt]
  have hinstances : readElements (readDocumentField (Instance.fromDocument {})) []
      (lambda.instances.map fun instance' => .document instance'.toDocument) =
        .ok (lambda.instances.map Instance.persisted) :=
    readElements_map Instance.fromDocument_toDocument [] _
  have hsources : readElements (readDocumentField EventSourceMapping.fromDocument) []
      (lambda.eventSources.map fun mapping => .document mapping.toDocument) =
        .ok (lambda.eventSources.map EventSourceMapping.persisted) :=
    readElements_map EventSourceMapping.fromDocument_toDocument [] _
  have hid : lambda.toDocument.get? "_id" = none := by
    rw [toDocument_eq]
    exact Document.get?_ofFields_of_notMem (by simp [fields])
  have hdocument : getDocument (lambda.toDocument.get? "ephemeralStorage") =
      .ok [("size", .scalar (.int64 lambda.ephemeralStorage.size))] := by
    rw [get?_toDocument 14 rfl]
    rfl
  rw [fromDocument, getLongValue_of_int64 (get?_toDocument 8 rfl), ok_bind, hdocument, ok_bind,
    hstorage, ok_bind, getLongValue_of_int64 (get?_toDocument 9 rfl), ok_bind,
    getLongValue_of_int64 (get?_toDocument 10 rfl), ok_bind,
    getLongValue_of_int64 (get?_toDocument 12 rfl), ok_bind,
    getIntValue_of_int64 (get?_toDocument 15 rfl), ok_bind,
    getIntValue_of_int64 (get?_toDocument 16 rfl), ok_bind,
    getLongValue_of_int64 (get?_toDocument 21 rfl), ok_bind,
    getLongValue_of_int64 (get?_toDocument 22 rfl), ok_bind,
    readIfFound_of_some (get?_toDocument 18 rfl), readDocumentField_document, henvironment, ok_bind,
    readIfFound_of_some (get?_toDocument 13 rfl), readDocumentField_document,
    readMap_stringsDocument, ok_bind,
    readIfFound_of_some (get?_toDocument 19 rfl), readDocumentField_document,
    Code.fromDocument_toDocument, ok_bind,
    readIfFound_of_some (get?_toDocument 20 rfl), readArrayField_array, hinstances, ok_bind,
    readIfFound_of_some (get?_toDocument 25 rfl), readArrayField_array, hsources, ok_bind,
    getOidValue_of_none hid, htimeout,
    getStringValue_of_textField (get?_toDocument 0 rfl),
    getStringValue_of_textField (get?_toDocument 1 rfl),
    getStringValue_of_textField (get?_toDocument 2 rfl),
    getStringValue_of_textField (get?_toDocument 3 rfl),
    getStringValue_of_textField (get?_toDocument 4 rfl),
    getStringValue_of_textField (get?_toDocument 5 rfl),
    getStringValue_of_textField (get?_toDocument 6 rfl),
    getStringValue_of_textField (get?_toDocument 7 rfl),
    getStringValue_of_textField (get?_toDocument 11 rfl),
    getStringValue_of_textField (get?_toDocument 17 rfl),
    getStringValue_of_textField (get?_toDocument 23 rfl),
    getBoolValue_of_bool (get?_toDocument 24 rfl),
    getDateValue_of_date (get?_toDocument 28 rfl), getDateValue_of_date (get?_toDocument 29 rfl)]
  have htags : lambda.tags.toList.foldl
      (fun result entry => result.insertIfNew entry.1 entry.2) ∅ = lambda.tags :=
    StringMap.emplaceAll_empty
  simp only [htags, decoded]
  rfl

/-- The object ids of the function and of its instances left out. -/
def withoutIds (lambda : Lambda) : Lambda :=
  { lambda with oid := "", instances := lambda.instances.map Instance.withoutId }

/-- Every field is restored, whatever the document is decoded into. -/
def RoundTrips (filled lambda : Lambda) : Prop :=
  ∃ restored, fromDocument filled lambda.toDocument = .ok restored ∧
    restored.withoutIds = lambda.withoutIds

/-- The times are already in the entity, numbers are integers of 32 bits, no instance has a
region, and the entity has nothing of environment and code that the function does not have. -/
structure LosesNothing (filled lambda : Lambda) : Prop where
  lastStarted : lambda.lastStarted = filled.lastStarted
  lastInvocation : lambda.lastInvocation = filled.lastInvocation
  concurrency : Fits32 lambda.concurrency
  eventSources : ∀ mapping ∈ lambda.eventSources,
    Fits32 mapping.batchSize ∧ Fits32 mapping.maximumBatchingWindowInSeconds
  instances : ∀ instance' ∈ lambda.instances, instance'.region = ""
  environment : ∀ (key value : String), filled.environment.vars[key]? = some value →
    lambda.environment.vars[key]? = some value
  code : Code.Restores filled.code lambda.code

theorem lambda_roundTrips_iff (filled lambda : Lambda) :
    RoundTrips filled lambda ↔ LosesNothing filled lambda := by
  have hinstances : lambda.instances.map Instance.persisted =
      lambda.instances.map Instance.withoutId ↔
      ∀ instance' ∈ lambda.instances, instance'.region = "" := by
    simp only [List.map_inj_left, Instance.persisted_eq_iff]
  have hsources : lambda.eventSources.map EventSourceMapping.persisted = lambda.eventSources ↔
      ∀ mapping ∈ lambda.eventSources,
        Fits32 mapping.batchSize ∧ Fits32 mapping.maximumBatchingWindowInSeconds := by
    simp only [map_eq_self_iff, EventSourceMapping.persisted_eq_iff]
  have henvironment : (⟨.emplaceAll filled.environment.vars lambda.environment.vars⟩ :
      Environment) = lambda.environment ↔
      ∀ (key value : String), filled.environment.vars[key]? = some value →
        lambda.environment.vars[key]? = some value := by
    rw [← StringMap.emplaceAll_eq_iff]
    exact ⟨congrArg Environment.vars, fun heq => congrArg Environment.mk heq⟩
  have hkept : (decoded filled lambda).withoutIds = lambda.withoutIds ↔
      LosesNothing filled lambda := by
    have hpersisted : lambda.instances.map (Instance.withoutId ∘ Instance.persisted) =
        lambda.instances.map Instance.persisted := rfl
    rw [withoutIds, withoutIds, decoded]
    simp only [mk.injEq, true_and, and_true, List.map_map, hpersisted, toInt32_eq_iff, hinstances,
      hsources, henvironment, Code.decoded_eq_iff]
    constructor
    · rintro ⟨hconcurrency, henv, hcode, hstarted, hinvocation, hregions, hsizes⟩
      exact ⟨hstarted.symm, hinvocation.symm, hconcurrency, hsizes, hregions, henv, hcode⟩
    · rintro ⟨hstarted, hinvocation, hconcurrency, hsizes, hregions, henv, hcode⟩
      exact ⟨hconcurrency, henv, hcode, hstarted.symm, hinvocation.symm, hregions, hsizes⟩
  rw [RoundTrips, fromDocument_toDocument]
  constructor
  · rintro ⟨restored, hrestored, heq⟩
    cases hrestored
    exact hkept.mp heq
  · intro hloses
    exact ⟨_, rfl, hkept.mpr hloses⟩

/-- The time of the last start is lost. -/
theorem not_lambda_roundTrips : ¬RoundTrips {} { lastStarted := 1700000000000 } := by
  rintro ⟨restored, hrestored, heq⟩
  rw [fromDocument_toDocument] at hrestored
  cases hrestored
  exact absurd (congrArg lastStarted heq) (by decide)

end Lambda

end AwsMock.Lambdas.Entity
