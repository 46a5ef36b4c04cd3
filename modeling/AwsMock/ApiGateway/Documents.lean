import AwsMock.Core.Fields

/-! # REST APIs as documents

`ToDocument` and `FromDocument` of a REST API with its resources, their methods and its
authorizers. A field that the encoder does not write is kept from the entity that is decoded
into; nested entities are decoded into new ones.
-/

namespace AwsMock.ApiGateway.Entity

open Foundation BsonUtils

inductive ApiKeySourceType where
  | header | authorizer | unknown
deriving DecidableEq, Repr

namespace ApiKeySourceType

def toString : ApiKeySourceType → String
  | .header => "HEADER"
  | .authorizer => "AUTHORIZER"
  | .unknown => "UNKNOWN"

def fromString (s : String) : ApiKeySourceType :=
  if s = "HEADER" then .header
  else if s = "AUTHORIZER" then .authorizer
  else .unknown

theorem fromString_toString (source : ApiKeySourceType) : fromString source.toString = source := by
  cases source <;> decide

end ApiKeySourceType

inductive ApiStatusType where
  | updating | available | pending | failed | unknown
deriving DecidableEq, Repr

structure ResourceMethod where
  oid : String := ""
  region : String := ""
  apiKeyRequired : Bool := false
  httpMethod : String := ""
  integrationType : String := ""
  integrationUri : String := ""
  integrationHttpMethod : String := ""

structure Resource where
  oid : String := ""
  region : String := ""
  id : String := ""
  parentId : String := ""
  path : String := ""
  pathPart : String := ""
  url : String := ""
  resourceMethods : StringMap ResourceMethod := ∅
  created : Time := 0
  modified : Time := 0

structure Authorizer where
  oid : String := ""
  region : String := ""
  id : String := ""
  name : String := ""
  type : String := ""
  authType : String := ""
  authorizerUri : String := ""
  identitySource : String := ""
  authorizerResultTtlInSeconds : Int := 0
  created : Time := 0
  modified : Time := 0

structure RestApi where
  oid : String := ""
  region : String := ""
  id : String := ""
  name : String := ""
  description : String := ""
  endpointUrl : String := ""
  apiKeySource : ApiKeySourceType := .header
  cloneFrom : String := ""
  version : String := ""
  policy : String := ""
  rootResourceId : String := ""
  authorizers : StringMap Authorizer := ∅
  resources : StringMap Resource := ∅
  tags : StringMap String := ∅
  binaryMediaTypes : List String := []
  warnings : List String := []
  disableExecuteApiEndpoint : Bool := false
  minimumCompressionSize : Int := 0
  enabled : Bool := false
  apiStatus : ApiStatusType := .unknown
  created : Time := 0
  modified : Time := 0

/-! ## Methods -/

namespace ResourceMethod

def toDocument (method : ResourceMethod) : Document :=
  [("region", .scalar (.string method.region)),
    ("apiKeyRequired", .scalar (.bool method.apiKeyRequired)),
    ("httpMethod", .scalar (.string method.httpMethod)),
    ("integrationType", .scalar (.string method.integrationType)),
    ("integrationUri", .scalar (.string method.integrationUri)),
    ("integrationHttpMethod", .scalar (.string method.integrationHttpMethod))]

def fromDocument (method : ResourceMethod) (mResult : Document) :
    Except CoreException ResourceMethod :=
  .ok { method with
    region := getStringValue mResult "region"
    apiKeyRequired := getBoolValue mResult "apiKeyRequired"
    httpMethod := getStringValue mResult "httpMethod"
    integrationType := getStringValue mResult "integrationType"
    integrationUri := getStringValue mResult "integrationUri"
    integrationHttpMethod := getStringValue mResult "integrationHttpMethod" }

def persisted (method : ResourceMethod) : ResourceMethod := { method with oid := "" }

theorem fromDocument_toDocument (method : ResourceMethod) :
    fromDocument {} method.toDocument = .ok method.persisted := by
  simp [fromDocument, toDocument, persisted, getStringValue, getBoolValue, Document.get?_cons]

end ResourceMethod

/-! ## Resources -/

namespace Resource

def toDocument (resource : Resource) : Document :=
  [("region", .scalar (.string resource.region)),
    ("id", .scalar (.string resource.id)),
    ("parentId", .scalar (.string resource.parentId)),
    ("path", .scalar (.string resource.path)),
    ("pathPart", .scalar (.string resource.pathPart)),
    ("url", .scalar (.string resource.url)),
    ("created", .scalar (.date resource.created)),
    ("modified", .scalar (.date resource.modified)),
    ("resourceMethods",
      .document (mapDocument (fun method => .document method.toDocument) resource.resourceMethods))]

def fromDocument (resource : Resource) (mResult : Document) : Except CoreException Resource := do
  let resourceMethods ← readIfFound mResult "resourceMethods" resource.resourceMethods
    (readDocumentField (readMap element (readDocumentField (ResourceMethod.fromDocument {}))
      Std.ExtTreeMap.insert ∅))
  return { resource with
    oid := getOidValue mResult "_id"
    region := getStringValue mResult "region"
    id := getStringValue mResult "id"
    parentId := getStringValue mResult "parentId"
    path := getStringValue mResult "path"
    pathPart := getStringValue mResult "pathPart"
    url := getStringValue mResult "url"
    resourceMethods
    created := getDateValue mResult "created"
    modified := getDateValue mResult "modified" }

def persisted (resource : Resource) : Resource :=
  { resource with
    oid := ""
    resourceMethods := resource.resourceMethods.map fun _ => ResourceMethod.persisted }

theorem readMethods (methods : StringMap ResourceMethod) :
    readMap element (readDocumentField (ResourceMethod.fromDocument {})) Std.ExtTreeMap.insert ∅
        (mapDocument (fun method => .document method.toDocument) methods) =
      .ok (methods.map fun _ => ResourceMethod.persisted) := by
  rw [readMap_mapDocument (fun _ _ => rfl) ResourceMethod.fromDocument_toDocument]
  exact congrArg Except.ok StringMap.assignAll_empty

theorem fromDocument_toDocument (filled resource : Resource) :
    fromDocument filled resource.toDocument = .ok resource.persisted := by
  have hfield : resource.toDocument.get? "resourceMethods" =
      some (.document (mapDocument (fun method => .document method.toDocument)
        resource.resourceMethods)) := by
    simp [toDocument, Document.get?_cons]
  rw [fromDocument, readIfFound_of_some hfield, readDocumentField_document, readMethods, ok_bind]
  simp [toDocument, persisted, getOidValue, getStringValue, getDateValue, Document.get?_cons]
  rfl

end Resource

/-! ## Authorizers -/

namespace Authorizer

def toDocument (authorizer : Authorizer) : Document :=
  [("id", .scalar (.string authorizer.id)),
    ("name", .scalar (.string authorizer.name)),
    ("type", .scalar (.string authorizer.type)),
    ("authType", .scalar (.string authorizer.authType)),
    ("authorizerUri", .scalar (.string authorizer.authorizerUri)),
    ("identitySource", .scalar (.string authorizer.identitySource)),
    ("authorizerResultTtlInSeconds", .scalar (.int64 authorizer.authorizerResultTtlInSeconds)),
    ("created", .scalar (.date authorizer.created)),
    ("modified", .scalar (.date authorizer.modified))]

def fromDocument (authorizer : Authorizer) (mResult : Document) :
    Except CoreException Authorizer := do
  let authorizerResultTtlInSeconds ← getLongValue mResult "authorizerResultTtlInSeconds"
  return { authorizer with
    id := getStringValue mResult "id"
    name := getStringValue mResult "name"
    type := getStringValue mResult "type"
    authType := getStringValue mResult "authType"
    authorizerUri := getStringValue mResult "authorizerUri"
    identitySource := getStringValue mResult "identitySource"
    authorizerResultTtlInSeconds
    created := getDateValue mResult "created"
    modified := getDateValue mResult "modified" }

def persisted (authorizer : Authorizer) : Authorizer := { authorizer with oid := "", region := "" }

theorem fromDocument_toDocument (authorizer : Authorizer) :
    fromDocument {} authorizer.toDocument = .ok authorizer.persisted := by
  have httl : getLongValue authorizer.toDocument "authorizerResultTtlInSeconds" =
      .ok authorizer.authorizerResultTtlInSeconds :=
    getLongValue_of_int64 (by simp [toDocument, Document.get?_cons])
  rw [fromDocument, httl, ok_bind]
  simp [toDocument, persisted, getStringValue, getDateValue, Document.get?_cons]
  rfl

end Authorizer

/-! ## REST APIs -/

namespace RestApi

def toDocument (restApi : RestApi) : Document :=
  [("region", .scalar (.string restApi.region)),
    ("id", .scalar (.string restApi.id)),
    ("name", .scalar (.string restApi.name)),
    ("description", .scalar (.string restApi.description)),
    ("endpointUrl", .scalar (.string restApi.endpointUrl)),
    ("apiKeySource", .scalar (.string restApi.apiKeySource.toString)),
    ("version", .scalar (.string restApi.version)),
    ("cloneFrom", .scalar (.string restApi.cloneFrom)),
    ("policy", .scalar (.string restApi.policy)),
    ("rootResourceId", .scalar (.string restApi.rootResourceId)),
    ("disableExecuteApiEndpoint", .scalar (.bool restApi.disableExecuteApiEndpoint)),
    ("minimumCompressionSize", .scalar (.int64 restApi.minimumCompressionSize)),
    ("enabled", .scalar (.bool restApi.enabled)),
    ("created", .scalar (.date restApi.created)),
    ("modified", .scalar (.date restApi.modified)),
    ("tags", .document (stringsDocument restApi.tags)),
    ("binaryMediaTypes", .array (stringValues restApi.binaryMediaTypes)),
    ("warnings", .array (stringValues restApi.warnings)),
    ("authorizers",
      .document (mapDocument (fun authorizer => .document authorizer.toDocument)
        restApi.authorizers)),
    ("resources",
      .document (mapDocument (fun resource => .document resource.toDocument) restApi.resources))]

def fromDocument (restApi : RestApi) (mResult : Document) : Except CoreException RestApi := do
  let minimumCompressionSize ← getLongValue mResult "minimumCompressionSize"
  let tags ← readIfFound mResult "tags" restApi.tags
    (readDocumentField (readMap byKey getString Std.ExtTreeMap.insert ∅))
  let binaryMediaTypes ← readIfFound mResult "binaryMediaTypes" restApi.binaryMediaTypes
    (readArrayField getString [])
  let warnings ← readIfFound mResult "warnings" restApi.warnings (readArrayField getString [])
  let authorizers ← readIfFound mResult "authorizers" restApi.authorizers
    (readDocumentField (readMap element (readDocumentField (Authorizer.fromDocument {}))
      Std.ExtTreeMap.insert ∅))
  let resources ← readIfFound mResult "resources" restApi.resources
    (readDocumentField (readMap element (readDocumentField (Resource.fromDocument {}))
      Std.ExtTreeMap.insert ∅))
  return { restApi with
    oid := getOidValue mResult "_id"
    region := getStringValue mResult "region"
    id := getStringValue mResult "id"
    name := getStringValue mResult "name"
    description := getStringValue mResult "description"
    endpointUrl := getStringValue mResult "endpointUrl"
    apiKeySource := .fromString (getStringValue mResult "apiKeySource")
    version := getStringValue mResult "version"
    cloneFrom := getStringValue mResult "cloneFrom"
    policy := getStringValue mResult "policy"
    rootResourceId := getStringValue mResult "rootResourceId"
    disableExecuteApiEndpoint := getBoolValue mResult "disableExecuteApiEndpoint"
    minimumCompressionSize
    enabled := getBoolValue mResult "enabled"
    created := getDateValue mResult "created"
    modified := getDateValue mResult "modified"
    tags
    binaryMediaTypes
    warnings
    authorizers
    resources }

def persisted (restApi : RestApi) : RestApi :=
  { restApi with
    oid := ""
    apiStatus := .unknown
    authorizers := restApi.authorizers.map fun _ => Authorizer.persisted
    resources := restApi.resources.map fun _ => Resource.persisted }

theorem readAuthorizers (authorizers : StringMap Authorizer) :
    readMap element (readDocumentField (Authorizer.fromDocument {})) Std.ExtTreeMap.insert ∅
        (mapDocument (fun authorizer => .document authorizer.toDocument) authorizers) =
      .ok (authorizers.map fun _ => Authorizer.persisted) := by
  rw [readMap_mapDocument (fun _ _ => rfl) Authorizer.fromDocument_toDocument]
  exact congrArg Except.ok StringMap.assignAll_empty

theorem readResources (resources : StringMap Resource) :
    readMap element (readDocumentField (Resource.fromDocument {})) Std.ExtTreeMap.insert ∅
        (mapDocument (fun resource => .document resource.toDocument) resources) =
      .ok (resources.map fun _ => Resource.persisted) := by
  rw [readMap_mapDocument (fun _ _ => rfl) (Resource.fromDocument_toDocument {})]
  exact congrArg Except.ok StringMap.assignAll_empty

theorem readTags (tags : StringMap String) :
    readMap byKey getString Std.ExtTreeMap.insert ∅ (stringsDocument tags) = .ok tags :=
  (readMap_stringsDocument _ _ _).trans (congrArg Except.ok StringMap.assignAll_empty)

/-- Every field that is written is restored, whatever the document is decoded into. -/
theorem restApi_fromDocument_toDocument (filled restApi : RestApi) :
    fromDocument filled restApi.toDocument =
      .ok { restApi.persisted with apiStatus := filled.apiStatus } := by
  have hsize : getLongValue restApi.toDocument "minimumCompressionSize" =
      .ok restApi.minimumCompressionSize :=
    getLongValue_of_int64 (by simp [toDocument, Document.get?_cons])
  have htags : restApi.toDocument.get? "tags" = some (.document (stringsDocument restApi.tags)) := by
    simp [toDocument, Document.get?_cons]
  have htypes : restApi.toDocument.get? "binaryMediaTypes" =
      some (.array (stringValues restApi.binaryMediaTypes)) := by
    simp [toDocument, Document.get?_cons]
  have hwarnings : restApi.toDocument.get? "warnings" =
      some (.array (stringValues restApi.warnings)) := by
    simp [toDocument, Document.get?_cons]
  have hauthorizers : restApi.toDocument.get? "authorizers" =
      some (.document (mapDocument (fun authorizer => .document authorizer.toDocument)
        restApi.authorizers)) := by
    simp [toDocument, Document.get?_cons]
  have hresources : restApi.toDocument.get? "resources" =
      some (.document (mapDocument (fun resource => .document resource.toDocument)
        restApi.resources)) := by
    simp [toDocument, Document.get?_cons]
  rw [fromDocument, hsize, ok_bind, readIfFound_of_some htags, readDocumentField_document, readTags,
    ok_bind, readIfFound_of_some htypes, readArrayField_array, readElements_stringValues, ok_bind,
    readIfFound_of_some hwarnings, readArrayField_array, readElements_stringValues, ok_bind,
    readIfFound_of_some hauthorizers, readDocumentField_document, readAuthorizers, ok_bind,
    readIfFound_of_some hresources, readDocumentField_document, readResources, ok_bind]
  simp [toDocument, persisted, getOidValue, getStringValue, getBoolValue, getDateValue,
    Document.get?_cons, ApiKeySourceType.fromString_toString]
  rfl

end RestApi

end AwsMock.ApiGateway.Entity
