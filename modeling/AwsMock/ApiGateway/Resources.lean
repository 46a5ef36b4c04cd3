import AwsMock.Foundation.KeyedList
import AwsMock.Foundation.Runs

/-! # The resources of REST APIs

A REST API has a root resource, and below it resources that name their parents. A resource gets
the path of its parent with its own part of the path behind it.
-/

namespace AwsMock.ApiGateway.Resources

open Foundation

structure ResourceMethod where
  httpMethod : String := ""
  apiKeyRequired : Bool := false
  integrationType : String := ""
  integrationUri : String := ""
  integrationHttpMethod : String := ""
deriving DecidableEq, Repr

structure Resource where
  id : String := ""
  parentId : String := ""
  path : String := ""
  pathPart : String := ""
  resourceMethods : List ResourceMethod := []
deriving DecidableEq, Repr

structure RestApi where
  id : String := ""
  region : String := ""
  name : String := ""
  rootResourceId : String := ""
  resources : List Resource := []
deriving DecidableEq, Repr

namespace RestApi

variable (restApi : RestApi)

def resourceExists (pathPart : String) : Bool :=
  restApi.resources.any fun resource => resource.pathPart = pathPart

def contains (resourceId : String) : Bool :=
  (findKey Resource.id resourceId restApi.resources).isSome

def put (resource : Resource) : RestApi :=
  { restApi with resources := upsert Resource.id resource restApi.resources }

def erase (resourceId : String) : RestApi :=
  { restApi with resources := removeKey Resource.id resourceId restApi.resources }

def changeMethods (resourceId : String) (change : List ResourceMethod → List ResourceMethod) :
    RestApi :=
  { restApi with
    resources := rewriteFirst (fun resource => resource.id = resourceId)
      (fun resource => { resource with resourceMethods := change resource.resourceMethods })
      restApi.resources }

end RestApi

/-! ## The store -/

structure Store where
  /-- The regions and names of the API keys. -/
  apiKeys : List (String × String) := []
  restApis : List RestApi := []

namespace Store

variable (store : Store)

def apiKeyExists (region name : String) : Bool := (region, name) ∈ store.apiKeys

def findRestApi (restApiId : String) : Option RestApi :=
  store.restApis.find? fun restApi => restApi.id = restApiId

def createRestApi (restApi : RestApi) (place : Nat) : Store :=
  { store with restApis := insertAt place restApi store.restApis }

/-- The one that was read is there, so that nothing is inserted. -/
def upsertRestApi (restApi : RestApi) : Store :=
  { store with
    restApis := rewriteFirst (fun other => other.region = restApi.region && other.id = restApi.id)
      (fun _ => restApi) store.restApis }

end Store

/-! ## The service -/

structure CreateRestApiRequest where
  region : String
  name : String

structure CreateResourceRequest where
  region : String := ""
  restApiId : String
  parentId : String
  pathPart : String

variable (store : Store)

/-- It is the API keys that are asked for the name. The identifiers and the place are drawn. -/
def createRestApi (request : CreateRestApiRequest) (restApiId rootResourceId : String)
    (place : Nat) : Except String Store :=
  if store.apiKeyExists request.region request.name then
    .error ("REST API exists already, region: " ++ request.region ++ " name: " ++ request.name)
  else
    .ok (store.createRestApi
      { id := restApiId
        region := request.region
        name := request.name
        rootResourceId := rootResourceId
        resources := [{ id := rootResourceId, path := "/", pathPart := "/" }] } place)

def joinPath (parentPath pathPart : String) : String :=
  (if parentPath = "/" then "" else parentPath) ++ "/" ++ pathPart

def pathOf (restApi : RestApi) (parentId pathPart : String) : String :=
  if parentId ≠ "" then
    match findKey Resource.id parentId restApi.resources with
    | some parent => joinPath parent.path pathPart
    | none => "/" ++ pathPart
  else "/" ++ pathPart

def createResource (request : CreateResourceRequest) (resourceId : String) :
    Except String Store :=
  match store.findRestApi request.restApiId with
  | none =>
    .error ("REST API does not exist already, region: " ++ request.region ++ " restApiId: " ++
      request.restApiId)
  | some restApi =>
    if restApi.resourceExists request.pathPart then
      .error ("REST API does not exist already, region: " ++ request.region ++
        ", restApiId: " ++ request.restApiId ++ ", pathPart: " ++ request.pathPart)
    else
      .ok (store.upsertRestApi (restApi.put
        { id := resourceId
          parentId := request.parentId
          path := pathOf restApi request.parentId request.pathPart
          pathPart := request.pathPart }))

def deleteResource (region restApiId resourceId : String) : Except String Store :=
  match store.findRestApi restApiId with
  | none =>
    .error ("REST API does not exist already, region: " ++ region ++ " restApiId: " ++ restApiId)
  | some restApi => .ok (store.upsertRestApi (restApi.erase resourceId))

/-- A REST API that is not there is read as one without resources. -/
def changeResource (restApiId resourceId : String)
    (change : List ResourceMethod → List ResourceMethod) : Except String Store :=
  let restApi := (store.findRestApi restApiId).getD {}
  if restApi.contains resourceId then
    .ok (store.upsertRestApi (restApi.changeMethods resourceId change))
  else .error ("Resource not found, resourceId: " ++ resourceId)

def putMethod (restApiId resourceId httpMethod : String) (apiKeyRequired : Bool) :
    Except String Store :=
  changeResource store restApiId resourceId fun methods =>
    upsert ResourceMethod.httpMethod
      { httpMethod := httpMethod, apiKeyRequired := apiKeyRequired } methods

def putIntegration (restApiId resourceId httpMethod integrationType integrationUri
    integrationHttpMethod : String) : Except String Store :=
  changeResource store restApiId resourceId fun methods =>
    let method := (findKey ResourceMethod.httpMethod httpMethod methods).getD {}
    upsert ResourceMethod.httpMethod
      { method with
        httpMethod := httpMethod
        integrationType := integrationType
        integrationUri := integrationUri
        integrationHttpMethod := integrationHttpMethod } methods

inductive Operation where
  | createRestApi (request : CreateRestApiRequest) (restApiId rootResourceId : String) (place : Nat)
  | createResource (request : CreateResourceRequest) (resourceId : String)
  | deleteResource (region restApiId resourceId : String)
  | putMethod (restApiId resourceId httpMethod : String) (apiKeyRequired : Bool)
  | putIntegration (restApiId resourceId httpMethod integrationType integrationUri
      integrationHttpMethod : String)

def Operation.perform : Operation → Except String Store
  | createRestApi request restApiId rootResourceId place =>
    Resources.createRestApi store request restApiId rootResourceId place
  | createResource request resourceId => Resources.createResource store request resourceId
  | deleteResource region restApiId resourceId =>
    Resources.deleteResource store region restApiId resourceId
  | putMethod restApiId resourceId httpMethod apiKeyRequired =>
    Resources.putMethod store restApiId resourceId httpMethod apiKeyRequired
  | putIntegration restApiId resourceId httpMethod integrationType integrationUri
      integrationHttpMethod =>
      Resources.putIntegration store restApiId resourceId httpMethod integrationType
        integrationUri integrationHttpMethod

def step (operation : Operation) : Store :=
  match operation.perform store with
  | .ok next => next
  | .error _ => store

end AwsMock.ApiGateway.Resources
