import AwsMock.Core.Fields

/-! # Users and user pools as documents

`ToDocument` and `FromDocument` of the entities of the user directory. An attribute is written
under its own name and looked for under two fixed names, the domain of a pool is written as a
document and read as a text, and the flows of a client have another name in either direction.
Lists are appended to what is there.
-/

namespace AwsMock.Cognito.Entity

open Foundation BsonUtils

inductive UserStatus where
  | unconfirmed | confirmed | externalProvider | unknown | resetRequired | forceChangePassword
deriving DecidableEq, Repr

namespace UserStatus

def toString : UserStatus → String
  | .unconfirmed => "UNCONFIRMED"
  | .confirmed => "CONFIRMED"
  | .externalProvider => "EXTERNAL_PROVIDER"
  | .unknown => "UNKNOWN"
  | .resetRequired => "RESET_REQUIRED"
  | .forceChangePassword => "FORCE_CHANGE_PASSWORD"

def fromString (userStatus : String) : UserStatus :=
  if userStatus = "UNCONFIRMED" then .unconfirmed
  else if userStatus = "CONFIRMED" then .confirmed
  else if userStatus = "EXTERNAL_PROVIDER" then .externalProvider
  else if userStatus = "UNKNOWN" then .unknown
  else if userStatus = "RESET_REQUIRED" then .resetRequired
  else if userStatus = "FORCE_CHANGE_PASSWORD" then .forceChangePassword
  else .unknown

theorem fromString_toString (userStatus : UserStatus) :
    fromString userStatus.toString = userStatus := by
  cases userStatus <;> decide

end UserStatus

structure UserAttribute where
  name : String := ""
  value : String := ""

structure Group where
  oid : String := ""
  region : String := ""
  userPoolId : String := ""
  groupName : String := ""
  description : String := ""
  roleArn : String := ""
  precedence : Int := 0
  created : Time := 0
  modified : Time := 0

structure User where
  oid : String := ""
  region : String := ""
  userPoolId : String := ""
  userName : String := ""
  enabled : Bool := false
  userAttributes : List UserAttribute := []
  userStatus : UserStatus := .unconfirmed
  password : String := ""
  confirmationCode : String := ""
  groups : List Group := []
  created : Time := 0
  modified : Time := 0

def defaultAuthFlows : List String :=
  ["ADMIN_NO_SRP_AUTH", "CUSTOM_AUTH_FLOW_ONLY", "USER_PASSWORD_AUTH",
    "ALLOW_ADMIN_USER_PASSWORD_AUTH", "ALLOW_CUSTOM_AUTH", "ALLOW_USER_PASSWORD_AUTH",
    "ALLOW_USER_SRP_AUTH", "ALLOW_REFRESH_TOKEN_AUTH", "ALLOW_USER_AUTH"]

/-- The object id and the region are inherited and never written. -/
structure UserPoolClient where
  oid : String := ""
  region : String := ""
  userPoolId : String := ""
  clientId : String := ""
  clientName : String := ""
  clientSecret : String := ""
  generateSecret : Bool := false
  accessTokenValidity : Int := 0
  idTokenValidity : Int := 0
  refreshTokenValidity : Int := 0
  explicitAuthFlows : List String := defaultAuthFlows
  created : Time := 0
  modified : Time := 0

structure UserPoolDomain where
  domain : String := ""

structure UserPool where
  oid : String := ""
  region : String := ""
  userPoolId : String := ""
  name : String := ""
  arn : String := ""
  kmsKey : String := ""
  domain : UserPoolDomain := {}
  userPoolClients : List UserPoolClient := []
  tags : StringMap String := ∅
  created : Time := 0
  modified : Time := 0

/-! ## Users -/

namespace UserAttribute

def toDocument (userAttribute : UserAttribute) : Document :=
  [(userAttribute.name, .scalar (.string userAttribute.value))]

def read (attributeElement : Option Value) : UserAttribute :=
  match attributeElement with
  | some (.document fields) =>
    { name := getStringValue fields "name", value := getStringValue fields "value" }
  | _ => {}

theorem read_toDocument_eq_iff {userAttribute : UserAttribute} :
    read (some (.document userAttribute.toDocument)) = userAttribute ↔
      userAttribute.name = "" ∧ userAttribute.value = "" := by
  obtain ⟨name, value⟩ := userAttribute
  rw [read, mk.injEq]
  by_cases hisName : name = "name"
  · -- the value would have to be the name, and there is none under the other name
    subst hisName
    simp only [toDocument, getStringValue, Document.get?_cons, Document.get?_nil, if_true,
      String.reduceEq, if_false, false_and, iff_false, not_and]
    rintro rfl hvalue
    exact absurd hvalue (by decide)
  · by_cases hisValue : name = "value"
    · subst hisValue
      simp [toDocument, getStringValue, Document.get?_cons]
    · simp only [toDocument, getStringValue, Document.get?_cons, Document.get?_nil, hisName,
        hisValue, if_false]
      exact and_congr eq_comm eq_comm

end UserAttribute

namespace Group

def toDocument (group : Group) : Document :=
  [("region", .scalar (.string group.region)),
    ("groupName", .scalar (.string group.groupName)),
    ("userPoolId", .scalar (.string group.userPoolId)),
    ("description", .scalar (.string group.description)),
    ("roleArn", .scalar (.string group.roleArn)),
    ("precedence", .scalar (.int64 group.precedence)),
    ("created", .scalar (.date group.created)),
    ("modified", .scalar (.date group.modified))]

def fromDocument (mResult : Document) : Except CoreException Group := do
  let precedence ← getLongValue mResult "precedence"
  return {
    oid := getOidValue mResult "_id"
    region := getStringValue mResult "region"
    groupName := getStringValue mResult "groupName"
    userPoolId := getStringValue mResult "userPoolId"
    description := getStringValue mResult "description"
    roleArn := getStringValue mResult "roleArn"
    precedence
    created := getDateValue mResult "created"
    modified := getDateValue mResult "modified" }

def withoutId (group : Group) : Group := { group with oid := "" }

theorem fromDocument_toDocument (group : Group) :
    fromDocument group.toDocument = .ok group.withoutId := by
  have hprecedence : getLongValue group.toDocument "precedence" = .ok group.precedence :=
    getLongValue_of_int64 (by simp [toDocument, Document.get?_cons])
  rw [fromDocument, hprecedence, ok_bind]
  simp [toDocument, withoutId, getOidValue, getStringValue, getDateValue, Document.get?_cons]
  rfl

end Group

namespace User

def toDocument (user : User) : Document :=
  [("region", .scalar (.string user.region)),
    ("userName", .scalar (.string user.userName)),
    ("userPoolId", .scalar (.string user.userPoolId)),
    ("enabled", .scalar (.bool user.enabled)),
    ("groups", .array (user.groups.map fun group => .document group.toDocument)),
    ("userStatus", .scalar (.string user.userStatus.toString)),
    ("userAttributes",
      .array (user.userAttributes.map fun userAttribute => .document userAttribute.toDocument)),
    ("confirmationCode", .scalar (.string user.confirmationCode)),
    ("password", .scalar (.string user.password)),
    ("created", .scalar (.date user.created)),
    ("modified", .scalar (.date user.modified))]

/-- Attributes and groups are pushed back to those that are there. -/
def fromDocument (user : User) (mResult : Document) : Except CoreException User := do
  let userAttributes ← readIfFound mResult "userAttributes" user.userAttributes
    (readArrayField (fun attributeElement => .ok (.read attributeElement)) user.userAttributes)
  let groups ← readIfFound mResult "groups" user.groups
    (readArrayField (readDocumentField Group.fromDocument) user.groups)
  return {
    oid := getOidValue mResult "_id"
    region := getStringValue mResult "region"
    userName := getStringValue mResult "userName"
    userPoolId := getStringValue mResult "userPoolId"
    enabled := getBoolValue mResult "enabled"
    userStatus := .fromString (getStringValue mResult "userStatus")
    confirmationCode := getStringValue mResult "confirmationCode"
    password := getStringValue mResult "password"
    created := getDateValue mResult "created"
    modified := getDateValue mResult "modified"
    userAttributes
    groups }

def decoded (filled user : User) : User :=
  { user with
    oid := ""
    userAttributes := filled.userAttributes ++
      user.userAttributes.map fun userAttribute => .read (some (.document userAttribute.toDocument))
    groups := filled.groups ++ user.groups.map Group.withoutId }

theorem fromDocument_toDocument (filled user : User) :
    fromDocument filled user.toDocument = .ok (decoded filled user) := by
  have hattributes : user.toDocument.get? "userAttributes" =
      some (.array (user.userAttributes.map fun userAttribute =>
        .document userAttribute.toDocument)) := by
    simp [toDocument, Document.get?_cons]
  have hgroups : user.toDocument.get? "groups" =
      some (.array (user.groups.map fun group => .document group.toDocument)) := by
    simp [toDocument, Document.get?_cons]
  have hreadAttributes : readElements
      (fun attributeElement => .ok (UserAttribute.read attributeElement)) filled.userAttributes
      (user.userAttributes.map fun userAttribute => .document userAttribute.toDocument) =
        .ok (filled.userAttributes ++ user.userAttributes.map fun userAttribute =>
          .read (some (.document userAttribute.toDocument))) :=
    @readElements_map _ _ _ (fun attributeElement => .ok (UserAttribute.read attributeElement)) _
      (fun _ => rfl) _ _
  have hread : readElements (readDocumentField Group.fromDocument) filled.groups
      (user.groups.map fun group => .document group.toDocument) =
        .ok (filled.groups ++ user.groups.map Group.withoutId) :=
    readElements_map Group.fromDocument_toDocument _ _
  rw [fromDocument, readIfFound_of_some hattributes, readArrayField_array,
    hreadAttributes, ok_bind, readIfFound_of_some hgroups, readArrayField_array, hread, ok_bind]
  simp [toDocument, decoded, getOidValue, getStringValue, getBoolValue, getDateValue,
    Document.get?_cons, UserStatus.fromString_toString]
  rfl

def fresh (now : Time) : User := { created := now, modified := now }

/-- The object ids of the user and of the copies of its groups left out. -/
def withoutIds (user : User) : User :=
  { user with oid := "", groups := user.groups.map Group.withoutId }

/-- A fresh entity is the user again but for the object ids, and nothing is added to what an
entity with content has. -/
structure RoundTrips (now : Time) (filled user : User) : Prop where
  restores : ∃ restored, fromDocument (fresh now) user.toDocument = .ok restored ∧
    restored.withoutIds = user.withoutIds
  replaces : ∃ restored result, fromDocument (fresh now) user.toDocument = .ok restored ∧
    fromDocument filled user.toDocument = .ok result ∧
      result.userAttributes = restored.userAttributes ∧ result.groups = restored.groups

structure LosesNothing (filled user : User) : Prop where
  userAttributes : ∀ userAttribute ∈ user.userAttributes,
    userAttribute.name = "" ∧ userAttribute.value = ""
  filledAttributes : filled.userAttributes = []
  filledGroups : filled.groups = []

theorem roundTrips_iff_losesNothing (now : Time) (filled user : User) :
    RoundTrips now filled user ↔ LosesNothing filled user := by
  have hattributes : (user.userAttributes.map fun userAttribute =>
      UserAttribute.read (some (.document userAttribute.toDocument))) = user.userAttributes ↔
      ∀ userAttribute ∈ user.userAttributes,
        userAttribute.name = "" ∧ userAttribute.value = "" := by
    simp only [map_eq_self_iff, UserAttribute.read_toDocument_eq_iff]
  have hrestores : (∃ restored, fromDocument (fresh now) user.toDocument = .ok restored ∧
      restored.withoutIds = user.withoutIds) ↔
      ∀ userAttribute ∈ user.userAttributes,
        userAttribute.name = "" ∧ userAttribute.value = "" := by
    rw [fromDocument_toDocument, ← hattributes]
    constructor
    · rintro ⟨restored, hrestored, heq⟩
      cases hrestored
      exact congrArg userAttributes heq
    · intro hkept
      refine ⟨_, rfl, ?_⟩
      simp only [withoutIds, decoded, fresh, List.nil_append, List.map_map, hkept]
      rfl
  have hreplaces : (∃ restored result, fromDocument (fresh now) user.toDocument = .ok restored ∧
      fromDocument filled user.toDocument = .ok result ∧
        result.userAttributes = restored.userAttributes ∧ result.groups = restored.groups) ↔
      filled.userAttributes = [] ∧ filled.groups = [] := by
    rw [fromDocument_toDocument, fromDocument_toDocument]
    constructor
    · rintro ⟨restored, result, hrestored, hresult, hsameAttributes, hsameGroups⟩
      cases hrestored
      cases hresult
      exact ⟨List.append_left_eq_self.mp hsameAttributes, List.append_left_eq_self.mp hsameGroups⟩
    · rintro ⟨hnone, hnoGroups⟩
      refine ⟨_, _, rfl, rfl, ?_, ?_⟩
      · rw [decoded, decoded, hnone]
        rfl
      · rw [decoded, decoded, hnoGroups]
        rfl
  constructor
  · rintro ⟨hrestored, hreplaced⟩
    obtain ⟨hnone, hnoGroups⟩ := hreplaces.mp hreplaced
    exact ⟨hrestores.mp hrestored, hnone, hnoGroups⟩
  · rintro ⟨hkept, hnone, hnoGroups⟩
    exact ⟨hrestores.mpr hkept, hreplaces.mpr ⟨hnone, hnoGroups⟩⟩

end User

/-! ## User pools -/

namespace UserPoolClient

/-- The flows are written under the name `authFlows`, unless there are none. -/
def fields (client : UserPoolClient) : List (String × Option Value) :=
  [("userPoolId", some (.scalar (.string client.userPoolId))),
    ("clientId", some (.scalar (.string client.clientId))),
    ("clientName", some (.scalar (.string client.clientName))),
    ("clientSecret", some (.scalar (.string client.clientSecret))),
    ("generateSecret", some (.scalar (.bool client.generateSecret))),
    ("accessTokenValidity", some (.scalar (.int64 client.accessTokenValidity))),
    ("idTokenValidity", some (.scalar (.int64 client.idTokenValidity))),
    ("refreshTokenValidity", some (.scalar (.int64 client.refreshTokenValidity))),
    ("created", some (.scalar (.date client.created))),
    ("modified", some (.scalar (.date client.modified))),
    ("authFlows",
      if client.explicitAuthFlows = [] then none
      else some (.array (stringValues client.explicitAuthFlows)))]

def toDocument (client : UserPoolClient) : Document := Document.ofFields client.fields

/-- The flows are looked for under the name `explicitAuthFlows`. -/
def fromDocument (client : UserPoolClient) (mResult : Document) :
    Except CoreException UserPoolClient := do
  let accessTokenValidity ← getLongValue mResult "accessTokenValidity"
  let idTokenValidity ← getLongValue mResult "idTokenValidity"
  let refreshTokenValidity ← getLongValue mResult "refreshTokenValidity"
  let explicitAuthFlows ← readIfFound mResult "explicitAuthFlows" client.explicitAuthFlows
    (readArrayField getString client.explicitAuthFlows)
  return { client with
    userPoolId := getStringValue mResult "userPoolId"
    clientId := getStringValue mResult "clientId"
    clientName := getStringValue mResult "clientName"
    clientSecret := getStringValue mResult "clientSecret"
    accessTokenValidity
    idTokenValidity
    refreshTokenValidity
    generateSecret := getBoolValue mResult "generateSecret"
    created := getDateValue mResult "created"
    modified := getDateValue mResult "modified"
    explicitAuthFlows }

def withoutId (client : UserPoolClient) : UserPoolClient := { client with oid := "" }

/-- What is kept of a client: neither its flows nor the region. -/
def persisted (client : UserPoolClient) : UserPoolClient :=
  { client with oid := "", region := "", explicitAuthFlows := defaultAuthFlows }

theorem get?_toDocument {client : UserPoolClient} {name : String} {value : Option Value}
    (place : Nat) (hfield : client.fields[place]? = some (name, value)) :
    client.toDocument.get? name = value :=
  Document.get?_ofFields (by simp [fields]) place hfield

theorem fromDocument_toDocument (client : UserPoolClient) :
    fromDocument {} client.toDocument = .ok client.persisted := by
  have hflows : client.toDocument.get? "explicitAuthFlows" = none :=
    Document.get?_ofFields_of_notMem (by simp [fields])
  rw [fromDocument, getLongValue_of_int64 (get?_toDocument 5 rfl), ok_bind,
    getLongValue_of_int64 (get?_toDocument 6 rfl), ok_bind,
    getLongValue_of_int64 (get?_toDocument 7 rfl), ok_bind, readIfFound_of_none hflows, ok_bind,
    getStringValue_of_string (get?_toDocument 0 rfl),
    getStringValue_of_string (get?_toDocument 1 rfl),
    getStringValue_of_string (get?_toDocument 2 rfl),
    getStringValue_of_string (get?_toDocument 3 rfl),
    getBoolValue_of_bool (get?_toDocument 4 rfl), getDateValue_of_date (get?_toDocument 8 rfl),
    getDateValue_of_date (get?_toDocument 9 rfl)]
  rfl

theorem persisted_eq_iff {client : UserPoolClient} :
    client.persisted = client.withoutId ↔
      client.region = "" ∧ client.explicitAuthFlows = defaultAuthFlows := by
  obtain ⟨_, region, _, _, _, _, _, _, _, _, flows⟩ := client
  simp only [persisted, withoutId, mk.injEq, true_and, and_true]
  exact and_congr eq_comm eq_comm

end UserPoolClient

namespace UserPool

def toDocument (userPool : UserPool) : Document :=
  [("region", .scalar (.string userPool.region)),
    ("userPoolId", .scalar (.string userPool.userPoolId)),
    ("name", .scalar (.string userPool.name)),
    ("arn", .scalar (.string userPool.arn)),
    ("kmsKey", .scalar (.string userPool.kmsKey)),
    ("domain", .document [("domain", .scalar (.string userPool.domain.domain))]),
    ("userPoolClients",
      .array (userPool.userPoolClients.map fun client => .document client.toDocument)),
    ("tags", .document (stringsDocument userPool.tags)),
    ("created", .scalar (.date userPool.created)),
    ("modified", .scalar (.date userPool.modified))]

/-- The domain is read as a text; clients are pushed back to those that are there. -/
def readFields (userPool : UserPool) (mResult : Document) : Except CoreException UserPool := do
  let userPoolClients ← readIfFound mResult "userPoolClients" userPool.userPoolClients
    (readArrayField (readDocumentField (UserPoolClient.fromDocument {})) userPool.userPoolClients)
  let tags ← readIfFound mResult "tags" userPool.tags
    (readDocumentField (readMap byKey getString Std.ExtTreeMap.insertIfNew userPool.tags))
  return {
    oid := getOidValue mResult "_id"
    userPoolId := getStringValue mResult "userPoolId"
    region := getStringValue mResult "region"
    name := getStringValue mResult "name"
    kmsKey := getStringValue mResult "kmsKey"
    arn := getStringValue mResult "arn"
    created := getDateValue mResult "created"
    modified := getDateValue mResult "modified"
    domain := { domain := getStringValue mResult "domain" }
    userPoolClients
    tags }

def fromDocument (userPool : UserPool) (mResult : Document) : Except CoreException UserPool :=
  (readFields userPool mResult).mapError fun exc => .database exc.what

/-- What decoding the document of a user pool leaves in an entity. -/
def decoded (filled userPool : UserPool) : UserPool :=
  { userPool with
    oid := ""
    domain := {}
    userPoolClients := filled.userPoolClients ++
      userPool.userPoolClients.map UserPoolClient.persisted
    tags := .emplaceAll filled.tags userPool.tags }

theorem fromDocument_toDocument (filled userPool : UserPool) :
    fromDocument filled userPool.toDocument = .ok (decoded filled userPool) := by
  have hclients : userPool.toDocument.get? "userPoolClients" =
      some (.array (userPool.userPoolClients.map fun client => .document client.toDocument)) := by
    simp [toDocument, Document.get?_cons]
  have htags : userPool.toDocument.get? "tags" =
      some (.document (stringsDocument userPool.tags)) := by
    simp [toDocument, Document.get?_cons]
  have hreadClients : readElements (readDocumentField (UserPoolClient.fromDocument {}))
      filled.userPoolClients
      (userPool.userPoolClients.map fun client => .document client.toDocument) =
        .ok (filled.userPoolClients ++ userPool.userPoolClients.map UserPoolClient.persisted) :=
    readElements_map UserPoolClient.fromDocument_toDocument _ _
  have hread : readFields filled userPool.toDocument = .ok (decoded filled userPool) := by
    rw [readFields, readIfFound_of_some hclients, readArrayField_array, hreadClients, ok_bind,
      readIfFound_of_some htags, readDocumentField_document, readMap_stringsDocument, ok_bind]
    simp [toDocument, decoded, getOidValue, getStringValue, getDateValue, Document.get?_cons]
    rfl
  rw [fromDocument, hread]
  rfl

def fresh (now : Time) : UserPool := { created := now, modified := now }

/-- The object ids of the user pool and of its clients left out. -/
def withoutIds (userPool : UserPool) : UserPool :=
  { userPool with
    oid := ""
    userPoolClients := userPool.userPoolClients.map UserPoolClient.withoutId }

/-- A fresh entity is the user pool again but for the object ids, and nothing is added to the
clients that an entity with content has. -/
structure RoundTrips (now : Time) (filled userPool : UserPool) : Prop where
  restores : ∃ restored, fromDocument (fresh now) userPool.toDocument = .ok restored ∧
    restored.withoutIds = userPool.withoutIds
  replaces : ∃ restored result, fromDocument (fresh now) userPool.toDocument = .ok restored ∧
    fromDocument filled userPool.toDocument = .ok result ∧
      result.userPoolClients = restored.userPoolClients

/-- The domain is empty and clients have the flows that they are made with, and the entity has
no clients. -/
structure LosesNothing (filled userPool : UserPool) : Prop where
  domain : userPool.domain.domain = ""
  userPoolClients : ∀ client ∈ userPool.userPoolClients,
    client.region = "" ∧ client.explicitAuthFlows = defaultAuthFlows
  filledClients : filled.userPoolClients = []

theorem roundTrips_iff_losesNothing (now : Time) (filled userPool : UserPool) :
    RoundTrips now filled userPool ↔ LosesNothing filled userPool := by
  have hrestores : (∃ restored, fromDocument (fresh now) userPool.toDocument = .ok restored ∧
      restored.withoutIds = userPool.withoutIds) ↔
      userPool.domain.domain = "" ∧ ∀ client ∈ userPool.userPoolClients,
        client.region = "" ∧ client.explicitAuthFlows = defaultAuthFlows := by
    have hclients : userPool.userPoolClients.map UserPoolClient.persisted =
        userPool.userPoolClients.map UserPoolClient.withoutId ↔
        ∀ client ∈ userPool.userPoolClients,
          client.region = "" ∧ client.explicitAuthFlows = defaultAuthFlows := by
      simp only [List.map_inj_left, UserPoolClient.persisted_eq_iff]
    have hdomain : ({} : UserPoolDomain) = userPool.domain ↔ userPool.domain.domain = "" := by
      obtain ⟨domain⟩ := userPool.domain
      simp only [UserPoolDomain.mk.injEq]
      exact eq_comm
    have hpersisted : userPool.userPoolClients.map
        (UserPoolClient.withoutId ∘ UserPoolClient.persisted) =
        userPool.userPoolClients.map UserPoolClient.persisted := rfl
    rw [fromDocument_toDocument, ← hclients, ← hdomain]
    constructor
    · rintro ⟨restored, hrestored, heq⟩
      cases hrestored
      refine ⟨congrArg domain heq, ?_⟩
      have hsame := congrArg userPoolClients heq
      simpa only [withoutIds, decoded, fresh, List.nil_append, List.map_map, hpersisted] using hsame
    · rintro ⟨hsameDomain, hsame⟩
      refine ⟨_, rfl, ?_⟩
      simp only [withoutIds, decoded, fresh, List.nil_append, List.map_map, hsame,
        StringMap.emplaceAll_empty, hsameDomain]
      rfl
  have hreplaces : (∃ restored result, fromDocument (fresh now) userPool.toDocument =
      .ok restored ∧ fromDocument filled userPool.toDocument = .ok result ∧
        result.userPoolClients = restored.userPoolClients) ↔ filled.userPoolClients = [] := by
    rw [fromDocument_toDocument, fromDocument_toDocument]
    constructor
    · rintro ⟨restored, result, hrestored, hresult, hsame⟩
      cases hrestored
      cases hresult
      exact List.append_left_eq_self.mp hsame
    · intro hnone
      refine ⟨_, _, rfl, rfl, ?_⟩
      rw [decoded, decoded, hnone]
      rfl
  constructor
  · rintro ⟨hrestored, hreplaced⟩
    obtain ⟨hdomain, hclients⟩ := hrestores.mp hrestored
    exact ⟨hdomain, hclients, hreplaces.mp hreplaced⟩
  · rintro ⟨hdomain, hclients, hnone⟩
    exact ⟨hrestores.mpr ⟨hdomain, hclients⟩, hreplaces.mpr hnone⟩

end UserPool

theorem users_roundTrip_iff (now : Time) :
    (∀ filled user, User.RoundTrips now filled user ↔ User.LosesNothing filled user) ∧
      ∀ filled userPool,
        UserPool.RoundTrips now filled userPool ↔ UserPool.LosesNothing filled userPool :=
  ⟨User.roundTrips_iff_losesNothing now, UserPool.roundTrips_iff_losesNothing now⟩

/-- An attribute and a domain are lost. -/
theorem not_users_roundTrip :
    ¬User.RoundTrips 0 {} { userAttributes := [⟨"email", "alice@example.com"⟩] } ∧
      ¬UserPool.RoundTrips 0 {} { domain := ⟨"example"⟩ } := by
  constructor
  · intro hroundTrips
    have hattribute := ((User.roundTrips_iff_losesNothing _ _ _).mp hroundTrips).userAttributes _
      List.mem_cons_self
    exact absurd hattribute.1 (by decide)
  · intro hroundTrips
    exact absurd ((UserPool.roundTrips_iff_losesNothing _ _ _).mp hroundTrips).domain (by decide)

end AwsMock.Cognito.Entity
