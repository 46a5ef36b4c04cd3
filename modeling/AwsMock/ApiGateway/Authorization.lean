import AwsMock.ApiGateway.Invocation
import AwsMock.Gateway.Safety

/-! # Access to integrations

An integration is reached when neither the check of the key nor the authorizer stops
the request. The key is checked for the method of the verb itself. An authorizer that
names no function, or whose function does not answer with status 200, is passed over.
What a function answers is searched for a text, it is not read as a policy.
-/

namespace AwsMock.ApiGateway

open Http HttpUtils Gateway Foundation

section Policies

/-- The policy that a text holds: of its own, or of the body that it wraps. -/
def policyOf (parseJson : Bytes → Option Json) (text : Bytes) : Option Json :=
  match parseJson text with
  | none => none
  | some document =>
    let inner := match document.member (ascii "body") with
      | some (.string body) => parseJson body
      | _ => none
    let holder := inner.getD document
    some ((holder.member (ascii "policyDocument")).getD holder)

/-- The statements of a policy, of which there may be one alone. -/
def Json.statements (policy : Json) : List Json :=
  match policy.member (ascii "Statement") with
  | some (.array statements) => statements
  | some statement => [statement]
  | none => []

def Json.HasEffect (statement : Json) (effect : String) : Prop :=
  statement.member (ascii "Effect") = some (.string (ascii effect))

/-- A text with a policy that allows something and denies nothing. -/
def Grants (parseJson : Bytes → Option Json) (text : Bytes) : Prop :=
  ∃ policy, policyOf parseJson text = some policy ∧
    (∃ statement ∈ policy.statements, statement.HasEffect "Allow") ∧
      ∀ statement ∈ policy.statements, ¬ statement.HasEffect "Deny"

end Policies

section Access

variable (urls : UrlLibrary) (backend : Backend) (request : Request) (region : Bytes)

def Reply.IsIntegration : Reply → Prop
  | .response _ _ => False
  | _ => True

def HasValidKey : Prop :=
  getHeaderValue request (ascii "x-api-key") ≠ [] ∧
    validateApiKey backend.apiKeys (getHeaderValue request (ascii "x-api-key")) = true

/-- All authorizers but those of a user pool are functions. -/
def HasLambdaAuthorizer (restApi : RestApi) : Prop :=
  ∃ authorizer ∈ restApi.authorizers.values, authorizer.type ≠ ascii "COGNITO_USER_POOLS"

def Answers (located : Located) (invocation : Invocation) : Prop :=
  ∃ authorizer, located.restApi.authorizers.values.head? = some authorizer ∧
    extractFunctionNameFromUri authorizer.authorizerUri ≠ [] ∧
      backend.invoke region (extractFunctionNameFromUri authorizer.authorizerUri)
        (buildAuthorizerPayload backend.requestId request located.restApiId located.resourcePath
          authorizer) = invocation

/-- What should hold of a request that gets to the integration of a method. -/
def IsAdmissible (located : Located) (method : ResourceMethod) : Prop :=
  (method.apiKeyRequired = true → HasValidKey backend request) ∧
    (HasLambdaAuthorizer located.restApi →
      ∃ responseBody, Answers backend request region located (.returned 200 responseBody) ∧
        Grants backend.parseJson responseBody)

def IsControlled : Prop :=
  ∀ reply located method,
    handleResourceInvocation urls backend request region = .ok reply → reply.IsIntegration →
      locate urls backend request = .ok (.ok located) →
        findMethod located.resource request.method.toBytes = some method →
          IsAdmissible backend request region located method

def LetsPass (responseBody : Bytes) : Prop :=
  isLambdaExecutionError responseBody = true ∨
    isInvocationAllowed backend.parseJson responseBody = true

/-- What does hold: the method of the verb itself has its key, and an authorizer that
is invoked has not thrown, and has not answered with status 200 and another text. -/
def IsAdmitted (located : Located) : Prop :=
  (∀ method, located.resource.resourceMethods.lookup request.method.toBytes = some method →
      method.apiKeyRequired = true → HasValidKey backend request) ∧
    ∀ invocation, Answers backend request region located invocation →
      ∃ status responseBody, invocation = .returned status responseBody ∧
        (status = 200 → LetsPass backend responseBody)

end Access

section Stops

variable {urls : UrlLibrary} {backend : Backend} {request : Request} {region : Bytes}

theorem checkApiKey_eq_none_iff {resource : Resource} :
    checkApiKey backend request resource = none ↔
      ∀ method, resource.resourceMethods.lookup request.method.toBytes = some method →
        method.apiKeyRequired = true → HasValidKey backend request := by
  unfold checkApiKey HasValidKey
  cases resource.resourceMethods.lookup request.method.toBytes with
  | none => exact iff_of_true rfl fun method hmethod => by cases hmethod
  | some method =>
    dsimp only
    by_cases hrequired : method.apiKeyRequired = true
    · rw [if_pos hrequired, ite_eq_right_iff]
      simp only [Bool.or_eq_true, decide_eq_true_eq, Bool.not_eq_true', reduceCtorEq, imp_false,
        not_or, Bool.not_eq_false]
      constructor
      · rintro hkey method' hmethod -
        exact hkey
      · intro hkey
        exact hkey method rfl hrequired
    · rw [if_neg hrequired]
      refine iff_of_true rfl ?_
      intro method' hmethod hrequired'
      cases hmethod
      exact absurd hrequired' hrequired

theorem invokeAuthorizer_eq_none_iff {located : Located} :
    invokeAuthorizer backend request region located = none ↔
      ∀ invocation, Answers backend request region located invocation →
        ∃ status responseBody, invocation = .returned status responseBody ∧
          (status = 200 → LetsPass backend responseBody) := by
  unfold invokeAuthorizer Answers LetsPass
  cases located.restApi.authorizers.values.head? with
  | none =>
    refine iff_of_true rfl ?_
    rintro invocation ⟨authorizer, hauthorizer, -⟩
    cases hauthorizer
  | some authorizer =>
    dsimp only
    by_cases hname : extractFunctionNameFromUri authorizer.authorizerUri = []
    · rw [if_pos hname]
      refine iff_of_true rfl ?_
      rintro invocation ⟨authorizer', hauthorizer, hnamed, -⟩
      cases hauthorizer
      exact absurd hname hnamed
    · rw [if_neg hname]
      generalize hinvoke : backend.invoke region _ _ = invocation
      have hanswers : ∀ {P : Invocation → Prop},
          (∀ invocation', (∃ authorizer', some authorizer = some authorizer' ∧
            extractFunctionNameFromUri authorizer'.authorizerUri ≠ [] ∧
              backend.invoke region (extractFunctionNameFromUri authorizer'.authorizerUri)
                (buildAuthorizerPayload backend.requestId request located.restApiId
                  located.resourcePath authorizer') = invocation') → P invocation') ↔
            P invocation := by
        intro P
        constructor
        · intro hall
          exact hall invocation ⟨authorizer, rfl, hname, hinvoke⟩
        · rintro hone invocation' ⟨authorizer', hauthorizer, -, hinvoke'⟩
          cases hauthorizer
          rw [← hinvoke', hinvoke]
          exact hone
      rw [hanswers]
      cases invocation with
      | threw =>
        refine iff_of_false nofun ?_
        rintro ⟨status, responseBody, hreturned, -⟩
        cases hreturned
      | returned status responseBody =>
        dsimp only
        constructor
        · intro hnone
          refine ⟨status, responseBody, rfl, fun hstatus => ?_⟩
          rw [if_pos hstatus] at hnone
          by_cases herror : isLambdaExecutionError responseBody = true
          · exact .inl herror
          · rw [if_neg herror] at hnone
            by_cases hallowed : isInvocationAllowed backend.parseJson responseBody = true
            · exact .inr hallowed
            · rw [Bool.not_eq_true] at hallowed
              rw [hallowed] at hnone
              cases hnone
        · rintro ⟨status', responseBody', hreturned, hpass⟩
          cases hreturned
          split_ifs with hstatus herror hallowed
          · rfl
          · rw [Bool.not_eq_true'] at hallowed
            rcases hpass hstatus with herror' | hallowed'
            · exact absurd herror' herror
            · rw [hallowed] at hallowed'
              cases hallowed'
          · rfl
          · rfl

variable {reply : Reply}

theorem not_isIntegration_of_locate
    (hreply : locate urls backend request = .ok (.error reply)) : ¬ reply.IsIntegration := by
  unfold locate at hreply
  rw [bind_eq_ok] at hreply
  obtain ⟨restApiId, -, hreply⟩ := hreply
  split_ifs at hreply
  · cases hreply
    exact id
  · dsimp only at hreply
    split at hreply
    · cases hreply
      exact id
    · split at hreply
      · cases hreply
        exact id
      · cases hreply

theorem not_isIntegration_of_checkApiKey {resource : Resource}
    (hreply : checkApiKey backend request resource = some reply) : ¬ reply.IsIntegration := by
  unfold checkApiKey at hreply
  split at hreply
  · dsimp only at hreply
    split_ifs at hreply
    cases hreply
    exact id
  · cases hreply

theorem not_isIntegration_of_invokeAuthorizer {located : Located}
    (hreply : invokeAuthorizer backend request region located = some reply) :
    ¬ reply.IsIntegration := by
  unfold invokeAuthorizer at hreply
  split at hreply
  · cases hreply
  · dsimp only at hreply
    split_ifs at hreply
    split at hreply
    · cases hreply
      exact id
    · split_ifs at hreply
      cases hreply
      exact id

theorem isAdmitted_of_isIntegration {reply : Reply}
    (hreply : handleResourceInvocation urls backend request region = .ok reply)
    (hintegration : reply.IsIntegration) :
    ∃ located, locate urls backend request = .ok (.ok located) ∧
      IsAdmitted backend request region located := by
  unfold handleResourceInvocation at hreply
  cases hlocate : locate urls backend request with
  | error fault =>
    rw [hlocate] at hreply
    cases hreply
  | ok result =>
    rw [hlocate] at hreply
    cases result with
    | error refusal =>
      cases hreply
      exact absurd hintegration (not_isIntegration_of_locate hlocate)
    | ok located =>
      refine ⟨located, rfl, ?_⟩
      rw [ok_bind] at hreply
      dsimp only at hreply
      cases hkey : checkApiKey backend request located.resource with
      | some refusal =>
        rw [hkey] at hreply
        cases hreply
        exact absurd hintegration (not_isIntegration_of_checkApiKey hkey)
      | none =>
        cases hauthorizer : invokeAuthorizer backend request region located with
        | some refusal =>
          rw [hkey, hauthorizer] at hreply
          cases hreply
          exact absurd hintegration (not_isIntegration_of_invokeAuthorizer hauthorizer)
        | none =>
          exact ⟨checkApiKey_eq_none_iff.mp hkey, invokeAuthorizer_eq_none_iff.mp hauthorizer⟩

end Stops

section Samples

/-- `/orders` of an API whose authorizer is a function. -/
def ordersApi : RestApi where
  authorizers :=
    { entries := [(ascii "a1", {
        type := ascii "REQUEST"
        authorizerUri := ascii "path/functions/arn:aws:lambda:check/invocations" })]
      nodup := by decide }
  resources :=
    { entries := [(ascii "r1", {
        path := ascii "/orders"
        resourceMethods :=
          { entries := [(ascii "GET", { integrationType := ascii "MOCK" })]
            nodup := by decide } })]
      nodup := by decide }

def ordersRequest : Request where
  methodString := ascii "GET"
  target := ascii "/restapis/x1/dev/orders"

/-- A backend whose authorizer answers alike whatever it is asked. -/
def ordersBackend (invocation : Invocation) : Backend where
  getRestApi id := if id = ascii "x1" then some ordersApi else none
  apiKeys := []
  invoke _ _ _ := invocation
  parseJson _ := none
  requestId := []

theorem isAdmitted_orders :
    ∃ located, locate plainLibrary (ordersBackend (.returned 404 [])) ordersRequest =
        .ok (.ok located) ∧
      IsAdmitted (ordersBackend (.returned 404 [])) ordersRequest [] located :=
  @isAdmitted_of_isIntegration plainLibrary (ordersBackend (.returned 404 [])) ordersRequest []
    .mock rfl trivial

/-- An authorizer that cannot be reached does not keep a request out. -/
theorem not_isControlled_orders :
    ¬ ∀ urls backend request region, IsControlled urls backend request region := by
  intro hcontrolled
  have hadmissible := hcontrolled plainLibrary (ordersBackend (.returned 503 [])) ordersRequest []
    .mock _ _ rfl trivial rfl rfl
  obtain ⟨responseBody, ⟨authorizer, -, -, hanswer⟩, -⟩ :=
    hadmissible.2 ⟨_, List.mem_cons_self, by decide⟩
  cases hanswer

end Samples

end AwsMock.ApiGateway
