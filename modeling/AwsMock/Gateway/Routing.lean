import AwsMock.Gateway.Session

/-! # Requests of one connection

The handler of a request belongs to its module whatever was handled before it, and
so does the region, unless the module comes from `x-awsmock-target`. Such a request
is given the region of the last authorization.
-/

namespace AwsMock.Gateway

open Http HttpUtils

namespace GatewaySession

variable {session : GatewaySession} {configuration : Configuration} {digests : Digests}
  {arrival : Arrival}

/-- The handler that is kept is the one of the module that is kept. -/
def IsRouted (session : GatewaySession) : Prop :=
  session.handler = none ∨ session.handler = getHandler session.currentModule

theorem isRouted_fresh (configuration : Configuration) : (fresh configuration).IsRouted :=
  .inl rfl

@[simp] theorem region_route (session : GatewaySession) (module : Bytes) :
    (session.route module).region = session.region := by
  unfold route
  split <;> rfl

@[simp] theorem user_route (session : GatewaySession) (module : Bytes) :
    (session.route module).user = session.user := by
  unfold route
  split <;> rfl

theorem handler_route (hrouted : session.IsRouted) (module : Bytes) :
    (session.route module).handler = getHandler module := by
  unfold route
  split
  next => rfl
  next hkept =>
    obtain ⟨hhandler, hmodule⟩ := not_or.mp hkept
    rw [← not_not.mp hmodule]
    exact hrouted.resolve_left hhandler

theorem isRouted_route (hrouted : session.IsRouted) (module : Bytes) :
    (session.route module).IsRouted := by
  unfold route
  split
  next => exact .inr rfl
  next => exact hrouted

end GatewaySession

section Outcome

variable (digests : Digests) (configuration : Configuration)

/-- Whether a request is routed by `x-awsmock-target`. -/
def Arrival.IsTargeted (arrival : Arrival) : Prop :=
  answer arrival.request = none ∧ hasHeader arrival.request (ascii "x-awsmock-target") = true ∧
    (getHandler (getHeaderValue arrival.request (ascii "x-awsmock-target"))).isSome = true

def Arrival.verified (arrival : Arrival) : Option Bool :=
  if configuration.verifySignature then
    AwsUtils.verifySignature digests arrival.isoDateString arrival.request
      configuration.secretAccessKey
  else some true

/-- The region a request brings: that of its authorization, of a `Cognito` target
or of the configuration, or none when it does not get so far. -/
def Arrival.broughtRegion (arrival : Arrival) : Option Bytes :=
  if answer arrival.request = none ∧
      hasHeader arrival.request (ascii "x-awsmock-target") = false ∧
      arrival.verified digests configuration = some true then
    some (getAuthorizationKeys configuration arrival.request []).region
  else none

def lastRegion (arrivals : List Arrival) : Option Bytes :=
  arrivals.reverse.findSome? fun arrival => arrival.broughtRegion digests configuration

def outcome (region : Bytes) (arrival : Arrival) : Option Response :=
  match answer arrival.request with
  | some response => some response
  | none =>
    if hasHeader arrival.request (ascii "x-awsmock-target") then
      some ({ region, user := configuration.user,
              handler := getHandler (getHeaderValue arrival.request (ascii "x-awsmock-target")) :
                GatewaySession }.dispatch arrival.request)
    else
      match arrival.verified digests configuration with
      | none => none
      | some false => some (.unauthorized "AWS signature could not be verified")
      | some true =>
        let authKey := getAuthorizationKeys configuration arrival.request []
        some ({ region := authKey.region, user := configuration.user,
                handler := getHandler authKey.module : GatewaySession }.dispatch
                  arrival.request)

def RoutesAlike (arrivals : List Arrival) : Prop :=
  ∀ before arrival after, arrivals = before ++ arrival :: after →
    (((GatewaySession.fresh configuration).handleRequests digests configuration before).handleRequest
      digests configuration arrival).2 =
      ((GatewaySession.fresh configuration).handleRequest digests configuration arrival).2

end Outcome

section Steps

variable {session : GatewaySession} {configuration : Configuration} {digests : Digests}
  {arrival : Arrival}

theorem GatewaySession.dispatch_congr {first second : GatewaySession}
    (hregion : first.region = second.region) (huser : first.user = second.user)
    (hhandler : first.handler = second.handler) (request : Request) :
    first.dispatch request = second.dispatch request := by
  unfold GatewaySession.dispatch
  rw [hregion, huser, hhandler]

theorem handleRequest_answered {response : Response}
    (hanswer : answer arrival.request = some response) :
    session.handleRequest digests configuration arrival = (session, some response) := by
  simp only [GatewaySession.handleRequest, hanswer]

theorem handleRequest_targeted (hanswer : answer arrival.request = none)
    (htarget : hasHeader arrival.request (ascii "x-awsmock-target") = true) :
    session.handleRequest digests configuration arrival =
      let routed := session.route (getHeaderValue arrival.request (ascii "x-awsmock-target"))
      (routed, some (routed.dispatch arrival.request)) := by
  simp only [GatewaySession.handleRequest, hanswer, htarget, if_true]

theorem handleRequest_verified (hanswer : answer arrival.request = none)
    (htarget : hasHeader arrival.request (ascii "x-awsmock-target") = false) :
    session.handleRequest digests configuration arrival =
      match arrival.verified digests configuration with
      | none => (session, none)
      | some false => (session, some (.unauthorized "AWS signature could not be verified"))
      | some true =>
        let authKey := getAuthorizationKeys configuration arrival.request []
        let routed := { session with region := authKey.region }.route authKey.module
        (routed, some (routed.dispatch arrival.request)) := by
  simp only [GatewaySession.handleRequest, hanswer, htarget, Bool.false_eq_true, if_false]
  rfl

theorem handleRequest_step (hrouted : session.IsRouted)
    (huser : session.user = configuration.user) :
    (session.handleRequest digests configuration arrival).2 =
        outcome digests configuration session.region arrival ∧
      (session.handleRequest digests configuration arrival).1.region =
        (arrival.broughtRegion digests configuration).getD session.region ∧
      (session.handleRequest digests configuration arrival).1.IsRouted ∧
      (session.handleRequest digests configuration arrival).1.user = configuration.user := by
  cases hanswer : answer arrival.request with
  | some response =>
    have hbrought : arrival.broughtRegion digests configuration = none := by
      simp [Arrival.broughtRegion, hanswer]
    rw [handleRequest_answered hanswer, hbrought]
    refine ⟨?_, rfl, hrouted, huser⟩
    simp only [outcome, hanswer]
  | none =>
    cases htarget : hasHeader arrival.request (ascii "x-awsmock-target") with
    | true =>
      have hbrought : arrival.broughtRegion digests configuration = none := by
        simp [Arrival.broughtRegion, htarget]
      rw [handleRequest_targeted hanswer htarget, hbrought]
      refine ⟨?_, GatewaySession.region_route session _, GatewaySession.isRouted_route hrouted _,
        (GatewaySession.user_route session _).trans huser⟩
      simp only [outcome, hanswer, htarget, if_true]
      apply congrArg some
      apply GatewaySession.dispatch_congr
      · exact GatewaySession.region_route session _
      · exact (GatewaySession.user_route session _).trans huser
      · exact GatewaySession.handler_route hrouted _
    | false =>
      rw [handleRequest_verified hanswer htarget]
      simp only [outcome, Arrival.broughtRegion, hanswer, htarget, Bool.false_eq_true, if_false]
      cases arrival.verified digests configuration with
      | none => exact ⟨rfl, rfl, hrouted, huser⟩
      | some verified =>
        cases verified with
        | false => exact ⟨rfl, rfl, hrouted, huser⟩
        | true =>
          -- only the region differs from a session that keeps its handler
          have hrouted' : { session with
              region := (getAuthorizationKeys configuration arrival.request []).region :
                GatewaySession }.IsRouted := hrouted
          refine ⟨?_, GatewaySession.region_route _ _, GatewaySession.isRouted_route hrouted' _,
            (GatewaySession.user_route _ _).trans huser⟩
          apply congrArg some
          apply GatewaySession.dispatch_congr
          · exact GatewaySession.region_route _ _
          · exact (GatewaySession.user_route _ _).trans huser
          · exact GatewaySession.handler_route hrouted' _

theorem handleRequests_run (arrivals : List Arrival) (hrouted : session.IsRouted)
    (huser : session.user = configuration.user) :
    (session.handleRequests digests configuration arrivals).region =
        (lastRegion digests configuration arrivals).getD session.region ∧
      (session.handleRequests digests configuration arrivals).IsRouted ∧
      (session.handleRequests digests configuration arrivals).user = configuration.user := by
  induction arrivals generalizing session with
  | nil => exact ⟨rfl, hrouted, huser⟩
  | cons arrival arrivals ih =>
    obtain ⟨-, hregion, hkept, hsame⟩ :=
      @handleRequest_step session configuration digests arrival hrouted huser
    obtain ⟨hlast, hrest⟩ := ih hkept hsame
    refine ⟨?_, hrest⟩
    change ((session.handleRequest digests configuration arrival).1.handleRequests digests
      configuration arrivals).region = _
    rw [hlast, hregion, lastRegion, lastRegion, List.reverse_cons, List.findSome?_append]
    cases arrivals.reverse.findSome? fun arrival =>
      arrival.broughtRegion digests configuration with
    | none =>
      rw [Option.none_or, List.findSome?_singleton]
      rfl
    | some region => rfl

theorem outcome_eq_iff (region other : Bytes) :
    outcome digests configuration region arrival = outcome digests configuration other arrival ↔
      (arrival.IsTargeted → region = other) := by
  unfold outcome Arrival.IsTargeted
  cases hanswer : answer arrival.request with
  | some response => simp
  | none =>
    cases htarget : hasHeader arrival.request (ascii "x-awsmock-target") with
    | false => simp
    | true =>
      have hmethod : arrival.request.method ∈ handledMethods := by
        by_contra hnot
        rw [answer, if_pos hnot] at hanswer
        cases hanswer
      simp only [if_true, GatewaySession.dispatch]
      cases getHandler (getHeaderValue arrival.request (ascii "x-awsmock-target")) with
      | none => simp
      | some handler => simp [hmethod]

end Steps

section Runs

variable (digests : Digests) (configuration : Configuration)

/-- The requests of a session are routed alike exactly when every request that is
routed by `x-awsmock-target` comes after no authorization, or the last one was for
the region of the configuration. -/
theorem routesAlike_iff (arrivals : List Arrival) :
    RoutesAlike digests configuration arrivals ↔
      ∀ before arrival after, arrivals = before ++ arrival :: after → arrival.IsTargeted →
        ∀ region, lastRegion digests configuration before = some region →
          region = configuration.region := by
  have hsame : ∀ before arrival,
      (((GatewaySession.fresh configuration).handleRequests digests configuration
          before).handleRequest digests configuration arrival).2 =
        ((GatewaySession.fresh configuration).handleRequest digests configuration arrival).2 ↔
      (arrival.IsTargeted → ∀ region, lastRegion digests configuration before = some region →
        region = configuration.region) := by
    intro before arrival
    have hfresh := GatewaySession.isRouted_fresh configuration
    obtain ⟨hregion, hrouted, huser⟩ :=
      @handleRequests_run _ configuration digests before hfresh rfl
    rw [(handleRequest_step hrouted huser).1,
      (@handleRequest_step _ configuration digests arrival hfresh rfl).1, outcome_eq_iff, hregion]
    apply imp_congr_right
    intro _
    cases lastRegion digests configuration before with
    | none => simp [GatewaySession.fresh]
    | some region => simp [GatewaySession.fresh]
  constructor
  · intro halike before arrival after heq
    exact (hsame before arrival).mp (halike before arrival after heq)
  · intro hall before arrival after heq
    exact (hsame before arrival).mpr (hall before arrival after heq)

end Runs

section Samples

def plainDigests : Digests where
  sha256 := id
  hmacSha256 key message := key ++ message

def sampleConfiguration : Configuration :=
  { region := ascii "eu-central-1", user := ascii "none", secretAccessKey := ascii "none",
    verifySignature := false }

def authorizedArrival : Arrival :=
  { request := {
      methodString := ascii "POST", target := ascii "/",
      fields := [(ascii "Authorization", ascii "AWS4-HMAC-SHA256 Credential=none/20240101/us-west-2/sqs/aws4_request, SignedHeaders=host, Signature=0")] }
    isoDateString := [] }

def targetedArrival : Arrival :=
  { request := {
      methodString := ascii "POST", target := ascii "/",
      fields := [(ascii "x-awsmock-target", ascii "sqs")] }
    isoDateString := [] }

/-- A request that names its module is given the region of the authorization before it. -/
theorem not_routesAlike_targeted :
    ¬RoutesAlike plainDigests sampleConfiguration [authorizedArrival, targetedArrival] := by
  intro halike
  have heq := halike [authorizedArrival] targetedArrival [] rfl
  revert heq
  decide

end Samples

end AwsMock.Gateway
