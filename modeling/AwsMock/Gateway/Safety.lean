import AwsMock.Foundation.Separated
import AwsMock.Foundation.Traverse
import AwsMock.Gateway.Routing
import AwsMock.Gateway.S3ClientCommand
import Mathlib.Data.List.TakeWhile

/-! # What a request can do to the gateway

`OnRead` up to the command of an S3 client. An exception of a Lambda invocation is
caught by the worker, any other one leaves `OnRead`.
-/

namespace AwsMock.Gateway

open Foundation Http HttpUtils

/-- What `OnRead` comes to: a response, the command S3 goes on with, or the error of
a worker. -/
inductive Reply where
  | response (response : Response)
  | command (client : S3ClientCommand)
  | internalServerError
deriving DecidableEq, Repr

section Reading

variable (digests : Digests) (urls : UrlLibrary) (configuration : Configuration)

/-- `IsLambdaInvocation`. -/
def isLambdaInvocation (request : Request) : Checked Bool := do
  if request.method ≠ .post then return false
  if !(← hasPathParameters urls request.target 3) then return false
  return (← getPathParameter urls request.target 3) = ascii "invocations"

def handle (request : Request) : Option Response → Checked Reply
  | none => .error .exception
  | some (.dispatched .s3 method region user) =>
    if method = .patch then .ok (.response (.dispatched .s3 method region user))
    else do
      let client ← S3ClientCommand.fromRequest urls request region user
      return .command client
  | some response => .ok (.response response)

def settle (lambda : Bool) (handled : GatewaySession) :
    Checked Reply → Checked (GatewaySession × Reply)
  | .ok reply => .ok (handled, reply)
  | .error .undefinedBehaviour => .error .undefinedBehaviour
  | .error .exception =>
    if lambda then .ok (handled, .internalServerError) else .error .exception

/-- `OnRead`, with the session after it. -/
def onRead (session : GatewaySession) (arrival : Arrival) : Checked (GatewaySession × Reply) := do
  let lambda ← isLambdaInvocation urls arrival.request
  let handled := session.handleRequest digests configuration arrival
  settle lambda handled.1 (handle urls arrival.request handled.2)

end Reading

section Checks

variable {α β : Type}

def Succeeds (checked : Checked α) : Prop := ∃ a, checked = .ok a

/-- A computation that has a result or throws an exception. -/
def IsDefined (checked : Checked α) : Prop := checked ≠ .error .undefinedBehaviour

theorem succeeds_ok (a : α) : Succeeds (.ok a : Checked α) := ⟨a, rfl⟩

theorem isDefined_ok (a : α) : IsDefined (.ok a : Checked α) := nofun

variable {checked : Checked α} {next : α → Checked β}

theorem Succeeds.isDefined (hsucceeds : Succeeds checked) :
    IsDefined checked := by
  obtain ⟨a, rfl⟩ := hsucceeds
  exact isDefined_ok a

theorem succeeds_bind :
    Succeeds (checked >>= next) ↔ ∃ a, checked = .ok a ∧ Succeeds (next a) := by
  unfold Succeeds
  constructor
  · rintro ⟨result, hresult⟩
    obtain ⟨a, ha, hnext⟩ := bind_eq_ok.mp hresult
    exact ⟨a, ha, result, hnext⟩
  · rintro ⟨a, ha, result, hnext⟩
    exact ⟨result, bind_eq_ok.mpr ⟨a, ha, hnext⟩⟩

theorem succeeds_bind_iff
    (hnext : ∀ a, Succeeds (next a)) : Succeeds (checked >>= next) ↔ Succeeds checked := by
  rw [succeeds_bind]
  constructor
  · rintro ⟨a, ha, -⟩
    exact ⟨a, ha⟩
  · rintro ⟨a, ha⟩
    exact ⟨a, ha, hnext a⟩

theorem isDefined_bind (hchecked : IsDefined checked)
    (hnext : ∀ a, checked = .ok a → IsDefined (next a)) : IsDefined (checked >>= next) := by
  cases checked with
  | error fault =>
    cases fault with
    | undefinedBehaviour => exact absurd rfl hchecked
    | exception => exact nofun
  | ok a => exact hnext a rfl

/-- A computation that has a result or undefined behaviour. -/
def NeverThrows (checked : Checked α) : Prop := checked ≠ .error .exception

theorem neverThrows_bind
    (hchecked : NeverThrows checked) (hnext : ∀ a, NeverThrows (next a)) :
    NeverThrows (checked >>= next) := by
  cases checked with
  | error fault =>
    cases fault with
    | undefinedBehaviour => exact nofun
    | exception => exact absurd rfl hchecked
  | ok a => exact hnext a

theorem IsDefined.succeeds (hdefined : IsDefined checked)
    (hnever : NeverThrows checked) : Succeeds checked := by
  cases checked with
  | error fault =>
    cases fault with
    | undefinedBehaviour => exact absurd rfl hdefined
    | exception => exact absurd rfl hnever
  | ok a => exact succeeds_ok a

end Checks

section Conditions

def QueryDecodes (uri : Bytes) : Prop := 63 ∈ uri → ∃ decoded, Bytes.urlDecode uri = some decoded

def LengthFits (request : Request) : Prop :=
  hasHeader request (ascii "Content-Length") = true →
    ∃ number < 2 ^ 63, readDigits (request.get (ascii "Content-Length")) = some number

/-- The user agent of the command line client has five parts, and the last one has a
command with a dot after a number sign. -/
def AgentReads (request : Request) : Prop :=
  let parts := Bytes.split (request.get (ascii "User-Agent")) 32
  hasHeader request (ascii "User-Agent") = true → 4 ≤ parts.length →
    userAgentTypeFromString (parts.headD []) = .awsCli →
      5 ≤ parts.length ∧ ∃ last command, parts.getLast? = some last ∧
        (Bytes.split last 35)[1]? = some command ∧ 46 ∈ command

variable (digests : Digests) (urls : UrlLibrary) (configuration : Configuration)

def moduleOf (request : Request) : Bytes :=
  if hasHeader request (ascii "x-awsmock-target") then
    getHeaderValue request (ascii "x-awsmock-target")
  else (getAuthorizationKeys configuration request []).module

def GoesToS3 (arrival : Arrival) : Prop :=
  answer arrival.request = none ∧
    (hasHeader arrival.request (ascii "x-awsmock-target") = true ∨
      arrival.verified digests configuration = some true) ∧
    getHandler (moduleOf configuration arrival.request) = some .s3 ∧
    arrival.request.method ≠ .patch

/-- A request that is not taken for an invocation, whose exceptions are not caught. -/
def IsInvocation (request : Request) : Prop := isLambdaInvocation urls request = .ok true

/-- A request that goes through. A target is parsed when it is posted or S3 reads it;
then the user agent can be read, and unless the worker catches exceptions the query
can be decoded where it is needed, the target is a reference and the length fits. -/
structure GoesThrough (arrival : Arrival) : Prop where
  posted : arrival.request.method = .post →
    ∃ segments, urls.parseOriginForm arrival.request.target = some segments
  verified : answer arrival.request = none →
    hasHeader arrival.request (ascii "x-awsmock-target") = false →
    configuration.verifySignature = true →
    QueryDecodes arrival.request.target ∨ IsInvocation urls arrival.request
  agent : GoesToS3 digests configuration arrival → AgentReads arrival.request
  origin : GoesToS3 digests configuration arrival →
    ∃ segments, urls.parseOriginForm arrival.request.target = some segments
  command : GoesToS3 digests configuration arrival →
    (QueryDecodes arrival.request.target ∧
      (∃ params, urls.parseReference arrival.request.target = some params) ∧
      LengthFits arrival.request) ∨ IsInvocation urls arrival.request

def IsMalformed (request : Request) : Prop :=
  request.method ∉ handledMethods ∨ request.target.head? ≠ some 47 ∨
    Bytes.contains request.target (ascii "..") = true

def IsAnswered (session : GatewaySession) (arrival : Arrival) : Prop :=
  ∃ reply, onRead digests urls configuration session arrival = .ok reply ∧
    (IsMalformed arrival.request → ∃ message, reply.2 = .response (.badRequest message))

end Conditions

section Reads

variable {urls : UrlLibrary} {request : Request} {uri : Bytes}

theorem succeeds_getPathParameters :
    Succeeds (getPathParameters urls uri) ↔ ∃ segments, urls.parseOriginForm uri = some segments := by
  unfold getPathParameters
  cases urls.parseOriginForm uri with
  | none =>
    constructor
    · rintro ⟨a, ha⟩
      cases ha
    · rintro ⟨a, ha⟩
      cases ha
  | some segments => exact iff_of_true ⟨_, rfl⟩ ⟨_, rfl⟩

theorem getQueryParameters_isSome_iff :
    (∃ parameters, getQueryParameters uri = some parameters) ↔ QueryDecodes uri := by
  unfold getQueryParameters QueryDecodes
  by_cases hslash : uri = ascii "/"
  · rw [if_pos hslash]
    refine iff_of_true ⟨_, rfl⟩ fun hquery => ?_
    rw [hslash] at hquery
    exact absurd hquery (by decide)
  · rw [if_neg hslash]
    by_cases hquery : 63 ∈ uri
    · rw [if_neg (not_not.mpr hquery)]
      cases Bytes.urlDecode uri with
      | none => simp [hquery]
      | some decoded =>
        refine iff_of_true ?_ fun _ => ⟨decoded, rfl⟩
        dsimp only
        split_ifs <;> exact ⟨_, rfl⟩
    · rw [if_pos hquery]
      exact iff_of_true ⟨_, rfl⟩ fun hmem => absurd hmem hquery

variable (name : Bytes)

theorem succeeds_hasQueryParameter :
    Succeeds (hasQueryParameter uri name) ↔ QueryDecodes uri := by
  rw [← getQueryParameters_isSome_iff, hasQueryParameter]
  cases getQueryParameters uri with
  | none => simp [Succeeds]
  | some parameters => simp [Succeeds]

theorem isDefined_hasQueryParameter : IsDefined (hasQueryParameter uri name) := by
  rw [hasQueryParameter]
  cases getQueryParameters uri with
  | none => exact nofun
  | some parameters => exact nofun

theorem succeeds_getStringParameter :
    Succeeds (getStringParameter urls uri name) ↔ ∃ params, urls.parseReference uri = some params := by
  rw [getStringParameter]
  cases urls.parseReference uri with
  | none => simp [Succeeds]
  | some params => simp [Succeeds]

theorem isDefined_getStringParameter :
    IsDefined (getStringParameter urls uri name) := by
  rw [getStringParameter]
  cases urls.parseReference uri with
  | none => exact nofun
  | some params => exact nofun

theorem succeeds_getContentLength : Succeeds (getContentLength request) ↔ LengthFits request := by
  unfold getContentLength LengthFits
  cases hasHeader request (ascii "Content-Length") with
  | false => simp [Succeeds]
  | true =>
    rw [if_pos rfl]
    cases readDigits (request.get (ascii "Content-Length")) with
    | none => simp [Succeeds]
    | some number =>
      dsimp only
      by_cases hfits : number < 2 ^ 63
      · rw [if_pos hfits]
        exact iff_of_true ⟨number, rfl⟩ fun _ => ⟨number, hfits, rfl⟩
      · rw [if_neg hfits]
        apply iff_of_false
        · exact fun ⟨_, herror⟩ => nomatch herror
        · intro hlength
          obtain ⟨other, hother, hsame⟩ := hlength rfl
          obtain rfl := Option.some.inj hsame
          exact hfits hother

theorem isDefined_getContentLength : IsDefined (getContentLength request) := by
  unfold getContentLength
  split
  next =>
    split
    next =>
      split
      next => exact nofun
      next => exact nofun
    next => exact nofun
  next => exact nofun

variable {otherwise : Checked S3CommandType}

theorem isDefined_firstResource
    (hotherwise : IsDefined otherwise) (resources : List (String × S3CommandType)) :
    IsDefined (firstResource uri otherwise resources) := by
  induction resources with
  | nil => exact hotherwise
  | cons resource resources ih =>
    rw [firstResource]
    apply isDefined_bind (isDefined_hasQueryParameter _)
    intro found _
    cases found with
    | true => exact isDefined_ok _
    | false => exact ih

theorem succeeds_firstResource
    (hotherwise : Succeeds otherwise) (hquery : QueryDecodes uri)
    (resources : List (String × S3CommandType)) :
    Succeeds (firstResource uri otherwise resources) := by
  induction resources with
  | nil => exact hotherwise
  | cons resource resources ih =>
    rw [firstResource, succeeds_bind]
    obtain ⟨found, hfound⟩ := (succeeds_hasQueryParameter (ascii resource.1)).mpr hquery
    refine ⟨found, hfound, ?_⟩
    cases found with
    | true => exact succeeds_ok _
    | false => exact ih

theorem isDefined_getCommandFromMethod (client : S3ClientCommand) :
    IsDefined client.getCommandFromMethod := by
  unfold S3ClientCommand.getCommandFromMethod
  cases client.method with
  | get =>
    dsimp only
    split_ifs
    · exact isDefined_ok _
    · exact isDefined_firstResource (isDefined_ok _) _
    · exact isDefined_ok _
    · exact isDefined_ok _
  | put =>
    dsimp only
    split_ifs
    all_goals first
      | exact isDefined_ok _
      | exact isDefined_firstResource (isDefined_ok _) _
  | post =>
    dsimp only
    split_ifs <;> exact isDefined_ok _
  | delete =>
    dsimp only
    split_ifs
    all_goals first
      | exact isDefined_ok _
      | exact isDefined_firstResource (isDefined_ok _) _
  | _ => exact isDefined_ok _

theorem succeeds_getCommandFromMethod {client : S3ClientCommand} (hquery : QueryDecodes client.url) :
    Succeeds client.getCommandFromMethod := by
  unfold S3ClientCommand.getCommandFromMethod
  cases client.method with
  | get =>
    dsimp only
    split_ifs
    · exact succeeds_ok _
    · exact succeeds_firstResource (succeeds_ok _) hquery _
    · exact succeeds_ok _
    · exact succeeds_ok _
  | put =>
    dsimp only
    split_ifs
    all_goals first
      | exact succeeds_ok _
      | exact succeeds_firstResource (succeeds_ok _) hquery _
  | post =>
    dsimp only
    split_ifs <;> exact succeeds_ok _
  | delete =>
    dsimp only
    split_ifs
    all_goals first
      | exact succeeds_ok _
      | exact succeeds_firstResource (succeeds_ok _) hquery _
  | _ => exact succeeds_ok _

end Reads

section Agents

variable {request : Request} {parts : List Bytes}

theorem elementAt_eq_ok {index : Nat} {part : Bytes} :
    elementAt parts index = .ok part ↔ parts[index]? = some part := by
  unfold elementAt
  cases parts[index]? with
  | none => simp
  | some other => simp

theorem exists_split_one {text : Bytes} {c : UInt8} :
    (∃ part, (Bytes.split text c)[1]? = some part) ↔ c ∈ text := by
  constructor
  · rintro ⟨part, hpart⟩
    by_contra hno
    rw [Bytes.split, List.splitOn_eq_singleton hno] at hpart
    cases hpart
  · intro hmem
    obtain ⟨rest, htext, -⟩ := Foundation.cut_of_mem hmem
    have hno : c ∉ text.takeWhile (· ≠ c) := by
      intro hc
      have hne := @List.mem_takeWhile_imp _ (fun d => decide (d ≠ c)) _ _ hc
      exact absurd rfl (of_decide_eq_true hne)
    rw [htext, Bytes.split, List.splitOn_append_cons_self_of_not_mem hno]
    cases hsplit : List.splitOn c rest with
    | nil => exact absurd hsplit (List.splitOn_ne_nil c rest)
    | cons part others => exact ⟨part, rfl⟩

theorem exists_split_zero (text : Bytes) (c : UInt8) :
    ∃ part, (Bytes.split text c)[0]? = some part := by
  cases hsplit : Bytes.split text c with
  | nil => exact absurd hsplit (List.splitOn_ne_nil c text)
  | cons part others => exact ⟨part, rfl⟩

theorem succeeds_readClient (userAgent : UserAgent) :
    Succeeds (userAgent.readClient parts) ↔
      5 ≤ parts.length ∧ ∃ last command, parts.getLast? = some last ∧
        (Bytes.split last 35)[1]? = some command ∧ 46 ∈ command := by
  unfold UserAgent.readClient
  simp only [succeeds_bind, elementAt_eq_ok]
  constructor
  · rintro ⟨_, -, _, -, _, -, _, -, prompt, hprompt, last, hlast, command, hcommand, _, -, dotted,
      hdotted, -⟩
    obtain ⟨hlength, -⟩ := List.getElem?_eq_some_iff.mp hprompt
    refine ⟨hlength, last, command, ?_, hcommand, exists_split_one.mp ⟨dotted, hdotted⟩⟩
    rw [List.getLast?_eq_getElem?, hlast]
  · rintro ⟨hlength, last, command, hlast, hcommand, hdot⟩
    have hpart : ∀ index < 5, ∃ part, parts[index]? = some part := by
      intro index hindex
      exact ⟨_, List.getElem?_eq_getElem (by omega)⟩
    obtain ⟨first, hfirst⟩ := hpart 0 (by decide)
    obtain ⟨second, hsecond⟩ := hpart 1 (by decide)
    obtain ⟨third, hthird⟩ := hpart 2 (by decide)
    obtain ⟨fourth, hfourth⟩ := hpart 3 (by decide)
    obtain ⟨fifth, hfifth⟩ := hpart 4 (by decide)
    obtain ⟨module, hmodule⟩ := exists_split_zero command 46
    obtain ⟨dotted, hdotted⟩ := exists_split_one.mpr hdot
    rw [List.getLast?_eq_getElem?] at hlast
    exact ⟨first, hfirst, second, hsecond, third, hthird, fourth, hfourth, fifth, hfifth, last, hlast,
      command, hcommand, module, hmodule, dotted, hdotted, succeeds_ok _⟩

theorem succeeds_userAgent : Succeeds (UserAgent.fromRequest request) ↔ AgentReads request := by
  unfold UserAgent.fromRequest AgentReads
  cases hagent : hasHeader request (ascii "User-Agent") with
  | false => exact iff_of_true (succeeds_ok _) fun heq => by cases heq
  | true =>
    simp only [Bool.not_true, Bool.false_eq_true, if_false, true_imp_iff]
    generalize Bytes.split (request.get (ascii "User-Agent")) 32 = parts
    have hrest : ∀ first second : UserAgent,
        Succeeds (if hasHeader request (ascii "Content-Type") = true then
          (pure first : Checked UserAgent) else pure second) := by
      intro first second
      split_ifs
      · exact succeeds_ok first
      · exact succeeds_ok second
    by_cases hlength : parts.length ≥ 4
    · rw [if_pos hlength]
      by_cases htype : userAgentTypeFromString (parts.headD []) = .awsCli
      · rw [if_pos htype, succeeds_bind_iff fun _ => hrest _ _, succeeds_readClient]
        exact ⟨fun hreads _ _ => hreads, fun hreads => hreads hlength htype⟩
      · rw [if_neg htype, succeeds_bind_iff fun _ => hrest _ _]
        exact iff_of_true (succeeds_ok _) fun _ heq => absurd heq htype
    · rw [if_neg hlength, succeeds_bind_iff fun _ => hrest _ _]
      exact iff_of_true (succeeds_ok _) fun hle => absurd hle hlength

theorem neverThrows_elementAt (index : Nat) : NeverThrows (elementAt parts index) := by
  unfold elementAt
  split <;> exact nofun

theorem neverThrows_readClient (userAgent : UserAgent) :
    NeverThrows (userAgent.readClient parts) := by
  unfold UserAgent.readClient
  iterate 9 refine neverThrows_bind (neverThrows_elementAt _) fun _ => ?_
  exact nofun

theorem neverThrows_userAgent : NeverThrows (UserAgent.fromRequest request) := by
  have hrest : ∀ first second : UserAgent,
      NeverThrows (if hasHeader request (ascii "Content-Type") = true then
        (pure first : Checked UserAgent) else pure second) := by
    intro first second
    split_ifs <;> exact nofun
  unfold UserAgent.fromRequest
  cases hasHeader request (ascii "User-Agent") with
  | false => exact nofun
  | true =>
    simp only [Bool.not_true, Bool.false_eq_true, if_false]
    generalize Bytes.split (request.get (ascii "User-Agent")) 32 = parts
    by_cases hlength : parts.length ≥ 4
    · rw [if_pos hlength]
      by_cases htype : userAgentTypeFromString (parts.headD []) = .awsCli
      · rw [if_pos htype]
        exact neverThrows_bind (neverThrows_readClient _) fun _ => hrest _ _
      · rw [if_neg htype]
        exact neverThrows_bind nofun fun _ => hrest _ _
    · rw [if_neg hlength]
      exact neverThrows_bind nofun fun _ => hrest _ _

end Agents

section Commands

variable {urls : UrlLibrary} {request : Request} {region user : Bytes}

theorem succeeds_getPathParameter {uri : Bytes} (index : Nat) :
    Succeeds (getPathParameter urls uri index) ↔
      ∃ segments, urls.parseOriginForm uri = some segments := by
  unfold getPathParameter
  exact (succeeds_bind_iff fun _ => succeeds_ok _).trans succeeds_getPathParameters

theorem succeeds_getS3BucketName
    (horigin : ∃ segments, urls.parseOriginForm request.target = some segments) :
    Succeeds (getS3BucketName urls request) := by
  unfold getS3BucketName
  by_cases hhost : isS3HostStyle request = true
  · rw [if_pos hhost]
    exact succeeds_ok _
  · rw [if_neg hhost, succeeds_bind_iff]
    · exact (succeeds_getPathParameter 0).mpr horigin
    · intro pathBucket
      dsimp only
      split_ifs <;> exact succeeds_ok _

theorem succeeds_getS3ObjectKey :
    Succeeds (getS3ObjectKey urls request) ↔
      ∃ segments, urls.parseOriginForm request.target = some segments := by
  unfold getS3ObjectKey
  by_cases hhost : isS3HostStyle request = true
  · rw [if_pos hhost]
    exact succeeds_getPathParameter 0
  · rw [if_neg hhost]
    exact (succeeds_bind_iff fun _ => succeeds_ok _).trans succeeds_getPathParameters

theorem succeeds_fromRequest :
    Succeeds (S3ClientCommand.fromRequest urls request region user) ↔
      AgentReads request ∧ LengthFits request ∧
        (∃ segments, urls.parseOriginForm request.target = some segments) ∧
        QueryDecodes request.target ∧ ∃ params, urls.parseReference request.target = some params := by
  unfold S3ClientCommand.fromRequest
  constructor
  · intro hsucceeds
    simp only [succeeds_bind] at hsucceeds
    obtain ⟨userAgent, hagent, contentLength, hlength, bucket, -, key, hkey, uploads, huploads,
      uploadId, hupload, -⟩ := hsucceeds
    exact ⟨succeeds_userAgent.mp ⟨userAgent, hagent⟩,
      succeeds_getContentLength.mp ⟨contentLength, hlength⟩,
      succeeds_getS3ObjectKey.mp ⟨key, hkey⟩,
      (succeeds_hasQueryParameter _).mp ⟨uploads, huploads⟩,
      (succeeds_getStringParameter _).mp ⟨uploadId, hupload⟩⟩
  · rintro ⟨hagent, hlength, horigin, hquery, hreference⟩
    have hhas : ∀ name, Succeeds (hasQueryParameter request.target name) :=
      fun name => (succeeds_hasQueryParameter name).mpr hquery
    obtain ⟨userAgent, huserAgent⟩ := succeeds_userAgent.mpr hagent
    obtain ⟨contentLength, hcontentLength⟩ := succeeds_getContentLength.mpr hlength
    obtain ⟨bucket, hbucket⟩ := succeeds_getS3BucketName horigin
    obtain ⟨key, hkey⟩ := succeeds_getS3ObjectKey.mpr horigin
    obtain ⟨uploads, huploads⟩ := hhas (ascii "uploads")
    obtain ⟨uploadId, huploadId⟩ :=
      (succeeds_getStringParameter (ascii "uploadId")).mpr hreference
    obtain ⟨partNumber, hpartNumber⟩ := hhas (ascii "partNumber")
    obtain ⟨lifecycle, hlifecycle⟩ := hhas (ascii "lifecycle")
    obtain ⟨notification, hnotification⟩ := hhas (ascii "notification")
    obtain ⟨versioning, hversioning⟩ := hhas (ascii "versioning")
    obtain ⟨encryption, hencryption⟩ := hhas (ascii "encryption")
    refine succeeds_bind.mpr ⟨userAgent, huserAgent, ?_⟩
    refine succeeds_bind.mpr ⟨contentLength, hcontentLength, ?_⟩
    refine succeeds_bind.mpr ⟨bucket, hbucket, ?_⟩
    refine succeeds_bind.mpr ⟨key, hkey, ?_⟩
    refine succeeds_bind.mpr ⟨uploads, huploads, ?_⟩
    refine succeeds_bind.mpr ⟨uploadId, huploadId, ?_⟩
    refine succeeds_bind.mpr ⟨partNumber, hpartNumber, ?_⟩
    refine succeeds_bind.mpr ⟨lifecycle, hlifecycle, ?_⟩
    refine succeeds_bind.mpr ⟨notification, hnotification, ?_⟩
    refine succeeds_bind.mpr ⟨versioning, hversioning, ?_⟩
    refine succeeds_bind.mpr ⟨encryption, hencryption, ?_⟩
    dsimp only
    by_cases hcommand : userAgent.clientCommand ≠ []
    · rw [if_pos hcommand]
      exact succeeds_ok _
    · rw [if_neg hcommand]
      by_cases htarget : hasHeader request (ascii "x-awsmock-target") = true
      · rw [if_pos htarget]
        exact succeeds_ok _
      · rw [if_neg htarget, succeeds_bind]
        refine (succeeds_getCommandFromMethod hquery).imp fun command hmethod => ⟨hmethod, ?_⟩
        split_ifs
        · exact (succeeds_bind_iff fun _ => succeeds_ok _).mpr
            ((succeeds_getStringParameter _).mpr hreference)
        · exact succeeds_ok _

theorem isDefined_fromRequest
    (horigin : ∃ segments, urls.parseOriginForm request.target = some segments) :
    IsDefined (S3ClientCommand.fromRequest urls request region user) ↔ AgentReads request := by
  unfold S3ClientCommand.fromRequest
  constructor
  · intro hdefined
    apply succeeds_userAgent.mp
    apply IsDefined.succeeds _ neverThrows_userAgent
    intro hagent
    rw [hagent] at hdefined
    exact hdefined rfl
  · intro hagent
    have hhas : ∀ name, IsDefined (hasQueryParameter request.target name) :=
      isDefined_hasQueryParameter
    refine isDefined_bind (succeeds_userAgent.mpr hagent).isDefined fun userAgent _ => ?_
    refine isDefined_bind isDefined_getContentLength fun contentLength _ => ?_
    refine isDefined_bind (succeeds_getS3BucketName horigin).isDefined fun bucket _ => ?_
    refine isDefined_bind (succeeds_getS3ObjectKey.mpr horigin).isDefined fun key _ => ?_
    refine isDefined_bind (hhas _) fun uploads _ => ?_
    refine isDefined_bind (isDefined_getStringParameter _) fun uploadId _ => ?_
    refine isDefined_bind (hhas _) fun partNumber _ => ?_
    refine isDefined_bind (hhas _) fun lifecycle _ => ?_
    refine isDefined_bind (hhas _) fun notification _ => ?_
    refine isDefined_bind (hhas _) fun versioning _ => ?_
    refine isDefined_bind (hhas _) fun encryption _ => ?_
    dsimp only
    by_cases hcommand : userAgent.clientCommand ≠ []
    · rw [if_pos hcommand]
      exact isDefined_ok _
    · rw [if_neg hcommand]
      by_cases htarget : hasHeader request (ascii "x-awsmock-target") = true
      · rw [if_pos htarget]
        exact isDefined_ok _
      · rw [if_neg htarget]
        refine isDefined_bind (isDefined_getCommandFromMethod _) fun command _ => ?_
        split_ifs
        · exact isDefined_bind (isDefined_getStringParameter _) fun _ _ => isDefined_ok _
        · exact isDefined_ok _

end Commands

section Answers

variable {digests : Digests} {urls : UrlLibrary} {configuration : Configuration}
  {session : GatewaySession} {arrival : Arrival}

theorem succeeds_isLambdaInvocation {request : Request} :
    Succeeds (isLambdaInvocation urls request) ↔
      (request.method = .post → ∃ segments, urls.parseOriginForm request.target = some segments) := by
  unfold isLambdaInvocation
  by_cases hmethod : request.method = .post
  · rw [if_neg (not_not.mpr hmethod)]
    simp only [hmethod, true_imp_iff]
    constructor
    · intro hsucceeds
      obtain ⟨has, hhas, -⟩ := succeeds_bind.mp hsucceeds
      exact ((succeeds_bind_iff fun _ => succeeds_ok _).trans succeeds_getPathParameters).mp
        ⟨has, hhas⟩
    · intro horigin
      refine succeeds_bind.mpr ?_
      obtain ⟨has, hhas⟩ :=
        ((succeeds_bind_iff fun _ => succeeds_ok _).trans succeeds_getPathParameters).mpr horigin
      refine ⟨has, hhas, ?_⟩
      split_ifs
      · exact succeeds_ok _
      · exact (succeeds_bind_iff fun _ => succeeds_ok _).mpr
          ((succeeds_getPathParameter 3).mpr horigin)
  · rw [if_pos hmethod]
    exact iff_of_true (succeeds_ok _) fun heq => absurd heq hmethod

theorem succeeds_settle {lambda : Bool} {handled : GatewaySession} {checked : Checked Reply} :
    Succeeds (settle lambda handled checked) ↔
      Succeeds checked ∨ lambda = true ∧ IsDefined checked := by
  cases checked with
  | ok reply => exact iff_of_true ⟨_, rfl⟩ (.inl (succeeds_ok reply))
  | error fault =>
    cases fault with
    | undefinedBehaviour => simp [settle, Succeeds, IsDefined]
    | exception => cases lambda <;> simp [settle, Succeeds, IsDefined]

theorem succeeds_onRead :
    Succeeds (onRead digests urls configuration session arrival) ↔
      Succeeds (isLambdaInvocation urls arrival.request) ∧
        (Succeeds (handle urls arrival.request
            (session.handleRequest digests configuration arrival).2) ∨
          IsInvocation urls arrival.request ∧ IsDefined (handle urls arrival.request
            (session.handleRequest digests configuration arrival).2)) := by
  unfold onRead IsInvocation
  rw [succeeds_bind]
  constructor
  · rintro ⟨lambda, hlambda, hsettle⟩
    refine ⟨⟨lambda, hlambda⟩, ?_⟩
    rcases succeeds_settle.mp hsettle with hsucceeds | ⟨rfl, hdefined⟩
    · exact .inl hsucceeds
    · exact .inr ⟨hlambda, hdefined⟩
  · rintro ⟨⟨lambda, hlambda⟩, hor⟩
    refine ⟨lambda, hlambda, succeeds_settle.mpr ?_⟩
    rcases hor with hsucceeds | ⟨hinvocation, hdefined⟩
    · exact .inl hsucceeds
    · rw [hlambda] at hinvocation
      exact .inr ⟨Except.ok.inj hinvocation, hdefined⟩

theorem method_mem_of_answer {request : Request} (hanswer : answer request = none) :
    request.method ∈ handledMethods := by
  by_contra hnot
  rw [answer, if_pos hnot] at hanswer
  cases hanswer

theorem handle_dispatch (urls : UrlLibrary) (session : GatewaySession) {request : Request}
    (hmethod : request.method ∈ handledMethods) :
    (session.handler = some .s3 ∧ request.method ≠ .patch →
        handle urls request (some (session.dispatch request)) = do
          let client ← S3ClientCommand.fromRequest urls request session.region session.user
          return .command client) ∧
      (¬(session.handler = some .s3 ∧ request.method ≠ .patch) →
        ∃ reply, handle urls request (some (session.dispatch request)) = .ok reply) := by
  unfold GatewaySession.dispatch
  cases session.handler with
  | none => exact ⟨nofun, fun _ => ⟨_, rfl⟩⟩
  | some handler =>
    simp only [if_pos hmethod, Option.some.injEq]
    constructor
    · rintro ⟨rfl, hpatch⟩
      simp only [handle, if_neg hpatch]
    · intro hnot
      cases handler with
      | s3 =>
        have hpatch : request.method = .patch := by
          by_contra hne
          exact hnot ⟨rfl, hne⟩
        simp only [handle, if_pos hpatch]
        exact ⟨_, rfl⟩
      | _ => exact ⟨_, rfl⟩

theorem handle_answer {request : Request} {response : Response}
    (hanswer : answer request = some response) :
    handle urls request (some response) = .ok (.response response) := by
  unfold answer at hanswer
  split_ifs at hanswer
  all_goals
    cases hanswer
    rfl

/-- A request whose signature cannot be computed is an exception. -/
def FailsToVerify (digests : Digests) (configuration : Configuration) (arrival : Arrival) : Prop :=
  answer arrival.request = none ∧ hasHeader arrival.request (ascii "x-awsmock-target") = false ∧
    arrival.verified digests configuration = none

theorem handle_outcome (region : Bytes) :
    (FailsToVerify digests configuration arrival →
        handle urls arrival.request (outcome digests configuration region arrival) =
          .error .exception) ∧
      (GoesToS3 digests configuration arrival → ∃ dispatched user,
        handle urls arrival.request (outcome digests configuration region arrival) = do
          let client ← S3ClientCommand.fromRequest urls arrival.request dispatched user
          return .command client) ∧
      (¬GoesToS3 digests configuration arrival → ¬FailsToVerify digests configuration arrival →
        ∃ reply, handle urls arrival.request (outcome digests configuration region arrival) =
          .ok reply) := by
  unfold outcome GoesToS3 FailsToVerify moduleOf
  cases hanswer : answer arrival.request with
  | some response =>
    refine ⟨fun hfails => ?_, fun hgoes => ?_, fun _ _ => ⟨_, handle_answer hanswer⟩⟩
    · cases hfails.1
    · cases hgoes.1
  | none =>
    have hmethod := method_mem_of_answer hanswer
    cases htarget : hasHeader arrival.request (ascii "x-awsmock-target") with
    | true =>
      simp only [if_true]
      obtain ⟨hs3, hother⟩ := handle_dispatch urls
        ({ region, user := configuration.user,
           handler := getHandler
            (getHeaderValue arrival.request (ascii "x-awsmock-target")) } : GatewaySession)
        hmethod
      refine ⟨fun hfails => ?_, ?_, ?_⟩
      · cases hfails.2.1
      · rintro ⟨-, -, hhandler, hpatch⟩
        exact ⟨region, configuration.user, hs3 ⟨hhandler, hpatch⟩⟩
      · intro hnot _
        apply hother
        rintro ⟨hhandler, hpatch⟩
        exact hnot ⟨trivial, .inl trivial, hhandler, hpatch⟩
    | false =>
      simp only [Bool.false_eq_true, if_false]
      cases hverified : arrival.verified digests configuration with
      | none =>
        refine ⟨fun _ => rfl, ?_, ?_⟩
        · rintro ⟨-, hor, -⟩
          rcases hor with hor | hor
          · exact hor.elim
          · cases hor
        · intro _ hnot
          exact absurd ⟨trivial, trivial, rfl⟩ hnot
      | some verified =>
        cases verified with
        | false =>
          refine ⟨?_, ?_, fun _ _ => ⟨_, rfl⟩⟩
          · rintro ⟨-, -, hnone⟩
            cases hnone
          · rintro ⟨-, hor, -⟩
            rcases hor with hor | hor
            · exact hor.elim
            · cases hor
        | true =>
          obtain ⟨hs3, hother⟩ := handle_dispatch urls
            ({ region := (getAuthorizationKeys configuration arrival.request []).region
               user := configuration.user
               handler := getHandler
                (getAuthorizationKeys configuration arrival.request []).module } :
                  GatewaySession)
            hmethod
          refine ⟨?_, ?_, ?_⟩
          · rintro ⟨-, -, hnone⟩
            cases hnone
          · rintro ⟨-, -, hhandler, hpatch⟩
            exact ⟨_, configuration.user, hs3 ⟨hhandler, hpatch⟩⟩
          · intro hnot _
            apply hother
            rintro ⟨hhandler, hpatch⟩
            exact hnot ⟨trivial, .inr rfl, hhandler, hpatch⟩

theorem verified_eq_none_iff :
    arrival.verified digests configuration = none ↔
      configuration.verifySignature = true ∧ ¬QueryDecodes arrival.request.target := by
  unfold Arrival.verified
  cases configuration.verifySignature with
  | false => simp
  | true =>
    rw [if_pos rfl, ← getQueryParameters_isSome_iff, AwsUtils.verifySignature,
      Option.map_eq_none_iff, AwsUtils.getCanonicalRequest, Option.map_eq_none_iff,
      AwsUtils.getCanonicalQueryParameters, Option.map_eq_none_iff]
    cases getQueryParameters arrival.request.target with
    | none => simp
    | some parameters => simp

theorem origin_of_isInvocation {request : Request} (hinvocation : IsInvocation urls request) :
    ∃ segments, urls.parseOriginForm request.target = some segments := by
  apply succeeds_isLambdaInvocation.mp ⟨true, hinvocation⟩
  by_contra hmethod
  unfold IsInvocation isLambdaInvocation at hinvocation
  rw [if_pos hmethod] at hinvocation
  cases hinvocation

theorem handle_outcome_iff (region : Bytes)
    (hposted : arrival.request.method = .post →
      ∃ segments, urls.parseOriginForm arrival.request.target = some segments) :
    (Succeeds (handle urls arrival.request (outcome digests configuration region arrival)) ∨
        IsInvocation urls arrival.request ∧
          IsDefined (handle urls arrival.request (outcome digests configuration region arrival))) ↔
      GoesThrough digests urls configuration arrival := by
  obtain ⟨hfailing, hs3, hother⟩ := @handle_outcome digests urls configuration arrival region
  have hverified : ¬FailsToVerify digests configuration arrival →
      answer arrival.request = none →
        hasHeader arrival.request (ascii "x-awsmock-target") = false →
          configuration.verifySignature = true →
            QueryDecodes arrival.request.target ∨ IsInvocation urls arrival.request := by
    intro hnot hanswer htarget hverify
    left
    by_contra hquery
    exact hnot ⟨hanswer, htarget, verified_eq_none_iff.mpr ⟨hverify, hquery⟩⟩
  by_cases hfails : FailsToVerify digests configuration arrival
  · obtain ⟨hanswer, htarget, hnone⟩ := hfails
    obtain ⟨hverify, hquery⟩ := verified_eq_none_iff.mp hnone
    have hgoes : ¬GoesToS3 digests configuration arrival := by
      rintro ⟨-, hor, -⟩
      rw [htarget, hnone] at hor
      rcases hor with hor | hor
      · cases hor
      · cases hor
    rw [hfailing ⟨hanswer, htarget, hnone⟩]
    constructor
    · rintro (⟨reply, hreply⟩ | ⟨hinvocation, -⟩)
      · cases hreply
      · exact ⟨hposted, fun _ _ _ => .inr hinvocation, fun h => absurd h hgoes,
          fun h => absurd h hgoes, fun h => absurd h hgoes⟩
    · intro hthrough
      exact .inr ⟨(hthrough.verified hanswer htarget hverify).resolve_left hquery, nofun⟩
  · by_cases hgoes : GoesToS3 digests configuration arrival
    · obtain ⟨region', user, hhandle⟩ := hs3 hgoes
      have hcommand : Succeeds (do
          let client ← S3ClientCommand.fromRequest urls arrival.request region' user
          return Reply.command client) ↔ _ :=
        (succeeds_bind_iff fun _ => succeeds_ok _).trans succeeds_fromRequest
      rw [hhandle, hcommand]
      constructor
      · rintro (⟨hagent, hlength, horigin, hquery, hreference⟩ | ⟨hinvocation, hdefined⟩)
        · exact ⟨hposted, hverified hfails, fun _ => hagent, fun _ => horigin,
            fun _ => .inl ⟨hquery, hreference, hlength⟩⟩
        · have horigin := origin_of_isInvocation hinvocation
          have hagent : AgentReads arrival.request := by
            apply (@isDefined_fromRequest urls arrival.request region' user horigin).mp
            intro herror
            rw [herror] at hdefined
            exact hdefined rfl
          exact ⟨hposted, hverified hfails, fun _ => hagent, fun _ => horigin,
            fun _ => .inr hinvocation⟩
      · intro hthrough
        rcases hthrough.command hgoes with ⟨hquery, hreference, hlength⟩ | hinvocation
        · exact .inl ⟨hthrough.agent hgoes, hlength, hthrough.origin hgoes, hquery, hreference⟩
        · refine .inr ⟨hinvocation, isDefined_bind ?_ fun _ _ => isDefined_ok _⟩
          exact (isDefined_fromRequest (hthrough.origin hgoes)).mpr (hthrough.agent hgoes)
    · obtain ⟨reply, hreply⟩ := hother hgoes hfails
      rw [hreply]
      refine iff_of_true (.inl (succeeds_ok reply)) ?_
      exact ⟨hposted, hverified hfails, fun h => absurd h hgoes, fun h => absurd h hgoes,
        fun h => absurd h hgoes⟩

theorem answer_of_isMalformed {request : Request} (hmalformed : IsMalformed request) :
    ∃ message, answer request = some (.badRequest message) := by
  unfold answer
  by_cases hmethod : request.method ∈ handledMethods
  · rw [if_neg (not_not.mpr hmethod), if_pos (hmalformed.resolve_left (not_not.mpr hmethod))]
    exact ⟨_, rfl⟩
  · rw [if_pos hmethod]
    exact ⟨_, rfl⟩

theorem reply_of_isMalformed (hmalformed : IsMalformed arrival.request)
    {reply : GatewaySession × Reply}
    (hreply : onRead digests urls configuration session arrival = .ok reply) :
    ∃ message, reply.2 = .response (.badRequest message) := by
  obtain ⟨message, hanswer⟩ := answer_of_isMalformed hmalformed
  unfold onRead at hreply
  rw [handleRequest_answered hanswer] at hreply
  dsimp only at hreply
  rw [handle_answer hanswer] at hreply
  cases hlambda : isLambdaInvocation urls arrival.request with
  | error fault =>
    rw [hlambda] at hreply
    cases hreply
  | ok lambda =>
    rw [hlambda] at hreply
    cases hreply
    exact ⟨message, rfl⟩

end Answers

section Runs

variable (digests : Digests) (urls : UrlLibrary) (configuration : Configuration)

end Runs

section Samples

def slashLibrary : UrlLibrary where
  parseOriginForm target := if target = ascii "/" then some [] else none
  parseReference target := if target = ascii "/" then some [] else none

def starArrival : Arrival :=
  { request := { methodString := ascii "POST", target := ascii "*" }
    isoDateString := [] }

end Samples

end AwsMock.Gateway
