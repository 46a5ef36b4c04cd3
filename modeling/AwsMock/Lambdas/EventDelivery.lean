import Mathlib.Data.List.Dedup
import AwsMock.Lambdas.EventSources

/-! # What reaches a function

A ledger notes the last event source that was added and not deleted. The function lists it and
its events reach the function, as long as event sources of buckets are neither changed nor
deleted, and topics are not used.
-/

namespace AwsMock.Lambdas.EventSources

open Foundation

section Definitions

structure Added where
  request : AddEventSourceRequest
  randomUuid : String

def Added.mapping (added : Added) : EventSourceMapping := added.request.mapping added.randomUuid

/-- The last add that no delete follows, by function and source. -/
abbrev Ledger := String → String → Option Added

def Ledger.note (ledger : Ledger) (functionArn source : String) (added : Option Added) : Ledger :=
  fun other otherSource =>
    if other = functionArn ∧ otherSource = source then added else ledger other otherSource

structure Account where
  world : World
  ledger : Ledger

def Operation.note (ledger : Ledger) : Operation → Ledger
  | .addEventSource request randomUuid _ =>
    ledger.note request.functionArn request.eventSourceArn (some ⟨request, randomUuid⟩)
  | .deleteEventSource functionArn eventSourceArn _ =>
    ledger.note functionArn eventSourceArn none

def Account.step (account : Account) (operation : Operation) : Account where
  world := (operation.perform account.world).2
  ledger :=
    match (operation.perform account.world).1 with
    | .ok () => operation.note account.ledger
    | .error _ => account.ledger

def AddEventSourceRequest.wants (request : AddEventSourceRequest) : Event → Bool
  | .object eventName key =>
    request.notification.hasEvent eventName &&
      (request.filterRuleType = "" || request.notification.checkFilter key)
  | .message => true

def CanHappen (world : World) (source : String) : Event → Prop
  | .object _ _ => ∃ lambdaNotifications,
      world.getResource source = some (.bucket lambdaNotifications)
  | .message => ∃ resource, world.getResource source = some resource ∧
      (resource.isQueue = true ∨ resource.isTopic = true)

/-- A function lists for a source what was added last, and nothing after a delete, and the
events of the source reach it just as this says. -/
structure Delivers (account : Account) : Prop where
  mappings : ∀ lambda ∈ account.world.lambdas, ∀ source,
    lambda.eventSources.filter (fun e => e.eventSourceArn = source) =
      ((account.ledger lambda.arn source).map Added.mapping).toList
  reaches : ∀ lambda ∈ account.world.lambdas, ∀ source event, CanHappen account.world source event →
      (lambda.arn ∈ invoked account.world source event ↔
        ∃ added ∈ account.ledger lambda.arn source, added.request.wants event = true)

def FailsCleanly (account : Account) (operation : Operation) : Prop :=
  (operation.perform account.world).1 ≠ .ok () → (operation.perform account.world).2 = account.world

/-- A bucket is told of a function once, with a filter, and then only asked to do the same. A
topic is told of none. -/
def Resource.Accepts (request : AddEventSourceRequest) (faults : Faults) : Resource → Prop
  | .bucket lambdaNotifications =>
    if request.type = "S3" then
      if ∃ n ∈ lambdaNotifications, n.lambdaArn = request.functionArn then
        faults.function = true ∨ (request.filterRuleType ≠ "" ∧ ∀ n ∈ lambdaNotifications,
          n.lambdaArn = request.functionArn → n = request.notification)
      else
        faults.resource = true ∨ (request.filterRuleType ≠ "" ∧ faults.function = false)
    else request.type = "SQS" ∨ request.type = "SNS" ∨ faults.function = true
  | .queue => True
  | .topic _ =>
    request.type = "S3" ∨ request.type = "SQS" ∨ faults.function = true ∨
      (request.type = "SNS" ∧ faults.resource = true)

def Resource.Releases (lambda : Lambda) (source : String) (faults : Faults) : Resource → Prop
  | .bucket _ => lambda.hasEventSource source = false ∨ faults.function = true
  | _ => True

def Heeds (account : Account) : Operation → Prop
  | .addEventSource request _ faults =>
    ∀ _lambda ∈ account.world.getLambdaByArn request.functionArn,
      ∀ resource ∈ account.world.getResource request.eventSourceArn, resource.Accepts request faults
  | .deleteEventSource functionArn eventSourceArn faults =>
    ∀ lambda ∈ account.world.getLambdaByArn functionArn,
      ∀ resource ∈ account.world.getResource eventSourceArn,
        resource.Releases lambda eventSourceArn faults

instance decidableAccepts (request : AddEventSourceRequest) (faults : Faults) :
    ∀ resource : Resource, Decidable (resource.Accepts request faults)
  | .bucket _ => inferInstanceAs (Decidable (ite _ _ _))
  | .queue => isTrue trivial
  | .topic _ => inferInstanceAs (Decidable (_ ∨ _))

instance decidableReleases (lambda : Lambda) (source : String) (faults : Faults) :
    ∀ resource : Resource, Decidable (resource.Releases lambda source faults)
  | .bucket _ => inferInstanceAs (Decidable (_ ∨ _))
  | .queue | .topic _ => isTrue trivial

instance decidableHeeds (account : Account) : ∀ operation, Decidable (Heeds account operation)
  | .addEventSource _ _ _ => inferInstanceAs (Decidable (∀ _ ∈ _, _))
  | .deleteEventSource _ _ _ => inferInstanceAs (Decidable (∀ _ ∈ _, _))

inductive Kind where
  | bucket | queue | topic
deriving DecidableEq

def Kind.fresh : Kind → Resource
  | bucket => .bucket []
  | queue => .queue
  | topic => .topic []

/-- Functions without event sources, and resources that notify nobody. -/
def Account.start (functionArns : List String) (resources : List (String × Kind)) : Account where
  world :=
    { lambdas := functionArns.dedup.map fun arn => { arn := arn }
      resources := resources.map fun entry => (entry.1, entry.2.fresh) }
  ledger := fun _ _ => none

/-- Buckets notify of what was added last, and topics of nothing. -/
structure Account.IsValid (account : Account) : Prop where
  arns : (account.world.lambdas.map Lambda.arn).Nodup
  mappings : ∀ lambda ∈ account.world.lambdas, ∀ source,
    lambda.eventSources.filter (fun e => e.eventSourceArn = source) =
      ((account.ledger lambda.arn source).map Added.mapping).toList
  buckets : ∀ source lambdaNotifications,
    account.world.getResource source = some (.bucket lambdaNotifications) → ∀ functionArn,
      lambdaNotifications.filter (fun n => n.lambdaArn = functionArn) =
        ((account.ledger functionArn source).map fun added => added.request.notification).toList ∧
      ∀ added ∈ account.ledger functionArn source, added.request.filterRuleType ≠ ""
  topics : ∀ source lambdaEndpoints,
    account.world.getResource source = some (.topic lambdaEndpoints) →
      lambdaEndpoints = [] ∧ ∀ functionArn, account.ledger functionArn source = none

end Definitions

/-! ## Events -/

section Events

variable {account : Account} {lambda : Lambda} {source : String}

theorem hasEventSource_iff (hvalid : account.IsValid) (hmem : lambda ∈ account.world.lambdas) :
    lambda.hasEventSource source = true ↔ ∃ added, account.ledger lambda.arn source = some added := by
  have hmappings := hvalid.mappings lambda hmem source
  constructor
  · intro hhas
    obtain ⟨mapping, hmapping, hsource⟩ := List.any_eq_true.mp hhas
    have hin : mapping ∈ lambda.eventSources.filter fun e => e.eventSourceArn = source :=
      List.mem_filter.mpr ⟨hmapping, hsource⟩
    rw [hmappings] at hin
    cases hledger : account.ledger lambda.arn source with
    | none =>
      rw [hledger] at hin
      cases hin
    | some added => exact ⟨added, rfl⟩
  · rintro ⟨added, hadded⟩
    rw [hadded] at hmappings
    have hin : added.mapping ∈ lambda.eventSources.filter fun e => e.eventSourceArn = source := by
      rw [hmappings]
      exact List.mem_singleton_self _
    exact List.any_eq_true.mpr ⟨_, List.mem_filter.mp hin⟩

variable {lambdaNotifications : List LambdaNotification}

theorem getBucketByArn_eq {world : World}
    (hresource : world.getResource source = some (.bucket lambdaNotifications)) :
    world.getBucketByArn source = some lambdaNotifications := by
  rw [World.getBucketByArn, hresource]

theorem mem_invoked_object {eventName key : String}
    (hresource : account.world.getResource source = some (.bucket lambdaNotifications))
    (functionArn : String) :
    functionArn ∈ invoked account.world source (.object eventName key) ↔
      ∃ n ∈ lambdaNotifications.filter (fun n => n.lambdaArn = functionArn),
        n.hasEvent eventName = true ∧ n.checkFilter key = true := by
  rw [invoked, getBucketByArn_eq hresource]
  simp only [List.mem_map, List.mem_filter, decide_eq_true_eq]
  constructor
  · rintro ⟨n, ⟨⟨hmem, hevent⟩, hfilter⟩, harn⟩
    exact ⟨n, ⟨hmem, harn⟩, hevent, hfilter⟩
  · rintro ⟨n, ⟨hmem, harn⟩, hevent, hfilter⟩
    exact ⟨n, ⟨⟨hmem, hevent⟩, hfilter⟩, harn⟩

variable (hvalid : account.IsValid)
include hvalid

theorem reaches_object
    (hresource : account.world.getResource source = some (.bucket lambdaNotifications))
    (eventName key : String) (functionArn : String) :
    functionArn ∈ invoked account.world source (.object eventName key) ↔
      ∃ added ∈ account.ledger functionArn source,
        added.request.wants (.object eventName key) = true := by
  obtain ⟨hnotifications, hfilters⟩ := hvalid.buckets source lambdaNotifications hresource functionArn
  rw [mem_invoked_object hresource, hnotifications]
  cases hledger : account.ledger functionArn source with
  | none => simp
  | some added =>
    have hfilter := hfilters added hledger
    simp [AddEventSourceRequest.wants, hfilter]

theorem reaches_message (hmem : lambda ∈ account.world.lambdas)
    {resource : Resource} (hresource : account.world.getResource source = some resource)
    (hkind : resource.isQueue = true ∨ resource.isTopic = true) :
    lambda.arn ∈ invoked account.world source .message ↔
      ∃ added ∈ account.ledger lambda.arn source, added.request.wants .message = true := by
  rw [invoked, hresource]
  cases resource with
  | bucket lambdaNotifications => exact absurd hkind (by simp [Resource.isQueue, Resource.isTopic])
  | queue =>
    dsimp only
    have hreaches : lambda.arn ∈ (account.world.listLambdasWithEventSource source).map Lambda.arn ↔
        lambda.hasEventSource source = true := by
      constructor
      · intro hin
        obtain ⟨other, hother, harn⟩ := List.mem_map.mp hin
        obtain ⟨hotherMem, hhas⟩ := List.mem_filter.mp hother
        rwa [← List.inj_on_of_nodup_map hvalid.arns hotherMem hmem harn]
      · exact fun hhas => List.mem_map_of_mem (List.mem_filter.mpr ⟨hmem, hhas⟩)
    rw [hreaches, hasEventSource_iff hvalid hmem]
    exact exists_congr fun added => (and_iff_left rfl).symm
  | topic lambdaEndpoints =>
    obtain ⟨rfl, hnone⟩ := hvalid.topics source lambdaEndpoints hresource
    rw [hnone]
    exact iff_of_false List.not_mem_nil (by rintro ⟨_, ⟨⟩, _⟩)

theorem Account.IsValid.delivers : Delivers account where
  mappings := hvalid.mappings
  reaches := by
    intro lambda hmem source event hhappens
    cases event with
    | object eventName key =>
      obtain ⟨lambdaNotifications, hresource⟩ := hhappens
      exact reaches_object hvalid hresource eventName key lambda.arn
    | message =>
      obtain ⟨resource, hresource, hkind⟩ := hhappens
      exact reaches_message hvalid hmem hresource hkind

end Events

/-! ## Edits -/

section Edits

variable {account : Account} {lambda : Lambda} {source : String} {mapping : EventSourceMapping}
  {eventSources : List EventSourceMapping}

structure Edits (source : String) (mapping : Option EventSourceMapping)
    (before after : List EventSourceMapping) : Prop where
  self : after.filter (fun e => e.eventSourceArn = source) = mapping.toList
  others : ∀ other ≠ source, after.filter (fun e => e.eventSourceArn = other) =
    before.filter (fun e => e.eventSourceArn = other)

theorem edits_append (hnone : eventSources.filter (fun e => e.eventSourceArn = source) = [])
    (hsource : mapping.eventSourceArn = source) :
    Edits source (some mapping) eventSources (eventSources ++ [mapping]) where
  self := by
    rw [List.filter_append, hnone, List.nil_append, List.filter_cons_of_pos (by simpa using hsource)]
    rfl
  others := by
    intro other hne
    rw [List.filter_append, List.filter_cons_of_neg, List.filter_nil, List.append_nil]
    simpa [hsource] using hne.symm

theorem edits_rewriteWhere {old : EventSourceMapping}
    (hone : eventSources.filter (fun e => e.eventSourceArn = source) = [old])
    (hsource : mapping.eventSourceArn = source) :
    Edits source (some mapping) eventSources
      (rewriteWhere (fun e => e.eventSourceArn = source) (fun _ => mapping) eventSources) where
  self := by
    have hkept : (rewriteWhere (fun e => e.eventSourceArn = source) (fun _ => mapping)
        eventSources).filter (fun e => e.eventSourceArn = source) =
        (eventSources.filter (fun e => e.eventSourceArn = source)).map fun _ => mapping := by
      clear hone
      induction eventSources with
      | nil => rfl
      | cons e eventSources ih =>
        rw [rewriteWhere_cons]
        by_cases he : e.eventSourceArn = source
        · rw [if_pos (decide_eq_true he), List.filter_cons_of_pos (by simpa using hsource),
            List.filter_cons_of_pos (by simpa using he), List.map_cons, ih]
        · rw [if_neg (by simpa using he), List.filter_cons_of_neg (by simpa using he),
            List.filter_cons_of_neg (by simpa using he), ih]
    rw [hkept, hone]
    rfl
  others := by
    intro other hne
    clear hone
    induction eventSources with
    | nil => rfl
    | cons e eventSources ih =>
      rw [rewriteWhere_cons]
      by_cases he : e.eventSourceArn = source
      · rw [if_pos (decide_eq_true he), List.filter_cons_of_neg (by simpa [hsource] using hne.symm),
          List.filter_cons_of_neg (by simpa [he] using hne.symm), ih]
      · rw [if_neg (by simpa using he), List.filter_cons, List.filter_cons, ih]

theorem edits_removeKey : Edits source none eventSources
    (removeKey EventSourceMapping.eventSourceArn source eventSources) where
  self := by
    refine List.filter_eq_nil_iff.mpr fun e he => ?_
    have hne := of_decide_eq_true (List.mem_filter.mp he).2
    simpa using hne
  others := by
    intro other hne
    refine filter_removeKey_of_ne (fun e he => ?_) eventSources
    rw [of_decide_eq_true he]
    exact hne

theorem Ledger.note_self (ledger : Ledger) (functionArn source : String) (added : Option Added) :
    ledger.note functionArn source added functionArn source = added :=
  if_pos ⟨rfl, rfl⟩

theorem Ledger.note_of_ne (ledger : Ledger) {functionArn source other otherSource : String}
    (added : Option Added) (hne : other ≠ functionArn ∨ otherSource ≠ source) :
    ledger.note functionArn source added other otherSource = ledger other otherSource :=
  if_neg fun hsame => hne.elim (fun hne => hne hsame.1) fun hne => hne hsame.2

theorem isValid_note (hvalid : account.IsValid) {functionArn : String} {added : Option Added}
    {next : World} (hfind : account.world.getLambdaByArn functionArn = some lambda)
    (hlambdas : next.lambdas = account.world.lambdas)
    (hedits : Edits source (added.map Added.mapping) lambda.eventSources eventSources)
    (hothers : ∀ other ≠ source, next.getResource other = account.world.getResource other)
    (hbucket : ∀ lambdaNotifications,
      next.getResource source = some (.bucket lambdaNotifications) → ∀ other,
        lambdaNotifications.filter (fun n => n.lambdaArn = other) =
          ((account.ledger.note functionArn source added other source).map
            fun added => added.request.notification).toList ∧
        ∀ noted ∈ account.ledger.note functionArn source added other source,
          noted.request.filterRuleType ≠ "")
    (htopic : ∀ lambdaEndpoints,
      next.getResource source = some (.topic lambdaEndpoints) → lambdaEndpoints = [] ∧
        ∀ other, account.ledger.note functionArn source added other source = none) :
    Account.IsValid ⟨next.updateLambda { lambda with eventSources := eventSources },
      account.ledger.note functionArn source added⟩ := by
  have harn : lambda.arn = functionArn := key_of_findKey hfind
  have hupsert : (next.updateLambda { lambda with eventSources := eventSources }).lambdas =
      upsert Lambda.arn { lambda with eventSources := eventSources } account.world.lambdas := by
    rw [World.updateLambda, hlambdas]
    exact (upsert_of_findKey_some (x := { lambda with eventSources := eventSources })
      (harn.symm ▸ hfind)).symm
  constructor
  · rw [hupsert]
    exact nodup_upsert hvalid.arns
  · intro other hother otherSource
    change other.eventSources.filter _ =
      ((account.ledger.note functionArn source added other.arn otherSource).map
        Added.mapping).toList
    rw [hupsert, mem_upsert_iff hvalid.arns] at hother
    rcases hother with rfl | ⟨hold, hne⟩
    · dsimp only
      rw [harn]
      by_cases hsource : otherSource = source
      · rw [hsource, Ledger.note_self, hedits.self]
      · rw [Ledger.note_of_ne _ _ (Or.inr hsource), hedits.others otherSource hsource, ← harn]
        exact hvalid.mappings lambda (mem_of_findKey hfind) otherSource
    · rw [Ledger.note_of_ne _ _ (Or.inl (harn ▸ hne))]
      exact hvalid.mappings other hold otherSource
  · intro otherSource lambdaNotifications hresource other
    by_cases hsource : otherSource = source
    · subst hsource
      exact hbucket lambdaNotifications hresource other
    · have hbefore := (hothers otherSource hsource).symm.trans hresource
      change _ = ((account.ledger.note functionArn source added other otherSource).map _).toList ∧
        ∀ noted ∈ account.ledger.note functionArn source added other otherSource, _
      rw [Ledger.note_of_ne _ _ (Or.inr hsource)]
      exact hvalid.buckets otherSource lambdaNotifications hbefore other
  · intro otherSource lambdaEndpoints hresource
    by_cases hsource : otherSource = source
    · subst hsource
      exact htopic lambdaEndpoints hresource
    · have hbefore := (hothers otherSource hsource).symm.trans hresource
      obtain ⟨hnil, hnone⟩ := hvalid.topics otherSource lambdaEndpoints hbefore
      refine ⟨hnil, fun other => ?_⟩
      change account.ledger.note functionArn source added other otherSource = none
      rw [Ledger.note_of_ne _ _ (Or.inr hsource)]
      exact hnone other

end Edits

/-! ## Steps -/

section Steps

variable {account : Account} {world next : World} {request : AddEventSourceRequest}
  {faults : Faults} {source : String}

inductive Told (world : World) (request : AddEventSourceRequest) (faults : Faults) : World → Prop
  | known (lambdaNotifications : List LambdaNotification) (htype : request.type = "S3")
      (hresource : world.getResource request.eventSourceArn = some (.bucket lambdaNotifications))
      (hknown : ∃ n ∈ lambdaNotifications, n.lambdaArn = request.functionArn) :
      Told world request faults world
  | bucket (lambdaNotifications : List LambdaNotification) (htype : request.type = "S3")
      (hresource : world.getResource request.eventSourceArn = some (.bucket lambdaNotifications))
      (hnew : ¬ ∃ n ∈ lambdaNotifications, n.lambdaArn = request.functionArn)
      (hfault : faults.resource = false) :
      Told world request faults (world.updateBucket request.eventSourceArn
        (lambdaNotifications ++ [request.notification]))
  | queue (htype : request.type = "SQS")
      (hqueue : world.queueArnExists request.eventSourceArn = true) :
      Told world request faults world
  | topic (htype : request.type = "SNS") (htopic : world.topicExists request.eventSourceArn = true)
      (hfault : faults.resource = false) : Told world request faults world
  | other (hbucket : request.type ≠ "S3") (hqueue : request.type ≠ "SQS")
      (htopic : request.type ≠ "SNS") : Told world request faults world

variable {lambdaNotifications : List LambdaNotification} {operation : Operation}

theorem getResource_of_getBucketByArn
    (hbucket : world.getBucketByArn source = some lambdaNotifications) :
    world.getResource source = some (.bucket lambdaNotifications) := by
  rw [World.getBucketByArn] at hbucket
  split at hbucket
  · next hresource => rw [hresource, Option.some.inj hbucket]
  · cases hbucket

theorem told_of_ok (hok : createResourceNotification world request faults = .ok next) :
    Told world request faults next := by
  rw [createResourceNotification] at hok
  split at hok
  · next htype =>
    split at hok
    · cases hok
    · next lambdaNotifications hbucket =>
      have hresource := getResource_of_getBucketByArn hbucket
      split at hok
      · next hany =>
        cases hok
        refine .known lambdaNotifications htype hresource ?_
        simpa using hany
      · next hany =>
        split at hok
        · cases hok
        · next hfault =>
          cases hok
          refine .bucket lambdaNotifications htype hresource ?_ (Bool.eq_false_iff.mpr hfault)
          simpa using hany
  · next hbucket =>
    split at hok
    · next htype =>
      split at hok
      · cases hok
      · next hqueue =>
        split at hok
        · cases hok
        · cases hok
          exact .queue htype (by simpa using hqueue)
    · next hqueue =>
      split at hok
      · next htype =>
        split at hok
        · cases hok
        · next htopic =>
          split at hok
          · cases hok
          · next hfault =>
            cases hok
            exact .topic htype (by simpa using htopic) (Bool.eq_false_iff.mpr hfault)
      · next htopic =>
        cases hok
        exact .other hbucket hqueue htopic

theorem Told.lambdas (htold : Told world request faults next) : next.lambdas = world.lambdas := by
  cases htold <;> rfl

theorem getResource_updateBucket {lambdaNotifications next : List LambdaNotification}
    (hresource : world.getResource source = some (.bucket lambdaNotifications)) (other : String) :
    (world.updateBucket source next).getResource other =
      if other = source then some (.bucket next) else world.getResource other := by
  obtain ⟨entry, hfind, _⟩ := Option.map_eq_some_iff.mp hresource
  have hupsert : (world.updateBucket source next).resources =
      upsert Prod.fst (source, .bucket next) world.resources :=
    (upsert_of_findKey_some (x := (source, Resource.bucket next)) hfind).symm
  rw [World.getResource, hupsert, findKey_upsert]
  by_cases hother : other = source
  · rw [if_pos hother.symm, if_pos hother]
    rfl
  · rw [if_neg (Ne.symm hother), if_neg hother]
    rfl

theorem Told.getResource (htold : Told world request faults next) {other : String}
    (hother : other ≠ request.eventSourceArn) : next.getResource other = world.getResource other := by
  cases htold with
  | bucket lambdaNotifications htype hresource hnew hfault =>
    rw [getResource_updateBucket hresource, if_neg hother]
  | _ => rfl

theorem not_queue {resource : Resource} (hqueue : world.queueArnExists source = true)
    (hresource : world.getResource source = some resource) : resource = .queue := by
  rw [World.queueArnExists, hresource] at hqueue
  cases resource with
  | queue => rfl
  | _ => cases hqueue

theorem not_topic {resource : Resource} (htopic : world.topicExists source = true)
    (hresource : world.getResource source = some resource) : resource.isTopic = true := by
  rw [World.topicExists, hresource] at htopic
  exact htopic

section

variable (htold : Told world request faults next)
include htold

variable (haccepts : ∀ resource ∈ world.getResource request.eventSourceArn, resource.Accepts request faults)
include haccepts

theorem Told.bucket_filter (hfault : faults.function = false)
    (hresource : next.getResource request.eventSourceArn = some (.bucket lambdaNotifications)) :
    request.filterRuleType ≠ "" ∧ ∃ before,
      world.getResource request.eventSourceArn = some (.bucket before) ∧
      ((lambdaNotifications = before ++ [request.notification] ∧
          ¬ ∃ n ∈ before, n.lambdaArn = request.functionArn) ∨
        (lambdaNotifications = before ∧ (∃ n ∈ before, n.lambdaArn = request.functionArn) ∧
          ∀ n ∈ before, n.lambdaArn = request.functionArn → n = request.notification)) := by
  cases htold with
  | known before htype hbefore hknown =>
    obtain rfl := Resource.bucket.inj (Option.some.inj (hresource.symm.trans hbefore))
    have hbucket := haccepts _ hbefore
    rw [Resource.Accepts, if_pos htype, if_pos hknown] at hbucket
    obtain ⟨hfilter, hsame⟩ := hbucket.resolve_left (by simp [hfault])
    exact ⟨hfilter, _, hbefore, Or.inr ⟨rfl, hknown, hsame⟩⟩
  | bucket before htype hbefore hnew hwritten =>
    rw [getResource_updateBucket hbefore, if_pos rfl] at hresource
    obtain rfl := Resource.bucket.inj (Option.some.inj hresource)
    have hbucket := haccepts _ hbefore
    rw [Resource.Accepts, if_pos htype, if_neg hnew] at hbucket
    exact ⟨(hbucket.resolve_left (by simp [hwritten])).1, _, hbefore, Or.inl ⟨rfl, hnew⟩⟩
  | queue htype hqueue => cases not_queue hqueue hresource
  | topic htype htopic hwritten => cases not_topic htopic hresource
  | other hbucket hqueue htopic =>
    have haccepted := haccepts _ hresource
    rw [Resource.Accepts, if_neg hbucket] at haccepted
    rcases haccepted with htype | htype | htype
    · exact absurd htype hqueue
    · exact absurd htype htopic
    · rw [hfault] at htype
      cases htype

theorem Told.not_topic (hfault : faults.function = false)
    {lambdaEndpoints : List String} :
    next.getResource request.eventSourceArn ≠ some (.topic lambdaEndpoints) := by
  intro hresource
  cases htold with
  | known before htype hbefore hknown => cases hresource.symm.trans hbefore
  | bucket before htype hbefore hnew hwritten =>
    rw [getResource_updateBucket hbefore, if_pos rfl] at hresource
    cases hresource
  | queue htype hqueue => cases not_queue hqueue hresource
  | topic htype htopic hwritten =>
    have haccepted := haccepts _ hresource
    rw [Resource.Accepts, htype, hfault, hwritten] at haccepted
    exact absurd haccepted (by decide)
  | other hbucket hqueue htopic =>
    have haccepted := haccepts _ hresource
    rw [Resource.Accepts, hfault] at haccepted
    rcases haccepted with htype | htype | htype | ⟨htype, _⟩
    · exact hbucket htype
    · exact hqueue htype
    · cases htype
    · exact htopic htype

theorem Told.eq_of_fault (hfault : faults.function = true) : next = world := by
  cases htold with
  | bucket before htype hbefore hnew hwritten =>
    have hbucket := haccepts _ hbefore
    rw [Resource.Accepts, if_pos htype, if_neg hnew, hwritten, hfault] at hbucket
    rcases hbucket with hfalse | ⟨_, hfalse⟩ <;> cases hfalse
  | _ => rfl

end

theorem buckets_of_told (hvalid : account.IsValid) (randomUuid : String)
    (htold : Told account.world request faults next)
    (haccepts : ∀ resource ∈ account.world.getResource request.eventSourceArn,
      resource.Accepts request faults) (hfault : faults.function = false)
    (hresource : next.getResource request.eventSourceArn = some (.bucket lambdaNotifications))
    (other : String) :
    lambdaNotifications.filter (fun n => n.lambdaArn = other) =
        ((account.ledger.note request.functionArn request.eventSourceArn
          (some ⟨request, randomUuid⟩) other request.eventSourceArn).map
            fun added => added.request.notification).toList ∧
      ∀ noted ∈ account.ledger.note request.functionArn request.eventSourceArn
          (some ⟨request, randomUuid⟩) other request.eventSourceArn,
        noted.request.filterRuleType ≠ "" := by
  obtain ⟨hfilter, before, hbefore, hafter⟩ := htold.bucket_filter haccepts hfault hresource
  obtain ⟨hnotifications, hfilters⟩ := hvalid.buckets _ before hbefore other
  by_cases hother : other = request.functionArn
  · subst hother
    rw [Ledger.note_self]
    refine ⟨?_, ?_⟩
    · rcases hafter with ⟨rfl, hnew⟩ | ⟨rfl, ⟨n, hn, harn⟩, hsame⟩
      · have hnone : before.filter (fun n => n.lambdaArn = request.functionArn) = [] := by
          refine List.filter_eq_nil_iff.mpr fun n hn => ?_
          simpa using fun harn => hnew ⟨n, hn, harn⟩
        have hself : [request.notification].filter (fun n => n.lambdaArn = request.functionArn) =
            [request.notification] := List.filter_cons_of_pos (decide_eq_true rfl)
        rw [List.filter_append, hnone, List.nil_append, hself]
        rfl
      · have hin := List.mem_filter (p := fun n => n.lambdaArn = request.functionArn).mpr
          ⟨hn, decide_eq_true harn⟩
        rw [hnotifications] at hin ⊢
        cases hledger : account.ledger request.functionArn request.eventSourceArn with
        | none =>
          rw [hledger] at hin
          cases hin
        | some added =>
          rw [hledger] at hin
          have hadded : n = added.request.notification := List.mem_singleton.mp hin
          rw [Option.map_some, ← hadded, hsame n hn harn]
          rfl
    · rintro _ ⟨⟩
      exact hfilter
  · rw [Ledger.note_of_ne _ _ (Or.inl hother)]
    refine ⟨?_, hfilters⟩
    rw [← hnotifications]
    rcases hafter with ⟨rfl, _⟩ | ⟨rfl, _, _⟩
    · have hnot : [request.notification].filter (fun n => n.lambdaArn = other) = [] :=
        List.filter_cons_of_neg fun heq => hother (of_decide_eq_true heq).symm
      rw [List.filter_append, hnot, List.append_nil]
    · rfl

theorem edits_add (hvalid : account.IsValid) {lambda : Lambda}
    (hmem : lambda ∈ account.world.lambdas) {mapping : EventSourceMapping}
    (hsource : mapping.eventSourceArn = source) :
    Edits source (some mapping) lambda.eventSources (if lambda.hasEventSource source then
        rewriteWhere (fun e => e.eventSourceArn = source) (fun _ => mapping) lambda.eventSources
      else lambda.eventSources ++ [mapping]) := by
  split
  · next hhas =>
    obtain ⟨added, hadded⟩ := (hasEventSource_iff hvalid hmem).mp hhas
    have hone := hvalid.mappings lambda hmem source
    rw [hadded] at hone
    exact edits_rewriteWhere hone hsource
  · next hhas =>
    refine edits_append (List.filter_eq_nil_iff.mpr fun e he => ?_) hsource
    exact fun heq => hhas (List.any_eq_true.mpr ⟨e, he, heq⟩)

/-- What a call keeps, and that a failure leaves everything as it was. -/
def Follows (account : Account) (operation : Operation) : Prop :=
  (account.step operation).IsValid ∧ FailsCleanly account operation

theorem follows_of_error (hvalid : account.IsValid) (message : String)
    (hperform : operation.perform account.world = (.error message, account.world)) :
    Follows account operation := by
  have hstep : account.step operation = account := by
    rw [Account.step, hperform]
  refine ⟨hstep.symm ▸ hvalid, fun _ => ?_⟩
  rw [hperform]

theorem follows_of_ok {next : World} (hperform : operation.perform account.world = (.ok (), next))
    (hvalid : Account.IsValid ⟨next, operation.note account.ledger⟩) :
    Follows account operation := by
  have hstep : account.step operation = ⟨next, operation.note account.ledger⟩ := by
    rw [Account.step, hperform]
  refine ⟨hstep.symm ▸ hvalid, fun hfails => absurd ?_ hfails⟩
  rw [hperform]

variable (hvalid : account.IsValid)
include hvalid

theorem follows_addEventSource (randomUuid : String)
    (hheeds : Heeds account (.addEventSource request randomUuid faults)) :
    Follows account (.addEventSource request randomUuid faults) := by
  cases hfind : account.world.getLambdaByArn request.functionArn with
  | none =>
    refine follows_of_error hvalid
      ("Lambda function does not exist, arn: " ++ request.functionArn) ?_
    rw [Operation.perform, addEventSource, hfind]
  | some lambda =>
    have haccepts := hheeds lambda hfind
    cases hcreate : createResourceNotification account.world request faults with
    | error message =>
      refine follows_of_error hvalid message ?_
      rw [Operation.perform, addEventSource, hfind]
      dsimp only
      rw [hcreate]
    | ok next =>
      have htold := told_of_ok hcreate
      cases hfault : faults.function with
      | true =>
        refine follows_of_error hvalid "Database exception" ?_
        rw [Operation.perform, addEventSource, hfind]
        dsimp only
        rw [hcreate, hfault, htold.eq_of_fault haccepts hfault]
        rfl
      | false =>
        have hperform : (Operation.addEventSource request randomUuid faults).perform
            account.world = (.ok (), next.updateLambda { lambda with
              eventSources :=
                if lambda.hasEventSource request.eventSourceArn then
                  rewriteWhere (fun e => e.eventSourceArn = request.eventSourceArn)
                    (fun _ => request.mapping randomUuid) lambda.eventSources
                else lambda.eventSources ++ [request.mapping randomUuid] }) := by
          rw [Operation.perform, addEventSource, hfind]
          dsimp only
          rw [hcreate, hfault]
          rfl
        refine follows_of_ok hperform ?_
        exact isValid_note hvalid hfind htold.lambdas
          (edits_add hvalid (mem_of_findKey hfind) rfl) (fun _ => htold.getResource)
          (fun _ => buckets_of_told hvalid randomUuid htold haccepts hfault)
          fun _ hresource => absurd hresource (htold.not_topic haccepts hfault)

theorem follows_deleteEventSource {functionArn : String}
    (hheeds : Heeds account (.deleteEventSource functionArn source faults)) :
    Follows account (.deleteEventSource functionArn source faults) := by
  cases hfind : account.world.getLambdaByArn functionArn with
  | none =>
    refine follows_of_error hvalid
      ("Lambda function does not exist, arn: " ++ functionArn) ?_
    rw [Operation.perform, deleteEventSource, hfind]
  | some lambda =>
    have hreleases := hheeds lambda hfind
    have hmem : lambda ∈ account.world.lambdas := mem_of_findKey hfind
    have harn : lambda.arn = functionArn := key_of_findKey hfind
    cases hfault : faults.function with
    | true =>
      refine follows_of_error hvalid "Database exception" ?_
      rw [Operation.perform, deleteEventSource, hfind]
      dsimp only
      rw [hfault]
      rfl
    | false =>
      have hperform : (Operation.deleteEventSource functionArn source faults).perform
          account.world = (.ok (), account.world.updateLambda { lambda with
            eventSources :=
              removeKey EventSourceMapping.eventSourceArn source lambda.eventSources }) := by
        rw [Operation.perform, deleteEventSource, hfind]
        dsimp only
        rw [hfault]
        rfl
      refine follows_of_ok hperform ?_
      refine isValid_note hvalid hfind rfl edits_removeKey (fun _ _ => rfl) ?_ ?_
      · intro lambdaNotifications hresource other
        have hkept := hvalid.buckets source lambdaNotifications hresource other
        by_cases hother : other = functionArn
        · subst hother
          have hreleased := (hreleases _ hresource).resolve_right (by simp [hfault])
          have hnone : account.ledger other source = none := by
            by_contra hnoted
            obtain ⟨added, hadded⟩ := Option.ne_none_iff_exists'.mp hnoted
            rw [(hasEventSource_iff hvalid hmem).mpr ⟨added, harn.symm ▸ hadded⟩] at hreleased
            cases hreleased
          rw [Ledger.note_self]
          rw [hnone] at hkept
          exact hkept
        · rw [Ledger.note_of_ne _ _ (Or.inl hother)]
          exact hkept
      · intro lambdaEndpoints hresource
        obtain ⟨hnil, hnone⟩ := hvalid.topics source lambdaEndpoints hresource
        refine ⟨hnil, fun other => ?_⟩
        rw [Ledger.note]
        split
        · rfl
        · exact hnone other

theorem follows_of_heeds (hheeds : Heeds account operation) : Follows account operation := by
  cases operation with
  | addEventSource request randomUuid faults =>
    exact follows_addEventSource hvalid randomUuid hheeds
  | deleteEventSource functionArn eventSourceArn faults =>
    exact follows_deleteEventSource hvalid hheeds

end Steps

/-! ## Runs -/

theorem isValid_start (functionArns : List String) (resources : List (String × Kind)) :
    (Account.start functionArns resources).IsValid where
  arns := by
    rw [Account.start, List.map_map]
    exact (List.map_id functionArns.dedup).symm ▸ functionArns.nodup_dedup
  mappings := by
    intro lambda hmem source
    obtain ⟨arn, _, rfl⟩ := List.mem_map.mp hmem
    rfl
  buckets := by
    intro source lambdaNotifications hresource other
    obtain ⟨entry, hentry, hbucket⟩ := Option.map_eq_some_iff.mp hresource
    obtain ⟨⟨arn, kind⟩, _, rfl⟩ := List.mem_map.mp (mem_of_findKey hentry)
    cases kind with
    | bucket =>
      cases hbucket
      exact ⟨rfl, nofun⟩
    | queue | topic => cases hbucket
  topics := by
    intro source lambdaEndpoints hresource
    obtain ⟨entry, hentry, htopic⟩ := Option.map_eq_some_iff.mp hresource
    obtain ⟨⟨arn, kind⟩, _, rfl⟩ := List.mem_map.mp (mem_of_findKey hentry)
    cases kind with
    | topic =>
      cases htopic
      exact ⟨rfl, fun _ => rfl⟩
    | queue | bucket => cases htopic

/-- In a run in which buckets and topics accept the event sources that are added, and nothing is
deleted that a bucket was told, functions list what was added last and are reached by its events,
and a call that fails leaves everything as it was. -/
theorem delivers_of_heeded (functionArns : List String) (resources : List (String × Kind))
    (operations : List Operation)
    (hheeded : Runs.Heeded Account.step Heeds operations (Account.start functionArns resources)) :
    Runs.Always Account.step Delivers operations (Account.start functionArns resources) ∧
      Runs.Heeded Account.step FailsCleanly operations (Account.start functionArns resources) := by
  have hstart := isValid_start functionArns resources
  have hstep (account : Account) (operation : Operation) (hvalid : account.IsValid)
      (hheeds : Heeds account operation) : Follows account operation :=
    follows_of_heeds hvalid hheeds
  refine ⟨?_, hheeded.imp_of_step hstep hstart⟩
  exact (Runs.always_of_heeded (fun account operation hvalid hheeds =>
    (hstep account operation hvalid hheeds).1) operations hstart hheeded).imp
      fun _ hvalid => hvalid.delivers

def bucketSource : AddEventSourceRequest :=
  { type := "S3"
    functionArn := "f"
    eventSourceArn := "b"
    events := ["s3:ObjectCreated:Put"]
    filterRuleType := "prefix"
    filterRuleValue := "in/" }

def queueSource : AddEventSourceRequest :=
  { type := "SQS", functionArn := "f", eventSourceArn := "q" }

theorem delivers_of_heeded_orders :
    Runs.Always Account.step Delivers
        [.addEventSource bucketSource "u" {}, .addEventSource queueSource "v" {},
          .addEventSource { bucketSource with batchSize := 5 } "w" {},
          .deleteEventSource "f" "q" {}]
        (Account.start ["f"] [("b", .bucket), ("q", .queue)]) ∧
      Runs.Heeded Account.step FailsCleanly
        [.addEventSource bucketSource "u" {}, .addEventSource queueSource "v" {},
          .addEventSource { bucketSource with batchSize := 5 } "w" {},
          .deleteEventSource "f" "q" {}]
        (Account.start ["f"] [("b", .bucket), ("q", .queue)]) :=
  delivers_of_heeded ["f"] [("b", .bucket), ("q", .queue)] _ (by decide)

/-- A bucket goes on to notify a function of which it was told. -/
theorem not_delivers_deleteEventSource :
    ¬ ∀ functionArns resources operations, Runs.Always Account.step Delivers operations
      (Account.start functionArns resources) := by
  intro hclaim
  have hdelivers := (hclaim ["f"] [("b", .bucket)]
    [.addEventSource bucketSource "u" {}, .deleteEventSource "f" "b" {}]).last
  have hreaches := hdelivers.reaches ⟨"f", []⟩ (by decide) "b"
    (.object "s3:ObjectCreated:Put" "in/1") ⟨[bucketSource.notification], by decide⟩
  obtain ⟨added, hadded, _⟩ := hreaches.mp (by decide)
  cases hadded

end AwsMock.Lambdas.EventSources
