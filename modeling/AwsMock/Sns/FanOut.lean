import AwsMock.Sns.Publishing

/-! # What a publication leads to

A message has to be kept once, to get to each subscription whose target is there, and to be
marked as sent. The loop over the subscriptions ends with the first exception, the memory store
marks no message, and the notification for an HTTP endpoint is JSON only when the characters of
the message stand for themselves in a JSON string.
-/

namespace AwsMock.Sns.Publishing

open Foundation
open Messages (Message MessageStatus MemoryRepository MongoRepository Draw)

/-! ## Bodies -/

section Bodies

def IsNotification (message : String) (body : List Char) : Prop :=
  ∃ json, Json.parse body = some json ∧ json.field "Message".toList = some (.string message.toList)

theorem isNotification_serialize {serialize : Json → List Char}
    (hserialize : ∀ json, Json.Writes json (serialize json)) (request : PublishRequest)
    (stamp : Stamp) :
    IsNotification request.message (serialize (sqsNotificationRequest request stamp)) :=
  ⟨sqsNotificationRequest request stamp, (hserialize _).parse_eq, rfl⟩

def typeMember : List Char × Json := ("Type".toList, .string "Notification".toList)

theorem readMembers_message (fuel : Nat) (tail : List Char) :
    Json.readMembers (fuel + 2) ("\"Message\":\"".toList ++ tail) =
      (Json.readCharacters tail.length tail).bind fun (value, rest) =>
        match Json.expect ',' rest with
        | some rest =>
          (Json.readMembers (fuel + 1) rest).map fun (members, rest) =>
            (("Message".toList, .string value) :: members, rest)
        | none =>
          (Json.expect '}' rest).map fun rest => ([("Message".toList, .string value)], rest) := by
  have hname : Json.readString ("\"Message\":\"".toList ++ tail) =
      some ("Message".toList, ':' :: '"' :: tail) := rfl
  have hvalue : Json.readValue (fuel + 1) ('"' :: tail) =
      (Json.readCharacters tail.length tail).map fun (value, rest) => (.string value, rest) := rfl
  rw [Json.readMembers, hname, Option.bind_some]
  dsimp only
  rw [Json.expect_cons rfl, Option.bind_some, hvalue, Option.bind_map]
  rfl

theorem readMembers_type (fuel : Nat) (tail : List Char) :
    Json.readMembers (fuel + 2) ("\"Type\":\"Notification\",".toList ++ tail) =
      (Json.readMembers (fuel + 1) tail).map fun (members, rest) =>
        (typeMember :: members, rest) := by
  have hname : Json.readString ("\"Type\":\"Notification\",".toList ++ tail) =
      some ("Type".toList, ':' :: ("\"Notification\",".toList ++ tail)) := rfl
  have hvalue : Json.readValue (fuel + 1) ("\"Notification\",".toList ++ tail) =
      some (.string "Notification".toList, ',' :: tail) := rfl
  rw [Json.readMembers, hname, Option.bind_some]
  dsimp only
  rw [Json.expect_cons rfl, Option.bind_some, hvalue, Option.bind_some]
  dsimp only
  rw [Json.expect_cons rfl]
  rfl

theorem httpBody_eq (message : String) :
    httpBody message = '{' :: ("\"Type\":\"Notification\",".toList ++
      ("\"Message\":\"".toList ++ (message.toList ++ ['"', '}']))) := by
  unfold httpBody
  rw [List.append_assoc]
  rfl

theorem isNotification_httpBody {message : String}
    (hplain : ∀ c ∈ message.toList, Json.IsPlain c) : IsNotification message (httpBody message) := by
  have htype := @Json.spells_self "Type".toList (Json.isPlain_of_all rfl)
  have hkind := @Json.spells_self "Notification".toList (Json.isPlain_of_all rfl)
  have hname := @Json.spells_self "Message".toList (Json.isPlain_of_all rfl)
  have hwrites := Json.Writes.object (.cons htype (.string hkind)
    (.one hname (.string (Json.spells_self hplain))))
  have htext : '{' :: ('"' :: "Type".toList ++ '"' :: ':' :: ('"' :: "Notification".toList ++ ['"'])
      ++ ',' :: ('"' :: "Message".toList ++ '"' :: ':' :: ('"' :: message.toList ++ ['"']))) ++ ['}'] =
      httpBody message := by
    rw [httpBody_eq]
    simp only [List.cons_append, List.append_assoc, List.nil_append]
    rfl
  rw [htext] at hwrites
  exact ⟨_, hwrites.parse_eq, rfl⟩

theorem isPlain_of_isNotification {message : String}
    (hnotification : IsNotification message (httpBody message)) :
    ∀ c ∈ message.toList, Json.IsPlain c := by
  obtain ⟨json, hparse, hfield⟩ := hnotification
  rw [httpBody_eq] at hparse
  generalize htail : message.toList ++ ['"', '}'] = tail at hparse
  have hlength : message.toList.length + 2 = tail.length := by
    rw [← htail, List.length_append]
    rfl
  obtain ⟨fuel, hfuel⟩ : ∃ fuel, ("\"Type\":\"Notification\",".toList ++
      ("\"Message\":\"".toList ++ tail)).length + 1 = fuel + 3 := by
    refine ⟨tail.length + 31, ?_⟩
    rw [List.length_append, List.length_append]
    change 22 + (11 + tail.length) + 1 = tail.length + 31 + 3
    omega
  unfold Json.parse at hparse
  rw [List.length_cons, hfuel] at hparse
  split at hparse
  next value rest hread =>
    have hvalue : value = json := Option.some.inj (Option.ite_none_right_eq_some.mp hparse).2
    subst hvalue
    have hobject : Json.readValue (fuel + 3 + 1) ('{' :: ("\"Type\":\"Notification\",".toList ++
        ("\"Message\":\"".toList ++ tail))) =
        (Json.readMembers (fuel + 3) ("\"Type\":\"Notification\",".toList ++
          ("\"Message\":\"".toList ++ tail))).map fun (members, rest) =>
            (.object members, rest) := rfl
    rw [hobject, readMembers_type, readMembers_message] at hread
    obtain ⟨⟨members, last⟩, hmembers, heq⟩ := Option.map_eq_some_iff.mp hread
    obtain ⟨rfl, -⟩ := Prod.mk.inj heq
    have hmem := Json.mem_of_field hfield
    obtain ⟨⟨others, final⟩, hothers, heq⟩ := Option.map_eq_some_iff.mp hmembers
    obtain ⟨rfl, -⟩ := Prod.mk.inj heq
    obtain ⟨⟨content, after⟩, hcontent, hothers⟩ := Option.bind_eq_some_iff.mp hothers
    obtain ⟨hshort, hplain⟩ := Json.readCharacters_length hcontent
    dsimp only at hothers
    -- The first string of the name is the message: then the text has no room for an escape.
    have hfirst (hafter : 1 ≤ after.length) (heq : content = message.toList) :
        ∀ c ∈ message.toList, Json.IsPlain c := by
      subst heq
      exact hplain (by omega)
    have hne : (("Message".toList, Json.string message.toList) : List Char × Json) ≠ typeMember :=
      fun heq => (by decide : "Message".toList ≠ "Type".toList) (congrArg Prod.fst heq)
    split at hothers
    next next hcomma =>
      have hnext := Json.expect_length_lt hcomma
      obtain ⟨⟨rest, end_⟩, hrest, heq⟩ := Option.map_eq_some_iff.mp hothers
      obtain ⟨rfl, -⟩ := Prod.mk.inj heq
      rcases List.mem_cons.mp hmem with heq | hmem
      · exact absurd heq hne
      rcases List.mem_cons.mp hmem with heq | hmem
      · refine hfirst (by omega) ?_
        exact (Json.string.inj (Prod.ext_iff.mp heq).2).symm
      · have hbound := ((Json.read_length _).2.2 hrest).2 _ _ hmem
        omega
    next =>
      obtain ⟨end_, hclose, heq⟩ := Option.map_eq_some_iff.mp hothers
      obtain ⟨rfl, -⟩ := Prod.mk.inj heq
      have hnext := Json.expect_length_lt hclose
      rcases List.mem_cons.mp hmem with heq | hmem
      · exact absurd heq hne
      · refine hfirst (by omega) ?_
        exact (Json.string.inj (Prod.ext_iff.mp (List.mem_singleton.mp hmem)).2).symm
  next => cases hparse

end Bodies

/-! ## Targets -/

section Targets

variable (backend : Backend) (surroundings : Surroundings) (region : String)
  (subscription : Subscription)

/-- The queue, the endpoint or the function that a subscription names is there. -/
def targetExists : Bool :=
  let protocol := subscription.protocol.toLower
  if protocol = "sqs" then
    (surroundings.findQueue (surroundings.convertToArn region subscription.endpoint)).isSome
  else if protocol = "http" then
    match parseEndpoint subscription.endpoint with
    | some (host, port, path) => surroundings.accepts host port path
    | none => false
  else if protocol = "lambda" then (surroundings.findLambda subscription.endpoint).isSome
  else false

def reaches (delivery : Delivery) : Bool :=
  let protocol := subscription.protocol.toLower
  match delivery with
  | .sqs queueArn _ =>
    protocol = "sqs" ∧ queueArn = surroundings.convertToArn region subscription.endpoint
  | .http host port path _ =>
    protocol = "http" ∧ parseEndpoint subscription.endpoint = some (host, port, path)
  | .lambda lambdaArn _ => protocol = "lambda" ∧ lambdaArn = subscription.endpoint

/-- The URL of the queue leads back to it, and the name of the function as well; the function
is enabled. -/
def isRouted : Bool :=
  let protocol := subscription.protocol.toLower
  if protocol = "sqs" then
    match surroundings.findQueue (surroundings.convertToArn region subscription.endpoint) with
    | some queue => surroundings.convertToArn region queue.url = queue.arn
    | none => true
  else if protocol = "lambda" then
    match surroundings.findLambda subscription.endpoint with
    | some lambda =>
      surroundings.createLambdaArn lambda.function = lambda.arn ∧ lambda.enabled
    | none => true
  else true

/-- There is no queue that the URL of what was found leads to, or there is no function. -/
def isRefused : Bool :=
  let protocol := subscription.protocol.toLower
  if protocol = "sqs" then
    match surroundings.findQueue (surroundings.convertToArn region subscription.endpoint),
      backend with
    | some queue, _ =>
      (surroundings.findQueue (surroundings.convertToArn region queue.url)).isNone
    | none, .memory => (surroundings.findQueue (surroundings.convertToArn region "")).isNone
    | none, .mongo => true
  else if protocol = "lambda" then (surroundings.findLambda subscription.endpoint).isNone
  else false

end Targets

section Delivering

variable {backend : Backend} {surroundings : Surroundings} {serialize : Json → List Char}
  {region : String} {subscription : Subscription} {request : PublishRequest} {message : Message}
  {stamp : Stamp}

theorem createArn_ne_empty (service region accountId resourceId : String) :
    AwsUtils.createArn service region accountId resourceId ≠ "" := by
  unfold AwsUtils.createArn
  simp

theorem convertToArn_ne_empty (region input : String) :
    surroundings.convertToArn region input ≠ "" := by
  unfold Surroundings.convertToArn AwsUtils.convertToArn
  split
  next => exact createArn_ne_empty _ _ _ _
  next =>
    split
    next harn =>
      rintro rfl
      exact absurd harn (by decide)
    next => exact createArn_ne_empty _ _ _ _

theorem arn_of_findQueue {queueArn : String} {queue : Queue}
    (hfind : surroundings.findQueue queueArn = some queue) : queue.arn = queueArn :=
  of_decide_eq_true (List.find?_some (p := fun queue : Queue => queue.arn = queueArn) hfind)

theorem arn_of_findLambda {lambdaArn : String} {lambda : Lambda}
    (hfind : surroundings.findLambda lambdaArn = some lambda) : lambda.arn = lambdaArn :=
  of_decide_eq_true (List.find?_some (p := fun lambda : Lambda => lambda.arn = lambdaArn) hfind)

theorem sendMessage_eq (queueUrl : String) (body : List Char) :
    sendMessage backend surroundings region queueUrl body =
      match surroundings.findQueue (surroundings.convertToArn region queueUrl) with
      | some queue => .ok (.sqs queue.arn body)
      | none => .error ("Queue does not exist, queueArn: " ++
          surroundings.convertToArn region queueUrl) := by
  unfold sendMessage Surroundings.getQueueByArn
  dsimp only
  cases hfind : surroundings.findQueue (surroundings.convertToArn region queueUrl) with
  | none => exact if_pos ⟨convertToArn_ne_empty region queueUrl, rfl⟩
  | some queue =>
    rw [if_neg (fun h => absurd h.2 (Option.some_ne_none queue))]
    rfl

def Delivery.body : Delivery → Option (List Char)
  | .sqs _ body | .http _ _ _ body => some body
  | .lambda _ _ => none

structure IsHandled (surroundings : Surroundings) (serialize : Json → List Char)
    (subscription : Subscription) (request : PublishRequest) (stamp : Stamp)
    (delivery : Option Delivery) : Prop where
  arrives : targetExists surroundings request.region subscription = true →
    delivery.any (reaches surroundings request.region subscription) =
      isRouted surroundings request.region subscription
  body : ∀ body ∈ delivery.bind Delivery.body,
    body = serialize (sqsNotificationRequest request stamp) ∨
      subscription.protocol.toLower = "http" ∧
        targetExists surroundings request.region subscription = true ∧
          body = httpBody request.message
  http : subscription.protocol.toLower = "http" →
    targetExists surroundings request.region subscription = true →
      ∃ made ∈ delivery, made.body = some (httpBody request.message)

theorem sendSQSMessage_eq :
    sendSQSMessage backend surroundings serialize subscription request stamp =
      match surroundings.findQueue
        (surroundings.convertToArn request.region subscription.endpoint), backend with
      | some queue, _ =>
        (sendMessage backend surroundings request.region queue.url
          (serialize (sqsNotificationRequest request stamp))).map some
      | none, .memory =>
        (sendMessage backend surroundings request.region ""
          (serialize (sqsNotificationRequest request stamp))).map some
      | none, .mongo =>
        .error ("Queue not found, queueArn: " ++
          surroundings.convertToArn request.region subscription.endpoint) := by
  unfold sendSQSMessage Surroundings.getQueueByArn
  dsimp only
  cases surroundings.findQueue (surroundings.convertToArn request.region subscription.endpoint) with
  | none => cases backend <;> rfl
  | some queue => rfl

/-- An exception means that the subscription is refused, and without one it is handled. -/
def Settles (backend : Backend) (surroundings : Surroundings) (serialize : Json → List Char)
    (subscription : Subscription) (request : PublishRequest) (stamp : Stamp) :
    Except String (Option Delivery) → Prop
  | .error _ => isRefused backend surroundings request.region subscription = true
  | .ok delivery =>
    isRefused backend surroundings request.region subscription = false ∧
      IsHandled surroundings serialize subscription request stamp delivery

theorem settles_sendSQSMessage (hsqs : subscription.protocol.toLower = "sqs") :
    Settles backend surroundings serialize subscription request stamp
      (sendSQSMessage backend surroundings serialize subscription request stamp) := by
  have hrefused : isRefused backend surroundings request.region subscription = _ := if_pos hsqs
  have hexists : targetExists surroundings request.region subscription = _ := if_pos hsqs
  have hrouted : isRouted surroundings request.region subscription = _ := if_pos hsqs
  have hnot : subscription.protocol.toLower ≠ "http" := by
    rw [hsqs]
    decide
  rw [sendSQSMessage_eq]
  cases hqueue : surroundings.findQueue
      (surroundings.convertToArn request.region subscription.endpoint) with
  | some queue =>
    rw [hqueue] at hrefused hexists hrouted
    dsimp only at hrefused hexists hrouted
    dsimp only
    rw [sendMessage_eq]
    cases hfound : surroundings.findQueue
        (surroundings.convertToArn request.region queue.url) with
    | none =>
      rw [hfound] at hrefused
      exact hrefused
    | some found =>
      rw [hfound] at hrefused
      have harn := arn_of_findQueue hqueue
      have hreached := arn_of_findQueue hfound
      refine ⟨hrefused, fun _ => ?_, ?_, fun h => absurd h hnot⟩
      · rw [hrouted]
        change decide (_ ∧ _) = decide _
        rw [hreached, harn]
        exact decide_eq_decide.mpr (and_iff_right hsqs)
      · rintro body ⟨⟩
        exact .inl rfl
  | none =>
    rw [hqueue] at hrefused hexists
    cases backend with
    | mongo => exact hrefused
    | memory =>
      dsimp only at hrefused
      dsimp only
      rw [sendMessage_eq]
      cases hfound : surroundings.findQueue
          (surroundings.convertToArn request.region "") with
      | none =>
        rw [hfound] at hrefused
        exact hrefused
      | some found =>
        rw [hfound] at hrefused
        refine ⟨hrefused, fun h => ?_, ?_, fun h => absurd h hnot⟩
        · rw [hexists] at h
          cases h
        · rintro body ⟨⟩
          exact .inl rfl

theorem settles_sendHttpMessage (hhttp : subscription.protocol.toLower = "http") :
    Settles backend surroundings serialize subscription request stamp
      (.ok (sendHttpMessage surroundings subscription request)) := by
  have hsqs : subscription.protocol.toLower ≠ "sqs" := by
    rw [hhttp]
    decide
  have hlambda : subscription.protocol.toLower ≠ "lambda" := by
    rw [hhttp]
    decide
  have hrefused : isRefused backend surroundings request.region subscription = false := by
    unfold isRefused
    dsimp only
    rw [if_neg hsqs, if_neg hlambda]
  have hrouted : isRouted surroundings request.region subscription = true := by
    unfold isRouted
    dsimp only
    rw [if_neg hsqs, if_neg hlambda]
  have hexists : targetExists surroundings request.region subscription =
      match parseEndpoint subscription.endpoint with
      | some (host, port, path) => surroundings.accepts host port path
      | none => false := by
    unfold targetExists
    dsimp only
    rw [if_neg hsqs, if_pos hhttp]
  unfold sendHttpMessage
  cases hparse : parseEndpoint subscription.endpoint with
  | none =>
    rw [hparse] at hexists
    refine ⟨hrefused, fun h => ?_, fun _ h => (nomatch h), fun _ h => ?_⟩
    · rw [hexists] at h
      cases h
    · rw [hexists] at h
      cases h
  | some place =>
    obtain ⟨host, port, path⟩ := place
    rw [hparse] at hexists
    dsimp only at hexists
    dsimp only
    split
    next haccepts =>
      rw [haccepts] at hexists
      refine ⟨hrefused, fun _ => ?_, ?_, fun _ _ => ⟨_, rfl, rfl⟩⟩
      · rw [hrouted]
        exact decide_eq_true ⟨hhttp, hparse⟩
      · rintro body ⟨⟩
        exact .inr ⟨hhttp, hexists, rfl⟩
    next haccepts =>
      rw [Bool.eq_false_iff.mpr haccepts] at hexists
      refine ⟨hrefused, fun h => ?_, fun _ h => (nomatch h), fun _ h => ?_⟩
      · rw [hexists] at h
        cases h
      · rw [hexists] at h
        cases h

theorem any_reaches_invokeLambdaFunction {lambda : Lambda} {text : String}
    (hlambda : subscription.protocol.toLower = "lambda")
    (hfind : surroundings.findLambda subscription.endpoint = some lambda) :
    (invokeLambdaFunction surroundings lambda.function text).any
        (reaches surroundings region subscription) =
      decide (surroundings.createLambdaArn lambda.function = lambda.arn ∧
        lambda.enabled = true) := by
  have harn := arn_of_findLambda hfind
  rw [harn]
  unfold invokeLambdaFunction
  dsimp only
  by_cases heq : surroundings.createLambdaArn lambda.function = subscription.endpoint
  · rw [heq, hfind]
    dsimp only
    split
    next henabled =>
      rw [decide_eq_true ⟨rfl, henabled⟩]
      exact decide_eq_true ⟨hlambda, rfl⟩
    next henabled =>
      rw [decide_eq_false fun h => henabled h.2]
      rfl
  · rw [decide_eq_false fun h => heq h.1]
    split
    next =>
      split
      next => exact decide_eq_false fun h => heq h.2
      next => rfl
    next => rfl

theorem settles_sendLambdaMessage (hlambda : subscription.protocol.toLower = "lambda") :
    Settles backend surroundings serialize subscription request stamp
      (sendLambdaMessage surroundings subscription message) := by
  have hsqs : subscription.protocol.toLower ≠ "sqs" := by
    rw [hlambda]
    decide
  have hhttp : subscription.protocol.toLower ≠ "http" := by
    rw [hlambda]
    decide
  have hrefused : isRefused backend surroundings request.region subscription =
      (surroundings.findLambda subscription.endpoint).isNone := by
    unfold isRefused
    dsimp only
    rw [if_neg hsqs, if_pos hlambda]
  have hrouted : isRouted surroundings request.region subscription =
      match surroundings.findLambda subscription.endpoint with
      | some lambda =>
        decide (surroundings.createLambdaArn lambda.function = lambda.arn ∧ lambda.enabled = true)
      | none => true := by
    unfold isRouted
    dsimp only
    rw [if_neg hsqs, if_pos hlambda]
  unfold sendLambdaMessage
  cases hfind : surroundings.findLambda subscription.endpoint with
  | none =>
    rw [hfind] at hrefused
    exact hrefused
  | some lambda =>
    rw [hfind] at hrefused hrouted
    refine ⟨hrefused, fun _ => ?_, ?_, fun h => absurd h hhttp⟩
    · rw [hrouted]
      exact any_reaches_invokeLambdaFunction hlambda hfind
    · unfold invokeLambdaFunction
      dsimp only
      split
      next =>
        split
        next =>
          rintro body ⟨⟩
        next => exact fun _ h => (nomatch h)
      next => exact fun _ h => (nomatch h)

theorem settles_deliver :
    Settles backend surroundings serialize subscription request stamp
      (deliver backend surroundings serialize subscription request message stamp) := by
  unfold deliver
  dsimp only
  split
  next hsqs => exact settles_sendSQSMessage hsqs
  next hsqs =>
    split
    next hhttp => exact settles_sendHttpMessage hhttp
    next hhttp =>
      split
      next hlambda => exact settles_sendLambdaMessage hlambda
      next hlambda =>
        have hexists : targetExists surroundings request.region subscription = false := by
          unfold targetExists
          dsimp only
          rw [if_neg hsqs, if_neg hhttp, if_neg hlambda]
        refine ⟨?_, fun h => ?_, fun _ h => (nomatch h), fun h => absurd h hhttp⟩
        · unfold isRefused
          dsimp only
          rw [if_neg hsqs, if_neg hlambda]
        · rw [hexists] at h
          cases h

end Delivering

/-! ## The stored message -/

section Storing

variable {message : Message} {draw : Draw} {status : MessageStatus} {store : MessageStore}

def IsFresh (message : Message) (draw : Draw) : MessageStore → Prop
  | .memory repository =>
    draw.memoryOid ≠ "" ∧ (∀ entry ∈ repository.messages, entry.1 ≠ draw.memoryOid) ∧
      ∀ entry ∈ repository.messages, entry.2.messageId ≠ message.messageId
  | .mongo repository =>
    (∀ other ∈ repository.messages, other.oid ≠ draw.mongoOid) ∧
      ∀ other ∈ repository.messages, other.messageId ≠ message.messageId

/-- A message is kept once, under the identifier that was drawn for it. -/
def Stored (message : Message) (draw : Draw) (status : MessageStatus) : MessageStore → Prop
  | .memory repository =>
    draw.memoryOid ≠ "" ∧
      repository.messages.filter (fun entry => entry.2.messageId = message.messageId) =
        [(draw.memoryOid, { message with status := status })]
  | .mongo repository =>
    repository.messages.filter (fun other => other.messageId = message.messageId) =
        [{ message with oid := draw.mongoOid, status := status }] ∧
      ∀ other ∈ repository.messages, other.oid = draw.mongoOid → other.messageId = message.messageId

def returned (backend : Backend) (message : Message) (draw : Draw) : Message :=
  match backend with
  | .memory => message
  | .mongo => { message with oid := draw.mongoOid }

def marked (backend : Backend) (status : MessageStatus) : MessageStatus :=
  match backend with
  | .memory => status
  | .mongo => .send

theorem createMessage_snd :
    (store.createMessage message draw).2 = returned store.backend message draw := by
  cases store <;> rfl

theorem backend_createMessage : (store.createMessage message draw).1.backend = store.backend := by
  cases store <;> rfl

theorem backend_setMessageStatus :
    (store.setMessageStatus message status).backend = store.backend := by
  cases store <;> rfl

theorem stored_createMessage (hfresh : IsFresh message draw store) :
    Stored message draw message.status (store.createMessage message draw).1 := by
  cases store with
  | memory repository =>
    obtain ⟨hnonempty, hkey, hid⟩ := hfresh
    refine ⟨hnonempty, ?_⟩
    have hnone : repository.messages.any (fun other => other.1 = draw.memoryOid) = false := by
      rw [List.any_eq_false]
      exact fun entry hentry => by simpa using hkey entry hentry
    have hassign : Messages.MemoryRepository.assign draw.place (draw.memoryOid, message)
        repository.messages =
          insertAt draw.place (draw.memoryOid, message) repository.messages := by
      unfold Messages.MemoryRepository.assign
      rw [if_neg (by rw [hnone]; exact Bool.false_ne_true)]
      rfl
    have hperm := perm_insertAt draw.place (draw.memoryOid, message) repository.messages
    have hfilter := hperm.filter fun entry => entry.2.messageId = message.messageId
    have hothers : repository.messages.filter
        (fun entry => entry.2.messageId = message.messageId) = [] :=
      List.filter_eq_nil_iff.mpr fun entry hentry => by simpa using hid entry hentry
    have hfirst : ((draw.memoryOid, message) :: repository.messages).filter
        (fun entry => entry.2.messageId = message.messageId) = [(draw.memoryOid, message)] := by
      rw [List.filter_cons_of_pos (by simp), hothers]
    rw [hfirst] at hfilter
    change List.filter _ (Messages.MemoryRepository.assign _ _ _) = _
    rw [hassign]
    exact List.perm_singleton.mp hfilter
  | mongo repository =>
    obtain ⟨hoid, hid⟩ := hfresh
    refine ⟨?_, fun other hother heq => ?_⟩
    · change List.filter _ (repository.messages ++ [_]) = _
      rw [List.filter_append, List.filter_eq_nil_iff.mpr fun other hother => by
        simpa using hid other hother, List.nil_append, List.filter_cons_of_pos (by simp)]
      rfl
    · have hmem : other ∈ repository.messages ++ [{ message with oid := draw.mongoOid }] := hother
      rcases List.mem_append.mp hmem with hmem | hmem
      · exact absurd heq (hoid other hmem)
      · rw [List.mem_singleton.mp hmem]

theorem stored_setMessageStatus (hoid : message.oid = "") (hstored : Stored message draw status store) :
    Stored message draw (marked store.backend status)
      (store.setMessageStatus (returned store.backend message draw) .send) := by
  cases store with
  | memory repository =>
    obtain ⟨hnonempty, hfilter⟩ := hstored
    refine ⟨hnonempty, ?_⟩
    change List.filter _ (rewriteFirst (fun entry : Messages.Entry Message =>
      entry.1 = message.oid) _ _) = _
    rw [filter_rewriteFirst_of_dropped]
    · exact hfilter
    · intro entry hentry hselect
      have hkey : entry.1 = "" := (of_decide_eq_true hselect).trans hoid
      have hother : ¬entry.2.messageId = message.messageId := by
        intro heq
        have hmem : entry ∈ repository.messages.filter
            fun entry => entry.2.messageId = message.messageId :=
          List.mem_filter.mpr ⟨hentry, by simpa using heq⟩
        rw [hfilter, List.mem_singleton] at hmem
        rw [hmem] at hkey
        exact hnonempty hkey
      exact ⟨decide_eq_false hother, decide_eq_false hother⟩
  | mongo repository =>
    obtain ⟨hfilter, hunique⟩ := hstored
    refine ⟨?_, fun other hother heq => ?_⟩
    · change List.filter _ (rewriteFirst (fun other : Message =>
        other.oid = draw.mongoOid) _ _) = _
      rw [filter_rewriteFirst_of_kept, hfilter, rewriteFirst_cons, if_pos (by simp)]
      · rfl
      · intro other hother hselect
        have hid := hunique other hother (of_decide_eq_true hselect)
        exact ⟨decide_eq_true hid, decide_eq_true hid⟩
    · rcases of_mem_rewriteFirst hother with hmem | ⟨first, hmem, -, rfl⟩
      · exact hunique other hmem heq
      · exact hunique first hmem heq

end Storing

/-! ## The loop -/

section Loop

variable {backend : Backend} {surroundings : Surroundings} {serialize : Json → List Char}
  {request : PublishRequest} {message sent : Message} {stamp : Nat → Stamp} {draw : Draw}
  {status : MessageStatus} {subscription : Subscription} {subscriptions : List Subscription}
  {deliveries : List (Subscription × Delivery)}

/-- The deliveries that subscriptions lead to which are not refused. -/
inductive Handled (surroundings : Surroundings) (serialize : Json → List Char)
    (request : PublishRequest) :
    List Subscription → List (Subscription × Delivery) → Prop where
  | nil : Handled surroundings serialize request [] []
  | cons {subscription : Subscription} {rest : List Subscription} {stamp : Stamp}
      {delivery : Option Delivery} {deliveries : List (Subscription × Delivery)}
      (hfirst : IsHandled surroundings serialize subscription request stamp delivery)
      (hrest : Handled surroundings serialize request rest deliveries) :
      Handled surroundings serialize request (subscription :: rest)
        ((delivery.map fun delivery => (subscription, delivery)).toList ++ deliveries)

def attempted (backend : Backend) (surroundings : Surroundings) (region : String)
    (subscriptions : List Subscription) : List Subscription :=
  subscriptions.takeWhile fun subscription => !isRefused backend surroundings region subscription

def skipped (backend : Backend) (surroundings : Surroundings) (region : String)
    (subscriptions : List Subscription) : List Subscription :=
  subscriptions.dropWhile fun subscription => !isRefused backend surroundings region subscription

theorem checkSubscriptions_spec (turn : Nat) (progress : Progress) :
    ∃ deliveries, Handled surroundings serialize request
        (attempted backend surroundings request.region subscriptions) deliveries ∧
      (checkSubscriptions backend surroundings serialize request sent stamp subscriptions turn
        progress).deliveries = progress.deliveries ++ deliveries ∧
      (checkSubscriptions backend surroundings serialize request sent stamp subscriptions turn
        progress).store = (fun store : MessageStore => store.setMessageStatus sent .send)^[
          (attempted backend surroundings request.region subscriptions).length]
            progress.store := by
  induction subscriptions generalizing turn progress with
  | nil => exact ⟨[], .nil, (List.append_nil _).symm, rfl⟩
  | cons subscription rest ih =>
    have hsettles := @settles_deliver backend surroundings serialize subscription request sent
      (stamp turn)
    rw [checkSubscriptions]
    cases hdeliver : deliver backend surroundings serialize subscription request sent
        (stamp turn) with
    | error failure =>
      rw [hdeliver] at hsettles
      have hrefused : isRefused backend surroundings request.region subscription = true :=
        hsettles
      have hattempted : attempted backend surroundings request.region (subscription :: rest) =
          [] := List.takeWhile_cons_of_neg (by rw [hrefused]; exact Bool.false_ne_true)
      rw [hattempted]
      exact ⟨[], .nil, (List.append_nil _).symm, rfl⟩
    | ok delivery =>
      rw [hdeliver] at hsettles
      obtain ⟨hrefused, hhandled⟩ := hsettles
      have hattempted : attempted backend surroundings request.region (subscription :: rest) =
          subscription :: attempted backend surroundings request.region rest :=
        List.takeWhile_cons_of_pos (by rw [hrefused]; rfl)
      rw [hattempted]
      obtain ⟨deliveries, hrest, hdeliveries, hstore⟩ := ih (turn + 1)
        { progress with
          store := progress.store.setMessageStatus sent .send
          deliveries := progress.deliveries ++
            (delivery.map fun delivery => (subscription, delivery)).toList }
      refine ⟨_, .cons hhandled hrest, ?_, hstore⟩
      dsimp only
      rw [hdeliveries, List.append_assoc]

def arrivesAt (surroundings : Surroundings) (region : String) (subscription : Subscription)
    (entry : Subscription × Delivery) : Bool :=
  entry.1 = subscription && reaches surroundings region subscription entry.2

section

variable (hhandled : Handled surroundings serialize request subscriptions deliveries)
include hhandled

theorem Handled.countP_arrivesAt
    (hexists : targetExists surroundings request.region subscription = true) :
    deliveries.countP (arrivesAt surroundings request.region subscription) =
      if isRouted surroundings request.region subscription then subscriptions.count subscription
      else 0 := by
  induction hhandled with
  | nil => rw [List.countP_nil, List.count_nil, ite_self]
  | @cons other rest stamp delivery deliveries hfirst hrest ih =>
    rw [List.countP_append, ih, List.count_cons]
    by_cases hother : other = subscription
    · subst hother
      have harrives := hfirst.arrives hexists
      have hfirst' : ((delivery.map fun delivery => (other, delivery)).toList).countP
          (arrivesAt surroundings request.region other) =
            if isRouted surroundings request.region other then 1 else 0 := by
        rw [← harrives]
        cases delivery with
        | none => rfl
        | some delivery =>
          change List.countP _ [(other, delivery)] = if reaches _ _ _ _ then 1 else 0
          rw [List.countP_singleton]
          unfold arrivesAt
          simp
      rw [hfirst']
      split
      next => simp [Nat.add_comm]
      next => rfl
    · have hnone : ((delivery.map fun delivery => (other, delivery)).toList).countP
          (arrivesAt surroundings request.region subscription) = 0 := by
        cases delivery with
        | none => rfl
        | some delivery =>
          change List.countP _ [(other, delivery)] = 0
          rw [List.countP_singleton]
          unfold arrivesAt
          simp [hother]
      rw [hnone]
      simp [hother]

theorem Handled.body
    {entry : Subscription × Delivery} {body : List Char} (hmem : entry ∈ deliveries)
    (hbody : entry.2.body = some body) :
    (∃ stamp, body = serialize (sqsNotificationRequest request stamp)) ∨
      (∃ subscription ∈ subscriptions, subscription.protocol.toLower = "http" ∧
        targetExists surroundings request.region subscription = true) ∧
          body = httpBody request.message := by
  induction hhandled with
  | nil => cases hmem
  | @cons other rest stamp delivery deliveries hfirst hrest ih =>
    rcases List.mem_append.mp hmem with hmem | hmem
    · obtain ⟨made, hmade, rfl⟩ := Option.map_eq_some_iff.mp (Option.mem_toList.mp hmem)
      have hbind : delivery.bind Delivery.body = some body := by
        rw [hmade]
        exact hbody
      rcases hfirst.body body hbind with heq | ⟨hhttp, hexists, heq⟩
      · exact .inl ⟨stamp, heq⟩
      · exact .inr ⟨⟨other, List.mem_cons_self, hhttp, hexists⟩, heq⟩
    · rcases ih hmem with hsqs | ⟨⟨subscription, hsubscription, hhttp⟩, heq⟩
      · exact .inl hsqs
      · exact .inr ⟨⟨subscription, List.mem_cons_of_mem other hsubscription, hhttp⟩, heq⟩

theorem Handled.exists_http
    (hmem : subscription ∈ subscriptions) (hhttp : subscription.protocol.toLower = "http")
    (hexists : targetExists surroundings request.region subscription = true) :
    ∃ entry ∈ deliveries, entry.2.body = some (httpBody request.message) := by
  induction hhandled with
  | nil => cases hmem
  | @cons other rest stamp delivery deliveries hfirst hrest ih =>
    rcases List.mem_cons.mp hmem with rfl | hmem
    · obtain ⟨made, hmade, hbody⟩ := hfirst.http hhttp hexists
      refine ⟨(subscription, made), List.mem_append_left _ (Option.mem_toList.mpr ?_), hbody⟩
      rw [Option.mem_def.mp hmade]
      rfl
    · obtain ⟨entry, hentry, hbody⟩ := ih hmem
      exact ⟨entry, List.mem_append_right _ hentry, hbody⟩

end

theorem marked_marked (backend : Backend) (status : MessageStatus) :
    marked backend (marked backend status) = marked backend status := by
  cases backend <;> rfl

theorem stored_iterate {store : MessageStore} (hoid : message.oid = "")
    (hstored : Stored message draw status store) (hbackend : store.backend = backend)
    (count : Nat) :
    Stored message draw (if count = 0 then status else marked backend status)
      ((fun store : MessageStore =>
        store.setMessageStatus (returned backend message draw) .send)^[count] store) := by
  induction count generalizing status store with
  | zero => exact hstored
  | succ count ih =>
    have hnext := stored_setMessageStatus hoid hstored
    rw [hbackend] at hnext
    have hrest := ih hnext (backend_setMessageStatus.trans hbackend)
    rw [Function.iterate_succ_apply, if_neg (Nat.succ_ne_zero count)]
    rw [marked_marked, ite_self] at hrest
    exact hrest

end Loop

/-! ## The whole call -/

section Publishing

variable {surroundings : Surroundings} {serialize : Json → List Char} {topics : List Topic}
  {store : MessageStore} {request : PublishRequest} {draws : Draws}

def publishedMessage (request : PublishRequest) (draws : Draws) : Message :=
  { toEntity request with messageId := draws.messageId, size := request.message.utf8ByteSize }

/-- A message is stored once, gets once to each subscription whose target is there, and is marked
as sent; all bodies are JSON with the text of the message. -/
structure IsFannedOut (surroundings : Surroundings) (request : PublishRequest) (draws : Draws)
    (subscriptions : List Subscription) (progress : Progress) : Prop where
  stored : ∃ oid status, progress.store.messages.filter
    (fun message => message.messageId = draws.messageId) =
      [{ publishedMessage request draws with oid := oid, status := status }]
  delivered : ∀ subscription ∈ subscriptions,
    targetExists surroundings request.region subscription = true →
      progress.deliveries.countP (arrivesAt surroundings request.region subscription) =
        subscriptions.count subscription
  sent : subscriptions ≠ [] → ∀ message ∈ progress.store.messages,
    message.messageId = draws.messageId → message.status = .send
  notifications : ∀ entry ∈ progress.deliveries, ∀ body ∈ entry.2.body,
    IsNotification request.message body

/-- The call comes to its end, or to an exception after the message has been stored. -/
def FansOut (surroundings : Surroundings) (backend : Backend) (topics : List Topic)
    (request : PublishRequest) (draws : Draws) : Outcome → Prop
  | .published progress => ∃ topic, getTopic backend topics request = some topic ∧
      IsFannedOut surroundings request draws topic.subscriptions progress
  | .rejected _ | .undefined => False

/-- The topic can be looked up; no subscription whose target is there stands behind one that is
refused, and each leads to its target; the characters of the message stand for themselves in
JSON when an HTTP endpoint gets it; and the store is the one that finds the message again, with
a first subscription that is not refused. -/
structure IsHeeded (backend : Backend) (surroundings : Surroundings) (request : PublishRequest)
    (subscriptions : List Subscription) : Prop where
  unobstructed : ∀ subscription ∈ skipped backend surroundings request.region subscriptions,
    targetExists surroundings request.region subscription = false
  routed : ∀ subscription ∈ subscriptions,
    targetExists surroundings request.region subscription = true →
      isRouted surroundings request.region subscription = true
  plain : (∃ subscription ∈ subscriptions, subscription.protocol.toLower = "http" ∧
      targetExists surroundings request.region subscription = true) →
    ∀ c ∈ request.message.toList, Json.IsPlain c
  marked : ∀ subscription ∈ subscriptions.head?, backend = .mongo ∧
    isRefused backend surroundings request.region subscription = false

structure IsAccepted (topics : List Topic) (request : PublishRequest) : Prop where
  named : request.topicArn ≠ "" ∨ request.targetArn ≠ ""
  topic : request.topicArn ≠ "" → topicExists topics request.topicArn = true
  target : request.targetArn ≠ "" → topicExists topics request.targetArn = true

theorem publish_of_accepted (haccepted : IsAccepted topics request) :
    publish surroundings serialize topics store request draws =
      match getTopic store.backend topics request with
      | none => .undefined
      | some topic =>
        .published (checkSubscriptions store.backend surroundings serialize request
          (returned store.backend (publishedMessage request draws) draws.message) draws.stamp
          topic.subscriptions 0
          { store := (store.createMessage (publishedMessage request draws)
            draws.message).1 }) := by
  unfold publish
  rw [if_neg fun h => haccepted.named.elim (fun hne => hne h.1) fun hne => hne h.2,
    if_neg fun h => h.2 (haccepted.topic h.1), if_neg fun h => h.2 (haccepted.target h.1)]
  rw [← createMessage_snd]
  rfl

theorem Stored.filter_messages {message : Message} {draw : Draw} {status : MessageStatus}
    (hstored : Stored message draw status store) :
    ∃ oid, store.messages.filter (fun other => other.messageId = message.messageId) =
      [{ message with oid := oid, status := status }] := by
  cases store with
  | memory repository =>
    refine ⟨message.oid, ?_⟩
    change List.filter _ (repository.messages.map Prod.snd) = _
    rw [List.filter_map]
    change (List.filter (fun entry : Messages.Entry Message =>
      entry.2.messageId = message.messageId) _).map Prod.snd = _
    rw [hstored.2]
    rfl
  | mongo repository => exact ⟨draw.mongoOid, hstored.1⟩

section Subscriptions

variable {backend : Backend} {subscription : Subscription} {subscriptions : List Subscription}
  {deliveries : List (Subscription × Delivery)}

theorem mem_attempted_or_skipped {region : String} (hmem : subscription ∈ subscriptions) :
    subscription ∈ attempted backend surroundings region subscriptions ∨
      subscription ∈ skipped backend surroundings region subscriptions := by
  rw [← List.mem_append]
  unfold attempted skipped
  rwa [List.takeWhile_append_dropWhile]

theorem mem_of_mem_attempted {region : String}
    (hmem : subscription ∈ attempted backend surroundings region subscriptions) :
    subscription ∈ subscriptions :=
  (List.takeWhile_sublist _).subset hmem

theorem mem_of_mem_skipped {region : String}
    (hmem : subscription ∈ skipped backend surroundings region subscriptions) :
    subscription ∈ subscriptions :=
  (List.dropWhile_sublist _).subset hmem

theorem Handled.delivered_iff (hhandled : Handled surroundings serialize request
      (attempted backend surroundings request.region subscriptions) deliveries)
    (hmem : subscription ∈ subscriptions)
    (hexists : targetExists surroundings request.region subscription = true) :
    deliveries.countP (arrivesAt surroundings request.region subscription) =
        subscriptions.count subscription ↔
      isRouted surroundings request.region subscription = true ∧
        subscription ∉ skipped backend surroundings request.region subscriptions := by
  have hpositive := List.count_pos_iff.mpr hmem
  have hsplit : (attempted backend surroundings request.region subscriptions).count subscription +
      (skipped backend surroundings request.region subscriptions).count subscription =
        subscriptions.count subscription := by
    unfold attempted skipped
    rw [← List.count_append, List.takeWhile_append_dropWhile]
  rw [hhandled.countP_arrivesAt hexists, ← List.count_eq_zero]
  split
  next hrouted =>
    rw [and_iff_right hrouted]
    omega
  next hrouted =>
    exact ⟨fun heq => by omega, fun h => absurd h.1 hrouted⟩

theorem sent_iff (backend : Backend) (subscriptions : List Subscription) :
    (subscriptions ≠ [] →
      (if (attempted backend surroundings request.region subscriptions).length = 0 then
        MessageStatus.initial else marked backend .initial) = .send) ↔
    ∀ subscription ∈ subscriptions.head?, backend = .mongo ∧
      isRefused backend surroundings request.region subscription = false := by
  cases subscriptions with
  | nil => exact iff_of_true (fun h => absurd rfl h) fun _ h => (nomatch h)
  | cons first rest =>
    have hhead : (∀ subscription ∈ (first :: rest).head?, backend = .mongo ∧
        isRefused backend surroundings request.region subscription = false) ↔
        (backend = .mongo ∧ isRefused backend surroundings request.region first = false) := by
      constructor
      · exact fun h => h first rfl
      · rintro h _ ⟨⟩
        exact h
    rw [hhead]
    cases hrefused : isRefused backend surroundings request.region first with
    | true =>
      have hattempted : attempted backend surroundings request.region (first :: rest) = [] :=
        List.takeWhile_cons_of_neg (by rw [hrefused]; exact Bool.false_ne_true)
      rw [hattempted]
      exact iff_of_false (fun h => nomatch h (List.cons_ne_nil first rest))
        fun h => Bool.noConfusion h.2
    | false =>
      have hattempted : attempted backend surroundings request.region (first :: rest) =
          first :: attempted backend surroundings request.region rest :=
        List.takeWhile_cons_of_pos (by rw [hrefused]; rfl)
      rw [hattempted]
      cases backend with
      | memory =>
        exact iff_of_false (fun h => nomatch h (List.cons_ne_nil first rest))
          fun h => nomatch h.1
      | mongo => exact iff_of_true (fun _ => rfl) ⟨rfl, rfl⟩

end Subscriptions

theorem isFannedOut_iff_isHeeded {backend : Backend} {subscriptions : List Subscription}
    {progress : Progress} {final : Message} (hserialize : ∀ json, Json.Writes json (serialize json))
    (hhandled : Handled surroundings serialize request
      (attempted backend surroundings request.region subscriptions) progress.deliveries)
    (hfilter : progress.store.messages.filter
      (fun message => message.messageId = draws.messageId) = [final])
    (hfinal : ∃ oid status, final =
      { publishedMessage request draws with oid := oid, status := status })
    (hstatus : final.status =
      if (attempted backend surroundings request.region subscriptions).length = 0 then
        .initial else marked backend .initial) :
    IsFannedOut surroundings request draws subscriptions progress ↔
      IsHeeded backend surroundings request subscriptions := by
  have hmessages : ∀ message, (message ∈ progress.store.messages ∧
      message.messageId = draws.messageId) ↔ message = final := fun message => by
    rw [← @List.mem_singleton _ message final, ← hfilter, List.mem_filter, decide_eq_true_iff]
  constructor
  · intro hfans
    have hunobstructed : ∀ subscription ∈ skipped backend surroundings request.region subscriptions,
        targetExists surroundings request.region subscription = false := by
      intro subscription hmem
      rw [Bool.eq_false_iff]
      intro hexists
      have hdelivered := hfans.delivered subscription (mem_of_mem_skipped hmem) hexists
      exact ((hhandled.delivered_iff (mem_of_mem_skipped hmem) hexists).mp hdelivered).2 hmem
    refine ⟨hunobstructed, ?_, ?_, ?_⟩
    · intro subscription hmem hexists
      have hdelivered := hfans.delivered subscription hmem hexists
      exact ((hhandled.delivered_iff hmem hexists).mp hdelivered).1
    · rintro ⟨subscription, hmem, hhttp, hexists⟩
      rcases mem_attempted_or_skipped hmem with hmem | hmem
      · obtain ⟨entry, hentry, hbody⟩ := hhandled.exists_http hmem hhttp hexists
        exact isPlain_of_isNotification (hfans.notifications entry hentry _ hbody)
      · rw [hunobstructed subscription hmem] at hexists
        cases hexists
    · rw [← sent_iff]
      intro hnonempty
      obtain ⟨hmem, hid⟩ := (hmessages final).mpr rfl
      rw [← hstatus]
      exact hfans.sent hnonempty final hmem hid
  · intro hheeded
    refine ⟨?_, ?_, ?_, ?_⟩
    · obtain ⟨oid, status, heq⟩ := hfinal
      rw [hfilter, heq]
      exact ⟨oid, status, rfl⟩
    · intro subscription hmem hexists
      refine (hhandled.delivered_iff hmem hexists).mpr ⟨hheeded.routed subscription hmem hexists,
        fun hskip => ?_⟩
      rw [hheeded.unobstructed subscription hskip] at hexists
      cases hexists
    · intro hnonempty message hmem hid
      rw [(hmessages message).mp ⟨hmem, hid⟩, hstatus]
      exact (sent_iff backend subscriptions).mpr hheeded.marked hnonempty
    · intro entry hentry body hbody
      rcases hhandled.body hentry hbody with ⟨stamp, rfl⟩ | ⟨⟨subscription, hmem, hhttp⟩, rfl⟩
      · exact isNotification_serialize hserialize request stamp
      · exact isNotification_httpBody
          (hheeded.plain ⟨subscription, mem_of_mem_attempted hmem, hhttp⟩)

/-- A message fans out when the condition holds, and only then. -/
theorem fansOut_publish_iff_heeded (hserialize : ∀ json, Json.Writes json (serialize json))
    (haccepted : IsAccepted topics request)
    (hfresh : IsFresh (publishedMessage request draws) draws.message store) :
    FansOut surroundings store.backend topics request draws
        (publish surroundings serialize topics store request draws) ↔
      ∃ topic, getTopic store.backend topics request = some topic ∧
        IsHeeded store.backend surroundings request topic.subscriptions := by
  rw [publish_of_accepted haccepted]
  cases htopic : getTopic store.backend topics request with
  | none => exact iff_of_false (fun h => h) fun ⟨_, h, _⟩ => nomatch h
  | some topic =>
    obtain ⟨deliveries, hhandled, hdeliveries, hstore⟩ :=
      @checkSubscriptions_spec store.backend surroundings serialize request
        (returned store.backend (publishedMessage request draws) draws.message) draws.stamp
        topic.subscriptions 0
        { store := (store.createMessage (publishedMessage request draws) draws.message).1 }
    have hstored := stored_iterate rfl (stored_createMessage hfresh) backend_createMessage
      (attempted store.backend surroundings request.region topic.subscriptions).length
    rw [← hstore] at hstored
    obtain ⟨oid, hfilter⟩ := hstored.filter_messages
    rw [List.nil_append] at hdeliveries
    rw [← hdeliveries] at hhandled
    have hiff := isFannedOut_iff_isHeeded hserialize hhandled hfilter ⟨oid, _, rfl⟩ rfl
    constructor
    · rintro ⟨found, hfound, hfans⟩
      rw [htopic] at hfound
      cases hfound
      exact ⟨topic, rfl, hiff.mp hfans⟩
    · rintro ⟨found, ⟨⟩, hheeded⟩
      exact ⟨topic, htopic, hiff.mpr hheeded⟩

end Publishing

section Example

def endpointOnly : Surroundings where
  config := ⟨"eu-central-1", "000000000000", "localhost", "4566"⟩
  queues := []
  lambdas := []
  accepts host port path := host = "shop" ∧ port = "80" ∧ path = "/"

def lostQueue : Subscription := ⟨"sqs", "lost", "first"⟩

def shopEndpoint : Subscription := ⟨"http", "http://shop", "second"⟩

def ordersTopic : Topic := ⟨"orders", "", [lostQueue, shopEndpoint]⟩

def ordersRequest : PublishRequest :=
  { region := "eu-central-1", topicArn := "orders", message := "one" }

def ordersDraws : Draws := ⟨"id", ⟨"key", "oid", 0⟩, fun _ => ⟨"notification", "now"⟩⟩

theorem isAccepted_ordersRequest (subscriptions : List Subscription) :
    IsAccepted [⟨"orders", "", subscriptions⟩] ordersRequest :=
  ⟨.inl (by decide), fun _ => rfl, fun h => absurd rfl h⟩

theorem isFresh_ordersDraws :
    IsFresh (publishedMessage ordersRequest ordersDraws) ordersDraws.message (.mongo {}) :=
  ⟨fun _ h => (List.not_mem_nil h).elim, fun _ h => (List.not_mem_nil h).elim⟩

/-- The endpoint gets nothing because a queue before it is not there. -/
theorem not_fansOut_lostQueue :
    ¬FansOut endpointOnly .mongo [ordersTopic] ordersRequest ordersDraws
      (publish endpointOnly Json.compact [ordersTopic] (.mongo {}) ordersRequest ordersDraws) := by
  have haccepted : IsAccepted [ordersTopic] ordersRequest := isAccepted_ordersRequest _
  rw [publish_of_accepted haccepted]
  have htopic : getTopic (MessageStore.mongo {}).backend [ordersTopic] ordersRequest =
      some ordersTopic := by
    decide
  rw [htopic]
  rintro ⟨topic, hfound, hfans⟩
  replace hfound := htopic.symm.trans hfound
  obtain rfl := Option.some.inj hfound
  have hdelivered := hfans.delivered shopEndpoint (by decide) (by decide +kernel)
  exact absurd hdelivered (by decide +kernel)

/-- The endpoint alone gets the message. -/
theorem fansOut_publish_iff_heeded_orders :
    FansOut endpointOnly .mongo [⟨"orders", "", [shopEndpoint]⟩] ordersRequest ordersDraws
      (publish endpointOnly Json.compact [⟨"orders", "", [shopEndpoint]⟩] (.mongo {})
        ordersRequest ordersDraws) := by
  refine (fansOut_publish_iff_heeded Json.writes_compact (isAccepted_ordersRequest _)
    isFresh_ordersDraws).mpr ⟨⟨"orders", "", [shopEndpoint]⟩, by decide, ?_⟩
  refine ⟨by decide +kernel, by decide +kernel, fun _ => Json.isPlain_of_all rfl, ?_⟩
  rintro _ ⟨⟩
  exact ⟨rfl, by decide +kernel⟩

end Example

end AwsMock.Sns.Publishing
