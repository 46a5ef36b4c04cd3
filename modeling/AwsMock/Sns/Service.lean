import AwsMock.Foundation.ListUpdate

/-! # Topics and their subscriptions

The operations of the notification service that change the subscriptions of topics, over the
two stores. A subscription is searched by protocol and endpoint on one path, and by its
generated name on the others.
-/

namespace AwsMock.Sns

open Foundation

structure Subscription where
  protocol : String
  endpoint : String
  subscriptionArn : String
deriving DecidableEq, Repr

structure Topic where
  region : String := ""
  topicName : String := ""
  owner : String := ""
  topicArn : String := ""
  subscriptions : List Subscription := []
deriving DecidableEq, Repr

namespace Topic

variable (topic : Topic)

def hasSubscription (protocol endpoint : String) : Bool :=
  topic.subscriptions.any fun subscription =>
    subscription.protocol = protocol ∧ subscription.endpoint = endpoint

def hasSubscriptionArn (subscriptionArn : String) : Bool :=
  topic.subscriptions.any fun subscription => subscription.subscriptionArn = subscriptionArn

def addSubscription (subscription : Subscription) : Topic :=
  { topic with subscriptions := topic.subscriptions ++ [subscription] }

/-- The subscription at the index that is found gets a new endpoint and protocol. -/
def setSubscription (subscriptionArn protocol endpoint : String) : Topic :=
  { topic with
    subscriptions :=
      rewriteFirst (fun subscription => subscription.subscriptionArn = subscriptionArn)
        (fun subscription => { subscription with endpoint := endpoint, protocol := protocol })
        topic.subscriptions }

def eraseSubscription (subscriptionArn : String) : Topic :=
  { topic with
    subscriptions := topic.subscriptions.filter fun subscription =>
      subscription.subscriptionArn ≠ subscriptionArn }

end Topic

def createArn (service region accountId resourceId : String) : String :=
  "arn:aws:" ++ service ++ ":" ++ region ++ ":" ++ accountId ++ ":" ++ resourceId

def createSNSTopicArn (region accountId topicName : String) : String :=
  createArn "sns" region accountId topicName

def createSNSSubscriptionArn (region accountId topicName uuid : String) : String :=
  createArn "sns" region accountId (topicName ++ ":" ++ uuid)

/-! ## Stores -/

inductive Backend where
  | memory | mongo
deriving DecidableEq, Repr

/-- The topics in the order in which the store searches them. -/
abbrev Store := List Topic

namespace Store

variable (backend : Backend) (store : Store)

def findTopic (topicArn : String) : Option Topic :=
  store.find? fun topic => topic.topicArn = topicArn

def topicExists (topicArn : String) : Bool := (store.findTopic topicArn).isSome

def topicExistsByName (region topicName : String) : Bool :=
  store.any fun topic => topic.region = region ∧ topic.topicName = topicName

def getTopicByArn (topicArn : String) : Topic := (store.findTopic topicArn).getD {}

def getTopicByName (region topicName : String) : Topic :=
  (store.find? fun topic => topic.region = region ∧ topic.topicName = topicName).getD {}

def getTopicsBySubscriptionArn (subscriptionArn : String) : List Topic :=
  store.filter fun topic => topic.hasSubscriptionArn subscriptionArn

/-- The map of topics is ordered by random identifiers, so that a new topic may get any
place; a collection gets it at the end. -/
def createTopic (place : Nat) (topic : Topic) : Store :=
  match backend with
  | .memory => store.take place ++ topic :: store.drop place
  | .mongo => store ++ [topic]

def updateTopic (topic : Topic) : Store :=
  match backend with
  | .memory =>
    rewriteFirst (fun other => other.region = topic.region ∧ other.topicName = topic.topicName)
      (fun _ => topic) store
  | .mongo =>
    rewriteFirst (fun other => other.region = topic.region ∧ other.topicArn = topic.topicArn)
      (fun _ => topic) store

def deleteTopic (region topicArn : String) : Store :=
  match backend with
  | .memory => store.filter fun topic => ¬(topic.region = region ∧ topic.topicArn = topicArn)
  | .mongo => store.filter fun topic => topic.topicArn ≠ topicArn

end Store

/-! ## Operations -/

inductive Exn where
  | service (message : String)
  | notFound (message : String)
deriving DecidableEq, Repr

section Operations

variable (backend : Backend) (accountId : String)

structure CreateTopicRequest where
  region : String
  topicName : String
  owner : String

/-- The name of the topic is returned, also when it exists already. -/
def createTopic (request : CreateTopicRequest) (place : Nat) (store : Store) :
    Except Exn String × Store :=
  if store.topicExistsByName request.region request.topicName then
    (.ok (store.getTopicByName request.region request.topicName).topicArn, store)
  else
    (.ok (createSNSTopicArn request.region accountId request.topicName),
      store.createTopic backend place
        { region := request.region
          topicName := request.topicName
          owner := request.owner
          topicArn := createSNSTopicArn request.region accountId request.topicName })

def deleteTopic (region topicArn : String) (store : Store) : Except Exn Unit × Store :=
  if store.topicExists topicArn then (.ok (), store.deleteTopic backend region topicArn)
  else (.error (.notFound "Topic does not exist"), store)

structure SubscribeRequest where
  region : String
  topicArn : String
  protocol : String
  endpoint : String

/-- The name that is returned is drawn whether the topic has the subscription or not. -/
def subscribe (request : SubscribeRequest) (uuid : String) (store : Store) :
    Except Exn String × Store :=
  if request.topicArn = "" then (.error (.service "Topic ARN missing"), store)
  else if store.topicExists request.topicArn then
    let topic := store.getTopicByArn request.topicArn
    let subscriptionArn :=
      createSNSSubscriptionArn request.region accountId topic.topicName uuid
    if topic.hasSubscription request.protocol request.endpoint then (.ok subscriptionArn, store)
    else
      (.ok subscriptionArn, store.updateTopic backend
          (topic.addSubscription ⟨request.protocol, request.endpoint, subscriptionArn⟩))
  else (.error (.service "SNS topic does not exists"), store)

structure UpdateSubscriptionRequest where
  topicArn : String
  subscriptionArn : String
  protocol : String
  endpoint : String

def updateSubscription (request : UpdateSubscriptionRequest) (store : Store) :
    Except Exn String × Store :=
  if request.topicArn = "" then (.error (.service "Topic ARN missing"), store)
  else if store.topicExists request.topicArn then
    let topic := store.getTopicByArn request.topicArn
    if topic.hasSubscriptionArn request.subscriptionArn then
      (.ok request.subscriptionArn, store.updateTopic backend
          (topic.setSubscription request.subscriptionArn request.protocol request.endpoint))
    else (.error (.service "SNS topic subscription does not exists"), store)
  else (.error (.service "SNS topic does not exists"), store)

def unsubscribe (subscriptionArn : String) (store : Store) : Except Exn String × Store :=
  if subscriptionArn = "" then (.error (.service "Subscription ARN missing"), store)
  else
    (.ok subscriptionArn, (store.getTopicsBySubscriptionArn subscriptionArn).foldl
        (fun store topic => store.updateTopic backend (topic.eraseSubscription subscriptionArn))
        store)

/-- Nothing is searched before the subscription is added, and its name has the name of the
topic with all its parts. -/
def addSubscriptionCounter (request : SubscribeRequest) (uuid : String) (store : Store) :
    Except Exn Unit × Store :=
  if store.topicExists request.topicArn then
    (.ok (), store.updateTopic backend ((store.getTopicByArn request.topicArn).addSubscription
          ⟨request.protocol, request.endpoint,
            createSNSSubscriptionArn request.region accountId request.topicArn uuid⟩))
  else
    (.error (.service ("Topic does not exist, topicArn: " ++ request.topicArn)), store)

def deleteSubscriptionCounter (topicArn subscriptionArn : String) (store : Store) :
    Except Exn Unit × Store :=
  if store.topicExists topicArn then
    (.ok (), store.updateTopic backend
        ((store.getTopicByArn topicArn).eraseSubscription subscriptionArn))
  else (.error (.service ("Topic does not exist, topicArn: " ++ topicArn)), store)

inductive Operation where
  | createTopic (request : CreateTopicRequest) (place : Nat)
  | deleteTopic (region topicArn : String)
  | subscribe (request : SubscribeRequest) (uuid : String)
  | updateSubscription (request : UpdateSubscriptionRequest)
  | unsubscribe (subscriptionArn : String)
  | addSubscriptionCounter (request : SubscribeRequest) (uuid : String)
  | deleteSubscriptionCounter (topicArn subscriptionArn : String)

def step (store : Store) : Operation → Store
  | .createTopic request place => (createTopic backend accountId request place store).2
  | .deleteTopic region topicArn => (deleteTopic backend region topicArn store).2
  | .subscribe request uuid => (subscribe backend accountId request uuid store).2
  | .updateSubscription request => (updateSubscription backend request store).2
  | .unsubscribe subscriptionArn => (unsubscribe backend subscriptionArn store).2
  | .addSubscriptionCounter request uuid =>
    (addSubscriptionCounter backend accountId request uuid store).2
  | .deleteSubscriptionCounter topicArn subscriptionArn =>
    (deleteSubscriptionCounter backend topicArn subscriptionArn store).2

end Operations

end AwsMock.Sns
