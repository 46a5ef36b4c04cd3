import AwsMock.Foundation.KeyedList
import AwsMock.Foundation.Runs
import AwsMock.Sns.Service
import Mathlib.Data.List.Flatten
import Mathlib.Data.List.Pairwise

/-! # The names of subscriptions

Every subscription has a name of its own. Subscribing returns the name of the subscription if
the topic did not have it before; otherwise the name that is returned belongs to none.
-/

namespace AwsMock.Sns

open Foundation

def Topic.key (topic : Topic) : String × String := (topic.region, topic.topicName)

namespace Store

variable (store : Store)

def subscriptionArns : List String :=
  store.flatMap fun topic => topic.subscriptions.map Subscription.subscriptionArn

def edit (key : String × String) (change : Topic → Topic) : Store :=
  store.map fun topic => if topic.key = key then change topic else topic

structure IsValid (accountId : String) : Prop where
  keys : (store.map Topic.key).Nodup
  topicArns : ∀ topic ∈ store,
    topic.topicArn = createSNSTopicArn topic.region accountId topic.topicName
  unique : store.subscriptionArns.Nodup

end Store

section Properties

variable (backend : Backend) (accountId : String)

def Operation.drawnArn (store : Store) : Operation → Option String
  | subscribe request uuid =>
    some (createSNSSubscriptionArn request.region accountId
      (store.getTopicByArn request.topicArn).topicName uuid)
  | addSubscriptionCounter request uuid =>
    some (createSNSSubscriptionArn request.region accountId request.topicArn uuid)
  | _ => none

def DrawsNewArn (store : Store) (operation : Operation) : Prop :=
  ∀ subscriptionArn ∈ operation.drawnArn accountId store, subscriptionArn ∉ store.subscriptionArns

def DrawsNewArns (operations : List Operation) (store : Store) : Prop :=
  Runs.Heeded (step backend accountId) (DrawsNewArn accountId) operations store

def run (operations : List Operation) (store : Store) : Store :=
  operations.foldl (step backend accountId) store

/-- Updating by the name changes one subscription, and unsubscribing removes it; all others
stay as they are. -/
def Identifies (subscriptionArn : String) (store : Store) : Prop :=
  ∀ topic ∈ store, ∀ subscription ∈ topic.subscriptions,
    subscription.subscriptionArn = subscriptionArn →
      (∀ protocol endpoint, store.getTopicByArn topic.topicArn = topic →
        updateSubscription backend ⟨topic.topicArn, subscriptionArn, protocol, endpoint⟩ store =
          (.ok subscriptionArn, store.map fun topic =>
            { topic with
              subscriptions := topic.subscriptions.map fun other =>
                if other = subscription then ⟨protocol, endpoint, subscriptionArn⟩ else other })) ∧
      unsubscribe backend subscriptionArn store =
        (.ok subscriptionArn, store.map fun topic =>
          { topic with subscriptions := topic.subscriptions.filter (· ≠ subscription) })

/-- The topic has the subscription once, under the name that is returned, and the name
identifies it from then on. -/
structure SubscribesConsistently (request : SubscribeRequest) (uuid : String) (store : Store)
    (subscriptionArn : String) : Prop where
  returned : (subscribe backend accountId request uuid store).1 = .ok subscriptionArn
  once : ((subscribe backend accountId request uuid store).2.getTopicByArn
    request.topicArn).subscriptions.countP (fun subscription =>
      subscription.protocol = request.protocol ∧ subscription.endpoint = request.endpoint) = 1
  stored : ⟨request.protocol, request.endpoint, subscriptionArn⟩ ∈
    ((subscribe backend accountId request uuid store).2.getTopicByArn
      request.topicArn).subscriptions
  identifies : ∀ later,
    DrawsNewArns backend accountId later (subscribe backend accountId request uuid store).2 →
      Identifies backend subscriptionArn
        (run backend accountId later (subscribe backend accountId request uuid store).2)

end Properties

/-! ## Updates -/

section Updates

variable {backend : Backend} {accountId : String} {store : Store} {topic : Topic}
  {topicArn subscriptionArn : String} {change : Topic → Topic}

structure KeepsNames (change : Topic → Topic) : Prop where
  region : ∀ topic, (change topic).region = topic.region
  topicName : ∀ topic, (change topic).topicName = topic.topicName
  topicArn : ∀ topic, (change topic).topicArn = topic.topicArn

theorem KeepsNames.key (hchange : KeepsNames change) (topic : Topic) :
    (change topic).key = topic.key :=
  Prod.ext (hchange.region topic) (hchange.topicName topic)

theorem keepsNames_add (subscription : Subscription) :
    KeepsNames fun topic => topic.addSubscription subscription :=
  ⟨fun _ => rfl, fun _ => rfl, fun _ => rfl⟩

theorem keepsNames_set (subscriptionArn protocol endpoint : String) :
    KeepsNames fun topic => topic.setSubscription subscriptionArn protocol endpoint :=
  ⟨fun _ => rfl, fun _ => rfl, fun _ => rfl⟩

theorem keepsNames_erase (subscriptionArn : String) :
    KeepsNames fun topic => topic.eraseSubscription subscriptionArn :=
  ⟨fun _ => rfl, fun _ => rfl, fun _ => rfl⟩

theorem createSNSTopicArn_inj {region first second : String}
    (heq : createSNSTopicArn region accountId first = createSNSTopicArn region accountId second) :
    first = second :=
  (String.append_right_inj _).mp heq

theorem createArn_ne_empty (service region accountId resourceId : String) :
    createArn service region accountId resourceId ≠ "" := by
  intro heq
  have hlength := congrArg String.length heq
  simp only [createArn, String.length_append] at hlength
  have harn : "arn:aws:".length = 8 := rfl
  have hempty : "".length = 0 := rfl
  omega

theorem updateTopic_eq_rewriteFirst (hvalid : store.IsValid accountId) (hmem : topic ∈ store)
    (hchange : KeepsNames change) :
    store.updateTopic backend (change topic) =
      rewriteFirst (fun other => other.key = topic.key) (fun _ => change topic) store := by
  cases backend with
  | memory =>
    apply rewriteFirst_congr
    intro other _
    rw [hchange.region, hchange.topicName, decide_eq_decide]
    exact (Prod.ext_iff (x := other.key) (y := topic.key)).symm
  | mongo =>
    apply rewriteFirst_congr
    intro other hother
    rw [hchange.region, hchange.topicArn, hvalid.topicArns topic hmem,
      hvalid.topicArns other hother, decide_eq_decide]
    constructor
    · rintro ⟨hregion, harn⟩
      rw [hregion] at harn
      exact Prod.ext hregion (createSNSTopicArn_inj harn)
    · intro hkey
      obtain ⟨hregion, hname⟩ : other.region = topic.region ∧ other.topicName = topic.topicName :=
        Prod.ext_iff.mp hkey
      rw [hregion, hname]
      exact ⟨rfl, rfl⟩

theorem updateTopic_eq_edit (hvalid : store.IsValid accountId) (hmem : topic ∈ store)
    (hchange : KeepsNames change) :
    store.updateTopic backend (change topic) = store.edit topic.key change := by
  rw [updateTopic_eq_rewriteFirst hvalid hmem hchange,
    rewriteFirst_key_eq_map hvalid.keys, Store.edit]
  apply List.map_congr_left
  intro other hother
  split
  next hkey => rw [List.inj_on_of_nodup_map hvalid.keys hother hmem hkey]
  next => rfl

theorem findTopic_of_exists (hexists : store.topicExists topicArn = true) :
    ∃ topic ∈ store, store.getTopicByArn topicArn = topic ∧ topic.topicArn = topicArn := by
  obtain ⟨topic, hfind⟩ := Option.isSome_iff_exists.mp hexists
  refine ⟨topic, List.mem_of_find?_eq_some hfind, ?_, ?_⟩
  · rw [Store.getTopicByArn, hfind]
    rfl
  · exact of_decide_eq_true (List.find?_some (p := fun topic : Topic =>
      decide (topic.topicArn = topicArn)) hfind)

theorem eraseSubscription_of_notMem (hnone : topic.hasSubscriptionArn subscriptionArn = false) :
    topic.eraseSubscription subscriptionArn = topic := by
  have hkept : topic.subscriptions.filter (fun subscription =>
      subscription.subscriptionArn ≠ subscriptionArn) = topic.subscriptions := by
    rw [List.filter_eq_self]
    intro subscription hsubscription
    have hne := List.any_eq_false.mp hnone subscription hsubscription
    simpa using hne
  rw [Topic.eraseSubscription, hkept]

/-! ## Validity -/

theorem keys_map (hchange : ∀ topic : Topic, (change topic).key = topic.key) :
    (store.map change : Store).map Topic.key = store.map Topic.key := by
  rw [List.map_map]
  exact List.map_congr_left fun topic _ => hchange topic

theorem edit_keepsNames {key : String × String} (hchange : KeepsNames change) :
    KeepsNames fun topic => if topic.key = key then change topic else topic := by
  refine ⟨fun topic => ?_, fun topic => ?_, fun topic => ?_⟩
  · split
    · exact hchange.region topic
    · rfl
  · split
    · exact hchange.topicName topic
    · rfl
  · split
    · exact hchange.topicArn topic
    · rfl

section

variable (hvalid : store.IsValid accountId)
include hvalid

theorem isValid_map (hchange : KeepsNames change)
    (hunique : (Store.subscriptionArns (store.map change)).Nodup) :
    Store.IsValid (store.map change) accountId := by
  refine ⟨?_, ?_, hunique⟩
  · rw [keys_map hchange.key]
    exact hvalid.keys
  · intro topic htopic
    obtain ⟨other, hother, rfl⟩ := List.mem_map.mp htopic
    rw [hchange.topicArn, hchange.region, hchange.topicName]
    exact hvalid.topicArns other hother

theorem unique_of_sublist
    (hsublist : ∀ topic, ((change topic).subscriptions.map Subscription.subscriptionArn).Sublist
      (topic.subscriptions.map Subscription.subscriptionArn)) :
    (Store.subscriptionArns (store.map change)).Nodup := by
  rw [Store.subscriptionArns, List.flatMap_map]
  exact (List.Sublist.flatMap_right store fun topic _ => hsublist topic).nodup hvalid.unique

theorem isValid_edit_of_sublist {key : String × String} (hchange : KeepsNames change)
    (hsublist : ∀ topic, ((change topic).subscriptions.map Subscription.subscriptionArn).Sublist
      (topic.subscriptions.map Subscription.subscriptionArn)) :
    (store.edit key change).IsValid accountId := by
  apply isValid_map hvalid (edit_keepsNames hchange)
  apply unique_of_sublist hvalid
  intro topic
  split
  · exact hsublist topic
  · exact List.Sublist.refl _

end

theorem sublist_erase (subscriptionArn : String) (topic : Topic) :
    ((topic.eraseSubscription subscriptionArn).subscriptions.map
      Subscription.subscriptionArn).Sublist
      (topic.subscriptions.map Subscription.subscriptionArn) :=
  List.filter_sublist.map _

theorem map_setSubscription (subscriptionArn protocol endpoint : String) (topic : Topic) :
    (topic.setSubscription subscriptionArn protocol endpoint).subscriptions.map
      Subscription.subscriptionArn =
        topic.subscriptions.map Subscription.subscriptionArn :=
  map_rewriteFirst_of_preserved _ fun _ _ _ => rfl

variable {subscription : Subscription}

theorem isValid_add (hvalid : store.IsValid accountId)
    (hmem : topic ∈ store) (hnew : subscription.subscriptionArn ∉ store.subscriptionArns) :
    (store.edit topic.key fun topic => topic.addSubscription subscription).IsValid accountId := by
  apply isValid_map hvalid (edit_keepsNames (keepsNames_add subscription))
  have hedit : store.edit topic.key (fun topic => topic.addSubscription subscription) =
      rewriteFirst (fun other => other.key = topic.key)
        (fun topic => topic.addSubscription subscription) store :=
    (rewriteFirst_key_eq_map hvalid.keys _).symm
  change (Store.subscriptionArns (store.edit topic.key _)).Nodup
  rw [hedit, List.nodup_iff_count_le_one]
  intro arn
  have hcount : (Store.subscriptionArns (rewriteFirst (fun other => other.key = topic.key)
      (fun topic => topic.addSubscription subscription) store)).count arn +
        (topic.subscriptions.map Subscription.subscriptionArn).count arn =
      store.subscriptionArns.count arn + ((topic.addSubscription subscription).subscriptions.map
        Subscription.subscriptionArn).count arn :=
    count_flatMap_rewriteFirst (findKey_of_mem hvalid.keys hmem) arn
  have hold := List.nodup_iff_count_le_one.mp hvalid.unique arn
  have hadded : ((topic.addSubscription subscription).subscriptions.map
      Subscription.subscriptionArn).count arn =
        (topic.subscriptions.map Subscription.subscriptionArn).count arn +
          if subscription.subscriptionArn = arn then 1 else 0 := by
    rw [Topic.addSubscription, List.map_append, List.count_append, List.map_singleton,
      List.count_singleton]
    simp
  rw [hadded] at hcount
  split at hcount
  next heq =>
    rw [heq, ← List.count_eq_zero] at hnew
    omega
  next => omega

/-! ## Operations -/

section

variable (hvalid : store.IsValid accountId)
include hvalid

theorem foldl_erase {topics : List Topic}
    (hmem : ∀ topic ∈ topics, topic ∈ store) (hdistinct : (topics.map Topic.key).Nodup) :
    topics.foldl (fun store topic =>
        Store.updateTopic backend store (topic.eraseSubscription subscriptionArn)) store =
      store.map fun topic =>
        if topic.key ∈ topics.map Topic.key then topic.eraseSubscription subscriptionArn
        else topic := by
  induction topics generalizing store with
  | nil => simp
  | cons topic topics ih =>
    rw [List.map_cons, List.nodup_cons] at hdistinct
    have hnames := keepsNames_erase subscriptionArn
    have hother : ∀ other ∈ topics, other.key ≠ topic.key := fun other hother heq =>
      hdistinct.1 (heq ▸ List.mem_map_of_mem hother)
    rw [List.foldl_cons, updateTopic_eq_edit hvalid (hmem topic List.mem_cons_self) hnames,
      ih (isValid_edit_of_sublist hvalid hnames (sublist_erase subscriptionArn)) ?_ hdistinct.2,
      Store.edit, List.map_map]
    · apply List.map_congr_left
      intro other _
      dsimp only [Function.comp_apply]
      by_cases hkey : other.key = topic.key
      · have hhead : other.key ∈ (topic :: topics).map Topic.key := by
          rw [hkey]
          exact List.mem_cons_self
        rw [if_pos hkey, if_pos hhead, hnames.key, hkey, if_neg hdistinct.1]
      · have hiff : other.key ∈ (topic :: topics).map Topic.key ↔
            other.key ∈ topics.map Topic.key := by
          rw [List.map_cons, List.mem_cons, or_iff_right hkey]
        rw [if_neg hkey]
        simp only [hiff]
    · intro other hmemOther
      refine List.mem_map.mpr ⟨other, hmem other (List.mem_cons_of_mem _ hmemOther), ?_⟩
      exact if_neg (hother other hmemOther)

theorem unsubscribe_eq (hnamed : subscriptionArn ≠ "") :
    unsubscribe backend subscriptionArn store =
      (.ok subscriptionArn, store.map fun topic => topic.eraseSubscription subscriptionArn) := by
  rw [unsubscribe, if_neg hnamed, Store.getTopicsBySubscriptionArn, foldl_erase hvalid
    (fun topic htopic => (List.mem_filter.mp htopic).1)
    ((List.filter_sublist.map Topic.key).nodup hvalid.keys)]
  refine congrArg _ (List.map_congr_left ?_)
  intro topic htopic
  split
  · rfl
  next hnot =>
    refine (eraseSubscription_of_notMem ?_).symm
    by_contra hhas
    exact hnot (List.mem_map_of_mem (List.mem_filter.mpr ⟨htopic, eq_true_of_ne_false hhas⟩))

theorem isValid_unsubscribe :
    (unsubscribe backend subscriptionArn store).2.IsValid accountId := by
  by_cases hnamed : subscriptionArn = ""
  · rw [unsubscribe, if_pos hnamed]
    exact hvalid
  · rw [unsubscribe_eq hvalid hnamed]
    exact isValid_map hvalid (keepsNames_erase subscriptionArn)
      (unique_of_sublist hvalid (sublist_erase subscriptionArn))

end

theorem createTopic_perm (place : Nat) (topic : Topic) :
    (store.createTopic backend place topic).Perm (topic :: store) := by
  cases backend with
  | memory =>
    change (store.take place ++ topic :: store.drop place).Perm _
    refine List.perm_middle.trans ?_
    rw [List.take_append_drop]
  | mongo => exact List.perm_append_singleton _ _

section

variable (hvalid : store.IsValid accountId)
include hvalid

theorem isValid_createTopic {request : CreateTopicRequest} {place : Nat} :
    (createTopic backend accountId request place store).2.IsValid accountId := by
  rw [createTopic]
  split
  · exact hvalid
  next hnew =>
    have hperm := @createTopic_perm backend store place
      { region := request.region
        topicName := request.topicName
        owner := request.owner
        topicArn := createSNSTopicArn request.region accountId request.topicName }
    refine ⟨?_, ?_, ?_⟩
    · rw [(hperm.map Topic.key).nodup_iff, List.map_cons, List.nodup_cons]
      refine ⟨?_, hvalid.keys⟩
      intro hmem
      obtain ⟨topic, htopic, hkey⟩ := List.mem_map.mp hmem
      obtain ⟨hregion, hname⟩ : topic.region = request.region ∧
          topic.topicName = request.topicName := Prod.ext_iff.mp hkey
      exact hnew (List.any_eq_true.mpr ⟨topic, htopic, decide_eq_true ⟨hregion, hname⟩⟩)
    · intro topic htopic
      rcases List.mem_cons.mp (hperm.subset htopic) with rfl | hold
      · rfl
      · exact hvalid.topicArns topic hold
    · exact (hperm.flatMap_right _).nodup_iff.mpr hvalid.unique

theorem isValid_of_sublist {store' : Store}
    (hsublist : store'.Sublist store) : store'.IsValid accountId :=
  ⟨(hsublist.map Topic.key).nodup hvalid.keys,
    fun topic htopic => hvalid.topicArns topic (hsublist.subset htopic),
    (hsublist.flatMap _).nodup hvalid.unique⟩

theorem isValid_deleteTopic {region : String} :
    (deleteTopic backend region topicArn store).2.IsValid accountId := by
  rw [deleteTopic]
  split
  · cases backend with
    | memory => exact isValid_of_sublist hvalid List.filter_sublist
    | mongo => exact isValid_of_sublist hvalid List.filter_sublist
  · exact hvalid

theorem isValid_subscribe {request : SubscribeRequest} {uuid : String}
    (hnew : DrawsNewArn accountId store (.subscribe request uuid)) :
    (subscribe backend accountId request uuid store).2.IsValid accountId := by
  rw [subscribe]
  split
  · exact hvalid
  · split
    next hexists =>
      obtain ⟨topic, htopic, hget, _⟩ := findTopic_of_exists hexists
      dsimp only
      split
      · exact hvalid
      · rw [hget, updateTopic_eq_edit hvalid htopic (keepsNames_add _)]
        exact isValid_add hvalid htopic (hget ▸ hnew _ rfl)
    · exact hvalid

theorem isValid_updateSubscription {request : UpdateSubscriptionRequest} :
    (updateSubscription backend request store).2.IsValid accountId := by
  rw [updateSubscription]
  split
  · exact hvalid
  · split
    next hexists =>
      obtain ⟨topic, htopic, hget, _⟩ := findTopic_of_exists hexists
      dsimp only
      split
      · rw [hget, updateTopic_eq_edit hvalid htopic (keepsNames_set _ _ _)]
        refine isValid_edit_of_sublist hvalid (keepsNames_set _ _ _) ?_
        intro other
        rw [map_setSubscription]
      · exact hvalid
    · exact hvalid

theorem isValid_addSubscriptionCounter {request : SubscribeRequest} {uuid : String}
    (hnew : DrawsNewArn accountId store (.addSubscriptionCounter request uuid)) :
    (addSubscriptionCounter backend accountId request uuid store).2.IsValid accountId := by
  rw [addSubscriptionCounter]
  split
  next hexists =>
    obtain ⟨topic, htopic, hget, _⟩ := findTopic_of_exists hexists
    rw [hget, updateTopic_eq_edit hvalid htopic (keepsNames_add _)]
    exact isValid_add hvalid htopic (hnew _ rfl)
  · exact hvalid

theorem isValid_deleteSubscriptionCounter :
    (deleteSubscriptionCounter backend topicArn subscriptionArn store).2.IsValid accountId := by
  rw [deleteSubscriptionCounter]
  split
  next hexists =>
    obtain ⟨topic, htopic, hget, _⟩ := findTopic_of_exists hexists
    rw [hget, updateTopic_eq_edit hvalid htopic (keepsNames_erase _)]
    exact isValid_edit_of_sublist hvalid (keepsNames_erase _) (sublist_erase subscriptionArn)
  · exact hvalid

theorem isValid_step {operation : Operation} (hnew : DrawsNewArn accountId store operation) :
    (step backend accountId store operation).IsValid accountId := by
  cases operation with
  | createTopic request place => exact isValid_createTopic hvalid
  | deleteTopic region topicArn => exact isValid_deleteTopic hvalid
  | subscribe request uuid => exact isValid_subscribe hvalid hnew
  | updateSubscription request => exact isValid_updateSubscription hvalid
  | unsubscribe subscriptionArn => exact isValid_unsubscribe hvalid
  | addSubscriptionCounter request uuid => exact isValid_addSubscriptionCounter hvalid hnew
  | deleteSubscriptionCounter topicArn subscriptionArn =>
    exact isValid_deleteSubscriptionCounter hvalid

theorem isValid_run {operations : List Operation}
    (hdraws : DrawsNewArns backend accountId operations store) :
    (run backend accountId operations store).IsValid accountId := by
  induction operations generalizing store with
  | nil => exact hvalid
  | cons operation operations ih => exact ih (isValid_step hvalid hdraws.1) hdraws.2

end

/-! ## Names identify subscriptions -/

section

variable (hvalid : store.IsValid accountId)
include hvalid

theorem eq_of_subscriptionArn {other : Topic} {first second : Subscription}
    (htopic : topic ∈ store) (hother : other ∈ store)
    (hfirst : first ∈ topic.subscriptions) (hsecond : second ∈ other.subscriptions)
    (harn : first.subscriptionArn = second.subscriptionArn) : first = second := by
  have hunique : ((store.flatMap Topic.subscriptions).map Subscription.subscriptionArn).Nodup := by
    rw [List.map_flatMap]
    exact hvalid.unique
  exact List.inj_on_of_nodup_map hunique (List.mem_flatMap.mpr ⟨topic, htopic, hfirst⟩)
    (List.mem_flatMap.mpr ⟨other, hother, hsecond⟩) harn

theorem nodup_subscriptionArns (htopic : topic ∈ store) :
    (topic.subscriptions.map Subscription.subscriptionArn).Nodup :=
  (List.nodup_flatMap.mp hvalid.unique).1 topic htopic

theorem key_eq_of_mem {other : Topic} (htopic : topic ∈ store) (hother : other ∈ store)
    (hfirst : subscription ∈ topic.subscriptions) (hsecond : subscription ∈ other.subscriptions) :
    topic.key = other.key := by
  by_contra hne
  have hpairwise := (List.nodup_flatMap.mp hvalid.unique).2
  have hsymm : Std.Symm (Function.onFun List.Disjoint fun topic : Topic =>
      topic.subscriptions.map Subscription.subscriptionArn) := 
    ⟨fun _ _ hdisjoint _ hfirst hsecond => hdisjoint hsecond hfirst⟩
  have hdisjoint : List.Disjoint (topic.subscriptions.map Subscription.subscriptionArn)
      (other.subscriptions.map Subscription.subscriptionArn) :=
    hpairwise.forall htopic hother fun heq => hne (congrArg Topic.key heq)
  exact hdisjoint (List.mem_map_of_mem hfirst) (List.mem_map_of_mem hsecond)

end

theorem map_ite_of_notMem {subscription new : Subscription} {subscriptions : List Subscription}
    (hnone : subscription ∉ subscriptions) :
    (subscriptions.map fun other => if other = subscription then new else other) =
      subscriptions := by
  conv_rhs => rw [← List.map_id subscriptions]
  apply List.map_congr_left
  intro other hother
  exact if_neg fun heq : other = subscription => hnone (heq ▸ hother)

theorem setSubscription_eq {protocol endpoint : String}
    (hvalid : store.IsValid accountId) (htopic : topic ∈ store)
    (hmem : subscription ∈ topic.subscriptions) :
    topic.setSubscription subscription.subscriptionArn protocol endpoint =
      { topic with
        subscriptions := topic.subscriptions.map fun other =>
          if other = subscription then ⟨protocol, endpoint, subscription.subscriptionArn⟩
          else other } := by
  rw [Topic.setSubscription, rewriteFirst_key_eq_map (nodup_subscriptionArns hvalid htopic)]
  refine congrArg (fun subscriptions => { topic with subscriptions := subscriptions })
    (List.map_congr_left ?_)
  intro other hother
  by_cases harn : other.subscriptionArn = subscription.subscriptionArn
  · rw [if_pos harn, if_pos (eq_of_subscriptionArn hvalid htopic htopic hother hmem harn), harn]
  · rw [if_neg harn, if_neg fun heq => harn (congrArg _ heq)]

theorem identifies_of_valid (hvalid : store.IsValid accountId) (hnamed : subscriptionArn ≠ "") :
    Identifies backend subscriptionArn store := by
  intro topic htopic subscription hmem harn
  subst harn
  refine ⟨?_, ?_⟩
  · intro protocol endpoint hget
    have htopicArn : topic.topicArn ≠ "" := by
      rw [hvalid.topicArns topic htopic]
      exact createArn_ne_empty _ _ _ _
    have hexists : store.topicExists topic.topicArn = true := by
      rw [Store.topicExists, Store.findTopic, List.find?_isSome]
      exact ⟨topic, htopic, decide_eq_true rfl⟩
    have hhas : topic.hasSubscriptionArn subscription.subscriptionArn = true :=
      List.any_eq_true.mpr ⟨subscription, hmem, decide_eq_true rfl⟩
    rw [updateSubscription, if_neg htopicArn, if_pos hexists]
    dsimp only
    rw [hget, if_pos hhas, updateTopic_eq_edit hvalid htopic (keepsNames_set _ _ _)]
    refine congrArg _ (List.map_congr_left ?_)
    intro other hother
    by_cases hkey : other.key = topic.key
    · rw [if_pos hkey, List.inj_on_of_nodup_map hvalid.keys hother htopic hkey]
      exact setSubscription_eq hvalid htopic hmem
    · rw [if_neg hkey, map_ite_of_notMem]
      intro hsecond
      exact hkey (key_eq_of_mem hvalid hother htopic hsecond hmem)
  · rw [unsubscribe_eq hvalid hnamed]
    refine congrArg _ (List.map_congr_left ?_)
    intro other hother
    refine congrArg (fun subscriptions => { other with subscriptions := subscriptions })
      (List.filter_congr ?_)
    intro second hsecond
    rw [decide_eq_decide, not_iff_not]
    constructor
    · exact eq_of_subscriptionArn hvalid hother htopic hsecond hmem
    · rintro rfl
      rfl

/-! ## Subscribing -/

theorem getTopicByArn_edit {change : Topic → Topic} (hchange : KeepsNames change)
    (hexists : store.topicExists topicArn = true)
    (hget : store.getTopicByArn topicArn = topic) :
    (store.edit topic.key change).getTopicByArn topicArn = change topic := by
  obtain ⟨found, hfind⟩ := Option.isSome_iff_exists.mp hexists
  rw [Store.getTopicByArn, hfind, Option.getD_some] at hget
  subst hget
  have hnames := @edit_keepsNames change found.key hchange
  have hedited : (store.edit found.key change).findTopic topicArn = some (change found) := by
    rw [Store.findTopic] at hfind
    rw [Store.findTopic, Store.edit, List.find?_map]
    have hsame : ((fun topic : Topic => decide (topic.topicArn = topicArn)) ∘ fun topic : Topic =>
        if topic.key = found.key then change topic else topic) =
          fun topic => decide (topic.topicArn = topicArn) := by
      funext other
      exact congrArg (fun arn => decide (arn = topicArn)) (hnames.topicArn other)
    rw [hsame, hfind, Option.map_some, if_pos rfl]
  rw [Store.getTopicByArn, hedited, Option.getD_some]

theorem topicArn_ne_empty (hvalid : store.IsValid accountId)
    (hexists : store.topicExists topicArn = true) : topicArn ≠ "" := by
  obtain ⟨topic, htopic, _, rfl⟩ := findTopic_of_exists hexists
  rw [hvalid.topicArns topic htopic]
  exact createArn_ne_empty _ _ _ _

variable {request : SubscribeRequest} {uuid : String}

theorem subscribe_of_has (hvalid : store.IsValid accountId)
    (hexists : store.topicExists request.topicArn = true)
    (hhas : (store.getTopicByArn request.topicArn).hasSubscription request.protocol
      request.endpoint = true) :
    subscribe backend accountId request uuid store =
      (.ok (createSNSSubscriptionArn request.region accountId
        (store.getTopicByArn request.topicArn).topicName uuid), store) := by
  rw [subscribe, if_neg (topicArn_ne_empty hvalid hexists), if_pos hexists]
  dsimp only
  rw [if_pos hhas]

theorem subscribe_of_new (hvalid : store.IsValid accountId)
    (hexists : store.topicExists request.topicArn = true)
    (hnew : (store.getTopicByArn request.topicArn).hasSubscription request.protocol
      request.endpoint = false) :
    subscribe backend accountId request uuid store =
      (.ok (createSNSSubscriptionArn request.region accountId
        (store.getTopicByArn request.topicArn).topicName uuid),
        store.edit (store.getTopicByArn request.topicArn).key fun topic =>
          topic.addSubscription ⟨request.protocol, request.endpoint,
            createSNSSubscriptionArn request.region accountId
              (store.getTopicByArn request.topicArn).topicName uuid⟩) := by
  obtain ⟨topic, htopic, hget, _⟩ := findTopic_of_exists hexists
  rw [subscribe, if_neg (topicArn_ne_empty hvalid hexists), if_pos hexists]
  dsimp only
  rw [if_neg (by rw [hnew]; exact Bool.false_ne_true), hget,
    updateTopic_eq_edit hvalid htopic (keepsNames_add _)]

theorem countP_add (hnew : topic.hasSubscription request.protocol request.endpoint = false)
    (subscriptionArn : String) :
    (topic.addSubscription ⟨request.protocol, request.endpoint,
      subscriptionArn⟩).subscriptions.countP (fun subscription =>
        subscription.protocol = request.protocol ∧ subscription.endpoint = request.endpoint) =
      1 := by
  have hnone : topic.subscriptions.countP (fun subscription =>
      subscription.protocol = request.protocol ∧ subscription.endpoint = request.endpoint) = 0 := by
    rw [List.countP_eq_zero]
    exact List.any_eq_false.mp hnew
  rw [Topic.addSubscription, List.countP_append, hnone, List.countP_singleton]
  simp

theorem subscribesConsistently_iff (hvalid : store.IsValid accountId)
    (hexists : store.topicExists request.topicArn = true)
    (hdraws : DrawsNewArn accountId store (.subscribe request uuid)) :
    (∃ subscriptionArn, SubscribesConsistently backend accountId request uuid store
        subscriptionArn) ↔
      (store.getTopicByArn request.topicArn).hasSubscription request.protocol
        request.endpoint = false := by
  constructor
  · rintro ⟨subscriptionArn, hconsistent⟩
    rw [Bool.eq_false_iff]
    intro hhas
    have hreturned := hconsistent.returned
    have hstored := hconsistent.stored
    rw [subscribe_of_has hvalid hexists hhas] at hreturned hstored
    obtain ⟨topic, htopic, hget, _⟩ := findTopic_of_exists hexists
    rw [hget] at hstored
    refine hdraws subscriptionArn (congrArg some (Except.ok.inj hreturned)) ?_
    exact List.mem_flatMap.mpr ⟨topic, htopic, List.mem_map.mpr ⟨_, hstored, rfl⟩⟩
  · intro hnew
    have hafter : (subscribe backend accountId request uuid store).2.IsValid accountId :=
      isValid_subscribe hvalid hdraws
    have hsubscribe := @subscribe_of_new backend accountId store request uuid hvalid hexists hnew
    refine ⟨createSNSSubscriptionArn request.region accountId
      (store.getTopicByArn request.topicArn).topicName uuid, ?_, ?_, ?_, ?_⟩
    · rw [hsubscribe]
    · rw [hsubscribe, getTopicByArn_edit (keepsNames_add _) hexists rfl]
      exact countP_add hnew _
    · rw [hsubscribe, getTopicByArn_edit (keepsNames_add _) hexists rfl]
      exact List.mem_append_right _ (List.mem_singleton_self _)
    · intro later hlater
      exact identifies_of_valid (isValid_run hafter hlater) (createArn_ne_empty _ _ _ _)

end Updates

section Runs

variable (backend : Backend) (accountId : String)

theorem isValid_nil : Store.IsValid [] accountId :=
  ⟨List.nodup_nil, fun _ htopic => absurd htopic List.not_mem_nil, List.nodup_nil⟩

/-- The same in every state that operations lead to. -/
theorem subscribesConsistently_iff_new (operations : List Operation) (request : SubscribeRequest)
    (uuid : String) (hruns : DrawsNewArns backend accountId operations [])
    (hexists : (run backend accountId operations []).topicExists request.topicArn = true)
    (hdraws : DrawsNewArn accountId (run backend accountId operations [])
      (.subscribe request uuid)) :
    (∃ subscriptionArn, SubscribesConsistently backend accountId request uuid
        (run backend accountId operations []) subscriptionArn) ↔
      ((run backend accountId operations []).getTopicByArn request.topicArn).hasSubscription
        request.protocol request.endpoint = false :=
  subscribesConsistently_iff (isValid_run (isValid_nil accountId) hruns) hexists hdraws

end Runs

def subscribedTopic : List Operation :=
  [.createTopic ⟨"eu", "news", "me"⟩ 0, .subscribe ⟨"eu", "arn:aws:sns:eu:0:news", "sqs", "q"⟩ "a"]

theorem subscribesConsistently_iff_new_subscribedTopic :
    ((∃ subscriptionArn, SubscribesConsistently .mongo "0"
        ⟨"eu", "arn:aws:sns:eu:0:news", "sqs", "r"⟩ "b" (run .mongo "0" subscribedTopic [])
        subscriptionArn) ↔
      ((run .mongo "0" subscribedTopic []).getTopicByArn "arn:aws:sns:eu:0:news").hasSubscription
        "sqs" "r" = false) :=
  subscribesConsistently_iff_new .mongo "0" subscribedTopic
    ⟨"eu", "arn:aws:sns:eu:0:news", "sqs", "r"⟩ "b"
    ⟨(fun _ harn => nomatch harn), fun _ _ => List.not_mem_nil, trivial⟩ (by decide)
    fun _ harn => Option.some.inj harn ▸ by decide

/-- Whoever subscribes again gets a name that no subscription has. -/
theorem not_subscribesConsistently_twice :
    ¬ ∀ backend accountId operations request uuid, DrawsNewArns backend accountId operations [] →
      (run backend accountId operations []).topicExists request.topicArn = true →
        DrawsNewArn accountId (run backend accountId operations []) (.subscribe request uuid) →
          ∃ subscriptionArn, SubscribesConsistently backend accountId request uuid
            (run backend accountId operations []) subscriptionArn := by
  intro hconsistent
  obtain ⟨subscriptionArn, hsubscribed⟩ := hconsistent .memory "0" subscribedTopic
    ⟨"eu", "arn:aws:sns:eu:0:news", "sqs", "q"⟩ "b"
    ⟨(fun _ harn => nomatch harn), fun _ _ => List.not_mem_nil, trivial⟩ (by decide)
    fun _ harn => Option.some.inj harn ▸ by decide
  obtain rfl := Except.ok.inj hsubscribed.returned
  have hstored := hsubscribed.stored
  revert hstored
  decide

/-! ## Both stores -/

section Agreement

variable (accountId : String)

def Accepts (store : Store) (operation : Operation) : Prop :=
  DrawsNewArn accountId store operation ∧
    match operation with
    | .createTopic request _ =>
      store.topicExistsByName request.region request.topicName = false →
        createSNSTopicArn request.region accountId request.topicName ∉ store.map Topic.topicArn
    | .deleteTopic region topicArn =>
      ∀ topic ∈ store, topic.topicArn = topicArn → topic.region = region
    | _ => True

def answer (backend : Backend) (store : Store) : Operation → Except Exn String
  | .createTopic request place => (createTopic backend accountId request place store).1
  | .deleteTopic region topicArn => (deleteTopic backend region topicArn store).1.map fun _ => ""
  | .subscribe request uuid => (subscribe backend accountId request uuid store).1
  | .updateSubscription request => (updateSubscription backend request store).1
  | .unsubscribe subscriptionArn => (unsubscribe backend subscriptionArn store).1
  | .addSubscriptionCounter request uuid =>
    (addSubscriptionCounter backend accountId request uuid store).1.map fun _ => ""
  | .deleteSubscriptionCounter topicArn subscriptionArn =>
    (deleteSubscriptionCounter backend topicArn subscriptionArn store).1.map fun _ => ""

/-- The stores hold the same topics, and an ARN finds at most one. -/
structure Agrees (memory mongo : Store) : Prop where
  perm : memory.Perm mongo
  topicArns : (memory.map Topic.topicArn).Nodup

def AgreesOn {α : Type} (first second : α × Store) : Prop :=
  first.1 = second.1 ∧ Agrees first.2 second.2

variable {accountId} {memory mongo : Store} {topicArn : String} {change : Topic → Topic}
  (hvalid : memory.IsValid accountId) (hagrees : Agrees memory mongo)

namespace Agrees

section

include hagrees

theorem topicExists (topicArn : String) :
    memory.topicExists topicArn = mongo.topicExists topicArn :=
  congrArg Option.isSome (findKey_congr_of_perm hagrees.topicArns hagrees.perm)

theorem getTopicByArn (topicArn : String) :
    memory.getTopicByArn topicArn = mongo.getTopicByArn topicArn :=
  congrArg (fun found => Option.getD found ({} : Topic))
    (findKey_congr_of_perm hagrees.topicArns hagrees.perm)

theorem map (hchange : KeepsNames change) : Agrees (memory.map change) (mongo.map change) := by
  refine ⟨hagrees.perm.map change, ?_⟩
  rw [List.map_map, show Topic.topicArn ∘ change = Topic.topicArn from funext hchange.topicArn]
  exact hagrees.topicArns

end

include hvalid hagrees

theorem isValid : mongo.IsValid accountId :=
  ⟨(hagrees.perm.map _).nodup_iff.mp hvalid.keys,
    fun topic htopic => hvalid.topicArns topic (hagrees.perm.mem_iff.mpr htopic),
    (hagrees.perm.flatMap_right _).nodup_iff.mp hvalid.unique⟩

theorem updateTopic (hexists : memory.topicExists topicArn = true) (hchange : KeepsNames change) :
    Agrees (memory.updateTopic .memory (change (memory.getTopicByArn topicArn)))
      (mongo.updateTopic .mongo (change (memory.getTopicByArn topicArn))) := by
  obtain ⟨topic, htopic, hget, _⟩ := findTopic_of_exists hexists
  rw [hget, updateTopic_eq_edit hvalid htopic hchange,
    updateTopic_eq_edit (hagrees.isValid hvalid) (hagrees.perm.mem_iff.mp htopic) hchange]
  exact hagrees.map (edit_keepsNames hchange)

theorem createTopic {request : CreateTopicRequest} {place : Nat}
    (haccepts : Accepts accountId memory (.createTopic request place)) :
    AgreesOn (createTopic .memory accountId request place memory)
      (createTopic .mongo accountId request place mongo) := by
  have hexists : memory.topicExistsByName request.region request.topicName =
      mongo.topicExistsByName request.region request.topicName := hagrees.perm.any_eq
  rw [Sns.createTopic, Sns.createTopic, ← hexists]
  split
  · refine ⟨congrArg (fun found => Except.ok (Option.getD found {} : Topic).topicArn) ?_, hagrees⟩
    have hfind := findKey_congr_of_perm (k := (request.region, request.topicName)) hvalid.keys
      hagrees.perm
    simpa only [findKey, Topic.key, Prod.mk.injEq] using hfind
  next hnew =>
    have hfirst := @createTopic_perm .memory memory place
    have hsecond := @createTopic_perm .mongo mongo place
    refine ⟨rfl, ((hfirst _).trans (hagrees.perm.cons _)).trans (hsecond _).symm, ?_⟩
    rw [((hfirst _).map _).nodup_iff, List.map_cons, List.nodup_cons]
    exact ⟨haccepts.2 (eq_false_of_ne_true hnew), hagrees.topicArns⟩

omit hvalid in
theorem deleteTopic {region : String}
    (haccepts : Accepts accountId memory (.deleteTopic region topicArn)) :
    AgreesOn (deleteTopic .memory region topicArn memory)
      (deleteTopic .mongo region topicArn mongo) := by
  rw [Sns.deleteTopic, Sns.deleteTopic, ← hagrees.topicExists]
  split
  · have hsame : memory.deleteTopic .memory region topicArn =
        memory.filter fun topic => topic.topicArn ≠ topicArn := by
      apply List.filter_congr
      intro topic htopic
      rw [decide_eq_decide, not_iff_not]
      exact ⟨And.right, fun harn => ⟨haccepts.2 topic htopic harn, harn⟩⟩
    refine ⟨rfl, ?_⟩
    dsimp only
    rw [hsame]
    exact ⟨hagrees.perm.filter _, (List.filter_sublist.map _).nodup hagrees.topicArns⟩
  · exact ⟨rfl, hagrees⟩

theorem step {operation : Operation} (haccepts : Accepts accountId memory operation) :
    answer accountId .memory memory operation = answer accountId .mongo mongo operation ∧
      Agrees (step .memory accountId memory operation)
        (step .mongo accountId mongo operation) := by
  cases operation with
  | createTopic request place => exact hagrees.createTopic hvalid haccepts
  | deleteTopic region topicArn =>
    obtain ⟨hanswer, hafter⟩ := hagrees.deleteTopic haccepts
    exact ⟨congrArg (Except.map fun _ => "") hanswer, hafter⟩
  | subscribe request uuid =>
    change AgreesOn (subscribe ..) (subscribe ..)
    rw [subscribe, subscribe, ← hagrees.topicExists, ← hagrees.getTopicByArn]
    split
    · exact ⟨rfl, hagrees⟩
    · split
      next hexists =>
        dsimp only
        split
        · exact ⟨rfl, hagrees⟩
        · exact ⟨rfl, hagrees.updateTopic hvalid hexists (keepsNames_add _)⟩
      · exact ⟨rfl, hagrees⟩
  | updateSubscription request =>
    change AgreesOn (updateSubscription ..) (updateSubscription ..)
    rw [updateSubscription, updateSubscription, ← hagrees.topicExists, ← hagrees.getTopicByArn]
    split
    · exact ⟨rfl, hagrees⟩
    · split
      next hexists =>
        dsimp only
        split
        · exact ⟨rfl, hagrees.updateTopic hvalid hexists (keepsNames_set _ _ _)⟩
        · exact ⟨rfl, hagrees⟩
      · exact ⟨rfl, hagrees⟩
  | unsubscribe subscriptionArn =>
    change AgreesOn (unsubscribe ..) (unsubscribe ..)
    by_cases hnamed : subscriptionArn = ""
    · rw [unsubscribe, unsubscribe, if_pos hnamed, if_pos hnamed]
      exact ⟨rfl, hagrees⟩
    · rw [unsubscribe_eq hvalid hnamed, unsubscribe_eq (hagrees.isValid hvalid) hnamed]
      exact ⟨rfl, hagrees.map (keepsNames_erase subscriptionArn)⟩
  | addSubscriptionCounter request uuid =>
    change Except.map _ _ = Except.map _ _ ∧ Agrees (addSubscriptionCounter ..).2 _
    rw [Sns.step, addSubscriptionCounter, addSubscriptionCounter, ← hagrees.topicExists,
      ← hagrees.getTopicByArn]
    split
    next hexists => exact ⟨rfl, hagrees.updateTopic hvalid hexists (keepsNames_add _)⟩
    · exact ⟨rfl, hagrees⟩
  | deleteSubscriptionCounter topicArn subscriptionArn =>
    change Except.map _ _ = Except.map _ _ ∧ Agrees (deleteSubscriptionCounter ..).2 _
    rw [Sns.step, deleteSubscriptionCounter, deleteSubscriptionCounter, ← hagrees.topicExists,
      ← hagrees.getTopicByArn]
    split
    next hexists => exact ⟨rfl, hagrees.updateTopic hvalid hexists (keepsNames_erase _)⟩
    · exact ⟨rfl, hagrees⟩

theorem run {operations : List Operation}
    (haccepts : Runs.Heeded (Sns.step .memory accountId) (Accepts accountId) operations memory) :
    Store.IsValid (run .memory accountId operations memory) accountId ∧
      Agrees (run .memory accountId operations memory) (run .mongo accountId operations mongo) := by
  induction operations generalizing memory mongo with
  | nil => exact ⟨hvalid, hagrees⟩
  | cons operation operations ih =>
    exact ih (isValid_step hvalid haccepts.1.1) (hagrees.step hvalid haccepts.1).2 haccepts.2

end Agrees

end Agreement
end AwsMock.Sns
