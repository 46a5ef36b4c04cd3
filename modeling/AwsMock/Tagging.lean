import AwsMock.Kms.Creation
import AwsMock.Lambdas.Repositories
import AwsMock.Sns.Messages

/-! # The tags of resources

Topics, keys and functions have tags, and each of the three services gives a resource new ones
in its own way. The law is one for all: new values override old ones, and other keys stay.
-/

namespace AwsMock.Tagging

open Foundation

abbrev Tags := List (String × String)

def lookup (key : String) (tags : Tags) : Option String := (findKey Prod.fst key tags).map Prod.snd

/-- Keys of the request get its values, and the others keep theirs. -/
def Overrides (before request after : Tags) : Prop :=
  ∀ key, lookup key after = (lookup key request).or (lookup key before)

def Removes (keys : List String) (before after : Tags) : Prop :=
  ∀ key, lookup key after = if key ∈ keys then none else lookup key before

def emplace (tag : String × String) (tags : Tags) : Tags :=
  if (findKey Prod.fst tag.1 tags).isSome then tags else tags ++ [tag]

def eraseAll (keys : List String) (tags : Tags) : Tags :=
  keys.foldl (fun tags key => removeKey Prod.fst key tags) tags

/-! ## Topics -/

section Topics

open Sns.Messages

namespace MemoryTopics

def findTopic (topicArn : String) (repository : MemoryRepository) : Option Topic :=
  (repository.topics.find? fun entry => entry.2.topicArn = topicArn).map Prod.snd

/-- An exception for a missing topic leaves the store as it is. -/
def setTags (topicArn : String) (change : Tags → Tags) (repository : MemoryRepository) :
    MemoryRepository :=
  match findTopic topicArn repository with
  | none => repository
  | some topic => repository.updateTopic { topic with tags := change topic.tags }

end MemoryTopics

namespace MongoTopics

def findTopic (topicArn : String) (repository : MongoRepository) : Option Topic :=
  repository.topics.find? fun topic => topic.topicArn = topicArn

def setTags (topicArn : String) (change : Tags → Tags) (repository : MongoRepository) :
    MongoRepository :=
  match findTopic topicArn repository with
  | none => repository
  | some topic => repository.updateTopic { topic with tags := change topic.tags }

end MongoTopics

end Topics

/-! ## Functions -/

section Functions

open Lambdas.Repositories

namespace MemoryLambdas

def findLambda (arn : String) (repository : MemoryRepository) : Option Lambda :=
  (repository.lambdas.find? fun entry => entry.2.arn = arn).map Prod.snd

def setTags (arn : String) (change : Tags → Tags) (repository : MemoryRepository) :
    MemoryRepository :=
  match findLambda arn repository with
  | none => repository
  | some lambda => repository.updateLambda { lambda with tags := change lambda.tags }

end MemoryLambdas

namespace MongoLambdas

def findLambda (arn : String) (repository : MongoRepository) : Option Lambda :=
  repository.lambdas.find? fun lambda => lambda.arn = arn

def setTags (arn : String) (change : Tags → Tags) (repository : MongoRepository) :
    MongoRepository :=
  match findLambda arn repository with
  | none => repository
  | some lambda => repository.updateLambda { lambda with tags := change lambda.tags }

end MongoLambdas

end Functions

/-! ## The services -/

inductive Backend where
  | memory | mongo
deriving DecidableEq, Repr

def Backend.keys : Backend → Kms.Backend
  | memory => .memory
  | mongo => .mongo

inductive Service where
  | sns | kms | lambda
deriving DecidableEq, Repr

structure World where
  memoryTopics : Sns.Messages.MemoryRepository := {}
  mongoTopics : Sns.Messages.MongoRepository := {}
  keys : Kms.Store := []
  memoryLambdas : Lambdas.Repositories.MemoryRepository := {}
  mongoLambdas : Lambdas.Repositories.MongoRepository := {}

namespace World

variable (service : Service) (backend : Backend) (id : String) (world : World)

/-- The tags of a resource, called by its ARN or its identifier. -/
def tags : Option Tags :=
  match service, backend with
  | .sns, .memory => (MemoryTopics.findTopic id world.memoryTopics).map (·.tags)
  | .sns, .mongo => (MongoTopics.findTopic id world.mongoTopics).map (·.tags)
  | .kms, _ => (findKey Kms.Entry.keyId id world.keys).map (·.key.tags)
  | .lambda, .memory => (MemoryLambdas.findLambda id world.memoryLambdas).map (·.tags)
  | .lambda, .mongo => (MongoLambdas.findLambda id world.mongoLambdas).map (·.tags)

/-- `TagResource` of topics and keys, and `CreateTag` of functions. -/
def tagResource (request : Tags) (now : Int) : World :=
  match service, backend with
  | .sns, .memory =>
    { world with
      memoryTopics := MemoryTopics.setTags id (fun _ => request) world.memoryTopics }
  | .sns, .mongo =>
    { world with mongoTopics := MongoTopics.setTags id (fun _ => request) world.mongoTopics }
  | .kms, backend =>
    { world with keys := Kms.step backend.keys world.keys (.tagResource id request now) }
  | .lambda, .memory =>
    { world with
      memoryLambdas := MemoryLambdas.setTags id
        (fun tags => request.foldl (fun tags tag => emplace tag tags) tags)
        world.memoryLambdas }
  | .lambda, .mongo =>
    { world with
      mongoLambdas := MongoLambdas.setTags id
        (fun tags => request.foldl (fun tags tag => emplace tag tags) tags)
        world.mongoLambdas }

/-- `UntagResource` of topics and keys, and `DeleteTags` of functions. -/
def untagResource (keys : List String) (now : Int) : World :=
  match service, backend with
  | .sns, .memory =>
    { world with memoryTopics := MemoryTopics.setTags id (eraseAll keys) world.memoryTopics }
  | .sns, .mongo =>
    { world with mongoTopics := MongoTopics.setTags id (eraseAll keys) world.mongoTopics }
  | .kms, backend =>
    { world with keys := Kms.step backend.keys world.keys (.untagResource id keys now) }
  | .lambda, .memory =>
    { world with
      memoryLambdas := MemoryLambdas.setTags id (eraseAll keys) world.memoryLambdas }
  | .lambda, .mongo =>
    { world with mongoLambdas := MongoLambdas.setTags id (eraseAll keys) world.mongoLambdas }

structure IsConsistent : Prop where
  memoryTopics : ∀ first ∈ world.memoryTopics.topics, ∀ second ∈ world.memoryTopics.topics,
    first.2.region = second.2.region → first.2.topicName = second.2.topicName →
      first.2.topicArn = second.2.topicArn
  memoryLambdas : ∀ first ∈ world.memoryLambdas.lambdas,
    ∀ second ∈ world.memoryLambdas.lambdas,
      first.2.name = second.2.name → first.2.arn = second.2.arn
  mongoLambdas : ∀ first ∈ world.mongoLambdas.lambdas, ∀ second ∈ world.mongoLambdas.lambdas,
    first.Is second.name second.runtime → first.arn = second.arn

end World

/-- The tags are overridden by those of the request, and keys that are removed afterwards are
taken out of the result. -/
def IsLawful (service : Service) (backend : Backend) (id : String) (world : World)
    (before request : Tags) : Prop :=
  ∀ now, ∃ after,
    (world.tagResource service backend id request now).tags service backend id = some after ∧
      Overrides before request after ∧ ∀ keys now', ∃ rest,
        ((world.tagResource service backend id request now).untagResource service backend id keys
          now').tags service backend id = some rest ∧ Removes keys after rest

/-- The keys of a topic's tags are all in the request, or the values of a function's tags are
those of the request where the keys are. -/
def Service.HoldsWhen (before request : Tags) : Service → Prop
  | sns => ∀ key, (lookup key before).isSome → (lookup key request).isSome
  | kms => True
  | lambda => ∀ key old new, lookup key before = some old → lookup key request = some new →
      old = new

/-! ## Maps -/

section Maps

variable {before request : Tags} {key : String}

theorem lookup_of_findKey {tags tags' : Tags}
    (hfind : findKey Prod.fst key tags = findKey Prod.fst key tags') :
    lookup key tags = lookup key tags' := by
  rw [lookup, lookup, hfind]

theorem lookup_eq_none_iff {tags : Tags} : lookup key tags = none ↔ key ∉ tags.map Prod.fst := by
  rw [lookup, Option.map_eq_none_iff, findKey_eq_none, List.mem_map]
  constructor
  · rintro hnone ⟨tag, htag, hkey⟩
    exact hnone tag htag hkey
  · exact fun hnone tag htag hkey => hnone ⟨tag, htag, hkey⟩

theorem lookup_foldl_upsert (hdistinct : (request.map Prod.fst).Nodup) :
    lookup key (request.foldl (fun tags tag => upsert Prod.fst tag tags) before) =
      (lookup key request).or (lookup key before) := by
  cases hlookup : lookup key request with
  | none =>
    exact lookup_of_findKey
      (Kms.findKey_foldl_upsert_of_notMem request before (lookup_eq_none_iff.mp hlookup))
  | some value =>
    obtain ⟨tag, hfind, rfl⟩ := Option.map_eq_some_iff.mp hlookup
    have htag := mem_of_findKey hfind
    obtain rfl := key_of_findKey hfind
    rw [lookup, Kms.findKey_foldl_upsert request before hdistinct htag]
    rfl

theorem lookup_emplace (tag : String × String) (tags : Tags) :
    lookup key (emplace tag tags) =
      (lookup key tags).or (if tag.1 = key then some tag.2 else none) := by
  rw [emplace]
  cases hfind : findKey Prod.fst tag.1 tags with
  | some found =>
    rw [Option.isSome_some, if_pos rfl]
    split
    · next hkey =>
      rw [lookup, ← hkey, hfind]
      rfl
    · exact (Option.or_none).symm
  | none =>
    rw [Option.isSome_none, if_neg Bool.false_ne_true, lookup, lookup, findKey, List.find?_append]
    change ((findKey Prod.fst key tags).or (findKey Prod.fst key [tag])).map Prod.snd = _
    rw [findKey_cons]
    cases hold : findKey Prod.fst key tags with
    | some old => rfl
    | none => split <;> rfl

theorem lookup_foldl_emplace :
    lookup key (request.foldl (fun tags tag => emplace tag tags) before) =
      (lookup key before).or (lookup key request) := by
  induction request generalizing before with
  | nil => exact (Option.or_none).symm
  | cons tag request ih =>
    rw [List.foldl_cons, ih, lookup_emplace, Option.or_assoc]
    congr 1
    rw [lookup, lookup, findKey_cons]
    split <;> rfl

theorem lookup_eraseAll (keys : List String) (tags : Tags) :
    lookup key (eraseAll keys tags) = if key ∈ keys then none else lookup key tags := by
  induction keys generalizing tags with
  | nil => rfl
  | cons removed keys ih =>
    change lookup key (eraseAll keys (removeKey Prod.fst removed tags)) = _
    have hremoved : lookup key (removeKey Prod.fst removed tags) =
        if key = removed then none else lookup key tags := by
      rw [lookup, findKey_removeKey]
      split
      · rfl
      · rfl
    rw [ih, hremoved]
    by_cases hkey : key = removed
    · rw [if_pos hkey, ite_self, if_pos (hkey ▸ List.mem_cons_self)]
    · rw [if_neg hkey]
      by_cases hmem : key ∈ keys
      · rw [if_pos hmem, if_pos (List.mem_cons_of_mem _ hmem)]
      · rw [if_neg hmem, if_neg fun hcons => (List.mem_cons.mp hcons).elim hkey hmem]

end Maps

/-! ## Stores -/

section Stores

variable {id : String} {change : Tags → Tags}

namespace MemoryTopics

open Sns.Messages

variable {repository : MemoryRepository} {topic : Topic}

abbrev IsConsistent (repository : MemoryRepository) : Prop :=
  ∀ first ∈ repository.topics, ∀ second ∈ repository.topics,
    first.2.region = second.2.region → first.2.topicName = second.2.topicName →
      first.2.topicArn = second.2.topicArn

theorem findTopic_setTags (hconsistent : IsConsistent repository)
    (hfind : findTopic id repository = some topic) :
    findTopic id (setTags id change repository) = some { topic with tags := change topic.tags } ∧
      IsConsistent (setTags id change repository) := by
  obtain ⟨entry, hentry, rfl⟩ := Option.map_eq_some_iff.mp hfind
  have hmem := List.mem_of_find?_eq_some hentry
  have harn : entry.2.topicArn = id := of_decide_eq_true (List.find?_some hentry :)
  rw [setTags, hfind]
  dsimp only
  let isNamed (other : Entry Topic) : Bool :=
    other.2.region = entry.2.region && other.2.topicName = entry.2.topicName
  have hself : isNamed entry = true := by
    change (decide _ && decide _) = true
    rw [decide_eq_true rfl, decide_eq_true rfl]
    rfl
  have hnamed : ∀ other ∈ repository.topics, isNamed other = true →
      other.2.topicArn = entry.2.topicArn := by
    intro other hother hselect
    obtain ⟨hregion, hname⟩ := Bool.and_eq_true _ _ ▸ hselect
    exact hconsistent other hother entry hmem (of_decide_eq_true hregion) (of_decide_eq_true hname)
  have hupdate : repository.updateTopic { entry.2 with tags := change entry.2.tags } =
      { repository with
        topics := rewriteFirst isNamed
          (fun other => (other.1, { entry.2 with tags := change entry.2.tags }))
          repository.topics } :=
    if_pos (List.any_eq_true.mpr ⟨entry, hmem, hself⟩)
  rw [hupdate]
  constructor
  · rw [findTopic, find?_rewriteFirst_of_narrow hentry hself]
    · rfl
    · exact fun other hother hselect =>
        decide_eq_true ((hnamed other hother hselect).trans harn)
    · exact decide_eq_true harn
  · have hold : ∀ other ∈ rewriteFirst isNamed
        (fun other => (other.1, { entry.2 with tags := change entry.2.tags }))
          repository.topics, ∃ old ∈ repository.topics, other.2.region = old.2.region ∧
            other.2.topicName = old.2.topicName ∧ other.2.topicArn = old.2.topicArn := by
      intro other hother
      rcases of_mem_rewriteFirst hother with hold | ⟨_, _, _, rfl⟩
      · exact ⟨other, hold, rfl, rfl, rfl⟩
      · exact ⟨entry, hmem, rfl, rfl, rfl⟩
    intro first hfirst second hsecond hregion hname
    obtain ⟨old, hmem, hregion', hname', harn'⟩ := hold first hfirst
    obtain ⟨old', hmem', hregion'', hname'', harn''⟩ := hold second hsecond
    rw [harn', harn'']
    exact hconsistent old hmem old' hmem' (hregion' ▸ hregion'' ▸ hregion)
      (hname' ▸ hname'' ▸ hname)

end MemoryTopics

namespace MongoTopics

open Sns.Messages

variable {repository : MongoRepository} {topic : Topic}

theorem findTopic_setTags (hfind : findTopic id repository = some topic) :
    (findTopic id (setTags id change repository)).map (·.tags) = some (change topic.tags) := by
  have harn : topic.topicArn = id := of_decide_eq_true (List.find?_some hfind :)
  rw [setTags, hfind]
  dsimp only
  rw [findTopic, MongoRepository.updateTopic, find?_rewriteFirst_of_narrow hfind]
  · rfl
  · dsimp only
    rw [decide_eq_true rfl, decide_eq_true rfl]
    rfl
  · intro other _ hselect
    exact decide_eq_true ((of_decide_eq_true (Bool.and_eq_true _ _ ▸ hselect).2).trans harn)
  · exact decide_eq_true harn

end MongoTopics

namespace MemoryLambdas

open Lambdas.Repositories

variable {repository : MemoryRepository} {lambda : Lambda}

abbrev IsConsistent (repository : MemoryRepository) : Prop :=
  ∀ first ∈ repository.lambdas, ∀ second ∈ repository.lambdas,
    first.2.name = second.2.name → first.2.arn = second.2.arn

theorem findLambda_setTags (hconsistent : IsConsistent repository)
    (hfind : findLambda id repository = some lambda) :
    findLambda id (setTags id change repository) = some { lambda with tags := change lambda.tags } ∧
      IsConsistent (setTags id change repository) := by
  obtain ⟨entry, hentry, rfl⟩ := Option.map_eq_some_iff.mp hfind
  have hmem := List.mem_of_find?_eq_some hentry
  have harn : entry.2.arn = id := of_decide_eq_true (List.find?_some hentry :)
  rw [setTags, hfind]
  dsimp only
  constructor
  · rw [findLambda, MemoryRepository.updateLambda, find?_rewriteFirst_of_narrow hentry]
    · rfl
    · exact decide_eq_true rfl
    · exact fun other hother hselect => decide_eq_true
        ((hconsistent other hother entry hmem (of_decide_eq_true hselect)).trans harn)
    · exact decide_eq_true harn
  · have hold : ∀ other ∈ (repository.updateLambda
        { entry.2 with tags := change entry.2.tags }).lambdas, ∃ old ∈ repository.lambdas,
          other.2.name = old.2.name ∧ other.2.arn = old.2.arn := by
      intro other hother
      rcases of_mem_rewriteFirst hother with hold | ⟨_, _, _, rfl⟩
      · exact ⟨other, hold, rfl, rfl⟩
      · exact ⟨entry, hmem, rfl, rfl⟩
    intro first hfirst second hsecond hname
    obtain ⟨old, hmem, hname', harn'⟩ := hold first hfirst
    obtain ⟨old', hmem', hname'', harn''⟩ := hold second hsecond
    rw [harn', harn'']
    exact hconsistent old hmem old' hmem' (hname' ▸ hname'' ▸ hname)

end MemoryLambdas

namespace MongoLambdas

open Lambdas.Repositories

variable {repository : MongoRepository} {lambda : Lambda}

abbrev IsConsistent (repository : MongoRepository) : Prop :=
  ∀ first ∈ repository.lambdas, ∀ second ∈ repository.lambdas,
    first.Is second.name second.runtime → first.arn = second.arn

theorem findLambda_setTags (hconsistent : IsConsistent repository)
    (hfind : findLambda id repository = some lambda) :
    (findLambda id (setTags id change repository)).map (·.tags) = some (change lambda.tags) ∧
      IsConsistent (setTags id change repository) := by
  have hmem := List.mem_of_find?_eq_some hfind
  have harn : lambda.arn = id := of_decide_eq_true (List.find?_some hfind :)
  rw [setTags, hfind]
  dsimp only
  constructor
  · rw [findLambda, MongoRepository.updateLambda, MongoRepository.change,
      find?_rewriteFirst_of_narrow hfind]
    · rfl
    · exact decide_eq_true ⟨rfl, rfl⟩
    · exact fun other hother hselect => decide_eq_true
        ((hconsistent other hother lambda hmem (of_decide_eq_true hselect)).trans harn)
    · exact decide_eq_true harn
  · have hold : ∀ other ∈ (repository.updateLambda
        { lambda with tags := change lambda.tags }).lambdas, ∃ old ∈ repository.lambdas,
          other.name = old.name ∧ other.runtime = old.runtime ∧ other.arn = old.arn := by
      intro other hother
      rcases of_mem_rewriteFirst hother with hold | ⟨_, _, _, rfl⟩
      · exact ⟨other, hold, rfl, rfl, rfl⟩
      · exact ⟨lambda, hmem, rfl, rfl, rfl⟩
    rintro first hfirst second hsecond ⟨hname, hruntime⟩
    obtain ⟨old, hmem, hname', hruntime', harn'⟩ := hold first hfirst
    obtain ⟨old', hmem', hname'', hruntime'', harn''⟩ := hold second hsecond
    rw [harn', harn'']
    exact hconsistent old hmem old' hmem'
      ⟨hname' ▸ hname'' ▸ hname, hruntime' ▸ hruntime'' ▸ hruntime⟩

end MongoLambdas

section Keys

open Kms

variable {store : Store} {entry : Entry}

theorem findKey_updateKey (hfind : findKey Entry.keyId id store = some entry) (edit : Edit) :
    findKey Entry.keyId id (store.updateKey (edit.apply entry.key)) =
      some { entry with key := edit.apply entry.key } := by
  have hid : entry.keyId = id := key_of_findKey hfind
  have hwritten : (edit.apply entry.key).keyId = id := (edit.keyId_apply entry.key).trans hid
  rw [Store.updateKey, hwritten]
  exact find?_rewriteFirst hfind (decide_eq_true hwritten)

theorem step_tagResource (backend : Kms.Backend)
    (hfind : findKey Entry.keyId id store = some entry) (request : Tags) (now : Int) :
    Kms.step backend store (.tagResource id request now) =
      store.updateKey ((Edit.tag request now).apply entry.key) := by
  change ((Kms.tagResource id request now).run (execute backend.repository) store).2 = _
  rw [Kms.tagResource, Thread.run_getKeyByKeyId, backend.isLawful.getKeyByKeyId_of_some hfind]
  rfl

theorem step_untagResource (backend : Kms.Backend)
    (hfind : findKey Entry.keyId id store = some entry) (keys : List String) (now : Int) :
    Kms.step backend store (.untagResource id keys now) =
      store.updateKey ((Edit.untag keys now).apply entry.key) := by
  change ((Kms.untagResource id keys now).run (execute backend.repository) store).2 = _
  rw [Kms.untagResource, Thread.run_getKeyByKeyId, backend.isLawful.getKeyByKeyId_of_some hfind]
  rfl

end Keys

end Stores

/-! ## The law -/

section Law

variable {service : Service} {backend : Backend} {id : String} {world : World}
variable {before request : Tags}

/-- What the tags of a resource are after it has been tagged. -/
def Service.tagged (before request : Tags) : Service → Tags
  | sns => request
  | kms => request.foldl (fun tags tag => upsert Prod.fst tag tags) before
  | lambda => request.foldl (fun tags tag => emplace tag tags) before

theorem tags_tagResource (hconsistent : world.IsConsistent)
    (hresource : world.tags service backend id = some before) (now : Int) :
    (world.tagResource service backend id request now).tags service backend id =
        some (service.tagged before request) ∧
      (world.tagResource service backend id request now).IsConsistent := by
  cases service with
  | sns =>
    cases backend with
    | memory =>
      obtain ⟨topic, hfind, rfl⟩ := Option.map_eq_some_iff.mp hresource
      obtain ⟨htags, hkept⟩ := @MemoryTopics.findTopic_setTags id (fun _ => request) _ _
        hconsistent.memoryTopics hfind
      exact ⟨congrArg (Option.map Sns.Messages.Topic.tags) htags,
        { hconsistent with memoryTopics := hkept }⟩
    | mongo =>
      obtain ⟨topic, hfind, rfl⟩ := Option.map_eq_some_iff.mp hresource
      exact ⟨MongoTopics.findTopic_setTags hfind, { hconsistent with }⟩
  | kms =>
    obtain ⟨entry, hfind, rfl⟩ := Option.map_eq_some_iff.mp hresource
    refine ⟨?_, { hconsistent with }⟩
    change (findKey Kms.Entry.keyId id (Kms.step _ _ _)).map _ = _
    rw [step_tagResource backend.keys hfind, findKey_updateKey hfind]
    rfl
  | lambda =>
    cases backend with
    | memory =>
      obtain ⟨lambda, hfind, rfl⟩ := Option.map_eq_some_iff.mp hresource
      obtain ⟨htags, hkept⟩ := @MemoryLambdas.findLambda_setTags id
        (fun tags => request.foldl (fun tags tag => emplace tag tags) tags) _ _
        hconsistent.memoryLambdas hfind
      exact ⟨congrArg (Option.map Lambdas.Repositories.Lambda.tags) htags,
        { hconsistent with memoryLambdas := hkept }⟩
    | mongo =>
      obtain ⟨lambda, hfind, rfl⟩ := Option.map_eq_some_iff.mp hresource
      obtain ⟨htags, hkept⟩ := @MongoLambdas.findLambda_setTags id
        (fun tags => request.foldl (fun tags tag => emplace tag tags) tags) _ _
        hconsistent.mongoLambdas hfind
      exact ⟨htags, { hconsistent with mongoLambdas := hkept }⟩

theorem tags_untagResource (hconsistent : world.IsConsistent)
    (hresource : world.tags service backend id = some before) (keys : List String) (now : Int) :
    (world.untagResource service backend id keys now).tags service backend id =
      some (eraseAll keys before) := by
  cases service with
  | sns =>
    cases backend with
    | memory =>
      obtain ⟨topic, hfind, rfl⟩ := Option.map_eq_some_iff.mp hresource
      exact congrArg (Option.map Sns.Messages.Topic.tags)
        (MemoryTopics.findTopic_setTags hconsistent.memoryTopics hfind).1
    | mongo =>
      obtain ⟨topic, hfind, rfl⟩ := Option.map_eq_some_iff.mp hresource
      exact MongoTopics.findTopic_setTags hfind
  | kms =>
    obtain ⟨entry, hfind, rfl⟩ := Option.map_eq_some_iff.mp hresource
    change (findKey Kms.Entry.keyId id (Kms.step _ _ _)).map _ = _
    rw [step_untagResource backend.keys hfind, findKey_updateKey hfind]
    rfl
  | lambda =>
    cases backend with
    | memory =>
      obtain ⟨lambda, hfind, rfl⟩ := Option.map_eq_some_iff.mp hresource
      exact congrArg (Option.map Lambdas.Repositories.Lambda.tags)
        (MemoryLambdas.findLambda_setTags hconsistent.memoryLambdas hfind).1
    | mongo =>
      obtain ⟨lambda, hfind, rfl⟩ := Option.map_eq_some_iff.mp hresource
      exact (MongoLambdas.findLambda_setTags hconsistent.mongoLambdas hfind).1

theorem overrides_tagged (hdistinct : (request.map Prod.fst).Nodup) :
    Overrides before request (service.tagged before request) ↔
      service.HoldsWhen before request := by
  cases service with
  | sns =>
    refine forall_congr' fun key => ?_
    change lookup key request = _ ↔ _
    cases hnew : lookup key request with
    | some value => simp
    | none => cases lookup key before <;> simp
  | kms => exact iff_of_true (fun key => lookup_foldl_upsert hdistinct) trivial
  | lambda =>
    refine forall_congr' fun key => ?_
    change lookup key (request.foldl (fun tags tag => emplace tag tags) before) = _ ↔ _
    rw [lookup_foldl_emplace]
    cases lookup key before with
    | none => simp
    | some old => cases lookup key request <;> simp

/-- Tagging keeps to the law when a topic's tags are all renewed, or a function's tags keep
their values; it always does so for keys. -/
theorem isLawful_iff (service : Service) (backend : Backend) (id : String) (world : World)
    (before request : Tags) (hconsistent : world.IsConsistent)
    (hresource : world.tags service backend id = some before)
    (hdistinct : (request.map Prod.fst).Nodup) :
    IsLawful service backend id world before request ↔ service.HoldsWhen before request := by
  rw [← overrides_tagged hdistinct]
  constructor
  · intro hlawful
    obtain ⟨after, htags, hoverrides, -⟩ := hlawful 0
    rw [(tags_tagResource hconsistent hresource 0).1] at htags
    exact Option.some.inj htags ▸ hoverrides
  · intro hoverrides now
    obtain ⟨htags, hkept⟩ := @tags_tagResource _ _ _ _ _ request hconsistent hresource now
    refine ⟨_, htags, hoverrides, fun keys now' => ⟨_, tags_untagResource hkept htags keys now', ?_⟩⟩
    exact fun key => lookup_eraseAll keys _

def taggedWorld : World :=
  { memoryTopics := { topics := [("a", { oid := "a", topicArn := "t", tags := [("k", "old")] })] }
    memoryLambdas := { lambdas := [("b", { arn := "f", tags := [("k", "old")] })] } }

theorem isConsistent_taggedWorld : taggedWorld.IsConsistent :=
  ⟨by decide, by decide, by decide⟩

theorem isLawful_iff_topic :
    IsLawful .sns .memory "t" taggedWorld [("k", "old")] [("k", "new")] ↔
      Service.sns.HoldsWhen [("k", "old")] [("k", "new")] :=
  isLawful_iff .sns .memory "t" taggedWorld [("k", "old")] [("k", "new")]
    isConsistent_taggedWorld (by decide) (by decide)

/-- A new tag of a topic removes the old ones, and a new value of a function's tag is ignored. -/
theorem not_isLawful_sns_lambda :
    ¬ IsLawful .sns .memory "t" taggedWorld [("k", "old")] [("other", "new")] ∧
      ¬ IsLawful .lambda .memory "f" taggedWorld [("k", "old")] [("k", "new")] := by
  constructor
  · intro hlawful
    obtain ⟨after, htags, hoverrides, -⟩ := hlawful 0
    obtain rfl := Option.some.inj ((show _ = some [("other", "new")] by decide).symm.trans htags)
    exact absurd (hoverrides "k") (by decide)
  · intro hlawful
    obtain ⟨after, htags, hoverrides, -⟩ := hlawful 0
    obtain rfl := Option.some.inj ((show _ = some [("k", "old")] by decide).symm.trans htags)
    exact absurd (hoverrides "k") (by decide)

end Law

end AwsMock.Tagging
