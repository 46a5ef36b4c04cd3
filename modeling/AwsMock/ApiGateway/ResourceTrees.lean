import AwsMock.ApiGateway.Resources

/-! # The trees of resources

The resources of a REST API are a tree as long as a resource is put below one that is there, only
leaves are deleted, and a part of a path that is taken anywhere is taken below the same parent.
-/

namespace AwsMock.ApiGateway.Resources

open Foundation

section Definitions

structure Node where
  id : String
  parentId : String
  path : String
  pathPart : String

def Resource.node (resource : Resource) : Node :=
  { id := resource.id
    parentId := resource.parentId
    path := resource.path
    pathPart := resource.pathPart }

def RestApi.nodes (restApi : RestApi) : List Node := restApi.resources.map Resource.node

structure IsTree (root : String) (nodes : List Node) : Prop where
  ids : (nodes.map Node.id).Nodup
  hasRoot : ∃ node ∈ nodes, node.id = root
  parents : ∀ node ∈ nodes, node.id ≠ root →
    ∃ parent ∈ nodes, parent.id = node.parentId ∧ node.path = joinPath parent.path node.pathPart
  paths : (nodes.map Node.path).Nodup

def RestApi.regionAndName (restApi : RestApi) : String × String := (restApi.region, restApi.name)

structure IsForest (store : Store) : Prop where
  trees : ∀ restApi ∈ store.restApis, IsTree restApi.rootResourceId restApi.nodes
  names : (store.restApis.map RestApi.regionAndName).Nodup

def RestApi.hasChild (restApi : RestApi) (parentId pathPart : String) : Bool :=
  restApi.resources.any fun resource =>
    resource.parentId = parentId && resource.pathPart = pathPart

def Fits (store : Store) (request : CreateResourceRequest) : Prop :=
  ∃ restApi, store.findRestApi request.restApiId = some restApi ∧
    restApi.contains request.parentId = true ∧
    restApi.hasChild request.parentId request.pathPart = false

def CreatesExactly (store : Store) : Operation → Prop
  | .createResource request resourceId =>
    (createResource store request resourceId).isOk = true ↔ Fits store request
  | _ => True

/-- A part that is taken is taken below the parent, if there is such a parent. Otherwise the
parent is there, and neither the path nor the identifier is taken. -/
def RestApi.Takes (restApi : RestApi) (request : CreateResourceRequest) (resourceId : String) :
    Prop :=
  if restApi.resourceExists request.pathPart then
    restApi.contains request.parentId = true →
      restApi.hasChild request.parentId request.pathPart = true
  else
    request.parentId ≠ "" ∧ restApi.contains resourceId = false ∧
      ∃ parent ∈ findKey Resource.id request.parentId restApi.resources,
        ∀ resource ∈ restApi.resources, resource.path ≠ joinPath parent.path request.pathPart

def RestApi.IsLeaf (restApi : RestApi) (resourceId : String) : Prop :=
  resourceId ≠ restApi.rootResourceId ∧ ∀ resource ∈ restApi.resources,
    resource.id ≠ restApi.rootResourceId → resource.parentId ≠ resourceId

/-- Names are new, resources are put where there is room for them, and leaves are deleted. -/
def Heeds (store : Store) : Operation → Prop
  | .createRestApi request _ _ _ =>
    store.apiKeyExists request.region request.name = true ∨
      ∀ restApi ∈ store.restApis, restApi.regionAndName ≠ (request.region, request.name)
  | .createResource request resourceId =>
    ∀ restApi ∈ store.findRestApi request.restApiId, restApi.Takes request resourceId
  | .deleteResource _ restApiId resourceId =>
    ∀ restApi ∈ store.findRestApi restApiId, restApi.IsLeaf resourceId
  | .putMethod _ _ _ _ | .putIntegration _ _ _ _ _ _ => True

instance (restApi : RestApi) (request : CreateResourceRequest) (resourceId : String) :
    Decidable (restApi.Takes request resourceId) :=
  inferInstanceAs (Decidable (ite _ _ _))

instance (restApi : RestApi) (resourceId : String) : Decidable (restApi.IsLeaf resourceId) :=
  inferInstanceAs (Decidable (_ ∧ _))

instance decidableHeeds (store : Store) : ∀ operation, Decidable (Heeds store operation)
  | .createRestApi _ _ _ _ => inferInstanceAs (Decidable (_ ∨ _))
  | .createResource _ _ => inferInstanceAs (Decidable (∀ _ ∈ _, _))
  | .deleteResource _ _ _ => inferInstanceAs (Decidable (∀ _ ∈ _, _))
  | .putMethod _ _ _ _ | .putIntegration _ _ _ _ _ _ => inferInstanceAs (Decidable True)

end Definitions

section Trees

variable {root : String} {nodes : List Node}

theorem isTree_root (root : String) : IsTree root [⟨root, "", "/", "/"⟩] where
  ids := List.nodup_singleton _
  hasRoot := ⟨_, List.mem_singleton_self _, rfl⟩
  parents := by
    intro node hnode hroot
    rw [List.mem_singleton] at hnode
    exact absurd (congrArg Node.id hnode) hroot
  paths := List.nodup_singleton _

theorem nodup_map_append_singleton {α β : Type} {f : α → β} {xs : List α} {x : α}
    (hxs : (xs.map f).Nodup) (hx : ∀ y ∈ xs, f y ≠ f x) : ((xs ++ [x]).map f).Nodup := by
  rw [List.map_append, List.map_singleton, List.nodup_append]
  refine ⟨hxs, List.nodup_singleton _, ?_⟩
  intro a ha b hb
  obtain ⟨y, hy, rfl⟩ := List.mem_map.mp ha
  rw [List.mem_singleton.mp hb]
  exact hx y hy

theorem IsTree.append (htree : IsTree root nodes) {parent node : Node} (hparent : parent ∈ nodes)
    (hid : parent.id = node.parentId) (hpath : node.path = joinPath parent.path node.pathPart)
    (hnewId : ∀ other ∈ nodes, other.id ≠ node.id)
    (hnewPath : ∀ other ∈ nodes, other.path ≠ node.path) : IsTree root (nodes ++ [node]) where
  ids := nodup_map_append_singleton htree.ids hnewId
  hasRoot := by
    obtain ⟨found, hfound, hroot⟩ := htree.hasRoot
    exact ⟨found, List.mem_append_left _ hfound, hroot⟩
  parents := by
    intro other hother hroot
    rcases List.mem_append.mp hother with hold | hnew
    · obtain ⟨above, habove, hfits⟩ := htree.parents other hold hroot
      exact ⟨above, List.mem_append_left _ habove, hfits⟩
    · rw [List.mem_singleton.mp hnew]
      exact ⟨parent, List.mem_append_left _ hparent, hid, hpath⟩
  paths := nodup_map_append_singleton htree.paths hnewPath

theorem IsTree.filter (htree : IsTree root nodes) {id : String} (hroot : id ≠ root)
    (hleaf : ∀ node ∈ nodes, node.id ≠ root → node.parentId ≠ id) :
    IsTree root (nodes.filter fun node => node.id ≠ id) where
  ids := htree.ids.sublist (List.filter_sublist.map _)
  hasRoot := by
    obtain ⟨found, hfound, hid⟩ := htree.hasRoot
    refine ⟨found, List.mem_filter.mpr ⟨hfound, decide_eq_true ?_⟩, hid⟩
    rw [hid]
    exact hroot.symm
  parents := by
    intro node hnode hother
    have hmem := List.mem_of_mem_filter hnode
    obtain ⟨parent, hparent, hid, hpath⟩ := htree.parents node hmem hother
    refine ⟨parent, List.mem_filter.mpr ⟨hparent, decide_eq_true ?_⟩, hid, hpath⟩
    rw [hid]
    exact hleaf node hmem hother
  paths := htree.paths.sublist (List.filter_sublist.map _)

end Trees

section Resources

variable {restApi : RestApi} {request : CreateResourceRequest} {resourceId : String}

theorem isTree_put (htree : IsTree restApi.rootResourceId restApi.nodes)
    (htakes : restApi.Takes request resourceId)
    (hnew : restApi.resourceExists request.pathPart = false) :
    IsTree restApi.rootResourceId (restApi.put
      { id := resourceId
        parentId := request.parentId
        path := pathOf restApi request.parentId request.pathPart
        pathPart := request.pathPart }).nodes := by
  rw [RestApi.Takes, hnew, if_neg Bool.false_ne_true] at htakes
  obtain ⟨hgiven, hid, parent, hparent, hpath⟩ := htakes
  have hfind : findKey Resource.id resourceId restApi.resources = none := by
    rw [RestApi.contains, Option.isSome_eq_false_iff, Option.isNone_iff_eq_none] at hid
    exact hid
  have hjoined : pathOf restApi request.parentId request.pathPart =
      joinPath parent.path request.pathPart := by
    rw [pathOf, if_pos hgiven, hparent]
  rw [RestApi.nodes, RestApi.put, upsert_of_findKey_none hfind, List.map_append, List.map_singleton]
  have hparentId : parent.id = request.parentId := key_of_findKey hparent
  refine htree.append (List.mem_map_of_mem (mem_of_findKey hparent)) hparentId hjoined ?_ ?_
  · intro other hother
    obtain ⟨resource, hresource, rfl⟩ := List.mem_map.mp hother
    exact findKey_eq_none.mp hfind resource hresource
  · intro other hother
    obtain ⟨resource, hresource, rfl⟩ := List.mem_map.mp hother
    change resource.path ≠ pathOf restApi request.parentId request.pathPart
    rw [hjoined]
    exact hpath resource hresource

theorem isTree_erase (htree : IsTree restApi.rootResourceId restApi.nodes)
    (hleaf : restApi.IsLeaf resourceId) :
    IsTree restApi.rootResourceId (restApi.erase resourceId).nodes := by
  have hnodes : (restApi.erase resourceId).nodes =
      restApi.nodes.filter fun node => node.id ≠ resourceId := by
    rw [RestApi.nodes, RestApi.nodes, List.filter_map]
    rfl
  rw [hnodes]
  refine htree.filter hleaf.1 ?_
  intro node hnode
  obtain ⟨resource, hresource, rfl⟩ := List.mem_map.mp hnode
  exact hleaf.2 resource hresource

theorem nodes_changeMethods (change : List ResourceMethod → List ResourceMethod) :
    (restApi.changeMethods resourceId change).nodes = restApi.nodes :=
  map_rewriteFirst_of_preserved Resource.node fun _ _ _ => rfl

end Resources

section Steps

variable {store : Store} {restApi : RestApi}

section

variable (hforest : IsForest store)
include hforest

theorem IsForest.tree_of_find {restApiId : String}
    (hfound : store.findRestApi restApiId = some restApi) :
    IsTree restApi.rootResourceId restApi.nodes :=
  hforest.trees restApi (List.mem_of_find?_eq_some hfound)

theorem IsForest.upsertRestApi {restApiId : String} {next : RestApi}
    (hfound : store.findRestApi restApiId = some restApi) (hid : next.id = restApi.id)
    (hname : next.regionAndName = restApi.regionAndName)
    (htree : IsTree next.rootResourceId next.nodes) : IsForest (store.upsertRestApi next) where
  trees := by
    intro other hother
    rcases of_mem_rewriteFirst hother with hold | ⟨_, _, _, rfl⟩
    · exact hforest.trees other hold
    · exact htree
  names := by
    have hread : restApi.id = restApiId := of_decide_eq_true (List.find?_some
      (p := fun restApi : RestApi => decide (restApi.id = restApiId)) hfound)
    have hwritten : store.restApis.find?
        (fun other => other.region = next.region && other.id = next.id) = some restApi := by
      refine find?_of_imp (fun other hother => ?_) hfound ?_
      · rw [Bool.and_eq_true] at hother
        rw [decide_eq_true_eq, of_decide_eq_true hother.2, hid, hread]
      · rw [hid, (Prod.mk.inj hname).1, decide_eq_true rfl, decide_eq_true rfl]
        rfl
    change ((rewriteFirst _ _ _).map RestApi.regionAndName).Nodup
    rw [map_rewriteFirst_of_find? hwritten hname]
    exact hforest.names

theorem isForest_createRestApi {next : RestApi}
    (hnew : ∀ restApi ∈ store.restApis, restApi.regionAndName ≠ next.regionAndName)
    (htree : IsTree next.rootResourceId next.nodes) (place : Nat) :
    IsForest (store.createRestApi next place) := by
  constructor
  · intro restApi hrestApi
    rcases mem_insertAt.mp hrestApi with rfl | hold
    · exact htree
    · exact hforest.trees restApi hold
  · exact nodup_map_insertAt hforest.names hnew place

theorem isForest_changeResource {restApiId resourceId : String}
    {change : List ResourceMethod → List ResourceMethod} {next : Store}
    (hnext : changeResource store restApiId resourceId change = .ok next) : IsForest next := by
  rw [changeResource] at hnext
  split at hnext
  · next hcontains =>
    cases hnext
    cases hfound : store.findRestApi restApiId with
    | none =>
      rw [hfound] at hcontains
      cases hcontains
    | some restApi =>
      refine hforest.upsertRestApi hfound rfl rfl ?_
      rw [Option.getD_some, nodes_changeMethods]
      exact hforest.tree_of_find hfound
  · cases hnext

end

variable {operation : Operation}

theorem isForest_perform (hforest : IsForest store)
    (hheeds : Heeds store operation) {next : Store} (hnext : operation.perform store = .ok next) :
    IsForest next := by
  cases operation with
  | createRestApi request restApiId rootResourceId place =>
    change createRestApi store request restApiId rootResourceId place = .ok next at hnext
    rw [createRestApi] at hnext
    split at hnext
    · cases hnext
    · next hkey =>
      cases hnext
      refine isForest_createRestApi hforest ?_ (isTree_root rootResourceId) place
      exact hheeds.resolve_left hkey
  | createResource request resourceId =>
    change createResource store request resourceId = .ok next at hnext
    rw [createResource] at hnext
    split at hnext
    · cases hnext
    · next restApi hfound =>
      split at hnext
      · cases hnext
      · next hnew =>
        cases hnext
        exact hforest.upsertRestApi hfound rfl rfl (isTree_put (hforest.tree_of_find hfound)
          (hheeds restApi hfound) (Bool.eq_false_iff.mpr hnew))
  | deleteResource region restApiId resourceId =>
    change deleteResource store region restApiId resourceId = .ok next at hnext
    rw [deleteResource] at hnext
    split at hnext
    · cases hnext
    · next restApi hfound =>
      cases hnext
      exact hforest.upsertRestApi hfound rfl rfl
        (isTree_erase (hforest.tree_of_find hfound) (hheeds restApi hfound))
  | putMethod restApiId resourceId httpMethod apiKeyRequired =>
    exact isForest_changeResource hforest hnext
  | putIntegration restApiId resourceId httpMethod integrationType integrationUri
      integrationHttpMethod =>
      exact isForest_changeResource hforest hnext

theorem isForest_step (hforest : IsForest store)
    (hheeds : Heeds store operation) : IsForest (step store operation) := by
  rw [step]
  split
  · next next hnext => exact isForest_perform hforest hheeds hnext
  · exact hforest

theorem hasChild_of_new {parentId pathPart : String}
    (hnew : restApi.resourceExists pathPart = false) : restApi.hasChild parentId pathPart = false := by
  rw [RestApi.hasChild, List.any_eq_false]
  intro resource hresource hchild
  rw [RestApi.resourceExists, List.any_eq_false] at hnew
  exact hnew resource hresource (Bool.and_eq_true _ _ ▸ hchild).2

theorem createsExactly_of_heeds (hheeds : Heeds store operation) :
    CreatesExactly store operation := by
  cases operation with
  | createResource request resourceId =>
    change (createResource store request resourceId).isOk = true ↔ Fits store request
    rw [createResource]
    cases hfound : store.findRestApi request.restApiId with
    | none =>
      refine iff_of_false Bool.false_ne_true ?_
      rintro ⟨restApi, hrestApi, _⟩
      rw [hfound] at hrestApi
      cases hrestApi
    | some restApi =>
      have htakes := hheeds restApi hfound
      rw [RestApi.Takes] at htakes
      split at htakes
      · next hused =>
        refine iff_of_false ?_ ?_
        · simp only [hused, if_true]
          exact Bool.false_ne_true
        · rintro ⟨other, hother, hparent, hchild⟩
          cases hfound.symm.trans hother
          rw [htakes hparent] at hchild
          cases hchild
      · next hnew =>
        obtain ⟨_, _, parent, hparent, _⟩ := htakes
        refine iff_of_true ?_ ⟨restApi, hfound, ?_, hasChild_of_new (Bool.eq_false_iff.mpr hnew)⟩
        · simp only [hnew]
          rfl
        · rw [RestApi.contains, hparent]
          rfl
  | _ => trivial

end Steps

/-- In a run in which names are new, resources are put where there is room for them, and leaves
are deleted, the resources are trees, and a resource is made where it fits. -/
theorem isForest_of_heeded (apiKeys : List (String × String)) (operations : List Operation)
    (hheeded : Runs.Heeded step Heeds operations { apiKeys := apiKeys }) :
    Runs.Always step IsForest operations { apiKeys := apiKeys } ∧
      Runs.Heeded step CreatesExactly operations { apiKeys := apiKeys } := by
  have hempty : IsForest { apiKeys := apiKeys } :=
    ⟨fun _ hrestApi => absurd hrestApi List.not_mem_nil, List.nodup_nil⟩
  refine ⟨Runs.always_of_heeded (fun _ _ hforest hheeds => isForest_step hforest hheeds)
    operations hempty hheeded, ?_⟩
  exact hheeded.imp_of_step (fun _ _ hforest hheeds =>
    ⟨isForest_step hforest hheeds, createsExactly_of_heeds hheeds⟩) hempty

/-- Two resources below each other, with a method, and the lower one is deleted. -/
def shopRun : List Operation :=
  [.createRestApi ⟨"eu", "shop"⟩ "a" "r" 0,
    .createResource { restApiId := "a", parentId := "r", pathPart := "orders" } "o",
    .createResource { restApiId := "a", parentId := "o", pathPart := "items" } "i",
    .putMethod "a" "i" "GET" true,
    .deleteResource "eu" "a" "i"]

theorem isForest_of_heeded_shop :
    Runs.Always step IsForest shopRun {} ∧ Runs.Heeded step CreatesExactly shopRun {} :=
  isForest_of_heeded [] shopRun (by decide)

/-- The API keys are asked for the name, so that two REST APIs of a region get the same. -/
theorem not_isForest_createRestApi :
    ¬ ∀ operations : List Operation, Runs.Always step IsForest operations {} := by
  intro hclaim
  have hforest := (hclaim [.createRestApi ⟨"eu", "shop"⟩ "a" "r" 0,
    .createRestApi ⟨"eu", "shop"⟩ "b" "s" 0]).last
  exact absurd hforest.names (by decide)

end AwsMock.ApiGateway.Resources
