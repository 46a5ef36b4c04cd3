import AwsMock.Foundation.UnorderedMap
import AwsMock.Lambdas.Documents

/-! # Deleting a function

`DeleteFunction` over either repository and the container daemon. The check, the lookup and the
deletion use three different keys: the name, the region with the name, and the name again.
-/

namespace AwsMock.Lambdas.Entity.Deletion

open Foundation

/-! ## The container daemon -/

structure Container where
  id : String
  imageId : String
  running : Bool

structure Image where
  name : String
  tag : String
  id : String

structure Daemon where
  containers : List Container
  images : List Image

namespace Daemon

variable (daemon : Daemon)

def containerExists (containerId : String) : Bool :=
  daemon.containers.any fun container => container.id = containerId

def killContainer (containerId : String) : Daemon :=
  { daemon with
    containers := daemon.containers.map fun container =>
      if container.id = containerId then { container with running := false } else container }

def deleteContainer (containerId : String) : Daemon :=
  { daemon with
    containers := daemon.containers.filter fun container => container.id ≠ containerId }

def getImageByName (name tag : String) : Option Image :=
  daemon.images.find? fun image => image.name = name && image.tag = tag

/-- An image that a running container uses is not deleted, not even by force. -/
def isInUse (imageId : String) : Bool :=
  daemon.containers.any fun container => container.running && container.imageId = imageId

def deleteImage (imageId : String) : Daemon :=
  { daemon with images := daemon.images.filter fun image => image.id ≠ imageId }

def deleteContainers (instances : List Instance) : Daemon :=
  instances.foldl (fun daemon instance' =>
    if daemon.containerExists instance'.containerId then
      (daemon.killContainer instance'.containerId).deleteContainer instance'.containerId
    else daemon) daemon

end Daemon

/-! ## The repositories -/

inductive Backend where
  | memory | mongo

structure World where
  lambdas : UnorderedMap String Lambda
  daemon : Daemon

abbrev Call := Action Empty String World

def isAt (region name : String) (lambda : Lambda) : Bool :=
  lambda.region = region && lambda.function = name

def lambdaExists (function : String) : Call Bool :=
  Action.gets fun world =>
    (world.lambdas.findIf fun lambda => lambda.function = function).isSome

/-- The first function of a region and a name. In memory its key is written into it. -/
def getLambdaByName (backend : Backend) (region name : String) : Call Lambda := do
  match ← Action.gets fun world => world.lambdas.findIf (isAt region name) with
  | some (oid, lambda) =>
    match backend with
    | .memory =>
      Action.modify fun world =>
        { world with lambdas := world.lambdas.assign oid { lambda with oid := oid } }
      return { lambda with oid := oid }
    | .mongo => return { lambda with oid := oid }
  | none => Action.raise ("Get lambda by name failed, name: " ++ name)

def deleteLambda (functionName : String) : Call Unit :=
  Action.modify fun world =>
    { world with
      lambdas := world.lambdas.eraseIf fun lambda => lambda.function = functionName }

def deleteImage (functionName dockerTag : String) : Call Unit := do
  match ← Action.gets fun world => world.daemon.getImageByName functionName dockerTag with
  | some image =>
    if ← Action.gets fun world => world.daemon.isInUse image.id then
      Action.raise ("Delete image failed, id: " ++ image.id)
    else Action.modify fun world => { world with daemon := world.daemon.deleteImage image.id }
  | none => pure ()

def deleteFunction (backend : Backend) (region functionName : String) : Call Unit := do
  if ← lambdaExists functionName then
    let lambda ← getLambdaByName backend region functionName
    Action.modify fun world =>
      { world with daemon := world.daemon.deleteContainers lambda.instances }
    deleteImage functionName lambda.dockerTag
    deleteLambda functionName
  else pure ()

/-! ## What a deletion is confined to -/

/-- A deletion removes the functions of a region and a name and their containers. All other
functions and containers stay, and so do the containers and the image of every other function.
Where there is no such function, nothing changes. -/
def IsConfined (backend : Backend) (region name : String) (before : World) : Prop :=
  ∃ after, (deleteFunction backend region name).run [] before = .returns () after ∧
    after.lambdas.entries = before.lambdas.entries.filter (fun entry => !isAt region name entry.2) ∧
    after.daemon.containers = before.daemon.containers.filter (fun container =>
      !before.lambdas.values.any fun lambda => isAt region name lambda &&
        lambda.instances.any fun instance' => instance'.containerId = container.id) ∧
    (∀ lambda ∈ before.lambdas.values, isAt region name lambda = false →
      (∀ container ∈ before.daemon.containers,
        (∃ instance' ∈ lambda.instances, instance'.containerId = container.id) →
          container ∈ after.daemon.containers) ∧
      after.daemon.getImageByName lambda.function lambda.dockerTag =
        before.daemon.getImageByName lambda.function lambda.dockerTag) ∧
    ((∀ lambda ∈ before.lambdas.values, isAt region name lambda = false) → after = before)

structure SharesNothing (region name : String) (found : Lambda) (before : World) : Prop where
  /-- No other region has a function of the name. -/
  regions : ∀ lambda ∈ before.lambdas.values, lambda.function = name → lambda.region = region
  /-- Functions of the same region and name have no containers but those of the one found. -/
  runtimes : ∀ lambda ∈ before.lambdas.values, isAt region name lambda = true →
    ∀ instance' ∈ lambda.instances, before.daemon.containerExists instance'.containerId = true →
        ∃ other ∈ found.instances, other.containerId = instance'.containerId
  /-- No other function has a container of the one found. -/
  containers : ∀ lambda ∈ before.lambdas.values, isAt region name lambda = false →
    ∀ instance' ∈ lambda.instances, before.daemon.containerExists instance'.containerId = true →
        ∀ other ∈ found.instances, other.containerId ≠ instance'.containerId
  /-- No other function has the image of the one found. -/
  images : ∀ image, before.daemon.getImageByName name found.dockerTag = some image →
    ∀ lambda ∈ before.lambdas.values, isAt region name lambda = false →
      ∀ other, before.daemon.getImageByName lambda.function lambda.dockerTag = some other →
        other.id ≠ image.id
  /-- No other container runs on the image. -/
  running : ∀ image, before.daemon.getImageByName name found.dockerTag = some image →
    ∀ container ∈ before.daemon.containers, container.running = true →
      container.imageId = image.id →
        ∃ instance' ∈ found.instances, instance'.containerId = container.id

def IsAlone (region name : String) (before : World) : Prop :=
  (∀ lambda ∈ before.lambdas.values, lambda.function ≠ name) ∨
    ∃ oid found, before.lambdas.findIf (isAt region name) = some (oid, found) ∧
      SharesNothing region name found before

/-! ## The run of a deletion -/

section Runs

variable {backend : Backend} {region name : String} {before after : World} {daemon : Daemon}

theorem deleteContainer_killContainer (containerId : String) :
    (daemon.killContainer containerId).deleteContainer containerId =
      daemon.deleteContainer containerId := by
  rw [Daemon.deleteContainer, Daemon.deleteContainer, Daemon.mk.injEq]
  refine ⟨?_, rfl⟩
  rw [Daemon.killContainer]
  induction daemon.containers with
  | nil => rfl
  | cons container containers ih =>
    dsimp only at ih ⊢
    rw [List.map_cons]
    by_cases hid : container.id = containerId
    · rw [if_pos hid, List.filter_cons_of_neg (by simpa using hid),
        List.filter_cons_of_neg (by simpa using hid), ih]
    · rw [if_neg hid, List.filter_cons_of_pos (by simpa using hid),
        List.filter_cons_of_pos (by simpa using hid), ih]

theorem deleteContainer_of_not_exists {containerId : String}
    (hnone : ¬daemon.containerExists containerId = true) :
    daemon.deleteContainer containerId = daemon := by
  rw [Daemon.containerExists, List.any_eq_true] at hnone
  have hkeep : ∀ container ∈ daemon.containers, decide (container.id ≠ containerId) = true := by
    intro container hmem
    rw [decide_eq_true_eq]
    exact fun heq => hnone ⟨container, hmem, decide_eq_true heq⟩
  rw [Daemon.deleteContainer, List.filter_eq_self.mpr hkeep]

variable (instances : List Instance)

theorem deleteContainers_eq :
    daemon.deleteContainers instances =
      { daemon with
        containers := daemon.containers.filter fun container =>
          !instances.any fun instance' => instance'.containerId = container.id } := by
  rw [Daemon.deleteContainers]
  induction instances generalizing daemon with
  | nil => simp
  | cons instance' instances ih =>
    have hstep : (if daemon.containerExists instance'.containerId then
        (daemon.killContainer instance'.containerId).deleteContainer instance'.containerId
        else daemon) = daemon.deleteContainer instance'.containerId := by
      split
      next => exact deleteContainer_killContainer _
      next hnone => exact (deleteContainer_of_not_exists hnone).symm
    rw [List.foldl_cons, hstep, ih, Daemon.deleteContainer, Daemon.mk.injEq]
    refine ⟨?_, rfl⟩
    rw [List.filter_filter]
    refine List.filter_congr fun container _ => ?_
    rw [List.any_cons, Bool.not_or, Bool.and_comm, ← decide_not]
    simp only [ne_comm, ne_eq]

theorem getImageByName_deleteContainers (imageName tag : String) :
    (daemon.deleteContainers instances).getImageByName imageName tag =
      daemon.getImageByName imageName tag := by
  rw [deleteContainers_eq]
  rfl

def afterDeletion (name : String) (found : Lambda) (daemon : Daemon) : Daemon :=
  match daemon.getImageByName name found.dockerTag with
  | some image => (daemon.deleteContainers found.instances).deleteImage image.id
  | none => daemon.deleteContainers found.instances

theorem run_getLambdaByName {oid : String} {found : Lambda}
    (hfound : before.lambdas.findIf (isAt region name) = some (oid, found)) :
    ∃ lambdas, (getLambdaByName backend region name).run [] before =
        .returns { found with oid := oid } { before with lambdas := lambdas } ∧
      lambdas.eraseIf (fun lambda => lambda.function = name) =
        before.lambdas.eraseIf fun lambda => lambda.function = name := by
  have hat : isAt region name found = true := by
    have hselected := List.find?_some hfound
    exact hselected
  rw [getLambdaByName, Action.run_bind, Action.run_gets, Outcome.andThen_returns, hfound]
  cases backend with
  | mongo => exact ⟨before.lambdas, rfl, rfl⟩
  | memory =>
    refine ⟨before.lambdas.assign oid { found with oid := oid }, rfl, UnorderedMap.ext ?_⟩
    change ((before.lambdas.assign oid { found with oid := oid }).entries.filter _) =
      before.lambdas.entries.filter _
    rw [UnorderedMap.entries_assign_of_findIf _ hfound]
    have hname : ∀ lambda : Lambda, isAt region name lambda = true →
        (!decide (lambda.function = name)) = false := by
      intro lambda hselected
      rw [isAt, Bool.and_eq_true] at hselected
      rw [hselected.2]
      rfl
    exact filter_rewriteFirst_of_dropped fun entry _ hselected =>
      ⟨hname entry.2 hselected, hname _ hat⟩

theorem run_deleteFunction_of_absent
    (habsent : ∀ lambda ∈ before.lambdas.values, lambda.function ≠ name) :
    (deleteFunction backend region name).run [] before = .returns () before := by
  have hnone : (before.lambdas.findIf fun lambda => lambda.function = name) = none := by
    refine List.find?_eq_none.mpr fun entry hentry => ?_
    rw [decide_eq_true_eq]
    exact habsent entry.2 (List.mem_map_of_mem hentry)
  rw [deleteFunction, Action.run_bind, lambdaExists, Action.run_gets, Outcome.andThen_returns,
    hnone]
  rfl

section

variable (hexists : ∃ lambda ∈ before.lambdas.values, lambda.function = name)
include hexists

theorem run_lambdaExists :
    (lambdaExists name).run [] before = .returns true before := by
  obtain ⟨lambda, hmem, hname⟩ := hexists
  obtain ⟨entry, hentry, rfl⟩ := List.mem_map.mp hmem
  have hsome : (before.lambdas.findIf fun lambda => lambda.function = name).isSome = true :=
    List.find?_isSome.mpr ⟨entry, hentry, decide_eq_true hname⟩
  rw [lambdaExists, Action.run_gets, hsome]

theorem run_deleteFunction_ne_returns (hnone : before.lambdas.findIf (isAt region name) = none) :
    (deleteFunction backend region name).run [] before ≠ .returns () after := by
  rw [deleteFunction, Action.run_bind, run_lambdaExists hexists, Outcome.andThen_returns,
    if_pos rfl, Action.run_bind, getLambdaByName, Action.run_bind, Action.run_gets,
    Outcome.andThen_returns, hnone]
  intro heq
  cases heq

end

theorem run_deleteFunction_of_found {oid : String} {found : Lambda}
    (hfound : before.lambdas.findIf (isAt region name) = some (oid, found)) :
    (deleteFunction backend region name).run [] before = .returns () after ↔
      (∀ image, before.daemon.getImageByName name found.dockerTag = some image →
        (before.daemon.deleteContainers found.instances).isInUse image.id = false) ∧
      after = ⟨before.lambdas.eraseIf fun lambda => lambda.function = name,
        afterDeletion name found before.daemon⟩ := by
  have hexists : ∃ lambda ∈ before.lambdas.values, lambda.function = name := by
    have hat : isAt region name found = true := by
      have hselected := List.find?_some hfound
      exact hselected
    rw [isAt, Bool.and_eq_true, decide_eq_true_eq, decide_eq_true_eq] at hat
    exact ⟨found, List.mem_map_of_mem (List.mem_of_find?_eq_some hfound), hat.2⟩
  obtain ⟨lambdas, hlookup, herase⟩ := @run_getLambdaByName backend _ _ _ _ _ hfound
  rw [deleteFunction, Action.run_bind, run_lambdaExists hexists, Outcome.andThen_returns,
    if_pos rfl, Action.run_bind, hlookup, Outcome.andThen_returns, Action.run_bind,
    Action.run_modify, Outcome.andThen_returns, Action.run_bind, deleteImage, Action.run_bind,
    Action.run_gets, Outcome.andThen_returns, getImageByName_deleteContainers, afterDeletion,
    ← herase]
  cases before.daemon.getImageByName name found.dockerTag with
  | none =>
    rw [and_iff_right fun image himage => nomatch himage]
    exact ⟨fun heq => (Outcome.returns.inj heq).2.symm, fun heq => heq ▸ rfl⟩
  | some image =>
    change (Outcome.andThen (Action.run (Action.gets _ >>= _) _ _) _) = _ ↔ _
    rw [Action.run_bind, Action.run_gets, Outcome.andThen_returns]
    cases hinUse : (before.daemon.deleteContainers found.instances).isInUse image.id with
    | true =>
      refine iff_of_false (fun heq => ?_) fun h => ?_
      · cases heq
      · have hfree := h.1 image rfl
        rw [hinUse] at hfree
        cases hfree
    | false =>
      have hfree : ∀ other, some image = some other →
          (before.daemon.deleteContainers found.instances).isInUse other.id = false :=
        fun other hother => Option.some.inj hother ▸ hinUse
      rw [and_iff_right hfree]
      exact ⟨fun heq => (Outcome.returns.inj heq).2.symm, fun heq => heq ▸ rfl⟩

end Runs

section Confinement

variable {backend : Backend} {region name : String} {before : World}

theorem isAt_iff {lambda : Lambda} :
    isAt region name lambda = true ↔ lambda.region = region ∧ lambda.function = name := by
  rw [isAt, Bool.and_eq_true, decide_eq_true_eq, decide_eq_true_eq]

theorem containers_afterDeletion (found : Lambda) (daemon : Daemon) :
    (afterDeletion name found daemon).containers = daemon.containers.filter fun container =>
      !found.instances.any fun instance' => instance'.containerId = container.id := by
  rw [afterDeletion, deleteContainers_eq]
  cases daemon.getImageByName name found.dockerTag <;> rfl

theorem getImageByName_afterDeletion_iff {found : Lambda} {daemon : Daemon}
    {imageName tag : String} :
    (afterDeletion name found daemon).getImageByName imageName tag =
        daemon.getImageByName imageName tag ↔
      ∀ image, daemon.getImageByName name found.dockerTag = some image →
        ∀ other, daemon.getImageByName imageName tag = some other → other.id ≠ image.id := by
  rw [afterDeletion]
  cases daemon.getImageByName name found.dockerTag with
  | none =>
    refine iff_of_true ?_ fun image himage => nomatch himage
    exact getImageByName_deleteContainers _ _ _
  | some image =>
    rw [deleteContainers_eq]
    change (daemon.images.filter fun image' => decide (image'.id ≠ image.id)).find? _ = _ ↔ _
    rw [List.find?_filter]
    constructor
    · rintro hsame _ ⟨⟩ other hother
      rw [hother] at hsame
      have hselected := List.find?_some hsame
      exact of_decide_eq_true (of_decide_eq_true hselected).1
    · intro hother
      cases hfind : daemon.getImageByName imageName tag with
      | none =>
        refine List.find?_eq_none.mpr fun image' himage' hselected => ?_
        exact List.find?_eq_none.mp hfind image' himage' (of_decide_eq_true hselected).2
      | some other =>
        refine find?_of_imp (fun image' hselected => (of_decide_eq_true hselected).2) hfind
          (decide_eq_true ⟨decide_eq_true (hother image rfl other hfind), ?_⟩)
        have hselected := List.find?_some hfind
        exact hselected

theorem isConfined_iff_of_found {oid : String} {found : Lambda}
    (hfound : before.lambdas.findIf (isAt region name) = some (oid, found)) :
    IsConfined backend region name before ↔ SharesNothing region name found before := by
  have hmem : found ∈ before.lambdas.values :=
    List.mem_map_of_mem (List.mem_of_find?_eq_some hfound)
  have hat : isAt region name found = true := by
    have hselected := List.find?_some hfound
    exact hselected
  constructor
  · rintro ⟨after, hrun, hlambdas, hcontainers, hothers, -⟩
    obtain ⟨hfree, rfl⟩ := (run_deleteFunction_of_found hfound).mp hrun
    have hkeys := filter_eq_filter_iff.mp hlambdas
    rw [containers_afterDeletion] at hcontainers
    have hids := filter_eq_filter_iff.mp hcontainers
    refine ⟨?_, ?_, ?_, ?_, ?_⟩
    · intro lambda hlambda hname
      obtain ⟨entry, hentry, rfl⟩ := List.mem_map.mp hlambda
      have hsame := Bool.not_inj (hkeys entry hentry)
      exact (isAt_iff.mp (hsame.symm.trans (decide_eq_true hname))).1
    · intro lambda hlambda hlambdaAt instance' hinstance hexists
      obtain ⟨container, hcontainer, hid⟩ := List.any_eq_true.mp hexists
      have hsame := Bool.not_inj (hids container hcontainer)
      have hany : (before.lambdas.values.any fun lambda => isAt region name lambda &&
          lambda.instances.any fun instance' => instance'.containerId = container.id) = true := by
        refine List.any_eq_true.mpr ⟨lambda, hlambda, ?_⟩
        rw [hlambdaAt, Bool.true_and]
        exact List.any_eq_true.mpr
          ⟨instance', hinstance, decide_eq_true (of_decide_eq_true hid).symm⟩
      obtain ⟨other, hother, hotherId⟩ := List.any_eq_true.mp (hsame.trans hany)
      exact ⟨other, hother, (of_decide_eq_true hotherId).trans (of_decide_eq_true hid)⟩
    · intro lambda hlambda hlambdaAt instance' hinstance hexists other hother heq
      obtain ⟨container, hcontainer, hid⟩ := List.any_eq_true.mp hexists
      have hstays := (hothers lambda hlambda hlambdaAt).1 container hcontainer
        ⟨instance', hinstance, (of_decide_eq_true hid).symm⟩
      rw [containers_afterDeletion] at hstays
      have hnone := (List.mem_filter.mp hstays).2
      rw [Bool.not_eq_true', List.any_eq_false] at hnone
      exact hnone other hother (decide_eq_true (heq.trans (of_decide_eq_true hid).symm))
    · intro image himage lambda hlambda hlambdaAt
      exact getImageByName_afterDeletion_iff.mp (hothers lambda hlambda hlambdaAt).2 image himage
    · intro image himage container hcontainer hrunning himageId
      have hunused := hfree image himage
      rw [Daemon.isInUse, deleteContainers_eq, List.any_eq_false] at hunused
      by_contra hnone
      refine hunused container (List.mem_filter.mpr ⟨hcontainer, ?_⟩) ?_
      · rw [Bool.not_eq_true', List.any_eq_false]
        exact fun other hother hid => hnone ⟨other, hother, of_decide_eq_true hid⟩
      · rw [hrunning, Bool.true_and, decide_eq_true himageId]
  · intro hshares
    have hsameName : ∀ lambda ∈ before.lambdas.values,
        decide (lambda.function = name) = isAt region name lambda := by
      intro lambda hlambda
      rw [Bool.eq_iff_iff, isAt_iff, decide_eq_true_eq]
      exact ⟨fun hname => ⟨hshares.regions lambda hlambda hname, hname⟩, And.right⟩
    refine ⟨_, run_deleteFunction_of_found hfound |>.mpr ⟨?_, rfl⟩, ?_, ?_, ?_, ?_⟩
    · intro image himage
      rw [Daemon.isInUse, deleteContainers_eq, List.any_eq_false]
      intro container hcontainer hselected
      rw [Bool.and_eq_true, decide_eq_true_eq] at hselected
      obtain ⟨hcontainer, hnone⟩ := List.mem_filter.mp hcontainer
      rw [Bool.not_eq_true', List.any_eq_false] at hnone
      obtain ⟨other, hother, hid⟩ :=
        hshares.running image himage container hcontainer hselected.1 hselected.2
      exact hnone other hother (decide_eq_true hid)
    · refine filter_eq_filter_iff.mpr fun entry hentry => ?_
      exact congrArg not (hsameName entry.2 (List.mem_map_of_mem hentry))
    · rw [containers_afterDeletion]
      refine filter_eq_filter_iff.mpr fun container hcontainer => congrArg _ ?_
      rw [Bool.eq_iff_iff, List.any_eq_true, List.any_eq_true]
      constructor
      · rintro ⟨other, hother, hid⟩
        refine ⟨found, hmem, ?_⟩
        rw [hat, Bool.true_and]
        exact List.any_eq_true.mpr ⟨other, hother, hid⟩
      · rintro ⟨lambda, hlambda, hselected⟩
        rw [Bool.and_eq_true] at hselected
        obtain ⟨instance', hinstance, hid⟩ := List.any_eq_true.mp hselected.2
        have hexists : before.daemon.containerExists instance'.containerId = true :=
          List.any_eq_true.mpr ⟨container, hcontainer, decide_eq_true (of_decide_eq_true hid).symm⟩
        obtain ⟨other, hother, hotherId⟩ :=
          hshares.runtimes lambda hlambda hselected.1 instance' hinstance hexists
        exact ⟨other, hother, decide_eq_true (hotherId.trans (of_decide_eq_true hid))⟩
    · intro lambda hlambda hlambdaAt
      refine ⟨?_, getImageByName_afterDeletion_iff.mpr fun image himage =>
        hshares.images image himage lambda hlambda hlambdaAt⟩
      rintro container hcontainer ⟨instance', hinstance, hid⟩
      rw [containers_afterDeletion]
      refine List.mem_filter.mpr ⟨hcontainer, ?_⟩
      rw [Bool.not_eq_true', List.any_eq_false]
      intro other hother hotherId
      have hexists : before.daemon.containerExists instance'.containerId = true :=
        List.any_eq_true.mpr ⟨container, hcontainer, decide_eq_true hid.symm⟩
      exact hshares.containers lambda hlambda hlambdaAt instance' hinstance hexists other hother
        ((of_decide_eq_true hotherId).trans hid.symm)
    · intro hnone
      exact absurd hat (Bool.eq_false_iff.mp (hnone found hmem))

/-- A deletion is confined exactly when the name is not stored at all, or is found in the region
and shares nothing with other functions. -/
theorem isConfined_deleteFunction_iff (backend : Backend) (region name : String) (before : World) :
    IsConfined backend region name before ↔ IsAlone region name before := by
  cases hfound : before.lambdas.findIf (isAt region name) with
  | some entry =>
    rw [isConfined_iff_of_found hfound]
    constructor
    · exact fun hshares => .inr ⟨entry.1, entry.2, hfound, hshares⟩
    · rintro (habsent | ⟨oid, found, hsame, hshares⟩)
      · have hselected := List.find?_some hfound
        have hmem : entry.2 ∈ before.lambdas.values :=
          List.mem_map_of_mem (List.mem_of_find?_eq_some hfound)
        exact absurd (isAt_iff.mp hselected).2 (habsent entry.2 hmem)
      · rw [hfound] at hsame
        obtain rfl := Option.some.inj hsame
        exact hshares
  | none =>
    have hnotAt : ∀ lambda ∈ before.lambdas.values, isAt region name lambda = false := by
      intro lambda hlambda
      obtain ⟨entry, hentry, rfl⟩ := List.mem_map.mp hlambda
      exact Bool.eq_false_iff.mpr (List.find?_eq_none.mp hfound entry hentry)
    constructor
    · rintro ⟨after, hrun, -⟩
      by_contra halone
      have hexists : ∃ lambda ∈ before.lambdas.values, lambda.function = name := by
        by_contra habsent
        refine halone (.inl fun lambda hlambda hname => habsent ⟨lambda, hlambda, hname⟩)
      exact run_deleteFunction_ne_returns hexists hfound hrun
    · rintro (habsent | ⟨oid, found, hsame, -⟩)
      · refine ⟨before, run_deleteFunction_of_absent habsent, ?_, ?_, ?_, fun _ => rfl⟩
        · refine (List.filter_eq_self.mpr fun entry hentry => ?_).symm
          rw [hnotAt entry.2 (List.mem_map_of_mem hentry), Bool.not_false]
        · refine (List.filter_eq_self.mpr fun container _ => ?_).symm
          rw [Bool.not_eq_true', List.any_eq_false]
          intro lambda hlambda hselected
          rw [hnotAt lambda hlambda] at hselected
          cases hselected
        · exact fun lambda _ _ => ⟨fun container hcontainer _ => hcontainer, rfl⟩
      · rw [hfound] at hsame
        cases hsame

end Confinement

def twoRegions : World where
  lambdas :=
    { entries :=
        [("1", { region := "eu-central-1", function := "orders" }),
          ("2", { region := "eu-west-1", function := "orders" })]
      nodup := by decide }
  daemon := { containers := [], images := [] }

/-- The deletion in one region also removes the function of the other region. -/
theorem not_isConfined_twoRegions :
    ¬∀ backend region name before, IsConfined backend region name before := by
  intro hconfined
  have hfound : twoRegions.lambdas.findIf (isAt "eu-central-1" "orders") =
      some ("1", { region := "eu-central-1", function := "orders" }) := by
    refine List.find?_cons_of_pos ?_
    exact isAt_iff.mpr ⟨rfl, rfl⟩
  have hshares := (isConfined_iff_of_found hfound).mp
    (hconfined .memory "eu-central-1" "orders" twoRegions)
  have hregion := hshares.regions { region := "eu-west-1", function := "orders" }
    (.tail _ (.head _)) rfl
  exact absurd hregion (by decide)

end AwsMock.Lambdas.Entity.Deletion
