import AwsMock.Applications.Service

/-! # What starting an application does

The start of one application, for each of the ways in which its image may have containers,
and the way of its creation through the scheduler.
-/

namespace AwsMock.Applications

open Foundation Scheduling Containers

section Containers

variable {containers : List Container} {id name tag : String} {container : Container}

def mark (running : Bool) (id : String) (container : Container) : Container :=
  if container.id = id then { container with running := running } else container

variable (running : Bool)

theorem mark_id (id : String) (container : Container) :
    (mark running id container).id = container.id := by
  unfold mark
  split <;> rfl

theorem mark_image (id : String) (container : Container) :
    (mark running id container).image = container.image := by
  unfold mark
  split <;> rfl

theorem setRunning_eq (id : String) (containers : List Container) :
    setRunning containers running id = containers.map (mark running id) :=
  rfl

theorem map_id_setRunning (id : String) (containers : List Container) :
    (setRunning containers running id).map Container.id = containers.map Container.id := by
  rw [setRunning_eq, List.map_map]
  exact List.map_congr_left fun container _ => mark_id running id container

theorem list_setRunning (id : String) (containers : List Container) :
    listContainerByImageName (setRunning containers running id) name tag =
      (listContainerByImageName containers name tag).map (mark running id) := by
  rw [setRunning_eq, listContainerByImageName, List.filter_map, listContainerByImageName]
  congr 1
  apply List.filter_congr
  intro container _
  rw [Function.comp_apply, mark_image]

theorem find_id_of_mem (hids : (containers.map Container.id).Nodup) (hmem : container ∈ containers) :
    containers.find? (fun other => other.id = container.id) = some container := by
  induction containers with
  | nil => cases hmem
  | cons first containers ih =>
    rw [List.map_cons, List.nodup_cons] at hids
    rw [List.find?_cons]
    rcases List.mem_cons.mp hmem with rfl | hlater
    · rw [decide_eq_true rfl]
    · have hne : first.id ≠ container.id := by
        intro heq
        apply hids.1
        rw [heq]
        exact List.mem_map_of_mem hlater
      rw [decide_eq_false hne]
      exact ih hids.2 hlater

theorem inspectContainer_of_mem (hids : (containers.map Container.id).Nodup)
    (hmem : container ∈ containers) :
    inspectContainer containers container.id = some container := by
  rw [inspectContainer, find_id_of_mem hids hmem]
  rfl

theorem mem_of_mem_list (hmem : container ∈ listContainerByImageName containers name tag) :
    container ∈ containers :=
  (List.mem_filter.mp hmem).1

end Containers

section Store

variable {world : World} {application : Application} {key : String × String}

def World.app (world : World) (key : String × String) : Option Application :=
  findKey Application.key key world.applications

theorem app_updateApplication (world : World) (application : Application) (key : String × String) :
    (world.updateApplication application).app key =
      if application.key = key then some application else world.app key :=
  findKey_upsert application world.applications key

theorem findApplication_eq (world : World) (region name : String) :
    world.findApplication region name = world.app (region, name) :=
  rfl

theorem app_eq_some_iff (hkeys : (world.applications.map Application.key).Nodup) :
    world.app application.key = some application ↔ application ∈ world.applications := by
  refine ⟨mem_of_findKey, fun hmem => ?_⟩
  unfold World.app
  generalize world.applications = applications at hkeys hmem
  induction applications with
  | nil => cases hmem
  | cons first applications ih =>
    rw [List.map_cons, List.nodup_cons] at hkeys
    rw [findKey_cons]
    rcases List.mem_cons.mp hmem with rfl | hlater
    · exact if_pos rfl
    · have hne : first.key ≠ application.key := by
        intro heq
        apply hkeys.1
        rw [heq]
        exact List.mem_map_of_mem hlater
      rw [if_neg hne]
      exact ih hkeys.2 hlater

end Store

section Scheduler

variable {scheduler next : SchedulerState Creation} {pending : Option Creation}

/-- How far the creation is that the scheduler has: it is to be made, or only its removal is
left, or there is none. -/
inductive Busy (scheduler : SchedulerState Creation) : Option Creation → Prop where
  | idle (hentries : scheduler.entries = []) (hhandlers : scheduler.handlers = []) :
      Busy scheduler none
  | posted {id task} (hentries : scheduler.entries = [(id, task)]) (hname : task.name = World.startTask)
      (hdelay : ¬ task.delay > 0) (hhandlers : scheduler.handlers = [.start id]) :
      Busy scheduler (some task.body)
  | running {id task} (hentries : scheduler.entries = [(id, task)]) (hname : task.name = World.startTask)
      (hhandlers : scheduler.handlers = [.running id]) : Busy scheduler (some task.body)
  | done {id task} (hentries : scheduler.entries = [(id, task)]) (hname : task.name = World.startTask)
      (hhandlers : scheduler.handlers = [.shutdown World.startTask]) : Busy scheduler none

theorem Busy.add (hbusy : Busy scheduler pending) (creation : Creation) :
    (scheduler.findName World.startTask = none ∧
      Busy (scheduler.addOneTimeTask { name := World.startTask, body := creation }) (some creation) ∧
      pending = none) ∨
    (scheduler.findName World.startTask ≠ none ∧
      Busy (scheduler.addOneTimeTask { name := World.startTask, body := creation }) pending) := by
  have htaken : ∀ id (task : Scheduling.Task Creation), scheduler.entries = [(id, task)] →
      task.name = World.startTask → scheduler.findName World.startTask = some (id, task) := by
    intro id task hentries hname
    simp [SchedulerState.findName, hentries, hname]
  have hdropped : ∀ entry, scheduler.findName World.startTask = some entry →
      scheduler.addOneTimeTask { name := World.startTask, body := creation } =
        { scheduler with
          tasks := scheduler.tasks ++ [{ name := World.startTask, body := creation }] } := by
    intro entry hfound
    rw [SchedulerState.addOneTimeTask, hfound]
    rfl
  cases hbusy with
  | idle hentries hhandlers =>
    have hnone : scheduler.findName World.startTask = none := by
      simp [SchedulerState.findName, hentries]
    refine .inl ⟨hnone, ?_, rfl⟩
    rw [SchedulerState.addOneTimeTask, hnone]
    refine @Busy.posted _ scheduler.tasks.length { name := World.startTask, body := creation } ?_ rfl
      (Int.lt_irrefl 0) ?_
    · rw [if_neg (by simp), hentries]
      rfl
    · rw [if_neg (by simp), hhandlers]
      rfl
  | @posted id task hentries hname hdelay hhandlers =>
    have hfound := htaken id task hentries hname
    refine .inr ⟨by simp [hfound], ?_⟩
    rw [hdropped _ hfound]
    exact .posted hentries hname hdelay hhandlers
  | @running id task hentries hname hhandlers =>
    have hfound := htaken id task hentries hname
    refine .inr ⟨by simp [hfound], ?_⟩
    rw [hdropped _ hfound]
    exact .running hentries hname hhandlers
  | @done id task hentries hname hhandlers =>
    have hfound := htaken id task hentries hname
    refine .inr ⟨by simp [hfound], ?_⟩
    rw [hdropped _ hfound]
    exact .done hentries hname hhandlers

theorem Busy.handle (hbusy : Busy scheduler pending) {handler : Handler}
    (hstep : scheduler.step (.handle handler) = some next) :
    (Loop.finished scheduler handler = none ∧ Busy next pending) ∨
      (Loop.finished scheduler handler = pending ∧ pending ≠ none ∧ Busy next none) := by
  unfold SchedulerState.step at hstep
  dsimp only at hstep
  split_ifs at hstep with hmem
  cases hstep
  cases hbusy with
  | idle hentries hhandlers =>
    rw [hhandlers] at hmem
    cases hmem
  | @posted id task hentries hname hdelay hhandlers =>
    rw [hhandlers] at hmem
    obtain rfl := List.mem_singleton.mp hmem
    refine .inl ⟨rfl, ?_⟩
    rw [@SchedulerState.handle_start _ _ id (id, task) (by simp [SchedulerState.findId, hentries]),
      if_neg hdelay]
    refine .running hentries hname ?_
    simp [SchedulerState.begin, hhandlers]
  | @running id task hentries hname hhandlers =>
    rw [hhandlers] at hmem
    obtain rfl := List.mem_singleton.mp hmem
    refine .inr ⟨?_, by simp, ?_⟩
    · simp [Loop.finished, SchedulerState.findId, hentries]
    · rw [@SchedulerState.handle_running _ _ id (id, task)
        (by simp [SchedulerState.findId, hentries])]
      refine .done hentries hname ?_
      simp [hhandlers, hname]
  | @done id task hentries hname hhandlers =>
    rw [hhandlers] at hmem
    obtain rfl := List.mem_singleton.mp hmem
    refine .inl ⟨rfl, ?_⟩
    have hfound : (⟨scheduler.tasks, scheduler.entries,
        scheduler.handlers.erase (.shutdown World.startTask), scheduler.runs, scheduler.futures,
        scheduler.shutDown, scheduler.late⟩ : SchedulerState Creation).findName World.startTask =
        some (id, task) := by
      simp [SchedulerState.findName, hentries, hname]
    rw [SchedulerState.handle, SchedulerState.erase, hfound]
    refine .idle ?_ ?_
    · simp [hentries, hname]
    · simp [hhandlers]

end Scheduler

section Conditions

variable (environment : Environment)

def Application.IsStartable (application : Application) : Prop :=
  application.enabled = true ∧
    environment.fileExists (World.codeFile environment application) = true

instance (application : Application) : Decidable (application.IsStartable environment) :=
  inferInstanceAs (Decidable (_ ∧ _))

/-- An application can be started: there is no container of its image and no creation is
under way, or there is one, which runs, or which is the one the application knows or will
adopt. -/
def CanStart (world : World) (application : Application) : Prop :=
  match listContainerByImageName world.containers application.name application.version with
  | [] => world.scheduler.findName World.startTask = none
  | [container] => container.running = true ∨ application.containerName = "" ∨
      inspectContainer world.containers application.containerId = some container
  | _ => False

end Conditions

section Start

variable {environment : Environment} {world : World} {application : Application}
  {region name : String}

def Application.fixed (application : Application) : (String × String) × String × Bool :=
  (application.key, application.version, application.enabled)

theorem isEmpty_of_list_eq_nil
    (hlist : listContainerByImageName world.containers application.name application.version = []) :
    containerExistsByImageName world.containers application.name application.version = false := by
  rw [containerExistsByImageName, hlist]
  rfl

variable (instanceId : String)

theorem startApplication_of_missing
    (happ : world.app (region, name) = some application) (henabled : application.enabled = true)
    (hmissing : ¬ application.IsStartable environment) :
    world.startApplication environment region name instanceId =
      (world.updateApplication { application with status := .stopped },
        some (.core ("Application Base64 image does not exist, name: " ++
          World.codeFile environment application))) := by
  have hfile : ¬ environment.fileExists (World.codeFile environment application) = true :=
    fun hexists => hmissing ⟨henabled, hexists⟩
  rw [World.startApplication, findApplication_eq, happ]
  dsimp only
  rw [if_neg (by simp [henabled]), if_pos (by simpa using hfile)]

theorem updateApplication_twice (world : World) {first second : Application}
    (hkey : first.key = second.key) :
    (world.updateApplication first).updateApplication second =
      world.updateApplication second := by
  unfold World.updateApplication
  dsimp only
  congr 1
  generalize world.applications = applications
  induction applications with
  | nil =>
    have hnil : ∀ application : Application, upsert Application.key application [] =
        [application] := fun _ => rfl
    rw [hnil, hnil, upsert_cons, if_pos hkey]
  | cons other applications ih =>
    rw [upsert_cons, upsert_cons]
    split_ifs with hfirst hsecond hsecond
    · rw [upsert_cons, if_pos hkey]
    · exact absurd (hfirst.trans hkey) hsecond
    · exact absurd (hsecond.trans hkey.symm) hfirst
    · rw [upsert_cons, if_neg hsecond, ih]

theorem fixed_adoptContainer (world : World) (application : Application) :
    (world.adoptContainer application).fixed = application.fixed := by
  unfold World.adoptContainer
  split
  · split
    · split <;> rfl
    · rfl
  · rfl

theorem status_adoptContainer (world : World) (application : Application) :
    (world.adoptContainer application).status = application.status := by
  unfold World.adoptContainer
  split
  · split
    · split <;> rfl
    · rfl
  · rfl

theorem startApplication_of_startable
    (happ : world.app (region, name) = some application)
    (hstartable : application.IsStartable environment) :
    ∃ adopted creation, adopted = world.adoptContainer { application with status := .pending } ∧
      (creation.region, creation.name) = application.key ∧
      world.startApplication environment region name instanceId =
        if !containerExistsByImageName world.containers application.name application.version then
          ({ world.updateApplication adopted with
              scheduler := world.scheduler.addOneTimeTask
                { name := World.startTask, body := creation } }, none)
        else ((world.updateApplication adopted).resumeApplication adopted, none) := by
  have hfixed := fixed_adoptContainer world { application with status := .pending }
  generalize hadopted : world.adoptContainer { application with status := .pending } = adopted
    at hfixed
  have hkey : adopted.key = application.key := congrArg Prod.fst hfixed
  have hname : adopted.name = application.name := congrArg Prod.snd hkey
  have hversion : adopted.version = application.version :=
    congrArg (fun fixed => fixed.2.1) hfixed
  refine ⟨adopted, ⟨World.codeFile environment adopted, adopted.region, adopted.name, instanceId⟩,
    rfl, hkey, ?_⟩
  rw [World.startApplication, findApplication_eq, happ]
  dsimp only
  rw [if_neg (by simp [hstartable.1]), if_neg (by simp [hstartable.2])]
  have hsame : (world.updateApplication { application with status := .pending }).adoptContainer
      { application with status := .pending } = adopted :=
    hadopted
  have htwice : (world.updateApplication { application with status := .pending }).updateApplication
      adopted = world.updateApplication adopted :=
    updateApplication_twice world hkey.symm
  rw [hsame, htwice, hname, hversion]
  rfl

def World.startKnown (world : World) (application : Application) : World :=
  match inspectContainer world.containers application.containerId with
  | some container =>
    if container.running then world
    else { world with containers := startContainer world.containers container.id }
  | none => world

theorem resumeApplication_eq (world : World) (application : Application) {first : Container}
    (hfirst : getFirstContainerByImageName (world.startKnown application).containers
      application.name application.version = some first)
    (hinspect : inspectContainer (world.startKnown application).containers first.id = some first) :
    world.resumeApplication application = (world.startKnown application).updateApplication
        { application with
          containerId := first.id
          containerName := first.name
          status := if first.running then .running else .stopped } := by
  unfold World.resumeApplication
  dsimp only
  split
  next hnone => exact absurd (hfirst.symm.trans hnone) (Option.some_ne_none _)
  next found hfound =>
    obtain rfl := Option.some.inj (hfirst.symm.trans hfound)
    split
    next hnone => exact absurd (hinspect.symm.trans hnone) (Option.some_ne_none _)
    next container hcontainer =>
      obtain rfl := Option.some.inj (hinspect.symm.trans hcontainer)
      rfl

theorem resumeApplication_of_single {container : Container}
    (hids : (world.containers.map Container.id).Nodup)
    (hlist : listContainerByImageName world.containers application.name application.version =
      [container])
    (hruns : container.running = true ∨
      inspectContainer world.containers application.containerId = some container) :
    ∃ containers resumed, (containers = world.containers ∨
        ∃ id, containers = setRunning world.containers true id) ∧
      resumed.fixed = application.fixed ∧ resumed.status = .running ∧
      world.resumeApplication application =
        { world with containers := containers }.updateApplication resumed := by
  -- Starting a container keeps the others, and leaves the one of the image running.
  have hstart : ∃ containers first, (containers = world.containers ∨
        ∃ id, containers = setRunning world.containers true id) ∧
      (containers.map Container.id).Nodup ∧
      listContainerByImageName containers application.name application.version = [first] ∧
      first.running = true ∧
      world.startKnown application = { world with containers := containers } := by
    unfold World.startKnown
    have hstarted : ∀ id, (container.running = true ∨ container.id = id) →
        listContainerByImageName (setRunning world.containers true id) application.name
          application.version = [mark true id container] ∧
        (mark true id container).running = true := by
      intro id hcontainer
      refine ⟨by rw [list_setRunning, hlist]; rfl, ?_⟩
      unfold mark
      split
      · rfl
      · next hother => exact hcontainer.resolve_right hother
    cases hinspect : inspectContainer world.containers application.containerId with
    | none =>
      rw [hinspect] at hruns
      exact ⟨world.containers, container, .inl rfl, hids, hlist, hruns.resolve_right (by simp), rfl⟩
    | some known =>
      rw [hinspect] at hruns
      dsimp only
      by_cases hrunning : known.running = true
      · rw [if_pos hrunning]
        refine ⟨world.containers, container, .inl rfl, hids, hlist, ?_, rfl⟩
        rcases hruns with hruns | hruns
        · exact hruns
        · cases hruns
          exact hrunning
      · rw [if_neg hrunning]
        have hcontainer : container.running = true ∨ container.id = known.id := by
          rcases hruns with hruns | hruns
          · exact .inl hruns
          · cases hruns
            exact .inr rfl
        exact ⟨_, _, .inr ⟨known.id, rfl⟩, by rwa [map_id_setRunning],
          (hstarted known.id hcontainer).1, (hstarted known.id hcontainer).2, rfl⟩
  obtain ⟨containers, first, hcontainers, hnodup, hfirst, hrunning, hworld⟩ := hstart
  have hmem : first ∈ containers :=
    mem_of_mem_list (hfirst ▸ List.mem_singleton_self first)
  refine ⟨containers, { application with
      containerId := first.id, containerName := first.name, status := .running },
    hcontainers, rfl, rfl, ?_⟩
  rw [@resumeApplication_eq world application first, hworld, if_pos hrunning]
  · rw [hworld, getFirstContainerByImageName, hfirst]
    rfl
  · rw [hworld]
    exact inspectContainer_of_mem hnodup hmem

theorem startApplication_of_canStart (hids : (world.containers.map Container.id).Nodup)
    (hnonempty : ∀ container ∈ world.containers, container.id ≠ "")
    (happ : world.app (region, name) = some application)
    (hstartable : application.IsStartable environment) (hcan : CanStart world application) :
    ∃ next started, world.startApplication environment region name instanceId = (next, none) ∧
      next.applications = upsert Application.key started world.applications ∧
      started.fixed = application.fixed ∧
      ((∃ creation, listContainerByImageName world.containers application.name
            application.version = [] ∧ (creation.region, creation.name) = application.key ∧
          started.status = .pending ∧ next.containers = world.containers ∧
          world.scheduler.findName World.startTask = none ∧
          next.scheduler = world.scheduler.addOneTimeTask
            { name := World.startTask, body := creation }) ∨
        (∃ container, listContainerByImageName world.containers application.name
            application.version = [container]) ∧ started.status = .running ∧
          next.scheduler = world.scheduler ∧ (next.containers = world.containers ∨
            ∃ id, next.containers = setRunning world.containers true id)) := by
  obtain ⟨adopted, creation, hadopted, hcreation, hstart⟩ :=
    startApplication_of_startable instanceId happ hstartable
  have hfixed : adopted.fixed = application.fixed := by
    rw [hadopted]
    exact fixed_adoptContainer world _
  have hname : adopted.name = application.name := congrArg (fun fixed => fixed.1.2) hfixed
  have hversion : adopted.version = application.version :=
    congrArg (fun fixed => fixed.2.1) hfixed
  unfold CanStart at hcan
  cases hlist : listContainerByImageName world.containers application.name
      application.version with
  | nil =>
    rw [hlist] at hcan
    rw [containerExistsByImageName, hlist] at hstart
    refine ⟨_, adopted, hstart, rfl, hfixed, .inl ⟨creation, rfl, hcreation, ?_, rfl, hcan, rfl⟩⟩
    rw [hadopted]
    exact status_adoptContainer world _
  | cons container others =>
    rw [hlist] at hcan
    cases others with
    | cons second others => exact hcan.elim
    | nil =>
      have hmem : container ∈ world.containers :=
        mem_of_mem_list (hlist ▸ List.mem_singleton_self container)
      have hruns : container.running = true ∨
          inspectContainer world.containers adopted.containerId = some container := by
        rcases hcan with hrunning | hunnamed | hknown
        · exact .inl hrunning
        · refine .inr ?_
          rw [hadopted, World.adoptContainer, if_pos hunnamed, getFirstContainerByImageName]
          dsimp only
          rw [hlist]
          dsimp only [List.head?_cons]
          rw [if_neg (hnonempty container hmem)]
          exact inspectContainer_of_mem hids hmem
        · refine .inr ?_
          rw [hadopted, World.adoptContainer, getFirstContainerByImageName]
          dsimp only
          rw [hlist]
          dsimp only [List.head?_cons]
          rw [if_neg (hnonempty container hmem)]
          split
          · exact inspectContainer_of_mem hids hmem
          · exact hknown
      obtain ⟨containers, resumed, hcontainers, hresumed, hstatus, hworld⟩ :=
        @resumeApplication_of_single (world.updateApplication adopted) adopted container hids
          (by rw [hname, hversion]; exact hlist) hruns
      rw [containerExistsByImageName, hlist] at hstart
      refine ⟨_, resumed, hstart.trans (congrArg (fun world => (world, none)) hworld), ?_,
        hresumed.trans hfixed, .inr ⟨⟨container, rfl⟩, hstatus, rfl, hcontainers⟩⟩
      have htwice := updateApplication_twice world (congrArg Prod.fst hresumed).symm
      exact congrArg World.applications htwice

theorem applicationCreator_of_none {creation : Creation}
    (happ : world.app (creation.region, creation.name) = some application)
    (hlist : listContainerByImageName world.containers application.name application.version = []) :
    ∃ container created, world.applicationCreator environment creation =
        { world with containers := world.containers ++ [container] }.updateApplication created ∧
      container.id = environment.newId world.containers ∧
      container.image = target application.name application.version ∧
      created.fixed = application.fixed ∧ created.status = .running := by
  let container : Container :=
    { id := environment.newId world.containers
      name := application.name ++ "-" ++ creation.instanceId
      image := target application.name application.version
      running := true }
  refine ⟨container, { application with
    containerId := container.id, containerName := container.name, status := .running },
    ?_, rfl, rfl, rfl, rfl⟩
  rw [World.applicationCreator, findApplication_eq, happ]
  dsimp only
  rw [isEmpty_of_list_eq_nil hlist]
  rfl

end Start

end AwsMock.Applications
