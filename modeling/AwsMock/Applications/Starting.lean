import AwsMock.Applications.Steps
import Mathlib.Algebra.Order.BigOperators.Group.List
import Mathlib.Algebra.Order.Ring.Nat

/-! # All applications are started

A creation is submitted under one name for all applications, and the scheduler drops a task
whose name is taken. So an application without a container is started only when the creation
before it is through; one with a container is started when the container that it knows is
the one of its image, or when that runs already.
-/

namespace AwsMock.Applications

open Foundation Scheduling Containers

section Properties

variable (environment : Environment)

/-- What has come of the applications when a loop is over and its tasks have run. -/
structure IsStarted (before : World) (after : Loop) : Prop where
  running : ∀ application ∈ after.world.applications, application.IsStartable environment →
    application.status = .running ∧
      ∃ container, listContainerByImageName after.world.containers application.name
        application.version = [container]
  missing : ∀ application ∈ after.world.applications, application.enabled = true →
    ¬ application.IsStartable environment → application.status = .stopped
  settled : ∀ application ∈ after.world.applications, application.enabled = true →
    application.status ≠ .pending
  count : after.count = after.world.applications.countP fun application =>
    application.IsStartable environment
  disabled : ∀ application ∈ before.applications, application.enabled = false →
    application ∈ after.world.applications

def Heeds (loop : Loop) : Move → Prop
  | .next _ => ∀ application ∈ loop.todo.head?, application.IsStartable environment →
      CanStart loop.world application
  | .handle _ => True

def Heeded : List Move → Loop → Prop
  | [], _ => True
  | move :: moves, loop =>
    Heeds environment loop move ∧ ∀ next, loop.step environment move = some next → Heeded moves next

/-- The applications have names of their own, and so have the containers. -/
structure World.IsValid (world : World) : Prop where
  keys : (world.applications.map Application.key).Nodup
  ids : (world.containers.map Container.id).Nodup
  nonempty : ∀ container ∈ world.containers, container.id ≠ ""

/-- The daemon gives a new container an identifier that no other has. -/
def Environment.DrawsNewIds : Prop :=
  ∀ containers, environment.newId containers ≠ "" ∧
    environment.newId containers ∉ containers.map Container.id

end Properties

section Invariant

variable {environment : Environment} {before world : World} {pending : Option Creation}
  {done todo : List Application}

/-- An application that the loop has started runs in its one container, or its creation is
pending. -/
def Served (world : World) (pending : Option Creation) (application : Application) : Prop :=
  ∃ current, world.app application.key = some current ∧ current.fixed = application.fixed ∧
    ((current.status = .running ∧ ∃ container, listContainerByImageName world.containers
        application.name application.version = [container]) ∨
      (listContainerByImageName world.containers application.name application.version = [] ∧
        ∃ creation, pending = some creation ∧ (creation.region, creation.name) = application.key))

structure Passed (environment : Environment) (world : World) (pending : Option Creation)
    (application : Application) : Prop where
  disabled : application.enabled = false → world.app application.key = some application
  missing : application.enabled = true → ¬ application.IsStartable environment →
    ∃ current, world.app application.key = some current ∧
      current.fixed = application.fixed ∧ current.status = .stopped
  startable : application.IsStartable environment → Served world pending application

/-- What holds of a loop that has passed some applications, if all of them could be started. -/
structure Progress (environment : Environment) (before : World) (loop : Loop)
    (done : List Application) (pending : Option Creation) : Prop where
  listed : before.applications = done ++ loop.todo
  keys : (before.applications.map Application.key).Nodup
  fixed : loop.world.applications.map Application.fixed = before.applications.map Application.fixed
  ids : (loop.world.containers.map Container.id).Nodup
  nonempty : ∀ container ∈ loop.world.containers, container.id ≠ ""
  busy : Busy loop.world.scheduler pending
  owner : ∀ creation ∈ pending, ∃ application ∈ done, application.IsStartable environment ∧
    (creation.region, creation.name) = application.key ∧
    listContainerByImageName loop.world.containers application.name application.version = []
  untouched : ∀ application ∈ loop.todo, loop.world.app application.key = some application
  passed : ∀ application ∈ done, Passed environment loop.world pending application
  count : loop.count = done.countP fun application => application.IsStartable environment

variable {application : Application} {applications : List Application} {pending' : Option Creation}

theorem map_fixed_upsert {application current : Application}
    (hfound : findKey Application.key application.key applications = some current)
    (hfixed : application.fixed = current.fixed) :
    (upsert Application.key application applications).map Application.fixed =
      applications.map Application.fixed := by
  induction applications with
  | nil => cases hfound
  | cons first applications ih =>
    rw [findKey_cons] at hfound
    rw [upsert_cons]
    split_ifs at hfound with hkey
    · cases hfound
      rw [if_pos hkey, List.map_cons, List.map_cons, hfixed]
    · rw [if_neg hkey, List.map_cons, List.map_cons, ih hfound]

theorem app_of_map_fixed (hkeys : (applications.map Application.key).Nodup)
    (hfixed : world.applications.map Application.fixed = applications.map Application.fixed)
    (hmem : application ∈ world.applications) :
    world.app application.key = some application ∧
      ∃ other ∈ applications, other.fixed = application.fixed := by
  constructor
  · have hkeyed : world.applications.map Application.key = applications.map Application.key := by
      have hmap := congrArg (List.map Prod.fst) hfixed
      rwa [List.map_map, List.map_map] at hmap
    exact (app_eq_some_iff (hkeyed ▸ hkeys)).mpr hmem
  · have hfound : application.fixed ∈ applications.map Application.fixed :=
      hfixed ▸ List.mem_map_of_mem hmem
    obtain ⟨other, hother, heq⟩ := List.mem_map.mp hfound
    exact ⟨other, hother, heq⟩

theorem isStartable_congr {application other : Application}
    (hfixed : application.fixed = other.fixed) :
    application.IsStartable environment ↔ other.IsStartable environment := by
  have hname : application.name = other.name := congrArg (fun fixed => fixed.1.2) hfixed
  have hversion : application.version = other.version := congrArg (fun fixed => fixed.2.1) hfixed
  have henabled : application.enabled = other.enabled := congrArg (fun fixed => fixed.2.2) hfixed
  unfold Application.IsStartable World.codeFile
  rw [hname, hversion, henabled]

theorem countP_congr {applications others : List Application}
    (hfixed : applications.map Application.fixed = others.map Application.fixed) :
    applications.countP (fun application => application.IsStartable environment) =
      others.countP fun application => application.IsStartable environment := by
  induction applications generalizing others with
  | nil =>
    rw [List.map_nil, eq_comm, List.map_eq_nil_iff] at hfixed
    rw [hfixed]
  | cons application applications ih =>
    cases others with
    | nil => cases hfixed
    | cons other others =>
      rw [List.map_cons, List.map_cons, List.cons.injEq] at hfixed
      rw [List.countP_cons, List.countP_cons, ih hfixed.2,
        decide_eq_decide.mpr (isStartable_congr hfixed.1)]

theorem Served.frame {next : World} (hserved : Served world pending application)
    (happ : next.app application.key = world.app application.key)
    (hsingle : (∃ container, listContainerByImageName world.containers application.name
        application.version = [container]) →
      ∃ container, listContainerByImageName next.containers application.name
        application.version = [container])
    (hnone : ∀ creation, pending = some creation →
      (creation.region, creation.name) = application.key →
      listContainerByImageName world.containers application.name application.version = [] →
      listContainerByImageName next.containers application.name application.version = [] ∧
        pending' = some creation) :
    Served next pending' application := by
  obtain ⟨current, hcurrent, hfixed, ⟨hstatus, hone⟩ | ⟨hlist, creation, hpending, hkey⟩⟩ :=
    hserved
  · exact ⟨current, happ.trans hcurrent, hfixed, .inl ⟨hstatus, hsingle hone⟩⟩
  · obtain ⟨hkept, hsame⟩ := hnone creation hpending hkey hlist
    exact ⟨current, happ.trans hcurrent, hfixed, .inr ⟨hkept, creation, hsame, hkey⟩⟩

theorem Passed.frame {next : World} (hpassed : Passed environment world pending application)
    (happ : next.app application.key = world.app application.key)
    (hserved : Served world pending application → Served next pending' application) :
    Passed environment next pending' application where
  disabled hdisabled := happ.trans (hpassed.disabled hdisabled)
  missing henabled hmissing := happ ▸ hpassed.missing henabled hmissing
  startable hstartable := hserved (hpassed.startable hstartable)

/-- The containers are what they were, but for one that may have been started. -/
def Kept (containers next : List Container) : Prop :=
  next = containers ∨ ∃ id, next = setRunning containers true id

theorem Kept.map_id {containers next : List Container} (hkept : Kept containers next) :
    next.map Container.id = containers.map Container.id := by
  rcases hkept with rfl | ⟨id, rfl⟩
  · rfl
  · exact map_id_setRunning true id containers

theorem Kept.list {containers next : List Container} (hkept : Kept containers next) :
    ∃ change : Container → Container, ∀ name tag, listContainerByImageName next name tag =
      (listContainerByImageName containers name tag).map change := by
  rcases hkept with rfl | ⟨id, rfl⟩
  · exact ⟨id, fun name tag => (List.map_id _).symm⟩
  · exact ⟨mark true id, fun name tag => list_setRunning true id containers⟩

theorem nonempty_of_map_id {containers next : List Container}
    (hids : next.map Container.id = containers.map Container.id)
    (hnonempty : ∀ container ∈ containers, container.id ≠ "") :
    ∀ container ∈ next, container.id ≠ "" := by
  intro container hmem
  have hid : container.id ∈ containers.map Container.id := hids ▸ List.mem_map_of_mem hmem
  obtain ⟨other, hother, heq⟩ := List.mem_map.mp hid
  exact heq ▸ hnonempty other hother

end Invariant

section Advance

variable {environment : Environment} {before world next : World} {pending pending' : Option Creation}
  {done rest : List Application} {application : Application} {count count' : Nat}

theorem Progress.advance
    (hprogress : Progress environment before ⟨world, application :: rest, count⟩ done pending)
    (hfixed : next.applications.map Application.fixed = world.applications.map Application.fixed)
    (happ : ∀ key, key ≠ application.key → next.app key = world.app key)
    (hkept : Kept world.containers next.containers) (hbusy : Busy next.scheduler pending')
    (hpending : pending = none ∨ pending' = pending)
    (howner : ∀ creation ∈ pending', creation ∈ pending ∨
      application.IsStartable environment ∧ (creation.region, creation.name) = application.key ∧
        listContainerByImageName world.containers application.name application.version = [])
    (hpassed : Passed environment next pending' application)
    (hcount : count' = count + if application.IsStartable environment then 1 else 0) :
    Progress environment before ⟨next, rest, count'⟩ (done ++ [application]) pending' := by
  obtain ⟨hlisted, hkeys, hsame, hids, hnonempty, -, howned, huntouched, hdone, hcounted⟩ :=
    hprogress
  obtain ⟨change, hlist⟩ := hkept.list
  have hnil : ∀ name tag, listContainerByImageName world.containers name tag = [] →
      listContainerByImageName next.containers name tag = [] := by
    intro name tag hempty
    rw [hlist, hempty]
    rfl
  -- The other applications have other keys.
  have hothers : (∀ other ∈ done, other.key ≠ application.key) ∧
      ∀ other ∈ rest, other.key ≠ application.key := by
    rw [hlisted, List.map_append, List.nodup_append, List.map_cons, List.nodup_cons] at hkeys
    obtain ⟨-, ⟨hfresh, -⟩, hapart⟩ := hkeys
    refine ⟨fun other hother => hapart _ (List.mem_map_of_mem hother) _ List.mem_cons_self, ?_⟩
    intro other hother heq
    exact hfresh (heq ▸ List.mem_map_of_mem hother)
  refine ⟨?_, hkeys, hfixed.trans hsame, ?_, ?_, hbusy, ?_, ?_, ?_, ?_⟩
  · rw [hlisted, List.append_assoc]
    rfl
  · change (next.containers.map Container.id).Nodup
    rw [hkept.map_id]
    exact hids
  · exact nonempty_of_map_id hkept.map_id hnonempty
  · intro creation hcreation
    rcases howner creation hcreation with hold | ⟨hstartable, hkey, hempty⟩
    · obtain ⟨owner, hmem, hstartable, hkey, hempty⟩ := howned creation hold
      exact ⟨owner, List.mem_append_left _ hmem, hstartable, hkey, hnil _ _ hempty⟩
    · exact ⟨application, List.mem_append_right _ (List.mem_singleton_self _), hstartable, hkey,
        hnil _ _ hempty⟩
  · intro other hother
    exact (happ _ (hothers.2 other hother)).trans (huntouched other (List.mem_cons_of_mem _ hother))
  · intro other hother
    rcases List.mem_append.mp hother with hold | hnew
    · have hunchanged := happ _ (hothers.1 other hold)
      refine (hdone other hold).frame hunchanged fun hserved => hserved.frame hunchanged ?_ ?_
      · rintro ⟨container, hone⟩
        rw [hlist]
        change listContainerByImageName world.containers _ _ = _ at hone
        rw [hone]
        exact ⟨change container, rfl⟩
      · intro creation hsome _ hempty
        refine ⟨hnil _ _ hempty, ?_⟩
        rcases hpending with hnone | hequal
        · rw [hnone] at hsome
          cases hsome
        · exact hequal.trans hsome
    · rw [List.mem_singleton] at hnew
      exact hnew ▸ hpassed
  · rw [List.countP_append, List.countP_singleton, hcount]
    change count = _ at hcounted
    rw [hcounted]
    simp only [decide_eq_true_eq]

variable {scheduler : SchedulerState Creation} {loop after : Loop}

theorem Progress.loop_next {instanceId : String}
    (hprogress : Progress environment before loop done pending)
    (hheeds : Heeds environment loop (.next instanceId))
    (hstep : loop.next environment instanceId = some after) :
    ∃ application pending', Progress environment before after (done ++ [application]) pending' := by
  obtain ⟨world, todo, count⟩ := loop
  cases todo with
  | nil => cases hstep
  | cons application rest =>
    have happ : world.app application.key = some application :=
      hprogress.untouched application List.mem_cons_self
    refine ⟨application, ?_⟩
    unfold Loop.next at hstep
    dsimp only at hstep
    by_cases henabled : application.enabled = true
    · rw [if_pos henabled] at hstep
      by_cases hstartable : application.IsStartable environment
      · obtain ⟨next, started, hstart, happs, hfixed, hcases⟩ :=
          startApplication_of_canStart instanceId hprogress.ids hprogress.nonempty happ hstartable
            (hheeds application rfl hstartable)
        rw [hstart] at hstep
        cases hstep
        have hkey : started.key = application.key := congrArg Prod.fst hfixed
        have hmap : next.applications.map Application.fixed =
            world.applications.map Application.fixed := by
          rw [happs]
          exact map_fixed_upsert (hkey ▸ happ) hfixed
        have hfound : ∀ key, next.app key =
            if started.key = key then some started else world.app key := by
          intro key
          unfold World.app
          rw [happs]
          exact findKey_upsert started world.applications key
        have hother : ∀ key, key ≠ application.key → next.app key = world.app key :=
          fun key hne => (hfound key).trans (if_neg fun heq => hne (heq.symm.trans hkey))
        have hself : next.app application.key = some started :=
          (hfound application.key).trans (if_pos hkey)
        have hpassed : ∀ pending', ((started.status = .running ∧ ∃ container,
            listContainerByImageName next.containers application.name application.version =
              [container]) ∨
            (listContainerByImageName next.containers application.name application.version = [] ∧
              ∃ creation, pending' = some creation ∧
                (creation.region, creation.name) = application.key)) →
            Passed environment next pending' application := by
          intro pending' hserved
          refine ⟨fun hdisabled => ?_, fun _ hmissing => absurd hstartable hmissing,
            fun _ => ⟨started, hself, hfixed, hserved⟩⟩
          rw [henabled] at hdisabled
          cases hdisabled
        rcases hcases with ⟨creation, hempty, hcreation, hstatus, hcontainers, hfree,
          hscheduler⟩ | ⟨⟨container, hone⟩, hstatus, hscheduler, hcontainers⟩
        · rcases hprogress.busy.add creation with ⟨-, hbusy, hnone⟩ | ⟨htaken, -⟩
          · refine ⟨some creation, hprogress.advance hmap hother (.inl hcontainers)
              (hscheduler ▸ hbusy) (.inl hnone) ?_ (hpassed _ (.inr ⟨?_, creation, rfl, hcreation⟩))
              (by rw [if_pos hstartable])⟩
            · intro other hother
              cases hother
              exact .inr ⟨hstartable, hcreation, hempty⟩
            · rw [hcontainers]
              exact hempty
          · exact absurd hfree htaken
        · refine ⟨pending, hprogress.advance hmap hother hcontainers
            (hscheduler ▸ hprogress.busy) (.inr rfl) (fun _ hcreation => .inl hcreation)
            (hpassed _ (.inl ⟨hstatus, ?_⟩)) (by rw [if_pos hstartable])⟩
          obtain ⟨change, hlist⟩ := Kept.list hcontainers
          rw [hlist, hone]
          exact ⟨change container, rfl⟩
      · have hstart := @startApplication_of_missing environment world application _ _ instanceId
          happ henabled hstartable
        rw [hstart] at hstep
        cases hstep
        have hfound := app_updateApplication world { application with status := .stopped }
        refine ⟨pending, hprogress.advance (map_fixed_upsert happ rfl)
          (fun key hne => (hfound key).trans (if_neg fun heq => hne heq.symm)) (.inl rfl)
          hprogress.busy (.inr rfl) (fun _ hcreation => .inl hcreation) ?_
          (by rw [if_neg hstartable]; rfl)⟩
        refine ⟨fun hdisabled => ?_, fun _ _ => ⟨{ application with status := .stopped },
          (hfound application.key).trans (if_pos rfl), rfl, rfl⟩,
          fun hyes => absurd hyes hstartable⟩
        rw [henabled] at hdisabled
        cases hdisabled
    · rw [if_neg henabled] at hstep
      cases hstep
      have hstartable : ¬ application.IsStartable environment := fun hyes => henabled hyes.1
      exact ⟨pending, hprogress.advance rfl (fun _ _ => rfl) (.inl rfl) hprogress.busy (.inr rfl)
        (fun _ hcreation => .inl hcreation)
        ⟨fun _ => happ, fun hyes => absurd hyes henabled, fun hyes => absurd hyes hstartable⟩
        (by rw [if_neg hstartable]; rfl)⟩

theorem list_append (containers : List Container) (container : Container) (name tag : String) :
    listContainerByImageName (containers ++ [container]) name tag =
      listContainerByImageName containers name tag ++
        if container.image = target name tag then [container] else [] := by
  unfold listContainerByImageName
  rw [List.filter_append]
  by_cases himage : container.image = target name tag <;> simp [himage]

section

variable (hdraws : environment.DrawsNewIds)
include hdraws

theorem Progress.create {loop : Loop} {creation : Creation}
    (hprogress : Progress environment before loop done (some creation))
    (hbusy : Busy scheduler none) :
    Progress environment before { loop with
      world := { loop.world.applicationCreator environment creation with scheduler := scheduler } }
      done none := by
  obtain ⟨world, todo, count⟩ := loop
  obtain ⟨hlisted, hkeys, hsame, hids, hnonempty, -, howned, huntouched, hdone, hcounted⟩ :=
    hprogress
  obtain ⟨owner, howner, hstartable, hkey, hempty⟩ := howned creation rfl
  obtain ⟨current, hcurrent, hcurrentFixed, -⟩ := (hdone owner howner).startable hstartable
  have hname : current.name = owner.name := congrArg (fun fixed => fixed.1.2) hcurrentFixed
  have hversion : current.version = owner.version :=
    congrArg (fun fixed => fixed.2.1) hcurrentFixed
  obtain ⟨container, created, hcreator, hid, himage, hcreatedFixed, hstatus⟩ :=
    @applicationCreator_of_none environment world current creation (hkey ▸ hcurrent)
      (by rw [hname, hversion]; exact hempty)
  have hcreatedKey : created.key = owner.key :=
    (congrArg Prod.fst hcreatedFixed).trans (congrArg Prod.fst hcurrentFixed)
  rw [hname, hversion] at himage
  have hfound : ∀ key, ({ world.applicationCreator environment creation with
      scheduler := scheduler } : World).app key =
        if created.key = key then some created else world.app key := by
    intro key
    rw [hcreator]
    exact findKey_upsert created world.applications key
  have hcontainers : ({ world.applicationCreator environment creation with
      scheduler := scheduler } : World).containers = world.containers ++ [container] := by
    rw [hcreator]
    rfl
  have happs : ({ world.applicationCreator environment creation with
      scheduler := scheduler } : World).applications =
        upsert Application.key created world.applications := by
    rw [hcreator]
    rfl
  have hscheduler : ({ world.applicationCreator environment creation with
      scheduler := scheduler } : World).scheduler = scheduler := rfl
  generalize ({ world.applicationCreator environment creation with
    scheduler := scheduler } : World) = next at hfound hcontainers happs hscheduler
  have hdistinct : ∀ other ∈ done ++ todo, other.key = owner.key → other = owner := by
    intro other hother heq
    exact List.inj_on_of_nodup_map hkeys (hlisted ▸ hother)
      (hlisted ▸ List.mem_append_left todo howner) heq
  have hother : ∀ key, key ≠ owner.key → next.app key = world.app key :=
    fun key hne => (hfound key).trans (if_neg fun heq => hne (heq.symm.trans hcreatedKey))
  have hself : next.app owner.key = some created :=
    (hfound owner.key).trans (if_pos hcreatedKey)
  -- Only the image of the owner gets a container.
  have hlist : ∀ name tag, listContainerByImageName world.containers name tag ≠ [] →
      listContainerByImageName next.containers name tag =
        listContainerByImageName world.containers name tag := by
    intro name tag hsome
    rw [hcontainers, list_append, if_neg, List.append_nil]
    intro heq
    apply hsome
    rw [himage] at heq
    unfold listContainerByImageName at hempty ⊢
    rw [← heq]
    exact hempty
  have hone : listContainerByImageName next.containers owner.name owner.version = [container] := by
    rw [hcontainers, list_append, hempty, if_pos himage]
    rfl
  have hnew := hdraws world.containers
  refine ⟨hlisted, hkeys, ?_, ?_, ?_, hscheduler ▸ hbusy, (fun _ hnone => by cases hnone), ?_, ?_,
    hcounted⟩
  · rw [← hsame]
    change next.applications.map Application.fixed = _
    rw [happs]
    exact map_fixed_upsert (hcreatedKey ▸ hcurrent) (hcreatedFixed)
  · change (next.containers.map Container.id).Nodup
    rw [hcontainers, List.map_append, List.map_cons, List.map_nil, hid]
    refine List.Nodup.append hids (List.nodup_singleton _) ?_
    rw [List.disjoint_singleton]
    exact hnew.2
  · intro other hmem
    change other ∈ next.containers at hmem
    rw [hcontainers] at hmem
    rcases List.mem_append.mp hmem with hold | hadded
    · exact hnonempty other hold
    · rw [List.mem_singleton.mp hadded, hid]
      exact hnew.1
  · intro other hmem
    refine (hother _ fun heq => ?_).trans (huntouched other hmem)
    -- An application that is still to come is not the owner.
    have hsameApp := hdistinct other (List.mem_append_right _ hmem) heq
    change before.applications = done ++ todo at hlisted
    rw [hlisted, List.map_append, List.nodup_append] at hkeys
    exact hkeys.2.2 _ (List.mem_map_of_mem howner) _ (List.mem_map_of_mem hmem)
      (congrArg Application.key hsameApp.symm)
  · intro other hmem
    by_cases heq : other.key = owner.key
    · obtain rfl := hdistinct other (List.mem_append_left _ hmem) heq
      refine ⟨fun hdisabled => ?_, fun _ hmissing => absurd hstartable hmissing,
        fun _ => ⟨created, hself, hcreatedFixed.trans hcurrentFixed,
          .inl ⟨hstatus, container, hone⟩⟩⟩
      rw [hstartable.1] at hdisabled
      cases hdisabled
    · refine (hdone other hmem).frame (hother _ heq) fun hserved =>
        hserved.frame (hother _ heq) ?_ ?_
      · rintro ⟨single, hsingle⟩
        rw [hlist _ _ (by rw [hsingle]; exact List.cons_ne_nil _ _)]
        exact ⟨single, hsingle⟩
      · intro waiting hsome hwaiting _
        cases hsome
        exact absurd (hwaiting.symm.trans hkey) heq

theorem Progress.loop_handle {handler : Handler}
    (hprogress : Progress environment before loop done pending)
    (hstep : loop.handle environment handler = some after) :
    ∃ pending', Progress environment before after done pending' := by
  unfold Loop.handle at hstep
  cases hscheduler : loop.world.scheduler.step (.handle handler) with
  | none =>
    rw [hscheduler] at hstep
    cases hstep
  | some scheduler =>
    rw [hscheduler] at hstep
    rcases hprogress.busy.handle hscheduler with ⟨hunfinished, hbusy⟩ | ⟨hfinished, hpending, hbusy⟩
    · rw [hunfinished] at hstep
      cases hstep
      obtain ⟨hlisted, hkeys, hsame, hids, hnonempty, -, howned, huntouched, hdone, hcounted⟩ :=
        hprogress
      refine ⟨pending, hlisted, hkeys, hsame, hids, hnonempty, hbusy, howned, huntouched, ?_,
        hcounted⟩
      intro application hmem
      exact ⟨(hdone application hmem).disabled, (hdone application hmem).missing,
        (hdone application hmem).startable⟩
    · cases pending with
      | none => exact absurd rfl hpending
      | some creation =>
        rw [hfinished] at hstep
        cases hstep
        exact ⟨none, hprogress.create hdraws hbusy⟩

theorem Progress.run {moves : List Move} (hprogress : Progress environment before loop done pending)
    (hheeded : Heeded environment moves loop)
    (hrun : Loop.run environment moves loop = some after) :
    ∃ done pending, Progress environment before after done pending := by
  induction moves generalizing loop done pending with
  | nil =>
    cases hrun
    exact ⟨done, pending, hprogress⟩
  | cons move moves ih =>
    unfold Loop.run at hrun
    obtain ⟨next, hstep, hrest⟩ := Option.bind_eq_some_iff.mp hrun
    obtain ⟨hheeds, hlater⟩ := hheeded
    cases move with
    | next instanceId =>
      obtain ⟨application, pending', hnext⟩ := hprogress.loop_next hheeds hstep
      exact ih hnext (hlater next hstep) hrest
    | handle handler =>
      obtain ⟨pending', hnext⟩ := hprogress.loop_handle hdraws hstep
      exact ih hnext (hlater next hstep) hrest

end

theorem Busy.eq_none_of_handlers_eq_nil
    (hbusy : Busy scheduler pending) (hhandlers : scheduler.handlers = []) : pending = none := by
  cases hbusy with
  | idle => rfl
  | posted _ _ _ hsome =>
    rw [hhandlers] at hsome
    cases hsome
  | running _ _ hsome =>
    rw [hhandlers] at hsome
    cases hsome
  | done => rfl

theorem Progress.isStarted {after : Loop}
    (hprogress : Progress environment before after done pending) (hover : after.IsOver) :
    IsStarted environment before after := by
  have hall : before.applications = done := by
    rw [hprogress.listed, hover.1, List.append_nil]
  obtain rfl := hprogress.busy.eq_none_of_handlers_eq_nil hover.2
  have hcurrent : ∀ application ∈ after.world.applications,
      after.world.app application.key = some application ∧
        ∃ other ∈ done, other.fixed = application.fixed := by
    intro application hmem
    rw [← hall]
    exact app_of_map_fixed hprogress.keys hprogress.fixed hmem
  have hrunning : ∀ application ∈ after.world.applications,
      application.IsStartable environment → application.status = .running ∧
        ∃ container, listContainerByImageName after.world.containers application.name
          application.version = [container] := by
    intro application hmem hstartable
    obtain ⟨hself, other, hother, hfixed⟩ := hcurrent application hmem
    obtain ⟨current, hfound, -, hserved⟩ :=
      (hprogress.passed other hother).startable ((isStartable_congr hfixed).mpr hstartable)
    have hkey : other.key = application.key := congrArg Prod.fst hfixed
    have hname : other.name = application.name := congrArg (fun fixed => fixed.1.2) hfixed
    have hversion : other.version = application.version :=
      congrArg (fun fixed => fixed.2.1) hfixed
    rw [hkey, hself] at hfound
    cases hfound
    rcases hserved with hserved | ⟨-, creation, hnone, -⟩
    · rwa [hname, hversion] at hserved
    · cases hnone
  have hmissing : ∀ application ∈ after.world.applications, application.enabled = true →
      ¬ application.IsStartable environment → application.status = .stopped := by
    intro application hmem henabled hmissing
    obtain ⟨hself, other, hother, hfixed⟩ := hcurrent application hmem
    have hkey : other.key = application.key := congrArg Prod.fst hfixed
    have hsame : other.enabled = application.enabled := congrArg (fun fixed => fixed.2.2) hfixed
    obtain ⟨current, hfound, -, hstatus⟩ := (hprogress.passed other hother).missing
      (hsame.trans henabled) (fun hyes => hmissing ((isStartable_congr hfixed).mp hyes))
    rw [hkey, hself] at hfound
    cases hfound
    exact hstatus
  refine ⟨hrunning, hmissing, ?_, ?_, ?_⟩
  · intro application hmem henabled hpending
    by_cases hstartable : application.IsStartable environment
    · rw [(hrunning application hmem hstartable).1] at hpending
      cases hpending
    · rw [hmissing application hmem henabled hstartable] at hpending
      cases hpending
  · rw [hprogress.count, ← hall]
    exact countP_congr hprogress.fixed.symm
  · intro application hmem hdisabled
    rw [hall] at hmem
    exact mem_of_findKey ((hprogress.passed application hmem).disabled hdisabled)

end Advance

section Begin

variable {environment : Environment} {world : World}

def World.IsIdle (world : World) : Prop :=
  world.scheduler.entries = [] ∧ world.scheduler.handlers = []

theorem Progress.begin (hvalid : world.IsValid) (hidle : world.IsIdle) :
    Progress environment world (startAllApplications world) [] none where
  listed := rfl
  keys := hvalid.keys
  fixed := rfl
  ids := hvalid.ids
  nonempty := hvalid.nonempty
  busy := .idle hidle.1 hidle.2
  owner _ hnone := by cases hnone
  untouched _ hmem := (app_eq_some_iff hvalid.keys).mpr hmem
  passed _ hmem := by cases hmem
  count := rfl

theorem map_id_killContainer (containers : List Container) (id : String) :
    (killContainer containers id).map Container.id = containers.map Container.id := by
  unfold killContainer
  split
  · exact map_id_setRunning false _ containers
  · rfl

theorem stopApplication_keeps (hvalid : world.IsValid) (region name : String) :
    (world.stopApplication region name).1.IsValid ∧
      (world.stopApplication region name).1.scheduler = world.scheduler := by
  unfold World.stopApplication
  split
  · exact ⟨hvalid, rfl⟩
  · next application hfound =>
      split
      · exact ⟨hvalid, rfl⟩
      · have hids := map_id_killContainer world.containers application.containerName
        exact ⟨⟨nodup_upsert hvalid.keys, hids ▸ hvalid.ids,
          nonempty_of_map_id hids hvalid.nonempty⟩, rfl⟩

theorem stopAllApplications_keeps (hvalid : world.IsValid) :
    world.stopAllApplications.1.IsValid ∧
      world.stopAllApplications.1.scheduler = world.scheduler := by
  refine List.foldlRecOn
    (motive := fun result : World × Option CoreException =>
      result.1.IsValid ∧ result.1.scheduler = world.scheduler)
    world.applications _ ⟨hvalid, rfl⟩ ?_
  rintro ⟨stopped, _ | exn⟩ ⟨hstopped, hsame⟩ application _
  · obtain ⟨hkept, hscheduler⟩ :=
      stopApplication_keeps hstopped application.region application.name
    exact ⟨hkept, hscheduler.trans hsame⟩
  · exact ⟨hstopped, hsame⟩

/-- A daemon whose identifiers are longer than those it has given. -/
def longId (containers : List Container) : String :=
  String.ofList (List.replicate ((containers.map fun container => container.id.length).sum + 1) 'x')

def fullDirectory : Environment := ⟨"/data", fun _ => true, longId⟩

theorem fullDirectory_drawsNewIds : fullDirectory.DrawsNewIds := by
  intro containers
  have hlength : (longId containers).length =
      (containers.map fun container => container.id.length).sum + 1 := by
    rw [longId, String.length_ofList, List.length_replicate]
  constructor
  · intro hempty
    change longId containers = "" at hempty
    rw [hempty, String.length_empty] at hlength
    omega
  · intro hmem
    obtain ⟨container, hcontainer, hid⟩ := List.mem_map.mp hmem
    have hle : container.id.length ≤ (containers.map fun container => container.id.length).sum :=
      List.single_le_sum (fun _ _ => Nat.zero_le _) _ (List.mem_map_of_mem hcontainer)
    change container.id = longId containers at hid
    rw [hid, hlength] at hle
    omega

/-- An application whose container runs, and the world that has only the two. -/
def notes : Application := { region := "eu", name := "notes", version := "1", enabled := true }

def notesWorld : World := ⟨[notes], [⟨"c1", "notes-1", "notes:1", true⟩], {}⟩

theorem run_notes :
    (Loop.run fullDirectory [.next "i"] (startAllApplications notesWorld)).isSome := by
  decide

/-- Two applications without containers. The creation of the second one is dropped while that
of the first is under way, and it stays pending. -/
def twoApplications : World :=
  ⟨[notes, { notes with name := "mail" }], [], {}⟩

def twoStarts : List Move :=
  [.next "i", .next "j", .handle (.start 0), .handle (.running 0),
    .handle (.shutdown World.startTask)]

theorem run_twoApplications :
    (Loop.run fullDirectory twoStarts (startAllApplications twoApplications)).isSome := by
  decide

end Begin

end AwsMock.Applications
