import AwsMock.Core.Environment
import AwsMock.Foundation.KeyedList
import AwsMock.Scheduling.Scheduler

/-! # Starting and stopping applications

The application service over its store, the containers of the daemon and the scheduler.
Operations on containers succeed. A loop over the applications goes on while the scheduler
runs the tasks that it was given, so a run is a sequence of moves of the one and the other.
-/

namespace AwsMock.Applications

open Foundation Scheduling

inductive AppsStatusType where
  | active | pending | stopped | running | unknown
deriving DecidableEq, Repr

structure Application where
  region : String
  name : String
  version : String
  enabled : Bool := false
  status : AppsStatusType := .unknown
  containerName : String := ""
  containerId : String := ""
  imageName : String := ""
deriving DecidableEq, Repr

def Application.key (application : Application) : String × String :=
  (application.region, application.name)

structure Container where
  id : String
  name : String
  image : String
  running : Bool
deriving DecidableEq, Repr

structure Creation where
  codeFile : String
  region : String
  name : String
  instanceId : String
deriving DecidableEq, Repr

structure World where
  applications : List Application := []
  containers : List Container := []
  scheduler : SchedulerState Creation := {}

/-- The files of the data directory, and how the daemon names new containers. -/
structure Environment where
  dataDir : String
  fileExists : String → Bool
  newId : List Container → String

/-! ## Containers -/

namespace Containers

def target (name tag : String) : String := if tag = "" then name else name ++ ":" ++ tag

variable (containers : List Container)

def listContainerByImageName (name tag : String) : List Container :=
  containers.filter fun container => container.image = target name tag

def containerExistsByImageName (name tag : String) : Bool :=
  !(listContainerByImageName containers name tag).isEmpty

def getFirstContainerByImageName (name tag : String) : Option Container :=
  (listContainerByImageName containers name tag).head?

/-- A container is found by its identifier, or else by its name. -/
def inspectContainer (id : String) : Option Container :=
  (containers.find? fun container => container.id = id).or
    (containers.find? fun container => container.name = id)

def containerExists (name : String) : Bool := (inspectContainer containers name).isSome

def setRunning (running : Bool) (id : String) : List Container :=
  containers.map fun container =>
    if container.id = id then { container with running := running } else container

def startContainer (id : String) : List Container := setRunning containers true id

def killContainer (id : String) : List Container :=
  match inspectContainer containers id with
  | some container => setRunning containers false container.id
  | none => containers

end Containers

namespace World

open Containers

variable (environment : Environment) (world : World)

/-! ## Store -/

def findApplication (region name : String) : Option Application :=
  findKey Application.key (region, name) world.applications

def updateApplication (application : Application) : World :=
  { world with applications := upsert Application.key application world.applications }

def codeFile (application : Application) : String :=
  environment.dataDir ++ "/" ++ application.name ++ "-" ++ application.version ++ ".b64"

/-! ## Service -/

def startTask : String := "start-application"

def adoptContainer (application : Application) : Application :=
  if application.containerName = "" then
    match getFirstContainerByImageName world.containers application.name application.version with
    | some container =>
      if container.id = "" then application
      else
        { application with
          imageName := container.image
          containerId := container.id
          containerName := container.name }
    | none => application
  else application

/-- The container that the application knows is started unless it runs, and then the first
one of the image is looked at. -/
def resumeApplication (application : Application) : World :=
  let world :=
    match inspectContainer world.containers application.containerId with
    | some container =>
      if container.running then world
      else { world with containers := startContainer world.containers container.id }
    | none => world
  match getFirstContainerByImageName world.containers application.name application.version with
  | none => world
  | some first =>
    match inspectContainer world.containers first.id with
    | none => world
    | some container =>
      world.updateApplication
        { application with
          containerId := container.id
          containerName := container.name
          status := if container.running then .running else .stopped }

/-- `StartApplication`, with what it throws. -/
def startApplication (region name instanceId : String) : World × Option CoreException :=
  match world.findApplication region name with
  | none => (world, none)
  | some application =>
    if !application.enabled then (world, none)
    else if !environment.fileExists (codeFile environment application) then
      (world.updateApplication { application with status := .stopped },
        some (.core ("Application Base64 image does not exist, name: " ++
          codeFile environment application)))
    else
      let application := { application with status := .pending }
      let world := world.updateApplication application
      let application := world.adoptContainer application
      let world := world.updateApplication application
      if !containerExistsByImageName world.containers application.name application.version then
        let task : Scheduling.Task Creation :=
          { name := startTask
            body := ⟨codeFile environment application, application.region, application.name,
              instanceId⟩ }
        ({ world with scheduler := world.scheduler.addOneTimeTask task }, none)
      else (world.resumeApplication application, none)

/-- What a creation task does in the end: there is a container of the image, which runs, and
the application is recorded as running. -/
def applicationCreator (creation : Creation) : World :=
  match world.findApplication creation.region creation.name with
  | none => world
  | some application =>
    if containerExistsByImageName world.containers application.name application.version then
      world.updateApplication { application with status := .running }
    else
      let container : Container :=
        { id := environment.newId world.containers
          name := application.name ++ "-" ++ creation.instanceId
          image := target application.name application.version
          running := true }
      { world with containers := world.containers ++ [container] }.updateApplication
        { application with
          containerId := container.id
          containerName := container.name
          status := .running }

def stopApplication (region name : String) : World × Option CoreException :=
  match world.findApplication region name with
  | none =>
    (world, some (.service ("Application does not exist, region: " ++ region ++ " name: " ++ name)))
  | some application =>
    if application.containerName = "" ∨
        !containerExists world.containers application.containerName then (world, none)
    else
      ({ world with
          containers := killContainer world.containers application.containerName
        }.updateApplication
        { application with status := .stopped, containerId := "", containerName := "" }, none)

/-- `StopAllApplications`. It ends with the first exception. -/
def stopAllApplications (world : World) : World × Option CoreException :=
  world.applications.foldl (fun result application =>
    match result with
    | (world, none) => world.stopApplication application.region application.name
    | (world, some exn) => (world, some exn)) (world, none)

end World

/-! ## Runs -/

/-- A loop over the applications as they were listed, with those that are left and the
number of those that were started. -/
structure Loop where
  world : World
  todo : List Application
  count : Nat := 0

/-- The loop goes on to the next application, or the scheduler runs a handler. -/
inductive Move where
  | next (instanceId : String)
  | handle (handler : Handler)

namespace Loop

variable (environment : Environment) (loop : Loop)

def next (instanceId : String) : Option Loop :=
  match loop.todo with
  | [] => none
  | application :: todo =>
    if application.enabled then
      match loop.world.startApplication environment application.region application.name
          instanceId with
      | (world, none) => some ⟨world, todo, loop.count + 1⟩
      | (world, some _) => some ⟨world, todo, loop.count⟩
    else some { loop with todo := todo }

def finished (scheduler : SchedulerState Creation) : Handler → Option Creation
  | .running id => (scheduler.findId id).map fun entry => entry.2.body
  | _ => none

def handle (handler : Handler) : Option Loop :=
  match loop.world.scheduler.step (.handle handler) with
  | none => none
  | some scheduler =>
    let world :=
      match finished loop.world.scheduler handler with
      | some creation => loop.world.applicationCreator environment creation
      | none => loop.world
    some { loop with world := { world with scheduler := scheduler } }

def step : Move → Option Loop
  | .next instanceId => loop.next environment instanceId
  | .handle handler => loop.handle environment handler

def run : List Move → Loop → Option Loop
  | [], loop => some loop
  | move :: moves, loop => (loop.step environment move).bind (run moves)

def IsOver : Prop := loop.todo = [] ∧ loop.world.scheduler.handlers = []

end Loop

/-- `StartAllApplications` begins. -/
def startAllApplications (world : World) : Loop := ⟨world, world.applications, 0⟩

/-- `RestartAllApplications` begins when all applications have been stopped. -/
def restartAllApplications (world : World) : Loop :=
  startAllApplications world.stopAllApplications.1

end AwsMock.Applications
