import AwsMock.Ftp.Session

/-! # What FTP commands do to files

The actions of a command say what it asks the file system to do: it asks for nothing else,
and each of them needs permissions of the user who is logged in. A transfer works on the
file that its command opened.
-/

namespace AwsMock.Ftp

/-- What is done to a file or a directory at a local path. What is written without
overwriting is a file that is not there yet, or none that is regular. -/
inductive Action where
  | readFile (path : Bytes)
  | listDirectory (path : Bytes)
  | writeFile (path : Bytes)
  | overwriteFile (path : Bytes)
  | appendFile (path : Bytes)
  | renameFile (source target : Bytes)
  | renameDirectory (source target : Bytes)
  | deleteFile (path : Bytes)
  | createDirectory (path : Bytes)
  | deleteDirectory (path : Bytes)
deriving DecidableEq, Repr

namespace Action

def permissions : Action → List Permission
  | readFile _ => [.fileRead]
  | listDirectory _ => [.dirList]
  | writeFile _ => [.fileWrite]
  | overwriteFile _ => [.fileWrite, .fileDelete]
  | appendFile _ => [.fileAppend]
  | renameFile _ _ => [.fileRename]
  | renameDirectory _ _ => [.dirRename]
  | deleteFile _ => [.fileDelete]
  | createDirectory _ => [.dirCreate]
  | deleteDirectory _ => [.dirDelete]

def renamed : Action → Option Bytes
  | renameFile source _ | renameDirectory source _ => some source
  | _ => none

/-- Two file systems answer the same when they are asked for an action. -/
def Agrees (world other : World) : Action → Prop
  | readFile path =>
    world.opens path = other.opens path ∧ world.fileSize path = other.fileSize path
  | listDirectory path => (world.status path).canOpenDir = (other.status path).canOpenDir
  | writeFile path | overwriteFile path | appendFile path => world.opens path = other.opens path
  | renameFile source target | renameDirectory source target =>
    world.rename source target = other.rename source target
  | deleteFile path => world.unlink path = other.unlink path
  | createDirectory path => world.mkdir path = other.mkdir path
  | deleteDirectory path => world.rmdir path = other.rmdir path

end Action

/-- Two worlds with the same users, where the same paths exist, that answer the same when
they are asked for the actions. -/
structure World.Agrees (world other : World) (actions : List Action) : Prop where
  database : world.database = other.database
  passive : world.passive = other.passive
  isOk : ∀ path, (world.status path).isOk = (other.status path).isOk
  type : ∀ path, (world.status path).type = (other.status path).type
  actions : ∀ action ∈ actions, action.Agrees world other

/-! ## Commands -/

def ftpCommand (command : Bytes) : Bytes := (command.takeWhile (· ≠ 32)).map Bytes.upper

def parameters (command : Bytes) : Bytes := (command.dropWhile (· ≠ 32)).drop 1

def IsRecognized (command : Bytes) : Prop :=
  (Session.commandMap.lookup (ftpCommand command)).isSome = true

namespace Session

variable (world : World) (session : Session)

/-! ## Actions -/

def whenLoggedIn (continuation : FtpUser → List Action) : List Action :=
  match session.loggedInUser with
  | none => []
  | some user => continuation user

def actionsCWD (param : Bytes) : List Action :=
  session.whenLoggedIn fun user =>
    if !user.permissions .dirList then []
    else if param = [] then []
    else
      let localPath := session.toLocalPath user (session.newWorkingDirectory param)
      if !(world.status localPath).isOk then []
      else if (world.status localPath).type ≠ .dir then []
      else [.listDirectory localPath]

def actionsCDUP : List Action :=
  session.whenLoggedIn fun user =>
    if !user.permissions .dirList then []
    else if session.ftpWorkingDirectory ≠ ascii "/" then session.actionsCWD world (ascii "..")
    else []

def actionsRETR (param : Bytes) : List Action :=
  session.whenLoggedIn fun user =>
    if !user.permissions .fileRead then []
    else if !session.dataAcceptorOpen then []
    else [.readFile (session.toLocalPath user param)]

def actionsSIZE (param : Bytes) : List Action :=
  session.whenLoggedIn fun user =>
    if !user.permissions .fileRead then [] else [.readFile (session.toLocalPath user param)]

def actionsSTOR (param : Bytes) : List Action :=
  session.whenLoggedIn fun user =>
    if !user.permissions .fileWrite then []
    else if !session.dataAcceptorOpen then []
    else
      let localPath := session.toLocalPath user param
      let fileStatus := world.status localPath
      if fileStatus.isOk && fileStatus.type = .regularFile then
        if !user.permissions .fileDelete then [] else [.overwriteFile localPath]
      else if fileStatus.isOk && fileStatus.type = .dir then []
      else [.writeFile localPath]

def actionsAPPE (param : Bytes) : List Action :=
  session.whenLoggedIn fun user =>
    if !user.permissions .fileAppend then []
    else if !session.dataAcceptorOpen then []
    else
      let localPath := session.toLocalPath user param
      let existingFileFilestatus := world.status localPath
      if !existingFileFilestatus.isOk || existingFileFilestatus.type ≠ .regularFile then []
      else [.appendFile localPath]

def actionsRNTO (param : Bytes) : List Action :=
  session.whenLoggedIn fun user =>
    if session.lastCommand ≠ ascii "RNFR" ∨ session.renameFromPath = [] then []
    else if param = [] then []
    else if (session.checkIfPathIsRenamable world session.renameFromPath).1.replyCode =
        .commandOk then
      let localFromPath := session.toLocalPath user session.renameFromPath
      let localToPath := session.toLocalPath user param
      if (world.status localToPath).isOk then []
      else if (world.status localFromPath).type = .dir then
        [.renameDirectory localFromPath localToPath]
      else [.renameFile localFromPath localToPath]
    else []

def actionsDELE (param : Bytes) : List Action :=
  session.whenLoggedIn fun user =>
    let localPath := session.toLocalPath user param
    let fileStatus := world.status localPath
    if !fileStatus.isOk then []
    else if fileStatus.type ≠ .regularFile then []
    else if !user.permissions .fileDelete then []
    else [.deleteFile localPath]

def actionsRMD (param : Bytes) : List Action :=
  session.whenLoggedIn fun user =>
    if !user.permissions .dirDelete then []
    else [.deleteDirectory (session.toLocalPath user param)]

def actionsMKD (param : Bytes) : List Action :=
  session.whenLoggedIn fun user =>
    if !user.permissions .dirCreate then []
    else [.createDirectory (session.toLocalPath user param)]

/-- The actions of `LIST` and `NLST`. -/
def actionsListDirectory (path : Bytes) : List Action :=
  session.whenLoggedIn fun user =>
    if !user.permissions .dirList then []
    else
      let localPath := session.toLocalPath user path
      if !(world.status localPath).isOk then []
      else if (world.status localPath).type ≠ .dir then []
      else [.listDirectory localPath]

def actionMap : List (Bytes × (World → Session → Bytes → List Action)) :=
  [(ascii "CWD", actionsCWD),
    (ascii "CDUP", fun world session _ => session.actionsCDUP world),
    (ascii "RETR", fun _ => actionsRETR),
    (ascii "STOR", actionsSTOR),
    (ascii "APPE", actionsAPPE),
    (ascii "RNTO", actionsRNTO),
    (ascii "DELE", actionsDELE),
    (ascii "RMD", fun _ => actionsRMD),
    (ascii "MKD", fun _ => actionsMKD),
    (ascii "LIST", fun world session param =>
      session.actionsListDirectory world (withoutOptions param)),
    (ascii "NLST", actionsListDirectory),
    (ascii "SIZE", fun _ => actionsSIZE)]

def actions (command : Bytes) : List Action :=
  match actionMap.lookup (ftpCommand command) with
  | some handler => handler world session (parameters command)
  | none => []

section Handlers

variable {world : World} {session : Session} {command : Bytes}

variable {handler : World → Session → Bytes → Outcome}

theorem handleFtpCommand_of_lookup
    (hhandler : commandMap.lookup (ftpCommand command) = some handler) :
    session.handleFtpCommand world command =
      { handler world session (parameters command) with
        session := { (handler world session (parameters command)).session with
          lastCommand := ftpCommand command } } := by
  rw [ftpCommand] at hhandler
  simp only [handleFtpCommand, hhandler]
  rfl

theorem handleFtpCommand_of_not_isRecognized (hcommand : ¬ IsRecognized command) :
    session.handleFtpCommand world command =
      session.sendFtpMessage .syntaxErrorUnrecognizedCommand "Unrecognized command" := by
  have hnone : commandMap.lookup (ftpCommand command) = none :=
    Option.not_isSome_iff_eq_none.mp hcommand
  rw [ftpCommand] at hnone
  simp only [handleFtpCommand, hnone]

theorem mem_commandMap {name : Bytes}
    (hhandler : commandMap.lookup name = some handler) : (name, handler) ∈ commandMap := by
  obtain ⟨front, back, hmap, -⟩ := List.lookup_eq_some_iff.mp hhandler
  rw [hmap]
  exact List.mem_append_right front List.mem_cons_self

theorem mem_actionMap {name : Bytes} {handler : World → Session → Bytes → List Action}
    (hhandler : actionMap.lookup name = some handler) : (name, handler) ∈ actionMap := by
  obtain ⟨front, back, hmap, -⟩ := List.lookup_eq_some_iff.mp hhandler
  rw [hmap]
  exact List.mem_append_right front List.mem_cons_self

end Handlers

section Permissions

variable {world : World} {session : Session}

/-- The user who is logged in has the permissions of an action, and what it renames is what
the `RNFR` before has named. -/
structure IsPermitted (session : Session) (user : FtpUser) (action : Action) : Prop where
  loggedIn : session.loggedInUser = some user
  permissions : ∀ permission ∈ action.permissions, user.permissions permission = true
  renamed : ∀ source, action.renamed = some source →
    session.lastCommand = ascii "RNFR" ∧ session.renameFromPath ≠ [] ∧
      source = session.toLocalPath user session.renameFromPath

theorem isPermitted_whenLoggedIn {continuation : FtpUser → List Action}
    (hcontinuation : ∀ user, session.loggedInUser = some user →
      ∀ action ∈ continuation user, IsPermitted session user action) :
    ∀ action ∈ session.whenLoggedIn continuation, ∃ user, IsPermitted session user action := by
  unfold whenLoggedIn
  split
  · exact List.forall_mem_nil _
  · next user huser => exact fun action haction => ⟨user, hcontinuation user huser action haction⟩

theorem isPermitted_of_permission {user : FtpUser} {action : Action} {permission : Permission}
    (huser : session.loggedInUser = some user) (haction : action.permissions = [permission])
    (hrenamed : action.renamed = none) (hpermission : ¬ (!user.permissions permission) = true) :
    ∀ permitted ∈ [action], IsPermitted session user permitted := by
  rw [List.forall_mem_singleton]
  refine ⟨huser, ?_, fun source hsource => nomatch hrenamed.symm.trans hsource⟩
  rw [haction, List.forall_mem_singleton]
  simpa using hpermission

theorem isPermitted_unless {user : FtpUser} {refused : Prop} [Decidable refused]
    {actions : List Action}
    (hactions : ¬ refused → ∀ action ∈ actions, IsPermitted session user action) :
    ∀ action ∈ if refused then [] else actions, IsPermitted session user action := by
  split
  · exact List.forall_mem_nil _
  · next hrefused => exact hactions hrefused

theorem isPermitted_actionsCWD (param : Bytes) :
    ∀ action ∈ session.actionsCWD world param, ∃ user, IsPermitted session user action := by
  refine isPermitted_whenLoggedIn fun user huser => isPermitted_unless fun hpermission => ?_
  refine isPermitted_unless fun _ => ?_
  dsimp only
  refine isPermitted_unless fun _ => isPermitted_unless fun _ => ?_
  exact isPermitted_of_permission huser rfl rfl hpermission

theorem isPermitted_actionsCDUP :
    ∀ action ∈ session.actionsCDUP world, ∃ user, IsPermitted session user action := by
  unfold actionsCDUP whenLoggedIn
  split
  · exact List.forall_mem_nil _
  · dsimp only
    split
    · exact List.forall_mem_nil _
    · split
      · exact isPermitted_actionsCWD _
      · exact List.forall_mem_nil _

theorem isPermitted_actionsRETR (param : Bytes) :
    ∀ action ∈ session.actionsRETR param, ∃ user, IsPermitted session user action := by
  refine isPermitted_whenLoggedIn fun user huser => isPermitted_unless fun hpermission => ?_
  refine isPermitted_unless fun _ => ?_
  exact isPermitted_of_permission huser rfl rfl hpermission

theorem isPermitted_actionsSIZE (param : Bytes) :
    ∀ action ∈ session.actionsSIZE param, ∃ user, IsPermitted session user action := by
  refine isPermitted_whenLoggedIn fun user huser => isPermitted_unless fun hpermission => ?_
  exact isPermitted_of_permission huser rfl rfl hpermission

theorem isPermitted_actionsSTOR (param : Bytes) :
    ∀ action ∈ session.actionsSTOR world param, ∃ user, IsPermitted session user action := by
  refine isPermitted_whenLoggedIn fun user huser => isPermitted_unless fun hwrite => ?_
  refine isPermitted_unless fun _ => ?_
  dsimp only
  split
  · refine isPermitted_unless fun hdelete => ?_
    rw [List.forall_mem_singleton]
    refine ⟨huser, ?_, fun source hsource => nomatch hsource⟩
    intro permission hmem
    rcases List.mem_pair.mp hmem with rfl | rfl
    · simpa using hwrite
    · simpa using hdelete
  · refine isPermitted_unless fun _ => ?_
    exact isPermitted_of_permission huser rfl rfl hwrite

theorem isPermitted_actionsAPPE (param : Bytes) :
    ∀ action ∈ session.actionsAPPE world param, ∃ user, IsPermitted session user action := by
  refine isPermitted_whenLoggedIn fun user huser => isPermitted_unless fun hpermission => ?_
  refine isPermitted_unless fun _ => ?_
  dsimp only
  refine isPermitted_unless fun _ => ?_
  exact isPermitted_of_permission huser rfl rfl hpermission

theorem permission_of_checkIfPathIsRenamable {user : FtpUser} {path : Bytes}
    (huser : session.loggedInUser = some user)
    (hcheck : (session.checkIfPathIsRenamable world path).1.replyCode = .commandOk) :
    user.permissions (if (world.status (session.toLocalPath user path)).type = .dir then .dirRename
        else .fileRename) = true := by
  unfold checkIfPathIsRenamable at hcheck
  rw [huser] at hcheck
  dsimp only at hcheck
  split at hcheck
  · cases hcheck
  · dsimp only at hcheck
    generalize (if (world.status (session.toLocalPath user path)).type = .dir then
      Permission.dirRename else .fileRename) = required at hcheck ⊢
    split at hcheck
    · cases hcheck
    · split at hcheck
      · cases hcheck
      · next hpermission => simpa using hpermission

theorem isPermitted_actionsRNTO (param : Bytes) :
    ∀ action ∈ session.actionsRNTO world param, ∃ user, IsPermitted session user action := by
  refine isPermitted_whenLoggedIn fun user huser => ?_
  split
  · exact List.forall_mem_nil _
  · next hsequence =>
    obtain ⟨hlast, hpath⟩ := not_or.mp hsequence
    split
    · exact List.forall_mem_nil _
    · split
      · next hcheck =>
        have hpermission := permission_of_checkIfPathIsRenamable huser hcheck
        dsimp only
        split
        · exact List.forall_mem_nil _
        · split
          all_goals
            next htype =>
            rw [List.forall_mem_singleton]
            refine ⟨huser, ?_, ?_⟩
            · simpa [Action.permissions, htype] using hpermission
            · rintro source ⟨⟩
              exact ⟨not_not.mp hlast, hpath, rfl⟩
      · exact List.forall_mem_nil _

theorem isPermitted_actionsDELE (param : Bytes) :
    ∀ action ∈ session.actionsDELE world param, ∃ user, IsPermitted session user action := by
  refine isPermitted_whenLoggedIn fun user huser => ?_
  dsimp only
  refine isPermitted_unless fun _ => isPermitted_unless fun _ => ?_
  refine isPermitted_unless fun hpermission => ?_
  exact isPermitted_of_permission huser rfl rfl hpermission

theorem isPermitted_actionsRMD (param : Bytes) :
    ∀ action ∈ session.actionsRMD param, ∃ user, IsPermitted session user action := by
  refine isPermitted_whenLoggedIn fun user huser => isPermitted_unless fun hpermission => ?_
  exact isPermitted_of_permission huser rfl rfl hpermission

theorem isPermitted_actionsMKD (param : Bytes) :
    ∀ action ∈ session.actionsMKD param, ∃ user, IsPermitted session user action := by
  refine isPermitted_whenLoggedIn fun user huser => isPermitted_unless fun hpermission => ?_
  exact isPermitted_of_permission huser rfl rfl hpermission

theorem isPermitted_actionsListDirectory (path : Bytes) :
    ∀ action ∈ session.actionsListDirectory world path,
      ∃ user, IsPermitted session user action := by
  refine isPermitted_whenLoggedIn fun user huser => isPermitted_unless fun hpermission => ?_
  dsimp only
  refine isPermitted_unless fun _ => isPermitted_unless fun _ => ?_
  exact isPermitted_of_permission huser rfl rfl hpermission

theorem isPermitted_actions (command : Bytes) :
    ∀ action ∈ session.actions world command, ∃ user, IsPermitted session user action := by
  unfold actions
  split
  · next handler hhandler =>
    have hentry := mem_actionMap hhandler
    simp only [actionMap, List.mem_cons, List.not_mem_nil, or_false, Prod.mk.injEq] at hentry
    rcases hentry with ⟨-, rfl⟩ | ⟨-, rfl⟩ | ⟨-, rfl⟩ | ⟨-, rfl⟩ | ⟨-, rfl⟩ | ⟨-, rfl⟩ |
      ⟨-, rfl⟩ | ⟨-, rfl⟩ | ⟨-, rfl⟩ | ⟨-, rfl⟩ | ⟨-, rfl⟩ | ⟨-, rfl⟩
    · exact isPermitted_actionsCWD _
    · exact isPermitted_actionsCDUP
    · exact isPermitted_actionsRETR _
    · exact isPermitted_actionsSTOR _
    · exact isPermitted_actionsAPPE _
    · exact isPermitted_actionsRNTO _
    · exact isPermitted_actionsDELE _
    · exact isPermitted_actionsRMD _
    · exact isPermitted_actionsMKD _
    · exact isPermitted_actionsListDirectory _
    · exact isPermitted_actionsListDirectory _
    · exact isPermitted_actionsSIZE _
  · exact List.forall_mem_nil _

end Permissions

section Lengths

variable {world : World} {session : Session}

theorem length_whenLoggedIn {continuation : FtpUser → List Action}
    (hcontinuation : ∀ user, (continuation user).length ≤ 1) :
    (session.whenLoggedIn continuation).length ≤ 1 := by
  unfold whenLoggedIn
  split
  · exact Nat.zero_le 1
  · exact hcontinuation _

theorem length_actionsCWD (param : Bytes) : (session.actionsCWD world param).length ≤ 1 := by
  refine length_whenLoggedIn fun user => ?_
  repeat' first | exact Nat.le_of_ble_eq_true rfl | split | dsimp only

theorem length_actions (command : Bytes) : (session.actions world command).length ≤ 1 := by
  unfold actions
  split
  · next handler hhandler =>
    have hentry := mem_actionMap hhandler
    simp only [actionMap, List.mem_cons, List.not_mem_nil, or_false, Prod.mk.injEq] at hentry
    rcases hentry with ⟨-, rfl⟩ | ⟨-, rfl⟩ | ⟨-, rfl⟩ | ⟨-, rfl⟩ | ⟨-, rfl⟩ | ⟨-, rfl⟩ |
      ⟨-, rfl⟩ | ⟨-, rfl⟩ | ⟨-, rfl⟩ | ⟨-, rfl⟩ | ⟨-, rfl⟩ | ⟨-, rfl⟩
    · exact length_actionsCWD _
    · refine length_whenLoggedIn fun user => ?_
      split
      · exact Nat.zero_le 1
      · split
        · exact length_actionsCWD _
        · exact Nat.zero_le 1
    all_goals
      refine length_whenLoggedIn fun user => ?_
      repeat' first | exact Nat.le_of_ble_eq_true rfl | split | dsimp only
  · exact Nat.zero_le 1

end Lengths

section Completeness

/-! A command asks the file system for nothing but its actions: when two worlds answer the
same there, it does the same in both. -/

variable {world other : World} {session : Session}

theorem requireUser_congr {continuation continuation' : FtpUser → Outcome}
    (hcontinuation : ∀ user, session.loggedInUser = some user →
      continuation user = continuation' user) :
    session.requireUser continuation = session.requireUser continuation' := by
  unfold requireUser
  split
  · rfl
  · next user huser => exact hcontinuation user huser

theorem whenLoggedIn_eq {user : FtpUser} (huser : session.loggedInUser = some user)
    (continuation : FtpUser → List Action) :
    session.whenLoggedIn continuation = continuation user := by
  rw [whenLoggedIn, huser]

variable {param : Bytes} {actions : List Action}

theorem checkIfPathIsRenamable_congr (hagrees : world.Agrees other actions) (path : Bytes) :
    session.checkIfPathIsRenamable world path = session.checkIfPathIsRenamable other path := by
  unfold checkIfPathIsRenamable
  simp only [hagrees.isOk, hagrees.type]

theorem executeCWD_congr (hagrees : world.Agrees other (session.actionsCWD world param)) :
    session.executeCWD world param = session.executeCWD other param := by
  cases huser : session.loggedInUser with
  | none => simp only [executeCWD, huser]
  | some user =>
    have hactions := hagrees.actions
    rw [actionsCWD, whenLoggedIn_eq huser] at hactions
    unfold executeCWD
    simp only [huser, ← hagrees.isOk, ← hagrees.type]
    split
    · rfl
    · next hpermission =>
      split
      · rfl
      · next hparam =>
        split
        · rfl
        · next hexists =>
          split
          · rfl
          · next hdir =>
            rw [if_neg hpermission, if_neg hparam] at hactions
            dsimp only at hactions
            rw [if_neg hexists, if_neg hdir, List.forall_mem_singleton] at hactions
            rw [show _ = _ from hactions]

theorem handleFtpCommandCDUP_congr (hagrees : world.Agrees other (session.actionsCDUP world)) :
    session.handleFtpCommandCDUP world = session.handleFtpCommandCDUP other := by
  refine requireUser_congr fun user huser => ?_
  split
  · rfl
  · next hpermission =>
    split
    · next hroot =>
      rw [actionsCDUP, whenLoggedIn_eq huser, if_neg hpermission, if_pos hroot] at hagrees
      rw [executeCWD_congr hagrees]
    · rfl

theorem handleFtpCommandRETR_congr (hagrees : world.Agrees other (session.actionsRETR param)) :
    session.handleFtpCommandRETR world param = session.handleFtpCommandRETR other param := by
  refine requireUser_congr fun user huser => ?_
  split
  · rfl
  · next hpermission =>
    split
    · rfl
    · next hopen =>
      have hactions := hagrees.actions
      rw [actionsRETR, whenLoggedIn_eq huser, if_neg hpermission, if_neg hopen,
        List.forall_mem_singleton] at hactions
      dsimp only
      rw [hactions.1]

theorem handleFtpCommandSIZE_congr (hagrees : world.Agrees other (session.actionsSIZE param)) :
    session.handleFtpCommandSIZE world param = session.handleFtpCommandSIZE other param := by
  refine requireUser_congr fun user huser => ?_
  split
  · rfl
  · next hpermission =>
    have hactions := hagrees.actions
    rw [actionsSIZE, whenLoggedIn_eq huser, if_neg hpermission,
      List.forall_mem_singleton] at hactions
    dsimp only
    rw [hactions.1, hactions.2]

theorem handleFtpCommandSTOR_congr
    (hagrees : world.Agrees other (session.actionsSTOR world param)) :
    session.handleFtpCommandSTOR world param = session.handleFtpCommandSTOR other param := by
  refine requireUser_congr fun user huser => ?_
  split
  · rfl
  · next hpermission =>
    split
    · rfl
    · next hopen =>
      have hactions := hagrees.actions
      rw [actionsSTOR, whenLoggedIn_eq huser, if_neg hpermission, if_neg hopen] at hactions
      dsimp only at hactions ⊢
      rw [← hagrees.isOk, ← hagrees.type]
      split
      · rfl
      · next hoverwrite =>
        split
        · rfl
        · next hdir =>
          have hopens : world.opens (session.toLocalPath user param) =
              other.opens (session.toLocalPath user param) := by
            by_cases hregular : ((world.status (session.toLocalPath user param)).isOk &&
                decide ((world.status (session.toLocalPath user param)).type = .regularFile)) = true
            · have hdelete : ¬ (!user.permissions .fileDelete) = true := by
                intro hdenied
                exact hoverwrite (by rw [hregular, hdenied]; rfl)
              rw [if_pos hregular, if_neg hdelete, List.forall_mem_singleton] at hactions
              exact hactions
            · rw [if_neg hregular, if_neg hdir, List.forall_mem_singleton] at hactions
              exact hactions
          rw [hopens]

theorem handleFtpCommandAPPE_congr
    (hagrees : world.Agrees other (session.actionsAPPE world param)) :
    session.handleFtpCommandAPPE world param = session.handleFtpCommandAPPE other param := by
  refine requireUser_congr fun user huser => ?_
  split
  · rfl
  · next hpermission =>
    split
    · rfl
    · next hopen =>
      have hactions := hagrees.actions
      rw [actionsAPPE, whenLoggedIn_eq huser, if_neg hpermission, if_neg hopen] at hactions
      dsimp only at hactions ⊢
      rw [← hagrees.isOk, ← hagrees.type]
      split
      · rfl
      · next hregular =>
        rw [if_neg hregular, List.forall_mem_singleton] at hactions
        rw [show world.opens _ = other.opens _ from hactions]

theorem handleFtpCommandRNFR_congr (hagrees : world.Agrees other actions) (param : Bytes) :
    session.handleFtpCommandRNFR world param = session.handleFtpCommandRNFR other param := by
  unfold handleFtpCommandRNFR
  dsimp only
  rw [checkIfPathIsRenamable_congr hagrees]

theorem handleFtpCommandRNTO_congr
    (hagrees : world.Agrees other (session.actionsRNTO world param)) :
    session.handleFtpCommandRNTO world param = session.handleFtpCommandRNTO other param := by
  refine requireUser_congr fun user huser => ?_
  split
  · rfl
  · next hsequence =>
    split
    · rfl
    · next hparam =>
      have hactions := hagrees.actions
      rw [actionsRNTO, whenLoggedIn_eq huser, if_neg hsequence, if_neg hparam] at hactions
      rw [← checkIfPathIsRenamable_congr hagrees]
      dsimp only
      rw [← hagrees.isOk]
      split
      · next hcheck =>
        rw [if_pos hcheck] at hactions
        dsimp only at hactions
        split
        · rfl
        · next htarget =>
          rw [if_neg htarget] at hactions
          have hrename : world.rename (session.toLocalPath user session.renameFromPath)
              (session.toLocalPath user param) =
              other.rename (session.toLocalPath user session.renameFromPath)
                (session.toLocalPath user param) := by
            split at hactions
            all_goals
              rw [List.forall_mem_singleton] at hactions
              exact hactions
          rw [hrename]
      · rfl

theorem handleFtpCommandDELE_congr
    (hagrees : world.Agrees other (session.actionsDELE world param)) :
    session.handleFtpCommandDELE world param = session.handleFtpCommandDELE other param := by
  refine requireUser_congr fun user huser => ?_
  have hactions := hagrees.actions
  rw [actionsDELE, whenLoggedIn_eq huser] at hactions
  dsimp only at hactions ⊢
  rw [← hagrees.isOk, ← hagrees.type]
  split
  · rfl
  · next hexists =>
    split
    · rfl
    · next hregular =>
      split
      · rfl
      · next hpermission =>
        rw [if_neg hexists, if_neg hregular, if_neg hpermission,
          List.forall_mem_singleton] at hactions
        rw [show world.unlink _ = other.unlink _ from hactions]

theorem handleFtpCommandRMD_congr (hagrees : world.Agrees other (session.actionsRMD param)) :
    session.handleFtpCommandRMD world param = session.handleFtpCommandRMD other param := by
  refine requireUser_congr fun user huser => ?_
  split
  · rfl
  · next hpermission =>
    have hactions := hagrees.actions
    rw [actionsRMD, whenLoggedIn_eq huser, if_neg hpermission,
      List.forall_mem_singleton] at hactions
    rw [show world.rmdir _ = other.rmdir _ from hactions]

theorem handleFtpCommandMKD_congr (hagrees : world.Agrees other (session.actionsMKD param)) :
    session.handleFtpCommandMKD world param = session.handleFtpCommandMKD other param := by
  refine requireUser_congr fun user huser => ?_
  split
  · rfl
  · next hpermission =>
    have hactions := hagrees.actions
    rw [actionsMKD, whenLoggedIn_eq huser, if_neg hpermission,
      List.forall_mem_singleton] at hactions
    rw [show world.mkdir _ = other.mkdir _ from hactions]

theorem listDirectory_congr {path : Bytes}
    (hagrees : world.Agrees other (session.actionsListDirectory world path)) (accepted : String) :
    session.listDirectory world path accepted = session.listDirectory other path accepted := by
  refine requireUser_congr fun user huser => ?_
  split
  · rfl
  · next hpermission =>
    have hactions := hagrees.actions
    rw [actionsListDirectory, whenLoggedIn_eq huser, if_neg hpermission] at hactions
    dsimp only at hactions ⊢
    rw [← hagrees.isOk, ← hagrees.type]
    split
    · next hexists =>
      split
      · next hdir =>
        rw [if_neg (by simp [hexists]), if_neg (not_not.mpr hdir),
          List.forall_mem_singleton] at hactions
        rw [show (world.status _).canOpenDir = (other.status _).canOpenDir from hactions]
      · rfl
    · rfl

theorem handler_congr (hagrees : world.Agrees other actions)
    {name : Bytes} {handler : World → Session → Bytes → Outcome}
    (hentry : (name, handler) ∈ commandMap) (hname : actionMap.lookup name = none) (param : Bytes) :
    handler world session param = handler other session param := by
  have hpassive : ∀ command,
      session.openDataAcceptor world command = session.openDataAcceptor other command := by
    intro command
    rw [openDataAcceptor, openDataAcceptor, hagrees.passive]
  have hpass : session.handleFtpCommandPASS world param =
      session.handleFtpCommandPASS other param := by
    rw [handleFtpCommandPASS, handleFtpCommandPASS, hagrees.database]
  simp only [commandMap, List.mem_cons, List.not_mem_nil, or_false, Prod.mk.injEq] at hentry
  rcases hentry with ⟨rfl, rfl⟩ | ⟨rfl, rfl⟩ | ⟨rfl, rfl⟩ | ⟨rfl, rfl⟩ | ⟨rfl, rfl⟩ |
    ⟨rfl, rfl⟩ | ⟨rfl, rfl⟩ | ⟨rfl, rfl⟩ | ⟨rfl, rfl⟩ | ⟨rfl, rfl⟩ | ⟨rfl, rfl⟩ | ⟨rfl, rfl⟩ |
    ⟨rfl, rfl⟩ | ⟨rfl, rfl⟩ | ⟨rfl, rfl⟩ | ⟨rfl, rfl⟩ | ⟨rfl, rfl⟩ | ⟨rfl, rfl⟩ | ⟨rfl, rfl⟩ |
    ⟨rfl, rfl⟩ | ⟨rfl, rfl⟩ | ⟨rfl, rfl⟩ | ⟨rfl, rfl⟩ | ⟨rfl, rfl⟩ | ⟨rfl, rfl⟩ | ⟨rfl, rfl⟩ |
    ⟨rfl, rfl⟩ | ⟨rfl, rfl⟩ | ⟨rfl, rfl⟩ | ⟨rfl, rfl⟩ | ⟨rfl, rfl⟩ | ⟨rfl, rfl⟩ | ⟨rfl, rfl⟩ |
    ⟨rfl, rfl⟩ | ⟨rfl, rfl⟩ | ⟨rfl, rfl⟩ | ⟨rfl, rfl⟩ | ⟨rfl, rfl⟩ | ⟨rfl, rfl⟩
  all_goals first
    | rfl
    | exact hpassive _
    | exact hpass
    | exact handleFtpCommandRNFR_congr hagrees _
    | cases hname

theorem handleFtpCommand_congr {command : Bytes}
    (hagrees : world.Agrees other (session.actions world command)) :
    session.handleFtpCommand world command = session.handleFtpCommand other command := by
  have hcongr : ∀ {handler : World → Session → Bytes → Outcome},
      commandMap.lookup (ftpCommand command) = some handler →
      handler world session (parameters command) = handler other session (parameters command) →
      session.handleFtpCommand world command = session.handleFtpCommand other command := by
    intro handler hhandler heq
    rw [handleFtpCommand_of_lookup hhandler, handleFtpCommand_of_lookup hhandler, heq]
  unfold actions at hagrees
  split at hagrees
  · next handler hhandler =>
    have hentry := mem_actionMap hhandler
    simp only [actionMap, List.mem_cons, List.not_mem_nil, or_false, Prod.mk.injEq] at hentry
    rcases hentry with ⟨hname, rfl⟩ | ⟨hname, rfl⟩ | ⟨hname, rfl⟩ | ⟨hname, rfl⟩ |
      ⟨hname, rfl⟩ | ⟨hname, rfl⟩ | ⟨hname, rfl⟩ | ⟨hname, rfl⟩ | ⟨hname, rfl⟩ |
      ⟨hname, rfl⟩ | ⟨hname, rfl⟩ | ⟨hname, rfl⟩
    · refine @hcongr handleFtpCommandCWD (by rw [hname]; rfl) ?_
      rw [handleFtpCommandCWD, handleFtpCommandCWD, executeCWD_congr hagrees]
    · exact @hcongr (fun world session _ => handleFtpCommandCDUP world session)
        (by rw [hname]; rfl) (handleFtpCommandCDUP_congr hagrees)
    · exact hcongr (by rw [hname]; rfl) (handleFtpCommandRETR_congr hagrees)
    · exact hcongr (by rw [hname]; rfl) (handleFtpCommandSTOR_congr hagrees)
    · exact hcongr (by rw [hname]; rfl) (handleFtpCommandAPPE_congr hagrees)
    · exact hcongr (by rw [hname]; rfl) (handleFtpCommandRNTO_congr hagrees)
    · exact hcongr (by rw [hname]; rfl) (handleFtpCommandDELE_congr hagrees)
    · exact hcongr (by rw [hname]; rfl) (handleFtpCommandRMD_congr hagrees)
    · exact hcongr (by rw [hname]; rfl) (handleFtpCommandMKD_congr hagrees)
    · exact @hcongr handleFtpCommandLIST (by rw [hname]; rfl) (listDirectory_congr hagrees _)
    · exact @hcongr handleFtpCommandNLST (by rw [hname]; rfl) (listDirectory_congr hagrees _)
    · exact hcongr (by rw [hname]; rfl) (handleFtpCommandSIZE_congr hagrees)
  · next hname =>
    cases hhandler : commandMap.lookup (ftpCommand command) with
    | none =>
      have hcommand : ¬ IsRecognized command := by
        rw [IsRecognized, hhandler]
        exact Bool.false_ne_true
      rw [handleFtpCommand_of_not_isRecognized hcommand,
        handleFtpCommand_of_not_isRecognized hcommand]
    | some handler =>
      exact hcongr hhandler (handler_congr hagrees (mem_commandMap hhandler) hname _)

end Completeness

end Session

end AwsMock.Ftp
