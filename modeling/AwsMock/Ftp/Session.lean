import AwsMock.Ftp.Filesystem

/-! # FTP sessions

A session reads one command after the other. What it finds out about the file system and
about the data connection is given with each command. Every handler says what it replies on
the control connection and which local paths it used; what is sent later, when a transfer
ends, is left out.
-/

namespace AwsMock.Ftp

def Bytes.upper (c : UInt8) : UInt8 := if Bytes.isLower c then c - 32 else c

inductive Permission where
  | fileRead | fileWrite | fileAppend | fileDelete | fileRename
  | dirList | dirCreate | dirDelete | dirRename
deriving DecidableEq, Repr

structure FtpUser where
  username : Bytes
  password : Bytes
  localRootPath : Bytes
  permissions : Permission → Bool

structure CognitoUser where
  userName : Bytes
  password : Bytes

structure UserDatabase where
  anonymousUser : Option FtpUser := none
  getUserByUserName : Bytes → Option CognitoUser := fun _ => none

namespace UserDatabase

def isUsernameAnonymousUser (username : Bytes) : Bool :=
  username = [] || username = ascii "ftp" || username = ascii "anonymous"

def getUser (database : UserDatabase) (username password : Bytes) : Option FtpUser :=
  if isUsernameAnonymousUser username then database.anonymousUser
  else
    match database.getUserByUserName username with
    | none => none
    | some user =>
      if user.password = password then
        some ⟨user.userName, user.password, user.userName, fun _ => true⟩
      else none

end UserDatabase

inductive FileType where
  | unknown | regularFile | dir | characterDevice | blockDevice | fifo | symbolicLink | socket
deriving DecidableEq, Repr

structure FileStatus where
  isOk : Bool := false
  type : FileType := .unknown
  canOpenDir : Bool := false

/-- What a session is told while it handles a command. `opens` is for a path and the mode,
`passive` says for a command that opens the acceptor of the data connection whether it is
open after it, and what is replied. -/
structure World where
  database : UserDatabase := {}
  status : Bytes → FileStatus := fun _ => {}
  opens : Bytes → Bool → Bool := fun _ _ => false
  fileSize : Bytes → Option Nat := fun _ => none
  rename : Bytes → Bytes → Bool := fun _ _ => false
  unlink : Bytes → Bool := fun _ => false
  rmdir : Bytes → Bool := fun _ => false
  mkdir : Bytes → Bool := fun _ => false
  passive : Bytes → Bool × List Bytes := fun _ => (false, [])

inductive FtpReplyCode where
  | commandOk | syntaxErrorUnrecognizedCommand | syntaxErrorParameters | commandNotImplemented
  | commandsBadSequence | commandNotImplementedForParameter | fileStatus | nameSystemType
  | serviceClosingControlConnection | errorOpeningDataConnection | userLoggedIn | notLoggedIn
  | userNameOk | fileStatusOkOpeningDataConnection | fileActionCompleted | pathnameCreated
  | fileActionNeedsFurtherInfo | fileActionNotTaken | actionNotTaken | actionAbortedLocalError
  | actionNotTakenFilenameNotAllowed
deriving DecidableEq, Repr

def FtpReplyCode.toNat : FtpReplyCode → Nat
  | .commandOk => 200
  | .syntaxErrorUnrecognizedCommand => 500
  | .syntaxErrorParameters => 501
  | .commandNotImplemented => 502
  | .commandsBadSequence => 503
  | .commandNotImplementedForParameter => 504
  | .fileStatus => 213
  | .nameSystemType => 215
  | .serviceClosingControlConnection => 221
  | .errorOpeningDataConnection => 425
  | .userLoggedIn => 230
  | .notLoggedIn => 530
  | .userNameOk => 331
  | .fileStatusOkOpeningDataConnection => 150
  | .fileActionCompleted => 250
  | .pathnameCreated => 257
  | .fileActionNeedsFurtherInfo => 350
  | .fileActionNotTaken => 450
  | .actionNotTaken => 550
  | .actionAbortedLocalError => 451
  | .actionNotTakenFilenameNotAllowed => 553

structure FtpMessage where
  replyCode : FtpReplyCode
  message : Bytes
deriving DecidableEq

def FtpMessage.str (message : FtpMessage) : Bytes :=
  ascii (toString message.replyCode.toNat) ++ ascii " " ++ message.message ++ ascii "\r\n"

structure Session where
  loggedInUser : Option FtpUser := none
  lastCommand : Bytes := []
  renameFromPath : Bytes := []
  usernameForLogin : Bytes := []
  dataTypeBinary : Bool := true
  dataAcceptorOpen : Bool := false
  ftpWorkingDirectory : Bytes := ascii "/"

/-- A local path that was used, and the FTP path it was made of. -/
structure Use where
  path : Bytes
  localPath : Bytes
deriving DecidableEq, Repr

structure Outcome where
  session : Session
  replies : List Bytes := []
  uses : List Use := []

def Outcome.using (outcome : Outcome) (uses : List Use) : Outcome :=
  { outcome with uses := uses ++ outcome.uses }

namespace Session

variable (world : World) (session : Session)

def sendFtpMessage (code : FtpReplyCode) (message : String) : Outcome :=
  { session := session, replies := [FtpMessage.str ⟨code, ascii message⟩] }

def sendMessage (message : FtpMessage) : Outcome :=
  { session := session, replies := [message.str] }

def requireUser (continuation : FtpUser → Outcome) : Outcome :=
  match session.loggedInUser with
  | none => session.sendFtpMessage .notLoggedIn "Not logged in"
  | some user => continuation user

/-! ## Paths -/

def toAbsoluteFtpPath (path : Bytes) : Bytes :=
  if isAbsolute path then path
  else cleanPath (session.ftpWorkingDirectory ++ ascii "/" ++ path)

def toLocalPath (user : FtpUser) (path : Bytes) : Bytes :=
  cleanPath (user.localRootPath ++ ascii "/" ++ session.toAbsoluteFtpPath path)

def use (user : FtpUser) (path : Bytes) : Use := ⟨path, session.toLocalPath user path⟩

def createQuotedFtpPath (path : Bytes) : Bytes :=
  ascii "\"" ++ path.flatMap (fun c => if c = 34 then [c, c] else [c]) ++ ascii "\""

/-- Whether a path may be renamed, and what was used to find out. -/
def checkIfPathIsRenamable (path : Bytes) : FtpMessage × List Use :=
  match session.loggedInUser with
  | none => (⟨.notLoggedIn, ascii "Not logged in"⟩, [])
  | some user =>
    if path = [] then (⟨.syntaxErrorParameters, ascii "Empty path"⟩, [])
    else
      let status := world.status (session.toLocalPath user path)
      let requiredPermission : Permission :=
        if status.type = .dir then .dirRename else .fileRename
      (if !status.isOk then ⟨.actionNotTaken, ascii "File does not exist"⟩
        else if !user.permissions requiredPermission then
          ⟨.actionNotTaken, ascii "Permission denied"⟩
        else ⟨.commandOk, []⟩,
        [session.use user path])

/-- The FTP path that a parameter of `CWD` stands for. -/
def newWorkingDirectory (param : Bytes) : Bytes :=
  if isAbsolute param then cleanPath param
  else cleanPath (session.ftpWorkingDirectory ++ ascii "/" ++ param)

def executeCWD (param : Bytes) : Session × FtpMessage × List Use :=
  match session.loggedInUser with
  | none => (session, ⟨.notLoggedIn, ascii "Not logged in"⟩, [])
  | some user =>
    if !user.permissions .dirList then
      (session, ⟨.actionNotTaken, ascii "Permission denied"⟩, [])
    else if param = [] then (session, ⟨.syntaxErrorParameters, ascii "No path given"⟩, [])
    else
      let absoluteNewWorkingDir := session.newWorkingDirectory param
      let fileStatus := world.status (session.toLocalPath user absoluteNewWorkingDir)
      let uses := [session.use user absoluteNewWorkingDir]
      if !fileStatus.isOk then
        (session, ⟨.actionNotTaken, ascii ("Failed ot change directory: " ++
          "The given resource does not exist or permission denied.")⟩, uses)
      else if fileStatus.type ≠ .dir then
        (session, ⟨.actionNotTaken, ascii ("Failed ot change directory: " ++
          "The given resource is not a directory.")⟩, uses)
      else if !fileStatus.canOpenDir then
        (session, ⟨.actionNotTaken, ascii "Failed ot change directory: Permission denied."⟩, uses)
      else
        ({ session with ftpWorkingDirectory := absoluteNewWorkingDir }, ⟨.fileActionCompleted,
            ascii "Working directory changed to " ++ absoluteNewWorkingDir⟩, uses)

/-! ## Access control commands -/

def handleFtpCommandUSER (param : Bytes) : Outcome :=
  let session :=
    { session with
      loggedInUser := none, usernameForLogin := param, ftpWorkingDirectory := ascii "/" }
  if param = [] then session.sendFtpMessage .syntaxErrorParameters "Please provide username"
  else session.sendFtpMessage .userNameOk "Please enter password"

def handleFtpCommandPASS (param : Bytes) : Outcome :=
  if session.lastCommand ≠ ascii "USER" then
    session.sendFtpMessage .commandsBadSequence "Please specify username first"
  else
    match world.database.getUser session.usernameForLogin param with
    | none => session.sendFtpMessage .notLoggedIn "Failed to log in"
    | some user =>
      { session with loggedInUser := some user }.sendFtpMessage .userLoggedIn "Login successful"

def handleFtpCommandCWD (param : Bytes) : Outcome :=
  let (next, message, uses) := session.executeCWD world param
  (next.sendMessage message).using uses

def handleFtpCommandCDUP : Outcome :=
  session.requireUser fun user =>
    if !user.permissions .dirList then session.sendFtpMessage .actionNotTaken "Permission denied"
    else if session.ftpWorkingDirectory ≠ ascii "/" then
      let (next, cwdReply, uses) := session.executeCWD world (ascii "..")
      if cwdReply.replyCode = .fileActionCompleted then
        (next.sendMessage ⟨.commandOk, cwdReply.message⟩).using uses
      else (next.sendMessage cwdReply).using uses
    else session.sendFtpMessage .actionNotTaken "Already at root directory"

def handleFtpCommandQUIT : Outcome :=
  { session with loggedInUser := none }.sendFtpMessage .serviceClosingControlConnection
    "Connection shutting down"

/-! ## Transfer parameter commands -/

/-- `PASV`, `EPRT`, `LPRT`, `EPSV` and `LPSV` open the acceptor anew. -/
def openDataAcceptor (command : Bytes) : Outcome :=
  session.requireUser fun _ =>
    { session := { session with dataAcceptorOpen := (world.passive command).1 }
      replies := (world.passive command).2 }

def handleFtpCommandTYPE (param : Bytes) : Outcome :=
  session.requireUser fun _ =>
    if param = ascii "A" then
      { session with dataTypeBinary := false }.sendFtpMessage .commandOk "Switching to ASCII mode"
    else if param = ascii "I" then
      { session with dataTypeBinary := true }.sendFtpMessage .commandOk "Switching to binary mode"
    else
      session.sendFtpMessage .commandNotImplementedForParameter "Unknown or unsupported type"

/-! ## Service commands -/

def handleFtpCommandRETR (param : Bytes) : Outcome :=
  session.requireUser fun user =>
    if !user.permissions .fileRead then session.sendFtpMessage .actionNotTaken "Permission denied"
    else if !session.dataAcceptorOpen then
      session.sendFtpMessage .errorOpeningDataConnection "Error opening data connection"
    else
      let localPath := session.toLocalPath user param
      (if !world.opens localPath session.dataTypeBinary then
        session.sendFtpMessage .actionAbortedLocalError "Error opening file for transfer"
      else
        session.sendFtpMessage .fileStatusOkOpeningDataConnection "Sending file").using
        [session.use user param]

def handleFtpCommandSIZE (param : Bytes) : Outcome :=
  session.requireUser fun user =>
    if !user.permissions .fileRead then session.sendFtpMessage .actionNotTaken "Permission denied"
    else
      let localPath := session.toLocalPath user param
      (if !world.opens localPath session.dataTypeBinary then
        session.sendFtpMessage .actionAbortedLocalError "Error opening file for size retrieval"
      else
        match world.fileSize localPath with
        | none => session.sendFtpMessage .actionAbortedLocalError "Error getting file size"
        | some size => session.sendFtpMessage .fileStatus (toString size)).using
        [session.use user param]

def handleFtpCommandSTOR (param : Bytes) : Outcome :=
  session.requireUser fun user =>
    if !user.permissions .fileWrite then session.sendFtpMessage .actionNotTaken "Permission denied"
    else if !session.dataAcceptorOpen then
      session.sendFtpMessage .errorOpeningDataConnection "Error opening data connection"
    else
      let localPath := session.toLocalPath user param
      let fileStatus := world.status localPath
      (if fileStatus.isOk && fileStatus.type = .regularFile && !user.permissions .fileDelete then
        session.sendFtpMessage .actionNotTakenFilenameNotAllowed
          "File already exists. Permission denied to overwrite file."
      else if fileStatus.isOk && fileStatus.type = .dir then
        session.sendFtpMessage .actionNotTakenFilenameNotAllowed
          "Cannot create file. A directory with that name already exists."
      else if !world.opens localPath session.dataTypeBinary then
        session.sendFtpMessage .actionAbortedLocalError "Error opening file for transfer"
      else
        session.sendFtpMessage .fileStatusOkOpeningDataConnection "Receiving file").using
        [session.use user param]

def handleFtpCommandAPPE (param : Bytes) : Outcome :=
  session.requireUser fun user =>
    if !user.permissions .fileAppend then
      session.sendFtpMessage .actionNotTaken "Permission denied"
    else if !session.dataAcceptorOpen then
      session.sendFtpMessage .errorOpeningDataConnection "Error opening data connection"
    else
      let localPath := session.toLocalPath user param
      let existingFileFilestatus := world.status localPath
      (if !existingFileFilestatus.isOk || existingFileFilestatus.type ≠ .regularFile then
        session.sendFtpMessage .actionNotTaken "File does not exist."
      else if !world.opens localPath session.dataTypeBinary then
        session.sendFtpMessage .actionAbortedLocalError "Error opening file for transfer"
      else
        session.sendFtpMessage .fileStatusOkOpeningDataConnection "Receiving file").using
        [session.use user param]

def handleFtpCommandRNFR (param : Bytes) : Outcome :=
  let session := { session with renameFromPath := [] }
  let (isRenamableError, uses) := session.checkIfPathIsRenamable world param
  if isRenamableError.replyCode = .commandOk then
    ({ session with renameFromPath := param }.sendFtpMessage .fileActionNeedsFurtherInfo
      "Enter target name").using uses
  else (session.sendMessage isRenamableError).using uses

def handleFtpCommandRNTO (param : Bytes) : Outcome :=
  session.requireUser fun user =>
    if session.lastCommand ≠ ascii "RNFR" ∨ session.renameFromPath = [] then
      session.sendFtpMessage .commandsBadSequence "Please specify target file first"
    else if param = [] then
      session.sendFtpMessage .syntaxErrorParameters "No target name given"
    else
      let (isRenamableError, uses) := session.checkIfPathIsRenamable world session.renameFromPath
      if isRenamableError.replyCode = .commandOk then
        let localFromPath := session.toLocalPath user session.renameFromPath
        let localToPath := session.toLocalPath user param
        (if (world.status localToPath).isOk then
          session.sendFtpMessage .fileActionNotTaken "Target path exists already."
        else if world.rename localFromPath localToPath then
          session.sendFtpMessage .fileActionCompleted "OK"
        else
          session.sendFtpMessage .fileActionNotTaken "Error renaming file").using
          (uses ++ [session.use user session.renameFromPath, session.use user param])
      else (session.sendMessage isRenamableError).using uses

def handleFtpCommandDELE (param : Bytes) : Outcome :=
  session.requireUser fun user =>
    let localPath := session.toLocalPath user param
    let fileStatus := world.status localPath
    (if !fileStatus.isOk then
      session.sendFtpMessage .actionNotTaken "Resource does not exist"
    else if fileStatus.type ≠ .regularFile then
      session.sendFtpMessage .actionNotTaken "Resource is not a file"
    else if !user.permissions .fileDelete then
      session.sendFtpMessage .actionNotTaken "Permission denied"
    else if world.unlink localPath then
      session.sendFtpMessage .fileActionCompleted "Successfully deleted file"
    else
      session.sendFtpMessage .fileActionNotTaken "Unable to delete file").using
      [session.use user param]

def handleFtpCommandRMD (param : Bytes) : Outcome :=
  session.requireUser fun user =>
    if !user.permissions .dirDelete then
      session.sendFtpMessage .actionNotTaken "Permission denied"
    else
      (if world.rmdir (session.toLocalPath user param) then
        session.sendFtpMessage .fileActionCompleted "Successfully removed directory"
      else
        session.sendFtpMessage .actionNotTaken "Unable to remove directory").using
        [session.use user param]

def handleFtpCommandMKD (param : Bytes) : Outcome :=
  session.requireUser fun user =>
    if !user.permissions .dirCreate then
      session.sendFtpMessage .actionNotTaken "Permission denied"
    else
      (if world.mkdir (session.toLocalPath user param) then
        session.sendMessage ⟨.pathnameCreated,
          createQuotedFtpPath (session.toAbsoluteFtpPath param) ++ ascii " Successfully created"⟩
      else
        session.sendFtpMessage .actionNotTaken "Unable to create directory").using
        [session.use user param]

def handleFtpCommandPWD : Outcome :=
  match session.loggedInUser with
  | none => session.sendFtpMessage .actionNotTaken "Not logged in"
  | some _ => session.sendMessage ⟨.pathnameCreated, createQuotedFtpPath session.ftpWorkingDirectory⟩

/-- What is left of the parameter of `LIST` when options as of `ls` are taken away. -/
def withoutOptions (param : Bytes) : Bytes :=
  if param = ascii "-a" ∨ param = ascii "-l" ∨ param = ascii "-al" ∨ param = ascii "-la" then []
  else if (param.take 3 = ascii "-a " ∨ param.take 3 = ascii "-l ") ∧ 3 < param.length then
    param.drop 3
  else if (param.take 4 = ascii "-al " ∨ param.take 4 = ascii "-la ") ∧ 4 < param.length then
    param.drop 4
  else param

/-- What `LIST` and `NLST` have in common: `accepted` is said before the data is sent. -/
def listDirectory (path : Bytes) (accepted : String) : Outcome :=
  session.requireUser fun user =>
    if !user.permissions .dirList then
      session.sendFtpMessage .fileActionNotTaken "Permission denied"
    else
      let dirStatus := world.status (session.toLocalPath user path)
      (if dirStatus.isOk then
        if dirStatus.type = .dir then
          if dirStatus.canOpenDir then
            session.sendFtpMessage .fileStatusOkOpeningDataConnection accepted
          else session.sendFtpMessage .fileActionNotTaken "Permission denied"
        else session.sendFtpMessage .fileActionNotTaken "Path is not a directory"
      else session.sendFtpMessage .fileActionNotTaken "Path does not exist").using
        [session.use user path]

def handleFtpCommandLIST (param : Bytes) : Outcome :=
  session.listDirectory world (withoutOptions param) "Sending directory listing"

def handleFtpCommandNLST (param : Bytes) : Outcome :=
  session.listDirectory world param "Sending name list"

def handleFtpCommandFEAT : Outcome :=
  { session := session
    replies := [ascii "211- Feature List:\r\n UTF8\r\n SIZE\r\n LANG EN\r\n211 END\r\n"] }

def handleFtpCommandOPTS (param : Bytes) : Outcome :=
  if param.map Bytes.upper = ascii "UTF8 ON" then session.sendFtpMessage .commandOk "OK"
  else session.sendFtpMessage .commandNotImplementedForParameter "Unrecognized parameter"

/-! ## Commands -/

/-- The command map. Handlers that only reply stand here with what they reply. -/
def commandMap : List (Bytes × (World → Session → Bytes → Outcome)) :=
  [(ascii "USER", fun _ => handleFtpCommandUSER),
    (ascii "PASS", handleFtpCommandPASS),
    (ascii "ACCT", fun _ session _ =>
      session.sendFtpMessage .syntaxErrorUnrecognizedCommand "Unsupported command"),
    (ascii "CWD", handleFtpCommandCWD),
    (ascii "CDUP", fun world session _ => handleFtpCommandCDUP world session),
    (ascii "REIN", fun _ session _ =>
      session.sendFtpMessage .commandNotImplemented "Unsupported command"),
    (ascii "QUIT", fun _ session _ => handleFtpCommandQUIT session),
    (ascii "PORT", fun _ session _ =>
      session.sendFtpMessage .syntaxErrorUnrecognizedCommand
        "FTP active mode is not supported by this manager"),
    (ascii "PASV", fun world session _ => session.openDataAcceptor world (ascii "PASV")),
    (ascii "EPRT", fun world session _ => session.openDataAcceptor world (ascii "EPRT")),
    (ascii "EPSV", fun world session _ => session.openDataAcceptor world (ascii "EPSV")),
    (ascii "TYPE", fun _ => handleFtpCommandTYPE),
    (ascii "STRU", fun _ session _ =>
      session.sendFtpMessage .syntaxErrorUnrecognizedCommand "Unsupported command"),
    (ascii "MODE", fun _ session _ =>
      session.sendFtpMessage .syntaxErrorUnrecognizedCommand "Unsupported command"),
    (ascii "LPRT", fun world session _ => session.openDataAcceptor world (ascii "LPRT")),
    (ascii "LPSV", fun world session _ => session.openDataAcceptor world (ascii "LPSV")),
    (ascii "RETR", handleFtpCommandRETR),
    (ascii "STOR", handleFtpCommandSTOR),
    (ascii "STOU", fun _ session _ =>
      session.sendFtpMessage .syntaxErrorUnrecognizedCommand "Command not implemented"),
    (ascii "APPE", handleFtpCommandAPPE),
    (ascii "ALLO", fun _ session _ =>
      session.sendFtpMessage .syntaxErrorUnrecognizedCommand "Command not implemented"),
    (ascii "REST", fun _ session _ =>
      session.sendFtpMessage .commandNotImplemented "Command not implemented"),
    (ascii "RNFR", handleFtpCommandRNFR),
    (ascii "RNTO", handleFtpCommandRNTO),
    (ascii "ABOR", fun _ session _ =>
      session.sendFtpMessage .commandNotImplemented "Command not implemented"),
    (ascii "DELE", handleFtpCommandDELE),
    (ascii "RMD", handleFtpCommandRMD),
    (ascii "MKD", handleFtpCommandMKD),
    (ascii "PWD", fun _ session _ => handleFtpCommandPWD session),
    (ascii "LIST", handleFtpCommandLIST),
    (ascii "NLST", handleFtpCommandNLST),
    (ascii "SITE", fun _ session _ =>
      session.sendFtpMessage .syntaxErrorUnrecognizedCommand "Command not implemented"),
    (ascii "SYST", fun _ session _ => session.sendFtpMessage .nameSystemType "UNIX"),
    (ascii "STAT", fun _ session _ =>
      session.sendFtpMessage .commandNotImplemented "Command not implemented"),
    (ascii "HELP", fun _ session _ =>
      session.sendFtpMessage .commandNotImplemented "Command not implemented"),
    (ascii "NOOP", fun _ session _ => session.sendFtpMessage .commandOk "OK"),
    (ascii "FEAT", fun _ session _ => handleFtpCommandFEAT session),
    (ascii "OPTS", fun _ => handleFtpCommandOPTS),
    (ascii "SIZE", handleFtpCommandSIZE)]

/-- A command is a name, which is read without regard to case, and what follows the first
blank. An unknown one is not kept as the last command. -/
def handleFtpCommand (command : Bytes) : Outcome :=
  let ftpCommand := (command.takeWhile (· ≠ 32)).map Bytes.upper
  let parameters := (command.dropWhile (· ≠ 32)).drop 1
  match commandMap.lookup ftpCommand with
  | some handler =>
    let outcome := handler world session parameters
    { outcome with session := { outcome.session with lastCommand := ftpCommand } }
  | none => session.sendFtpMessage .syntaxErrorUnrecognizedCommand "Unrecognized command"

/-- After `QUIT` no command is read. -/
def step (input : World × Bytes) : Session :=
  if session.lastCommand = ascii "QUIT" then session
  else (session.handleFtpCommand input.1 input.2).session

def run (inputs : List (World × Bytes)) : Session := inputs.foldl step session

end Session

end AwsMock.Ftp
