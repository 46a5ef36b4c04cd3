import AwsMock.Foundation.Inodes
import AwsMock.Foundation.ListUpdate
import AwsMock.Foundation.Runs
import AwsMock.Ftp.Actions

/-! # FTP uploads

While a session goes on with its commands, what it has been told to receive is read from the
data connection, written to the file on the strand of the files, and put to the bucket by a
step that is posted when the file has been closed. That step names the user who is logged in
by then.
-/

namespace AwsMock.Ftp

open Foundation Foundation.Inodes

/-- The key of an object is its local path without a slash in front. -/
def getKey (path : Bytes) : Bytes :=
  match path with
  | 47 :: rest => rest
  | path => path

def IsUnder (directory path : Bytes) : Bool :=
  path = directory || (directory ++ ascii "/").isPrefixOf path

/-- What a name has been called before `source` was renamed to `target`. -/
def originOfRename (source target path : Bytes) : Option Bytes :=
  if IsUnder target path then some (source ++ path.drop target.length)
  else if IsUnder source path then none
  else some path

/-- `ended` is an upload whose data connection has ended, `closed` one whose file has been
closed since, and `stored` one whose object has been put. -/
inductive Phase where
  | accepting | aborted | reading | waiting | stalled | ended | closed | stored
deriving DecidableEq, Repr

structure Upload where
  user : Bytes
  fileName : Bytes
  inode : Nat
  appending : Bool
  position : Nat := 0
  received : Bytes := []
  phase : Phase := .accepting

namespace Upload

def isWriting (upload : Upload) : Bool :=
  upload.phase = .accepting || upload.phase = .reading || upload.phase = .waiting ||
    upload.phase = .stalled || upload.phase = .ended

def isUnfinished (upload : Upload) : Bool := upload.isWriting || upload.phase = .closed

def hasEnded (upload : Upload) : Bool :=
  upload.phase = .ended || upload.phase = .closed || upload.phase = .stored

end Upload

inductive Work where
  | write (data : Bytes) (fetchMore : Bool)
  | close
deriving DecidableEq

structure Task where
  upload : Nat
  work : Work

/-- A posted call of `SendCreateObjectRequest`. -/
structure CreateObjectRequest where
  upload : Nat
  user : Bytes
  fileName : Bytes

/-- A call of `PutObject`, and for which upload it was made. -/
structure PutObject where
  upload : Nat
  bucket : Bytes
  key : Bytes
  owner : Bytes
  userAgentId : Bytes
  body : Bytes
deriving DecidableEq

/-- A call of `DeleteObject`, and for which file it was made. -/
structure DeleteObject where
  fileName : Bytes
  user : Bytes
  bucket : Bytes
  key : Bytes

structure Uploads where
  session : Session := {}
  disk : Volume Bytes UInt8 := {}
  uploads : List Upload := []
  fileRwStrand : List Task := []
  requests : List CreateObjectRequest := []
  puts : List PutObject := []
  deletions : List DeleteObject := []
  crashed : Bool := false

/-- The commands of the control connection, and the steps of the uploads. A posted request
is chosen by its place. -/
inductive UploadEvent where
  | command (world : World) (line : Bytes)
  | accept (upload : Nat) (ok : Bool)
  | read (upload : Nat) (data : Bytes) (ended : Bool)
  | runTask
  | runRequest (index : Nat)

structure Server where
  serverName : Bytes
  bucket : Bytes

namespace Uploads

variable (server : Server) (state : Uploads)

/-- `STOR` and `APPE`: the file is opened and the data connection is accepted next. -/
def receiveFile (world : World) (user : FtpUser) (localPath : Bytes) (appending : Bool) :
    Uploads :=
  if world.opens localPath state.session.dataTypeBinary then
    let (inode, disk) := state.disk.openFile localPath (!appending)
    { state with
      disk := disk
      uploads := state.uploads ++
        [{ user := user.username, fileName := localPath, inode := inode, appending := appending }] }
  else state

def sendDeleteObjectRequest (user fileName : Bytes) : Uploads :=
  { state with deletions := state.deletions ++ [⟨fileName, user, server.bucket, getKey fileName⟩] }

def perform (world : World) (user : FtpUser) (state : Uploads) : Action → Uploads
  | .writeFile path | .overwriteFile path => state.receiveFile world user path false
  | .appendFile path => state.receiveFile world user path true
  | .renameFile source target | .renameDirectory source target =>
    if world.rename source target then
      { state with disk := state.disk.rename (originOfRename source target) }
    else state
  | .deleteFile path =>
    if world.unlink path then
      { state with disk := state.disk.remove path }.sendDeleteObjectRequest server user.username
        path
    else state
  | .readFile _ | .listDirectory _ | .createDirectory _ | .deleteDirectory _ => state

def handleCommand (world : World) (line : Bytes) : Uploads :=
  let performed :=
    match state.session.loggedInUser with
    | none => state
    | some user => (state.session.actions world line).foldl (perform server world user) state
  { performed with session := state.session.step (world, line) }

def acceptDataConnection (index : Nat) (ok : Bool) : Uploads :=
  { state with
    uploads := state.uploads.modify index fun upload =>
      if upload.phase = .accepting then
        { upload with phase := if ok then .reading else .aborted }
      else upload }

/-- The end of a read: what has come is written, and more is read then, unless the data
connection has ended. -/
def receiveDataFromSocketAndWriteToFile (index : Nat) (data : Bytes) (ended : Bool) : Uploads :=
  match state.uploads[index]? with
  | none => state
  | some upload =>
    if upload.phase ≠ .reading then state
    else
      let keep (phase : Phase) := state.uploads.modify index fun upload =>
        { upload with received := upload.received ++ data, phase := phase }
      if ended then
        { state with
          uploads := keep .ended
          fileRwStrand := state.fileRwStrand ++
            (if data ≠ [] then [⟨index, .write data false⟩] else []) ++ [⟨index, .close⟩] }
      else if data ≠ [] then
        { state with
          uploads := keep .waiting
          fileRwStrand := state.fileRwStrand ++ [⟨index, .write data true⟩] }
      else { state with uploads := keep .stalled }

/-- The first task of the strand. Who appends writes at the end of the file. -/
def runTask : Uploads :=
  match state.fileRwStrand with
  | [] => state
  | task :: tasks =>
    match state.uploads[task.upload]?, task.work with
    | none, _ => { state with fileRwStrand := tasks }
    | some upload, .write data fetchMore =>
      let position :=
        if upload.appending then (state.disk.contents upload.inode).length
        else upload.position
      { state with
        fileRwStrand := tasks
        disk := state.disk.write 0 upload.inode position data
        uploads := state.uploads.modify task.upload fun upload =>
          { upload with
            position := position + data.length
            phase := if fetchMore then .reading else upload.phase } }
    | some upload, .close =>
      { state with
        fileRwStrand := tasks
        uploads := state.uploads.modify task.upload fun upload =>
          { upload with phase := .closed }
        requests := state.requests ++ [⟨task.upload, upload.user, upload.fileName⟩] }

def sendCreateObjectRequest (index : Nat) : Uploads :=
  match state.requests[index]? with
  | none => state
  | some request =>
    match state.session.loggedInUser with
    | none => { state with crashed := true }
    | some user =>
      { state with
        requests := state.requests.eraseIdx index
        uploads := state.uploads.modify request.upload fun upload =>
          { upload with phase := .stored }
        puts := state.puts ++
          [{ upload := request.upload
             bucket := server.bucket
             key := getKey request.fileName
             owner := request.user
             userAgentId := user.username ++ ascii "@" ++ server.serverName
             body := state.disk.read request.fileName }] }

def step (event : UploadEvent) : Uploads :=
  if state.crashed then state
  else
    match event with
    | .command world line => state.handleCommand server world line
    | .accept index ok => state.acceptDataConnection index ok
    | .read index data ended => state.receiveDataFromSocketAndWriteToFile index data ended
    | .runTask => state.runTask
    | .runRequest index => state.sendCreateObjectRequest server index

/-! ## What is promised -/

/-- Nothing has used a user who is not logged in; for an upload whose data connection has
ended there is either its end on the strand, or its posted request, or its one object, which
is that of the user who has sent it, and the one that a `DELE` of the file deletes. -/
structure KeepsUploads : Prop where
  alive : state.crashed = false
  once : ∀ (index : Nat) (upload : Upload), state.uploads[index]? = some upload →
    upload.hasEnded = true →
      state.fileRwStrand.countP (fun task => task.upload = index && task.work = .close) +
        state.requests.countP (fun request => request.upload = index) +
        state.puts.countP (fun put => put.upload = index) = 1
  right : ∀ put ∈ state.puts, ∃ upload, state.uploads[put.upload]? = some upload ∧
    upload.hasEnded = true ∧ (upload.appending = false → put.body = upload.received) ∧
    put.bucket = server.bucket ∧ put.owner = upload.user ∧
    put.userAgentId = upload.user ++ ascii "@" ++ server.serverName ∧
    ∀ deletion ∈ state.deletions, deletion.fileName = upload.fileName →
      deletion.bucket = put.bucket ∧ deletion.key = put.key

/-- What an action must leave alone: a file that is being written is not opened for writing
again, and one that is received anew keeps its name until its object has been put. -/
def Spares (world : World) (upload : Upload) : Action → Prop
  | .writeFile path | .overwriteFile path =>
    world.opens path state.session.dataTypeBinary = true →
    (if upload.appending then upload.isWriting else upload.isUnfinished) = true →
      state.disk.files path ≠ some upload.inode
  | .appendFile path =>
    world.opens path state.session.dataTypeBinary = true →
    upload.appending = false → upload.isUnfinished = true →
      state.disk.files path ≠ some upload.inode
  | .renameFile source target | .renameDirectory source target =>
    world.rename source target = true →
    upload.appending = false → upload.isUnfinished = true →
      IsUnder source upload.fileName = false ∧ IsUnder target upload.fileName = false
  | .deleteFile path =>
    world.unlink path = true →
    upload.appending = false → upload.isUnfinished = true → path ≠ upload.fileName
  | .readFile _ | .listDirectory _ | .createDirectory _ | .deleteDirectory _ => True

def HeedsUploads (state : Uploads) : UploadEvent → Prop
  | .runRequest index => ∀ request ∈ state.requests[index]?,
      ∃ user ∈ state.session.loggedInUser, user.username = request.user
  | .command world line => ∀ action ∈ state.session.actions world line,
      ∀ upload ∈ state.uploads, state.Spares world upload action
  | _ => True

instance decidableSpares (world : World) (upload : Upload) (action : Action) :
    Decidable (state.Spares world upload action) := by
  unfold Spares
  split <;> infer_instance

instance decidableHeedsUploads : ∀ event, Decidable (state.HeedsUploads event)
  | .runRequest index =>
    inferInstanceAs (Decidable (∀ request ∈ state.requests[index]?,
      ∃ user ∈ state.session.loggedInUser, user.username = request.user))
  | .command world line =>
    inferInstanceAs (Decidable (∀ action ∈ state.session.actions world line,
      ∀ upload ∈ state.uploads, state.Spares world upload action))
  | .accept _ _ | .read _ _ _ | .runTask => isTrue trivial

end Uploads

end AwsMock.Ftp
