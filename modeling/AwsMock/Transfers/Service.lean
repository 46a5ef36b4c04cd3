import AwsMock.Foundation.UnorderedMap
import AwsMock.Transfers.Entity

/-! # The transfer service

The service over the repository that keeps servers in memory. A call that fails leaves the
repository as it is. Random identifiers and passwords are given with a call.
-/

namespace AwsMock.Transfers

open Foundation

structure TransferMemoryRepository where
  transfers : UnorderedMap String Transfer := UnorderedMap.empty
  users : UnorderedMap String User := UnorderedMap.empty

namespace TransferMemoryRepository

variable (repository : TransferMemoryRepository)

def isServer (region serverId : String) (transfer : Transfer) : Bool :=
  transfer.region = region && transfer.serverId = serverId

def transferExists (region serverId : String) : Bool :=
  (repository.transfers.findIf (isServer region serverId)).isSome

def getTransferByServerId (region serverId : String) : Except CoreException Transfer :=
  match repository.transfers.findIf (isServer region serverId) with
  | some entry => .ok entry.2
  | none => .error (.database ("Get transfer by serverId failed, serverId: " ++ serverId))

def listUsers (region serverId : String) : Except CoreException (List User) := do
  return (← repository.getTransferByServerId region serverId).users

def createTransfer (oid : String) (transfer : Transfer) : TransferMemoryRepository :=
  { repository with transfers := repository.transfers.assign oid transfer }

def updateTransfer (transfer : Transfer) : Except CoreException TransferMemoryRepository :=
  match repository.transfers.findIf (isServer transfer.region transfer.serverId) with
  | some entry => .ok { repository with transfers := repository.transfers.assign entry.1 transfer }
  | none => .error (.database ("Update transfer failed, serverId: " ++ transfer.serverId))

def countServers (region : String) : Nat :=
  if region = "" then repository.transfers.size
  else repository.transfers.countIf fun transfer => transfer.region = region

def countUsers (region _serverId : String) : Nat :=
  if region = "" then repository.users.size
  else repository.transfers.countIf fun transfer => transfer.region = region

def deleteTransfer (serverId : String) : TransferMemoryRepository :=
  { repository with
    transfers := repository.transfers.eraseIf fun transfer => transfer.serverId = serverId }

end TransferMemoryRepository

structure Configuration where
  accountId : String
  ftpAddress : String
  ftpPort : Int

structure CreateServerRequest where
  region : String
  protocols : List Protocol

structure CreateServerResponse where
  region : String
  serverId : String
  arn : String
deriving DecidableEq, Repr

structure CreateUserRequest where
  region : String
  serverId : String
  userName : String
  password : String := ""
  homeDirectory : String := ""

structure CreateUserResponse where
  region : String
  serverId : String
  userName : String
deriving DecidableEq, Repr

structure CreateProtocolRequest where
  region : String
  serverId : String
  protocol : Protocol
  port : Int

structure ProtocolCounter where
  protocol : Protocol
  port : Int
deriving DecidableEq, Repr

structure ListProtocolCountersResponse where
  total : Nat
  protocolCounters : List ProtocolCounter
deriving DecidableEq, Repr

structure ListUserCountersResponse where
  total : Nat
  userCounters : List User
deriving DecidableEq, Repr

def createTransferArn (region accountId serverId : String) : String :=
  AwsUtils.createArn "transfer" region accountId ("manager/" ++ serverId)

def createTransferUserArn (region accountId serverId userName : String) : String :=
  AwsUtils.createArn "transfer" region accountId (serverId ++ "/" ++ userName)

namespace TransferService

open TransferMemoryRepository

variable (configuration : Configuration) (repository : TransferMemoryRepository)

/-- `hex` are the hexadecimal digits that are drawn. The server is looked for under the name
of the protocol. Nothing is said about a request without protocols. -/
def createTransferServer (oid hex : String) (request : CreateServerRequest) :
    Except CoreException (TransferMemoryRepository × CreateServerResponse) :=
  match request.protocols with
  | [] => .error (.standard "no protocol")
  | protocol :: _ =>
    if repository.transferExists request.region protocol.toString then
      .error (.service "Transfer manager exists already")
    else
      let serverId := "s-" ++ hex.toLower
      let transferArn := createTransferArn request.region configuration.accountId serverId
      let transferEntity : Transfer :=
        { region := request.region
          serverId := serverId
          arn := transferArn
          ports := [configuration.ftpPort]
          listenAddress := configuration.ftpAddress
          protocols := [Protocol.fromString protocol.toString]
          users :=
            [{ userName := "anonymous", password := "secret", homeDirectory := "/" }] }
      .ok (repository.createTransfer oid transferEntity, ⟨request.region, serverId, transferArn⟩)

/-- `drawn` is the random password. -/
def createUser (drawn : String) (request : CreateUserRequest) :
    Except CoreException (TransferMemoryRepository × CreateUserResponse) := do
  if !repository.transferExists request.region request.serverId then
    throw (.service ("Transfer manager with ID '" ++ request.serverId ++ "  does not exist"))
  let transferEntity ← repository.getTransferByServerId request.region request.serverId
  if transferEntity.hasUser request.userName then
    let user := transferEntity.getUser request.userName
    return (repository, ⟨transferEntity.region, transferEntity.serverId, user.userName⟩)
  let homeDirectory :=
    if request.homeDirectory = "" then request.userName else request.homeDirectory
  let userArn := createTransferUserArn request.region configuration.accountId
    transferEntity.serverId request.userName
  let user : User :=
    { userName := request.userName
      password := if request.password = "" then drawn else request.password
      homeDirectory := homeDirectory
      arn := userArn }
  let repository ← repository.updateTransfer
    { transferEntity with users := transferEntity.users ++ [user] }
  return (repository, ⟨transferEntity.region, transferEntity.serverId, request.userName⟩)

def createProtocol (request : CreateProtocolRequest) :
    Except CoreException TransferMemoryRepository := do
  if !repository.transferExists request.region request.serverId then
    throw (.service ("Transfer manager with ID '" ++ request.serverId ++ "  does not exist"))
  let transferEntity ← repository.getTransferByServerId request.region request.serverId
  if transferEntity.hasProtocol request.protocol.toString then
    return repository
  repository.updateTransfer
    { transferEntity with
      protocols :=
        transferEntity.protocols ++ [Protocol.fromString request.protocol.toString]
      ports := transferEntity.ports ++ [request.port] }

/-- What `StartServer` and `StopServer` have in common. -/
def setServerState (state : ServerState) (region serverId : String) :
    Except CoreException TransferMemoryRepository := do
  if !repository.transferExists region serverId then
    throw (.service ("Handler with ID '" ++ serverId ++ "' does not exist"))
  let server ← repository.getTransferByServerId region serverId
  repository.updateTransfer { server with state := state }

def startServer (region serverId : String) : Except CoreException TransferMemoryRepository :=
  setServerState repository .online region serverId

def stopServer (region serverId : String) : Except CoreException TransferMemoryRepository :=
  setServerState repository .offline region serverId

/-- The server is stopped first. It is deleted by its identifier in every region. -/
def deleteServer (region serverId : String) : Except CoreException TransferMemoryRepository := do
  let repository ← setServerState repository .offline region serverId
  return repository.deleteTransfer serverId

def deleteUser (region serverId userName : String) :
    Except CoreException TransferMemoryRepository := do
  if !repository.transferExists region serverId then
    throw (.service ("Transfer server does not exist, serverId: " ++ serverId))
  let server ← repository.getTransferByServerId region serverId
  repository.updateTransfer
    { server with
      users :=
        if server.hasUser userName then
          server.users.filter fun user => user.userName ≠ userName
        else server.users }

def deleteProtocol (region serverId : String) (protocol : Protocol) :
    Except CoreException TransferMemoryRepository := do
  if !repository.transferExists region serverId then
    throw (.service ("Transfer server does not exist, serverId: " ++ serverId))
  let server ← repository.getTransferByServerId region serverId
  repository.updateTransfer
    { server with
      protocols :=
        if server.hasProtocol protocol.toString then
          server.protocols.filter fun other => other ≠ Protocol.fromString protocol.toString
        else server.protocols }

def listUsers (region serverId : String) : Except CoreException (List User) :=
  repository.listUsers region serverId

/-- The role and the home directory of a user are not reported. -/
def listUserCounters (region serverId : String) :
    Except CoreException ListUserCountersResponse := do
  let users ← repository.listUsers region serverId
  return {
    total := repository.countUsers region serverId
    userCounters := users.map fun user =>
      { userName := user.userName, arn := user.arn, password := user.password } }

/-- The element of a vector, as `at` reads it. -/
def at_ {α : Type} (values : List α) (index : Nat) : Except CoreException α :=
  match values[index]? with
  | some value => .ok value
  | none => .error (.standard "vector::_M_range_check")

def listProtocolCounters (region serverId : String) :
    Except CoreException ListProtocolCountersResponse := do
  let server ← repository.getTransferByServerId region serverId
  let protocolCounters ← (List.range server.protocols.length).mapM fun i => do
    return { protocol := ← at_ server.protocols i, port := ← at_ server.ports i }
  return { total := server.protocols.length, protocolCounters }

end TransferService

/-- What changes the servers: the calls, and a server that is written to its document and
read back. -/
inductive Event where
  | createTransferServer (oid hex : String) (request : CreateServerRequest)
  | createUser (drawn : String) (request : CreateUserRequest)
  | createProtocol (request : CreateProtocolRequest)
  | deleteProtocol (region serverId : String) (protocol : Protocol)
  | deleteUser (region serverId userName : String)
  | startServer (region serverId : String)
  | stopServer (region serverId : String)
  | deleteServer (region serverId : String)
  | reload (oid : String)

namespace TransferMemoryRepository

open TransferService

variable (configuration : Configuration) (repository : TransferMemoryRepository)

/-- The server under a key is written to its document and read back. -/
def reload (oid : String) : Except CoreException TransferMemoryRepository :=
  match repository.transfers.lookup oid with
  | none => .ok repository
  | some transfer => do
      let transfer ← Transfer.fromDocument transfer.toDocument
      return { repository with transfers := repository.transfers.assign oid transfer }

def handle : Event → Except CoreException TransferMemoryRepository
  | .createTransferServer oid hex request =>
    (createTransferServer configuration repository oid hex request).map Prod.fst
  | .createUser drawn request => (createUser configuration repository drawn request).map Prod.fst
  | .createProtocol request => createProtocol repository request
  | .deleteProtocol region serverId protocol =>
    deleteProtocol repository region serverId protocol
  | .deleteUser region serverId userName => deleteUser repository region serverId userName
  | .startServer region serverId => startServer repository region serverId
  | .stopServer region serverId => stopServer repository region serverId
  | .deleteServer region serverId => deleteServer repository region serverId
  | .reload oid => repository.reload oid

def step (event : Event) : TransferMemoryRepository :=
  match repository.handle configuration event with
  | .ok next => next
  | .error _ => repository

end TransferMemoryRepository

end AwsMock.Transfers
