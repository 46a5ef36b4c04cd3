import AwsMock.Core.Bson
import AwsMock.Core.Text

/-! # Transfer servers

A transfer server with its users, and with its protocols and their ports in two lists. Its
document keeps the lists apart as well.
-/

namespace AwsMock.Transfers

open Foundation BsonUtils

/-- The protocols of an entity. Those of a request have the same names. -/
inductive Protocol where
  | ftp | sftp | unknown
deriving DecidableEq, Repr

namespace Protocol

def toString : Protocol → String
  | .ftp => "FTP"
  | .sftp => "SFTP"
  | .unknown => "UNKNOWN"

def fromString (protocol : String) : Protocol :=
  if protocol = "FTP" then .ftp
  else if protocol = "SFTP" then .sftp
  else .unknown

@[simp] theorem fromString_toString (protocol : Protocol) :
    fromString protocol.toString = protocol := by
  cases protocol <;> rfl

end Protocol

inductive ServerState where
  | offline | online | starting | stopping | startFailed | stopFailed
deriving DecidableEq, Repr

namespace ServerState

def toString : ServerState → String
  | .offline => "OFFLINE"
  | .online => "ONLINE"
  | .starting => "STARTING"
  | .stopping => "STOPPING"
  | .startFailed => "START_FAILED"
  | .stopFailed => "STOP_FAILED"

def fromString (serverState : String) : ServerState :=
  if serverState = "ONLINE" then .online
  else if serverState = "STARTING" then .starting
  else if serverState = "STOPPING" then .stopping
  else if serverState = "START_FAILED" then .startFailed
  else if serverState = "STOP_FAILED" then .stopFailed
  else .offline

@[simp] theorem fromString_toString (serverState : ServerState) :
    fromString serverState.toString = serverState := by
  cases serverState <;> rfl

end ServerState

structure User where
  userName : String := ""
  password : String := ""
  homeDirectory : String := ""
  arn : String := ""
  role : String := ""
deriving DecidableEq, Repr

structure Transfer where
  region : String := ""
  serverId : String := ""
  arn : String := ""
  protocols : List Protocol := []
  users : List User := []
  state : ServerState := .offline
  concurrency : Int := 8
  ports : List Int := [2121, 2222]
  listenAddress : String := "0.0.0.0"
deriving DecidableEq, Repr

def Transfer.hasUser (transfer : Transfer) (userName : String) : Bool :=
  transfer.users.any fun user => user.userName = userName

def Transfer.getUser (transfer : Transfer) (userName : String) : User :=
  (transfer.users.find? fun user => user.userName = userName).getD {}

def Transfer.hasProtocol (transfer : Transfer) (protocol : String) : Bool :=
  transfer.protocols.any fun other => other = Protocol.fromString protocol

/-! ## Documents -/

def User.toDocument (user : User) : Document :=
  [("arn", .scalar (.string user.arn)), ("role", .scalar (.string user.role)),
    ("userName", .scalar (.string user.userName)),
    ("password", .scalar (.string user.password)),
    ("homeDirectory", .scalar (.string user.homeDirectory))]

/-- `SetIntValue`. -/
def setIntValue (document : Document) (name : String) (value : Int) : Document :=
  document ++ [(name, .scalar (.int32 value))]

/-- A field for a list, which is left out when the list is empty. -/
def setArray (document : Document) (name : String) (values : List Value) : Document :=
  if values = [] then document else document ++ [(name, .array values)]

def Transfer.toDocument (transfer : Transfer) : Document :=
  let document := setStringValue [] "region" transfer.region
  let document := setStringValue document "serverId" transfer.serverId
  let document := setStringValue document "arn" transfer.arn
  let document := setIntValue document "concurrency" transfer.concurrency
  let document := setStringValue document "listenAddress" transfer.listenAddress
  let document := setStringValue document "state" transfer.state.toString
  let document := setArray document "users"
    (transfer.users.map fun user => .document user.toDocument)
  let document := setArray document "protocols"
    (transfer.protocols.map fun protocol => .scalar (.string protocol.toString))
  setArray document "vcpkg-ports" (transfer.ports.map fun port => .scalar (.int32 port))

/-- The driver's `get_int32`. -/
def getInt32 : Value → Except CoreException Int
  | .scalar (.int32 value) => .ok value
  | _ => .error (.standard "expected element type k_int32")

def readProtocol (element : Value) : Except CoreException Protocol := do
  return Protocol.fromString (← getString (some element))

def arrayField (document : Document) (name : String) : Except CoreException (List Value) :=
  match document.get? name with
  | some value => getArray (some value)
  | none => .ok []

def addNew {α : Type} [DecidableEq α] (present elements : List α) : List α :=
  elements.foldl (fun present element =>
    if element ∈ present then present else present ++ [element]) present

def User.fromElement (element : Value) : Except CoreException User := do
  let document ← getDocument (some element)
  return {
    userName := ← getString (document.get? "userName")
    password := ← getString (document.get? "password")
    homeDirectory := ← getString (document.get? "homeDirectory")
    arn := ← getString (document.get? "arn") }

/-- `FromDocument`, on an entity with default values. -/
def Transfer.fromDocument (document : Document) : Except CoreException Transfer := do
  let transfer : Transfer := {}
  let protocols ← (← arrayField document "protocols").mapM readProtocol
  let ports ← (← arrayField document "vcpkg-ports").mapM getInt32
  let users ← (← arrayField document "users").mapM User.fromElement
  return {
    region := getStringValue document "region"
    serverId := getStringValue document "serverId"
    arn := getStringValue document "arn"
    protocols := addNew transfer.protocols protocols
    users := transfer.users ++ users
    state := ServerState.fromString (getStringValue document "state")
    concurrency := ← getIntValue document "concurrency"
    ports := addNew transfer.ports ports
    listenAddress := getStringValue document "listenAddress" }

section RoundTrip

variable (document : Document) (name other : String)

theorem get?_setIntValue (value : Int) :
    (setIntValue document name value).get? other =
      (document.get? other).or (if name = other then some (.scalar (.int32 value)) else none) := by
  simp [setIntValue, Document.get?_append, Document.get?_cons]

theorem get?_setArray (values : List Value) :
    (setArray document name values).get? other = (document.get? other).or
        (if name = other ∧ values ≠ [] then some (.array values) else none) := by
  by_cases hvalues : values = []
  · simp [setArray, hvalues]
  · simp [setArray, hvalues, Document.get?_append, Document.get?_cons]

theorem arrayField_of_get? {document : Document} {values : List Value}
    (hfield : document.get? name = if values = [] then none else some (.array values)) :
    arrayField document name = .ok values := by
  rw [arrayField, hfield]
  by_cases hvalues : values = []
  · rw [if_pos hvalues, hvalues]
  · rw [if_neg hvalues]
    rfl

end RoundTrip

theorem mapM_map_ok {α β : Type} {write : α → Value} {read : Value → Except CoreException β}
    {result : α → β} (hread : ∀ a, read (write a) = .ok (result a)) (elements : List α) :
    (elements.map write).mapM read = .ok (elements.map result) := by
  induction elements with
  | nil => rfl
  | cons element elements ih =>
    rw [List.map_cons, List.mapM_cons, hread, ih]
    rfl

theorem ok_bind {α β : Type} (a : α) (next : α → Except CoreException β) :
    (Except.ok a >>= next) = next a :=
  rfl

theorem readProtocol_toString (protocol : Protocol) :
    readProtocol (.scalar (.string protocol.toString)) = .ok protocol := by
  cases protocol <;> rfl

theorem getInt32_scalar (port : Int) : getInt32 (.scalar (.int32 port)) = .ok port := rfl

theorem User.fromElement_toDocument (user : User) :
    User.fromElement (.document user.toDocument) = .ok { user with role := "" } := by
  rfl

theorem Transfer.fromDocument_toDocument (transfer : Transfer) :
    fromDocument transfer.toDocument = .ok { transfer with
        protocols := addNew [] transfer.protocols
        ports := addNew [2121, 2222] transfer.ports
        users := transfer.users.map fun user => { user with role := "" } } := by
  have hprotocols : arrayField transfer.toDocument "protocols" =
      .ok (transfer.protocols.map fun protocol => .scalar (.string protocol.toString)) := by
    apply arrayField_of_get?
    simp [toDocument, get?_setArray, get?_setStringValue, get?_setIntValue]
  have hports : arrayField transfer.toDocument "vcpkg-ports" =
      .ok (transfer.ports.map fun port => .scalar (.int32 port)) := by
    apply arrayField_of_get?
    simp [toDocument, get?_setArray, get?_setStringValue, get?_setIntValue]
  have husers : arrayField transfer.toDocument "users" =
      .ok (transfer.users.map fun user => .document user.toDocument) := by
    apply arrayField_of_get?
    simp [toDocument, get?_setArray, get?_setStringValue, get?_setIntValue]
  have htext : ∀ name value, transfer.toDocument.get? name = textField value →
      getStringValue transfer.toDocument name = value :=
    fun name value hfield => getStringValue_of_textField hfield
  have hregion := htext "region" transfer.region (by
    simp [toDocument, get?_setArray, get?_setStringValue, get?_setIntValue, textField])
  have hserverId := htext "serverId" transfer.serverId (by
    simp [toDocument, get?_setArray, get?_setStringValue, get?_setIntValue, textField])
  have harn := htext "arn" transfer.arn (by
    simp [toDocument, get?_setArray, get?_setStringValue, get?_setIntValue, textField])
  have hstate := htext "state" transfer.state.toString (by
    simp [toDocument, get?_setArray, get?_setStringValue, get?_setIntValue, textField])
  have haddress := htext "listenAddress" transfer.listenAddress (by
    simp [toDocument, get?_setArray, get?_setStringValue, get?_setIntValue, textField])
  have hconcurrency : getIntValue transfer.toDocument "concurrency" = .ok transfer.concurrency := by
    rw [getIntValue]
    simp [toDocument, get?_setArray, get?_setStringValue, get?_setIntValue]
  unfold fromDocument
  rw [hprotocols, hports, husers, hregion, hserverId, harn, hstate, haddress, hconcurrency]
  have hreadProtocols := mapM_map_ok readProtocol_toString transfer.protocols
  have hreadPorts := mapM_map_ok getInt32_scalar transfer.ports
  have hreadUsers := mapM_map_ok User.fromElement_toDocument transfer.users
  rw [List.map_id'] at hreadProtocols hreadPorts
  simp only [ok_bind, hreadProtocols, hreadPorts, hreadUsers, ServerState.fromString_toString]
  rfl

end AwsMock.Transfers
