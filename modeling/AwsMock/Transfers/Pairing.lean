import AwsMock.Foundation.Runs
import AwsMock.Foundation.Traverse
import AwsMock.Transfers.Service

/-! # What holds of transfer servers in every run

Beside the repository a ledger is kept of the port each protocol was created with and of the
protocol each server was created for. Names stay unique in every run. The ports stay with
their protocols as long as no protocol is taken away and no server is read back whose ports
do not begin with the two default ones.
-/

namespace AwsMock.Transfers

open Foundation Foundation.Runs TransferMemoryRepository TransferService

def enterPorts (configuration : Configuration) (repository : TransferMemoryRepository) :
    Event → List (String × Protocol × Int)
  | .createTransferServer oid _ request =>
    match request.protocols with
    | [] => []
    | protocol :: _ =>
      if repository.transferExists request.region protocol.toString then []
      else [(oid, protocol, configuration.ftpPort)]
  | .createProtocol request =>
    match repository.transfers.findIf (isServer request.region request.serverId) with
    | none => []
    | some (oid, server) =>
      if request.protocol ∈ server.protocols then []
      else [(oid, request.protocol, request.port)]
  | _ => []

def enterServers (repository : TransferMemoryRepository) : Event → List (String × Protocol)
  | .createTransferServer oid _ request =>
    match request.protocols with
    | [] => []
    | protocol :: _ =>
      if repository.transferExists request.region protocol.toString then []
      else [(oid, protocol)]
  | _ => []

/-- The repository, and what was created so far, the latest first. -/
structure System where
  repository : TransferMemoryRepository := {}
  ports : List (String × Protocol × Int) := []
  servers : List (String × Protocol) := []

namespace System

variable (configuration : Configuration) (system : System)

def createdWith (oid : String) (protocol : Protocol) : Option Int :=
  (system.ports.find? fun creation => creation.1 = oid ∧ creation.2.1 = protocol).map
    fun creation => creation.2.2

def createdFor (oid : String) : Option Protocol :=
  (system.servers.find? fun creation => creation.1 = oid).map Prod.snd

def step (event : Event) : System where
  repository := system.repository.step configuration event
  ports := enterPorts configuration system.repository event ++ system.ports
  servers := enterServers system.repository event ++ system.servers

end System

inductive Edits (repository : TransferMemoryRepository) :
    Event → String → Transfer → Transfer → Prop where
  | createUser {drawn request oid old user}
      (hfound : repository.transfers.findIf (isServer request.region request.serverId) =
        some (oid, old))
      (hname : user.userName = request.userName) (hnew : old.hasUser request.userName = false) :
      Edits repository (.createUser drawn request) oid old { old with users := old.users ++ [user] }
  | createProtocol {request oid old}
      (hfound : repository.transfers.findIf (isServer request.region request.serverId) =
        some (oid, old))
      (hnew : request.protocol ∉ old.protocols) :
      Edits repository (.createProtocol request) oid old
        { old with
          protocols := old.protocols ++ [request.protocol], ports := old.ports ++ [request.port] }
  | deleteProtocol {region serverId protocol oid old}
      (hfound : repository.transfers.findIf (isServer region serverId) = some (oid, old)) :
      Edits repository (.deleteProtocol region serverId protocol) oid old
        { old with protocols := old.protocols.filter fun other => other ≠ protocol }
  | deleteUser {region serverId userName oid old} :
      Edits repository (.deleteUser region serverId userName) oid old
        { old with users := old.users.filter fun user => user.userName ≠ userName }
  | startServer {region serverId oid old} :
      Edits repository (.startServer region serverId) oid old { old with state := .online }
  | stopServer {region serverId oid old} :
      Edits repository (.stopServer region serverId) oid old { old with state := .offline }
  | reload {oid old} :
      Edits repository (.reload oid) oid old
        { old with
          protocols := addNew [] old.protocols
          ports := addNew [2121, 2222] old.ports
          users := old.users.map fun user => { user with role := "" } }

def newServer (configuration : Configuration) (hex region : String) (protocol : Protocol) :
    Transfer :=
  { region := region
    serverId := "s-" ++ hex.toLower
    arn := createTransferArn region configuration.accountId ("s-" ++ hex.toLower)
    ports := [configuration.ftpPort]
    listenAddress := configuration.ftpAddress
    protocols := [protocol]
    users := [{ userName := "anonymous", password := "secret", homeDirectory := "/" }] }

def IsIdle (repository : TransferMemoryRepository) : Event → Prop
  | .createTransferServer _ _ request => ∀ protocol ∈ request.protocols.head?,
      repository.transferExists request.region protocol.toString = true
  | .deleteProtocol region serverId _ =>
    repository.transfers.findIf (isServer region serverId) = none
  | .reload oid => ∀ server, (oid, server) ∉ repository.transfers.entries
  | _ => True

inductive Steps (configuration : Configuration) (repository : TransferMemoryRepository) :
    Event → TransferMemoryRepository → Prop where
  | unchanged {event} (hports : enterPorts configuration repository event = [])
      (hservers : enterServers repository event = []) (hidle : IsIdle repository event) :
      Steps configuration repository event repository
  | created {oid hex region protocol rest}
      (hnew : repository.transferExists region protocol.toString = false) :
      Steps configuration repository (.createTransferServer oid hex ⟨region, protocol :: rest⟩)
        { repository with
          transfers :=
            repository.transfers.assign oid (newServer configuration hex region protocol) }
  | edited {event oid old new} (hmem : (oid, old) ∈ repository.transfers.entries)
      (hedits : Edits repository event oid old new) :
      Steps configuration repository event
        { repository with transfers := repository.transfers.assign oid new }
  | deleted {region serverId next} (hentries : ∀ entry, entry ∈ next.transfers.entries ↔
        entry ∈ repository.transfers.entries ∧ entry.2.serverId ≠ serverId)
      (husers : next.users = repository.users) :
      Steps configuration repository (.deleteServer region serverId) next

section Steps

variable {configuration : Configuration} {repository : TransferMemoryRepository}
variable {region serverId oid : String} {old new : Transfer}

theorem Edits.region_eq {event : Event} (hedits : Edits repository event oid old new) :
    new.region = old.region := by
  cases hedits <;> rfl

section

variable (hfound : repository.transfers.findIf (isServer region serverId) = some (oid, old))
include hfound

theorem isServer_of_found :
    old.region = region ∧ old.serverId = serverId := by
  rw [UnorderedMap.findIf] at hfound
  have hserver := List.find?_some hfound
  simpa [isServer] using hserver

theorem mem_of_found :
    (oid, old) ∈ repository.transfers.entries :=
  List.mem_of_find?_eq_some hfound

theorem transferExists_of_found :
    repository.transferExists region serverId = true := by
  rw [transferExists, hfound]
  rfl

theorem getTransferByServerId_of_found :
    repository.getTransferByServerId region serverId = .ok old := by
  rw [getTransferByServerId, hfound]

theorem updateTransfer_of_found
    (hregion : new.region = old.region) (hserverId : new.serverId = old.serverId) :
    repository.updateTransfer new =
      .ok { repository with transfers := repository.transfers.assign oid new } := by
  obtain ⟨rfl, rfl⟩ := isServer_of_found hfound
  rw [updateTransfer, hregion, hserverId, hfound]

end

theorem transferExists_of_none
    (hnone : repository.transfers.findIf (isServer region serverId) = none) :
    repository.transferExists region serverId = false := by
  rw [transferExists, hnone]
  rfl

theorem hasProtocol_toString (server : Transfer) (protocol : Protocol) :
    server.hasProtocol protocol.toString = decide (protocol ∈ server.protocols) := by
  rw [Transfer.hasProtocol, Protocol.fromString_toString, List.any_eq]
  simp

theorem setServerState_of_found {state : ServerState}
    (hfound : repository.transfers.findIf (isServer region serverId) = some (oid, old)) :
    setServerState repository state region serverId = .ok { repository with
        transfers := repository.transfers.assign oid { old with state := state } } := by
  rw [setServerState, transferExists_of_found hfound, getTransferByServerId_of_found hfound]
  exact updateTransfer_of_found hfound rfl rfl

theorem setServerState_of_none {state : ServerState}
    (hnone : repository.transfers.findIf (isServer region serverId) = none) :
    ∃ exn, setServerState repository state region serverId = .error exn := by
  rw [setServerState, transferExists_of_none hnone]
  exact ⟨_, rfl⟩

variable {request : CreateProtocolRequest}

theorem enterPorts_createProtocol_of_none
    (hnone : repository.transfers.findIf (isServer request.region request.serverId) = none) :
    enterPorts configuration repository (.createProtocol request) = [] := by
  rw [enterPorts, hnone]

theorem enterPorts_createProtocol_of_found {oid : String}
    {server : Transfer}
    (hfound : repository.transfers.findIf (isServer request.region request.serverId) =
      some (oid, server)) :
    enterPorts configuration repository (.createProtocol request) =
      if request.protocol ∈ server.protocols then []
      else [(oid, request.protocol, request.port)] := by
  rw [enterPorts, hfound]

theorem enterPorts_createTransferServer (oid hex region : String) (protocol : Protocol)
    (rest : List Protocol) :
    enterPorts configuration repository (.createTransferServer oid hex ⟨region, protocol :: rest⟩) =
      if repository.transferExists region protocol.toString then []
      else [(oid, protocol, configuration.ftpPort)] :=
  rfl

def orKept (repository : TransferMemoryRepository) :
    Except CoreException TransferMemoryRepository → TransferMemoryRepository
  | .ok next => next
  | .error _ => repository

theorem steps_createTransferServer (oid hex : String) (request : CreateServerRequest) :
    Steps configuration repository (.createTransferServer oid hex request)
      (repository.step configuration (.createTransferServer oid hex request)) := by
  obtain ⟨region, protocols⟩ := request
  cases protocols with
  | nil => exact .unchanged rfl rfl fun _ hnone => nomatch hnone
  | cons protocol rest =>
    change Steps _ _ _ (orKept repository
      ((createTransferServer configuration repository oid hex
        ⟨region, protocol :: rest⟩).map Prod.fst))
    rw [createTransferServer]
    dsimp only
    cases hexists : repository.transferExists region protocol.toString with
    | true =>
      rw [if_pos rfl]
      refine .unchanged (by simp [enterPorts_createTransferServer, hexists])
        (by simp [enterServers, hexists]) ?_
      intro other hother
      rwa [← Option.some_inj.mp hother]
    | false =>
      have hcreated := @Steps.created configuration repository oid hex region protocol rest hexists
      rw [if_neg Bool.false_ne_true, Protocol.fromString_toString]
      exact hcreated

theorem steps_createUser (drawn : String) (request : CreateUserRequest) :
    Steps configuration repository (.createUser drawn request)
      (repository.step configuration (.createUser drawn request)) := by
  change Steps _ _ _ (orKept repository
    ((createUser configuration repository drawn request).map Prod.fst))
  rw [createUser]
  cases hfound : repository.transfers.findIf (isServer request.region request.serverId) with
  | none =>
    rw [transferExists_of_none hfound]
    exact .unchanged rfl rfl trivial
  | some entry =>
    obtain ⟨oid, old⟩ := entry
    rw [transferExists_of_found hfound, getTransferByServerId_of_found hfound]
    simp only [Bool.not_true, Bool.false_eq_true, if_false, ok_bind]
    cases huser : old.hasUser request.userName with
    | true => exact .unchanged rfl rfl trivial
    | false =>
      simp only [Bool.false_eq_true, if_false]
      rw [updateTransfer_of_found hfound]
      · exact .edited (mem_of_found hfound) (.createUser hfound rfl huser)
      · rfl
      · rfl

theorem steps_createProtocol (request : CreateProtocolRequest) :
    Steps configuration repository (.createProtocol request)
      (repository.step configuration (.createProtocol request)) := by
  change Steps _ _ _ (orKept repository (createProtocol repository request))
  rw [createProtocol]
  cases hfound : repository.transfers.findIf (isServer request.region request.serverId) with
  | none =>
    rw [transferExists_of_none hfound]
    exact .unchanged (enterPorts_createProtocol_of_none hfound) rfl trivial
  | some entry =>
    obtain ⟨oid, old⟩ := entry
    rw [transferExists_of_found hfound, getTransferByServerId_of_found hfound]
    simp only [Bool.not_true, Bool.false_eq_true, if_false, ok_bind, hasProtocol_toString,
      decide_eq_true_eq, Protocol.fromString_toString]
    by_cases hprotocol : request.protocol ∈ old.protocols
    · simp only [hprotocol, if_true]
      refine .unchanged ?_ rfl trivial
      rw [enterPorts_createProtocol_of_found hfound, if_pos hprotocol]
    · simp only [hprotocol, if_false]
      rw [updateTransfer_of_found hfound]
      · exact .edited (mem_of_found hfound) (.createProtocol hfound hprotocol)
      · rfl
      · rfl

theorem steps_deleteProtocol (region serverId : String) (protocol : Protocol) :
    Steps configuration repository (.deleteProtocol region serverId protocol)
      (repository.step configuration (.deleteProtocol region serverId protocol)) := by
  change Steps _ _ _ (orKept repository (deleteProtocol repository region serverId protocol))
  rw [deleteProtocol]
  cases hfound : repository.transfers.findIf (isServer region serverId) with
  | none =>
    rw [transferExists_of_none hfound]
    exact .unchanged rfl rfl hfound
  | some entry =>
    obtain ⟨oid, old⟩ := entry
    rw [transferExists_of_found hfound, getTransferByServerId_of_found hfound]
    simp only [Bool.not_true, Bool.false_eq_true, if_false, ok_bind, hasProtocol_toString,
      decide_eq_true_eq, Protocol.fromString_toString]
    have hfilter : (if protocol ∈ old.protocols then
        old.protocols.filter fun other => decide (other ≠ protocol) else old.protocols) =
        old.protocols.filter fun other => decide (other ≠ protocol) := by
      split
      · rfl
      · next hnone =>
        refine (List.filter_eq_self.mpr fun other hother => ?_).symm
        exact decide_eq_true fun heq => hnone (heq ▸ hother)
    rw [hfilter, updateTransfer_of_found hfound]
    · exact .edited (mem_of_found hfound) (.deleteProtocol hfound)
    · rfl
    · rfl

theorem steps_deleteUser (region serverId userName : String) :
    Steps configuration repository (.deleteUser region serverId userName)
      (repository.step configuration (.deleteUser region serverId userName)) := by
  change Steps _ _ _ (orKept repository (deleteUser repository region serverId userName))
  rw [deleteUser]
  cases hfound : repository.transfers.findIf (isServer region serverId) with
  | none =>
    rw [transferExists_of_none hfound]
    exact .unchanged rfl rfl trivial
  | some entry =>
    obtain ⟨oid, old⟩ := entry
    rw [transferExists_of_found hfound, getTransferByServerId_of_found hfound]
    simp only [Bool.not_true, Bool.false_eq_true, if_false, ok_bind]
    have hfilter : (if old.hasUser userName then
        old.users.filter fun user => decide (user.userName ≠ userName) else old.users) =
        old.users.filter fun user => decide (user.userName ≠ userName) := by
      split
      · rfl
      · next hnone =>
        refine (List.filter_eq_self.mpr fun user huser => ?_).symm
        refine decide_eq_true fun heq => hnone ?_
        exact List.any_eq_true.mpr ⟨user, huser, decide_eq_true heq⟩
    rw [hfilter, updateTransfer_of_found hfound]
    · exact .edited (mem_of_found hfound) .deleteUser
    · rfl
    · rfl

theorem steps_reload (oid : String) :
    Steps configuration repository (.reload oid) (repository.step configuration (.reload oid)) := by
  change Steps _ _ _ (orKept repository (repository.reload oid))
  rw [TransferMemoryRepository.reload, UnorderedMap.lookup]
  cases hentry : repository.transfers.entries.find? fun entry => entry.1 = oid with
  | none =>
    refine .unchanged rfl rfl fun server hmem => ?_
    exact List.find?_eq_none.mp hentry _ hmem (decide_eq_true rfl)
  | some entry =>
    obtain ⟨key, old⟩ := entry
    have hkey := List.find?_some hentry
    obtain rfl : key = oid := of_decide_eq_true hkey
    simp only [Option.map_some, Transfer.fromDocument_toDocument, ok_bind]
    exact .edited (List.mem_of_find?_eq_some hentry) .reload

theorem steps_deleteServer (region serverId : String) :
    Steps configuration repository (.deleteServer region serverId)
      (repository.step configuration (.deleteServer region serverId)) := by
  change Steps _ _ _ (orKept repository (deleteServer repository region serverId))
  rw [deleteServer]
  cases hfound : repository.transfers.findIf (isServer region serverId) with
  | none =>
    obtain ⟨exn, herror⟩ := @setServerState_of_none repository region serverId .offline hfound
    rw [herror]
    exact .unchanged rfl rfl trivial
  | some entry =>
    obtain ⟨oid, old⟩ := entry
    obtain ⟨-, hserverId⟩ := isServer_of_found hfound
    rw [setServerState_of_found hfound]
    refine .deleted (fun entry => ?_) rfl
    change entry ∈ ((repository.transfers.assign oid _).entries.filter fun entry =>
      !decide (entry.2.serverId = serverId)) ↔ _
    rw [List.mem_filter]
    change entry ∈ UnorderedMap.assignEntries oid _ repository.transfers.entries ∧ _ ↔ _
    rw [UnorderedMap.mem_assignEntries repository.transfers.nodup]
    simp only [Bool.not_eq_true', decide_eq_false_iff_not]
    constructor
    · rintro ⟨rfl | ⟨hmem, -⟩, hother⟩
      · exact absurd hserverId hother
      · exact ⟨hmem, hother⟩
    · rintro ⟨hmem, hother⟩
      refine ⟨.inr ⟨hmem, fun heq => hother ?_⟩, hother⟩
      have hsame := mem_of_found hfound
      rw [← heq] at hsame
      have hvalue := List.inj_on_of_nodup_map repository.transfers.nodup hmem hsame rfl
      rw [hvalue]
      exact hserverId

theorem steps_step (event : Event) :
    Steps configuration repository event (repository.step configuration event) := by
  cases event with
  | createTransferServer oid hex request => exact steps_createTransferServer oid hex request
  | createUser drawn request => exact steps_createUser drawn request
  | createProtocol request => exact steps_createProtocol request
  | deleteProtocol region serverId protocol =>
    exact steps_deleteProtocol region serverId protocol
  | deleteUser region serverId userName => exact steps_deleteUser region serverId userName
  | startServer region serverId =>
    change Steps _ _ _ (orKept repository (startServer repository region serverId))
    rw [startServer]
    cases hfound : repository.transfers.findIf (isServer region serverId) with
    | none =>
      obtain ⟨exn, herror⟩ := @setServerState_of_none repository region serverId .online hfound
      rw [herror]
      exact .unchanged rfl rfl trivial
    | some entry =>
      rw [setServerState_of_found hfound]
      exact .edited (mem_of_found hfound) .startServer
  | stopServer region serverId =>
    change Steps _ _ _ (orKept repository (stopServer repository region serverId))
    rw [stopServer]
    cases hfound : repository.transfers.findIf (isServer region serverId) with
    | none =>
      obtain ⟨exn, herror⟩ :=
        @setServerState_of_none repository region serverId .offline hfound
      rw [herror]
      exact .unchanged rfl rfl trivial
    | some entry =>
      rw [setServerState_of_found hfound]
      exact .edited (mem_of_found hfound) .stopServer
  | deleteServer region serverId => exact steps_deleteServer region serverId
  | reload oid => exact steps_reload oid

end Steps

section Properties

def Transfer.HasUniqueNames (server : Transfer) : Prop :=
  (server.users.map User.userName).Nodup ∧ server.protocols.Nodup

namespace System

variable (system : System)

def HasUniqueNames : Prop :=
  ∀ entry ∈ system.repository.transfers.entries, entry.2.HasUniqueNames

/-- The ports of a server are those its protocols were created with, in their order. -/
def HasOwnPorts : Prop :=
  ∀ entry ∈ system.repository.transfers.entries,
    entry.2.ports.map some = entry.2.protocols.map (system.createdWith entry.1)

/-- The ports stay with their protocols, and so they are reported. -/
structure IsPaired : Prop where
  ports : system.HasOwnPorts
  counters : ∀ region serverId oid server,
    system.repository.transfers.findIf (isServer region serverId) = some (oid, server) →
    ∃ counters, listProtocolCounters system.repository region serverId =
        .ok ⟨server.protocols.length, counters⟩ ∧
      counters.map ProtocolCounter.protocol = server.protocols ∧
      counters.map (fun counter => some counter.port) =
        server.protocols.map (system.createdWith oid)

def HasDistinctServers : Prop :=
  ∀ first ∈ system.repository.transfers.entries, ∀ second ∈ system.repository.transfers.entries,
    first.1 ≠ second.1 → first.2.region = second.2.region →
    system.createdFor first.1 ≠ system.createdFor second.1

/-- No protocol is taken away, and a server that is read back has the two default ports
before its others. -/
def KeepsPairs : Event → Prop
  | .deleteProtocol region serverId protocol => ∀ oid server,
      system.repository.transfers.findIf (isServer region serverId) = some (oid, server) →
      protocol ∉ server.protocols
  | .reload oid => ∀ server, (oid, server) ∈ system.repository.transfers.entries →
      (∃ rest, server.ports = 2121 :: 2222 :: rest) ∧ server.ports.Nodup
  | _ => True

def KeepsServers : Event → Prop
  | .createTransferServer oid _ request => ∀ protocol ∈ request.protocols.head?,
      system.repository.transferExists request.region protocol.toString = true ∨
      ∀ entry ∈ system.repository.transfers.entries, entry.1 ≠ oid →
        entry.2.region = request.region → system.createdFor entry.1 ≠ some protocol
  | _ => True

end System

end Properties

section Lists

variable {α : Type} [DecidableEq α]

theorem addNew_cons (present elements : List α) (element : α) :
    addNew present (element :: elements) =
      addNew (if element ∈ present then present else present ++ [element]) elements :=
  rfl

theorem addNew_of_nodup {present elements : List α} (hnodup : (present ++ elements).Nodup) :
    addNew present elements = present ++ elements := by
  induction elements generalizing present with
  | nil => exact (List.append_nil present).symm
  | cons element elements ih =>
    have hnew : element ∉ present := by
      intro hmem
      exact (List.nodup_append.mp hnodup).2.2 element hmem element List.mem_cons_self rfl
    rw [addNew_cons, if_neg hnew, ih]
    · rw [List.append_assoc, List.singleton_append]
    · rwa [List.append_assoc, List.singleton_append]

theorem addNew_spec {present : List α} (hpresent : present.Nodup) (elements : List α) :
    present <+: addNew present elements ∧ (addNew present elements).Nodup := by
  induction elements generalizing present with
  | nil => exact ⟨List.prefix_refl present, hpresent⟩
  | cons element elements ih =>
    rw [addNew_cons]
    split
    · exact ih hpresent
    · next hnew =>
      have hadded : (present ++ [element]).Nodup :=
        List.Nodup.append hpresent (List.nodup_singleton element) (List.disjoint_singleton.mpr hnew)
      obtain ⟨hfront, hnodup⟩ := ih hadded
      exact ⟨(List.prefix_append present [element]).trans hfront, hnodup⟩

theorem addNew_default_eq_iff {ports : List Int} :
    addNew [2121, 2222] ports = ports ↔ (∃ rest, ports = 2121 :: 2222 :: rest) ∧ ports.Nodup := by
  constructor
  · intro heq
    obtain ⟨⟨rest, hrest⟩, hnodup⟩ :=
      @addNew_spec Int _ [2121, 2222] (by decide) ports
    rw [heq] at hrest hnodup
    exact ⟨⟨rest, hrest.symm⟩, hnodup⟩
  · rintro ⟨⟨rest, rfl⟩, hnodup⟩
    exact @addNew_of_nodup Int _ [2121, 2222] _ hnodup

end Lists

section Names

variable {configuration : Configuration} {system : System} {repository : TransferMemoryRepository}

theorem mem_entries_assign {map : UnorderedMap String Transfer} {key : String} {value : Transfer}
    {entry : String × Transfer} :
    entry ∈ (map.assign key value).entries ↔
      entry = (key, value) ∨ (entry ∈ map.entries ∧ entry.1 ≠ key) :=
  UnorderedMap.mem_assignEntries map.nodup

theorem Edits.hasUniqueNames {event : Event} {oid : String} {old new : Transfer}
    (hedits : Edits repository event oid old new) (hold : old.HasUniqueNames) :
    new.HasUniqueNames := by
  obtain ⟨husers, hprotocols⟩ := hold
  cases hedits with
  | createUser hfound hname hnew =>
    refine ⟨?_, hprotocols⟩
    rw [List.map_append, List.map_singleton]
    refine List.Nodup.append husers (List.nodup_singleton _) (List.disjoint_singleton.mpr ?_)
    rw [hname, List.mem_map]
    rintro ⟨user, huser, heq⟩
    rw [Transfer.hasUser, List.any_eq_false] at hnew
    exact hnew user huser (decide_eq_true heq)
  | createProtocol hfound hnew =>
    exact ⟨husers, List.Nodup.append hprotocols (List.nodup_singleton _)
      (List.disjoint_singleton.mpr hnew)⟩
  | deleteProtocol hfound => exact ⟨husers, hprotocols.filter _⟩
  | deleteUser => exact ⟨husers.sublist (List.filter_sublist.map User.userName), hprotocols⟩
  | startServer => exact ⟨husers, hprotocols⟩
  | stopServer => exact ⟨husers, hprotocols⟩
  | reload =>
    refine ⟨?_, (addNew_spec List.nodup_nil _).2⟩
    rw [List.map_map]
    exact husers

theorem hasUniqueNames_step (event : Event) (hsystem : system.HasUniqueNames) :
    (system.step configuration event).HasUniqueNames := by
  intro entry hentry
  have hsteps := @steps_step configuration system.repository event
  change entry ∈ (system.repository.step configuration event).transfers.entries at hentry
  generalize system.repository.step configuration event = next at hsteps hentry
  cases hsteps with
  | unchanged => exact hsystem entry hentry
  | created hnew =>
    rcases mem_entries_assign.mp hentry with rfl | ⟨hmem, -⟩
    · exact ⟨List.nodup_singleton _, List.nodup_singleton _⟩
    · exact hsystem entry hmem
  | edited hmem hedits =>
    rcases mem_entries_assign.mp hentry with rfl | ⟨hother, -⟩
    · exact hedits.hasUniqueNames (hsystem _ hmem)
    · exact hsystem entry hother
  | deleted hentries husers => exact hsystem entry ((hentries entry).mp hentry).1

theorem users_step (event : Event) :
    (repository.step configuration event).users = repository.users := by
  have hsteps := @steps_step configuration repository event
  generalize repository.step configuration event = next at hsteps
  cases hsteps with
  | unchanged => rfl
  | created => rfl
  | edited => rfl
  | deleted hentries husers => exact husers

end Names

section Ports

variable {configuration : Configuration} {system : System}

theorem createdWith_step (event : Event) (oid : String) (protocol : Protocol) :
    (system.step configuration event).createdWith oid protocol =
      (((enterPorts configuration system.repository event).find? fun creation =>
          creation.1 = oid ∧ creation.2.1 = protocol).map fun creation => creation.2.2).or
        (system.createdWith oid protocol) := by
  rw [System.createdWith, System.step, List.find?_append, Option.map_or]
  rfl

variable {event : Event}

theorem createdWith_step_of_nil (hports : enterPorts configuration system.repository event = []) :
    (system.step configuration event).createdWith = system.createdWith := by
  funext oid protocol
  rw [createdWith_step, hports]
  rfl

theorem createdWith_step_of_entry {oid : String} {protocol : Protocol}
    {port : Int} (hports : enterPorts configuration system.repository event =
      [(oid, protocol, port)]) (key : String) (other : Protocol) :
    (system.step configuration event).createdWith key other =
      if oid = key ∧ protocol = other then some port else system.createdWith key other := by
  rw [createdWith_step, hports]
  by_cases hsame : oid = key ∧ protocol = other
  · rw [if_pos hsame]
    simp [hsame]
  · rw [if_neg hsame]
    simp [hsame]

theorem hasOwnPorts_of_createdWith {next : System} {entry : String × Transfer}
    (hentry : entry.2.ports.map some = entry.2.protocols.map (system.createdWith entry.1))
    (hsame : ∀ protocol ∈ entry.2.protocols,
      next.createdWith entry.1 protocol = system.createdWith entry.1 protocol) :
    entry.2.ports.map some = entry.2.protocols.map (next.createdWith entry.1) := by
  rw [hentry]
  exact (List.map_congr_left hsame).symm

theorem Edits.createdWith_other {oid key : String} {old new : Transfer}
    (hedits : Edits system.repository event oid old new) (hne : key ≠ oid) (protocol : Protocol) :
    (system.step configuration event).createdWith key protocol =
      system.createdWith key protocol := by
  cases hedits with
  | @createProtocol request _ _ hfound hnew =>
    have henter : enterPorts configuration system.repository (.createProtocol request) =
        [(oid, request.protocol, request.port)] := by
      rw [enterPorts_createProtocol_of_found hfound, if_neg hnew]
    rw [createdWith_step_of_entry henter, if_neg fun heq => hne heq.1.symm]
  | _ => rw [createdWith_step_of_nil rfl]

theorem Edits.ports_iff {oid : String} {old new : Transfer}
    (hmem : (oid, old) ∈ system.repository.transfers.entries)
    (hedits : Edits system.repository event oid old new) (hnames : old.HasUniqueNames)
    (hold : old.ports.map some = old.protocols.map (system.createdWith oid)) :
    new.ports.map some = new.protocols.map ((system.step configuration event).createdWith oid) ↔
      system.KeepsPairs event := by
  have hlength : old.ports.length = old.protocols.length := by
    simpa using congrArg List.length hold
  cases hedits with
  | createUser hfound hname hnew =>
    rw [createdWith_step_of_nil rfl]
    exact ⟨fun _ => trivial, fun _ => hold⟩
  | @createProtocol request _ _ hfound hnew =>
    have henter : enterPorts configuration system.repository (.createProtocol request) =
        [(oid, request.protocol, request.port)] := by
      rw [enterPorts_createProtocol_of_found hfound, if_neg hnew]
    refine ⟨fun _ => trivial, fun _ => ?_⟩
    rw [List.map_append, List.map_append, hold]
    congr 1
    · apply List.map_congr_left
      intro protocol hprotocol
      rw [createdWith_step_of_entry henter, if_neg]
      rintro ⟨-, rfl⟩
      exact hnew hprotocol
    · rw [List.map_singleton, List.map_singleton, createdWith_step_of_entry henter,
        if_pos ⟨rfl, rfl⟩]
  | @deleteProtocol region serverId protocol _ _ hfound =>
    rw [createdWith_step_of_nil rfl]
    constructor
    · intro hports key server hother hprotocol
      obtain ⟨rfl, rfl⟩ : (key, server) = (oid, old) :=
        Option.some_inj.mp (hother.symm.trans hfound)
      have hfewer := congrArg List.length hports
      rw [List.length_map, List.length_map, hlength] at hfewer
      have hkept := List.length_filter_eq_length_iff.mp hfewer.symm protocol hprotocol
      exact of_decide_eq_true hkept rfl
    · intro hkeeps
      have hnone : protocol ∉ old.protocols := hkeeps oid old hfound
      have hfilter : (old.protocols.filter fun other => decide (other ≠ protocol)) =
          old.protocols :=
        List.filter_eq_self.mpr fun other hother =>
          decide_eq_true fun heq => hnone (heq ▸ hother)
      change old.ports.map some = (old.protocols.filter _).map _
      rw [hfilter, hold]
  | deleteUser =>
    rw [createdWith_step_of_nil rfl]
    exact ⟨fun _ => trivial, fun _ => hold⟩
  | startServer =>
    rw [createdWith_step_of_nil rfl]
    exact ⟨fun _ => trivial, fun _ => hold⟩
  | stopServer =>
    rw [createdWith_step_of_nil rfl]
    exact ⟨fun _ => trivial, fun _ => hold⟩
  | reload =>
    rw [createdWith_step_of_nil rfl]
    have hprotocols : addNew [] old.protocols = old.protocols := addNew_of_nodup hnames.2
    change (addNew [2121, 2222] old.ports).map some = (addNew [] old.protocols).map _ ↔ _
    rw [hprotocols, ← hold, List.map_inj_right fun _ _ => Option.some_inj.mp, addNew_default_eq_iff]
    constructor
    · intro hports server hserver
      have hsame : (oid, server) = (oid, old) :=
        List.inj_on_of_nodup_map system.repository.transfers.nodup hserver hmem rfl
      rw [(Prod.mk.injEq ..).mp hsame |>.2]
      exact hports
    · intro hkeeps
      exact hkeeps old hmem

theorem hasOwnPorts_step_iff (event : Event) (hnames : system.HasUniqueNames)
    (hports : system.HasOwnPorts) :
    (system.step configuration event).HasOwnPorts ↔ system.KeepsPairs event := by
  have hsteps := @steps_step configuration system.repository event
  unfold System.HasOwnPorts
  change (∀ entry ∈ (system.repository.step configuration event).transfers.entries, _) ↔ _
  generalize system.repository.step configuration event = next at hsteps
  cases hsteps with
  | unchanged henter hservers hidle =>
    rw [createdWith_step_of_nil henter]
    refine ⟨fun _ => ?_, fun _ => hports⟩
    cases event with
    | deleteProtocol region serverId protocol =>
      intro oid server hfound
      exact absurd (hfound.symm.trans hidle) (Option.some_ne_none _)
    | reload oid => exact fun server hmem => absurd hmem (hidle server)
    | _ => trivial
  | @created oid hex region protocol rest hnew =>
    have henter : enterPorts configuration system.repository
        (.createTransferServer oid hex ⟨region, protocol :: rest⟩) =
        [(oid, protocol, configuration.ftpPort)] := by
      simp [enterPorts_createTransferServer, hnew]
    refine ⟨fun _ => trivial, fun _ entry hentry => ?_⟩
    rcases mem_entries_assign.mp hentry with rfl | ⟨hmem, hother⟩
    · change [some configuration.ftpPort] = [_]
      rw [createdWith_step_of_entry henter, if_pos ⟨rfl, rfl⟩]
    · apply hasOwnPorts_of_createdWith (hports entry hmem)
      intro other _
      rw [createdWith_step_of_entry henter, if_neg fun heq => hother heq.1.symm]
  | @edited _ oid old new hmem hedits =>
    have hnew := @Edits.ports_iff configuration _ _ _ _ _ hmem hedits (hnames _ hmem)
      (hports _ hmem)
    rw [← hnew]
    constructor
    · intro hnext
      exact hnext (oid, new) (mem_entries_assign.mpr (.inl rfl))
    · intro hedited entry hentry
      rcases mem_entries_assign.mp hentry with rfl | ⟨hother, hne⟩
      · exact hedited
      · apply hasOwnPorts_of_createdWith (hports entry hother)
        intro protocol _
        exact hedits.createdWith_other hne protocol
  | deleted hentries husers =>
    rw [createdWith_step_of_nil rfl]
    exact ⟨fun _ => trivial, fun _ entry hentry => hports entry ((hentries entry).mp hentry).1⟩

theorem map_getD_range {α : Type} (values : List α) (fallback : α) :
    (List.range values.length).map (fun i => values.getD i fallback) = values := by
  apply List.ext_getElem
  · simp
  · intro i hleft hright
    simp [hright]

theorem at_eq_ok {α : Type} {values : List α} {i : Nat} (hi : i < values.length) (fallback : α) :
    at_ values i = .ok (values.getD i fallback) := by
  simp [at_, hi]

theorem listProtocolCounters_of_found {repository : TransferMemoryRepository}
    {region serverId oid : String} {server : Transfer}
    (hfound : repository.transfers.findIf (isServer region serverId) = some (oid, server))
    (hlength : server.ports.length = server.protocols.length) :
    ∃ counters, listProtocolCounters repository region serverId =
        .ok ⟨server.protocols.length, counters⟩ ∧
      counters.map ProtocolCounter.protocol = server.protocols ∧
      counters.map (fun counter => some counter.port) = server.ports.map some := by
  let counter : Nat → ProtocolCounter := fun i =>
    ⟨server.protocols.getD i .unknown, server.ports.getD i 0⟩
  refine ⟨(List.range server.protocols.length).map counter, ?_, ?_, ?_⟩
  · have hread : (List.range server.protocols.length).mapM (fun i => do
        return ({ protocol := ← at_ server.protocols i, port := ← at_ server.ports i } :
          ProtocolCounter)) = .ok ((List.range server.protocols.length).map counter) := by
      apply mapM_eq_ok_map
      intro i hi
      have hbound := List.mem_range.mp hi
      rw [at_eq_ok hbound .unknown, at_eq_ok (hlength ▸ hbound) 0]
      rfl
    rw [listProtocolCounters, getTransferByServerId_of_found hfound, ok_bind, hread]
    rfl
  · rw [List.map_map]
    exact map_getD_range server.protocols .unknown
  · rw [List.map_map, ← hlength]
    have hports := congrArg (List.map some) (map_getD_range server.ports 0)
    rwa [List.map_map] at hports

theorem isPaired_iff : system.IsPaired ↔ system.HasOwnPorts := by
  refine ⟨System.IsPaired.ports, fun hports => ⟨hports, ?_⟩⟩
  intro region serverId oid server hfound
  have hserver := hports _ (mem_of_found hfound)
  have hlength : server.ports.length = server.protocols.length := by
    simpa using congrArg List.length hserver
  obtain ⟨counters, hresponse, hprotocols, hcounters⟩ :=
    listProtocolCounters_of_found hfound hlength
  exact ⟨counters, hresponse, hprotocols, hcounters.trans hserver⟩

end Ports

section Servers

variable {configuration : Configuration} {system : System}

theorem createdFor_step_of_nil {event : Event}
    (hservers : enterServers system.repository event = []) :
    (system.step configuration event).createdFor = system.createdFor := by
  funext oid
  rw [System.createdFor, System.step, hservers]
  rfl

theorem createdFor_step_of_entry {event : Event} {oid : String} {protocol : Protocol}
    (hservers : enterServers system.repository event = [(oid, protocol)]) (key : String) :
    (system.step configuration event).createdFor key =
      if oid = key then some protocol else system.createdFor key := by
  rw [System.createdFor, System.step, hservers, List.singleton_append, List.find?_cons]
  by_cases hkey : oid = key
  · simp [hkey]
  · simp [hkey, System.createdFor]

theorem hasDistinctServers_step_iff (event : Event) (hdistinct : system.HasDistinctServers) :
    (system.step configuration event).HasDistinctServers ↔ system.KeepsServers event := by
  have hsteps := @steps_step configuration system.repository event
  unfold System.HasDistinctServers
  change (∀ first ∈ (system.repository.step configuration event).transfers.entries,
    ∀ second ∈ (system.repository.step configuration event).transfers.entries, _) ↔ _
  generalize system.repository.step configuration event = next at hsteps
  cases hsteps with
  | unchanged henter hservers hidle =>
    rw [createdFor_step_of_nil hservers]
    refine ⟨fun _ => ?_, fun _ => hdistinct⟩
    cases event with
    | createTransferServer oid hex request =>
      exact fun protocol hprotocol => .inl (hidle protocol hprotocol)
    | _ => trivial
  | @created oid hex region protocol rest hnew =>
    have henter : enterServers system.repository
        (.createTransferServer oid hex ⟨region, protocol :: rest⟩) = [(oid, protocol)] := by
      simp [enterServers, hnew]
    constructor
    · intro hnext other hother
      obtain rfl : protocol = other := Option.some_inj.mp hother
      refine .inr fun entry hentry hne hregion hfor => ?_
      have hapart := hnext (oid, newServer configuration hex region protocol)
        (mem_entries_assign.mpr (.inl rfl)) entry
        (mem_entries_assign.mpr (.inr ⟨hentry, hne⟩)) (Ne.symm hne) hregion.symm
      rw [createdFor_step_of_entry henter, createdFor_step_of_entry henter, if_pos rfl,
        if_neg (Ne.symm hne)] at hapart
      exact hapart hfor.symm
    · intro hkeeps
      have hother : ∀ entry ∈ system.repository.transfers.entries, entry.1 ≠ oid →
          entry.2.region = region → system.createdFor entry.1 ≠ some protocol := by
        rcases hkeeps protocol rfl with hexists | hother
        · exact absurd (hnew.symm.trans hexists) Bool.false_ne_true
        · exact hother
      intro first hfirst second hsecond hne hregion
      rw [createdFor_step_of_entry henter, createdFor_step_of_entry henter]
      rcases mem_entries_assign.mp hfirst with rfl | ⟨hfirst, hfirstNe⟩
      · rcases mem_entries_assign.mp hsecond with rfl | ⟨hsecond, hsecondNe⟩
        · exact absurd rfl hne
        · rw [if_pos rfl, if_neg (Ne.symm hsecondNe)]
          exact (hother second hsecond hsecondNe hregion.symm).symm
      · rw [if_neg (Ne.symm hfirstNe)]
        rcases mem_entries_assign.mp hsecond with rfl | ⟨hsecond, hsecondNe⟩
        · rw [if_pos rfl]
          exact hother first hfirst hfirstNe hregion
        · rw [if_neg (Ne.symm hsecondNe)]
          exact hdistinct first hfirst second hsecond hne hregion
  | @edited _ oid old new hmem hedits =>
    have henter : enterServers system.repository event = [] := by cases hedits <;> rfl
    rw [createdFor_step_of_nil henter]
    refine ⟨fun _ => by cases hedits <;> trivial, fun _ => ?_⟩
    have hedited : ∀ entry ∈ (system.repository.transfers.assign oid new).entries,
        ∃ server, (entry.1, server) ∈ system.repository.transfers.entries ∧
          server.region = entry.2.region := by
      intro entry hentry
      rcases mem_entries_assign.mp hentry with rfl | ⟨hother, -⟩
      · exact ⟨old, hmem, hedits.region_eq.symm⟩
      · exact ⟨entry.2, hother, rfl⟩
    intro first hfirst second hsecond hne hregion
    obtain ⟨server, hserver, hserverRegion⟩ := hedited first hfirst
    obtain ⟨other, hother, hotherRegion⟩ := hedited second hsecond
    exact hdistinct (first.1, server) hserver (second.1, other) hother hne
      (hserverRegion.trans (hregion.trans hotherRegion.symm))
  | deleted hentries husers =>
    rw [createdFor_step_of_nil rfl]
    refine ⟨fun _ => trivial, fun _ first hfirst second hsecond hne hregion => ?_⟩
    exact hdistinct first ((hentries first).mp hfirst).1 second ((hentries second).mp hsecond).1
      hne hregion

end Servers

section Runs

variable (configuration : Configuration) (events : List Event)

def System.CountsUsers (system : System) (region serverId : String) : Prop :=
  ∀ users, TransferService.listUsers system.repository region serverId = .ok users →
    ∃ response, listUserCounters system.repository region serverId = .ok response ∧
      response.total = users.length

theorem users_run (repository : TransferMemoryRepository) :
    (events.foldl (TransferMemoryRepository.step configuration) repository).users =
      repository.users := by
  induction events generalizing repository with
  | nil => rfl
  | cons event events ih =>
    rw [List.foldl_cons, ih, users_step]

theorem repository_run (system : System) :
    (events.foldl (System.step configuration) system).repository =
      events.foldl (TransferMemoryRepository.step configuration) system.repository := by
  induction events generalizing system with
  | nil => rfl
  | cons event events ih => exact ih (system.step configuration event)

theorem countsUsers_iff {system : System} (husers : system.repository.users = UnorderedMap.empty)
    (region serverId : String) :
    system.CountsUsers region serverId ↔ ∀ oid server,
        system.repository.transfers.findIf (isServer region serverId) = some (oid, server) →
        server.users.length =
          if region = "" then 0
          else system.repository.transfers.countIf fun other => other.region = region := by
  have hcount : system.repository.countUsers region serverId =
      if region = "" then 0
      else system.repository.transfers.countIf fun other => other.region = region := by
    rw [countUsers, husers]
    rfl
  rw [← hcount]
  unfold System.CountsUsers TransferService.listUsers listUserCounters
    TransferMemoryRepository.listUsers
  constructor
  · intro hcounts oid server hfound
    rw [getTransferByServerId_of_found hfound] at hcounts
    obtain ⟨response, hresponse, htotal⟩ := hcounts server.users rfl
    rw [← htotal, ← Except.ok.inj hresponse]
  · intro hlength users hlisted
    cases hfound : system.repository.transfers.findIf (isServer region serverId) with
    | none =>
      rw [getTransferByServerId, hfound] at hlisted
      cases hlisted
    | some entry =>
      obtain ⟨oid, server⟩ := entry
      rw [getTransferByServerId_of_found hfound] at hlisted ⊢
      obtain rfl : server.users = users := Except.ok.inj hlisted
      exact ⟨_, rfl, (hlength oid server hfound).symm⟩

/-- In every run the names stay unique; the ports stay with their protocols just when every
step keeps the pairs, and the servers are distinct just when every step keeps them; and the
total of the users of a server is right just when the region has as many servers. -/
theorem always_iff :
    Always (System.step configuration) System.HasUniqueNames events {} ∧
    (Always (System.step configuration) System.IsPaired events {} ↔
      Heeded (System.step configuration) System.KeepsPairs events {}) ∧
    (Always (System.step configuration) System.HasDistinctServers events {} ↔
      Heeded (System.step configuration) System.KeepsServers events {}) ∧
    ∀ region serverId, (events.foldl (System.step configuration) {}).CountsUsers region serverId ↔
        ∀ oid server, (events.foldl (System.step configuration) {}).repository.transfers.findIf
            (isServer region serverId) = some (oid, server) →
          server.users.length =
            if region = "" then 0
            else (events.foldl (System.step configuration) {}).repository.transfers.countIf
              fun other => other.region = region := by
  have hempty : ∀ entry : String × Transfer,
      entry ∉ ({} : System).repository.transfers.entries := fun _ hentry => nomatch hentry
  have hnames : ({} : System).HasUniqueNames := fun entry hentry => absurd hentry (hempty entry)
  refine ⟨always_of_step (fun _ event => hasUniqueNames_step event) events hnames, ?_, ?_, ?_⟩
  · refine always_iff_heeded (fun _ event => hasUniqueNames_step event) ?_ events hnames
      (isPaired_iff.mpr fun entry hentry => absurd hentry (hempty entry))
    intro system event hsystem hpaired
    rw [isPaired_iff]
    exact hasOwnPorts_step_iff event hsystem hpaired.ports
  · refine always_iff_heeded (fun _ event => hasUniqueNames_step event) ?_ events hnames
      fun first hfirst => absurd hfirst (hempty first)
    intro system event _ hdistinct
    exact hasDistinctServers_step_iff event hdistinct
  · intro region serverId
    apply countsUsers_iff
    rw [repository_run, users_run]

end Runs

section Samples

def sampleConfiguration : Configuration := ⟨"000000000000", "0.0.0.0", 2121⟩

def lostProtocol : List Event :=
  [.createTransferServer "oid" "AB" ⟨"eu", [.ftp]⟩, .createProtocol ⟨"eu", "s-ab", .sftp, 22⟩,
    .deleteProtocol "eu" "s-ab" .ftp]

/-- The protocol that is left is reported with the port of the one that was deleted. -/
theorem not_always_lostProtocol :
    ¬ ∀ (configuration : Configuration) (events : List Event),
      Always (System.step configuration) System.HasUniqueNames events {} ∧
      Always (System.step configuration) System.IsPaired events {} ∧
      Always (System.step configuration) System.HasDistinctServers events {} ∧
      ∀ region serverId,
        (events.foldl (System.step configuration) {}).CountsUsers region serverId := by
  intro hall
  have hlast := (hall sampleConfiguration lostProtocol).2.1.last.ports
  have hentry := hlast ("oid",
    { newServer sampleConfiguration "AB" "eu" .ftp with protocols := [.sftp], ports := [2121, 22] })
    (by decide +kernel)
  revert hentry
  decide +kernel

end Samples

end AwsMock.Transfers
