import AwsMock.Foundation.Contract
import AwsMock.Gateway.Connection

/-! # Pipelining

A connection reads one request at a time, writes one response at a time, and keeps the
order of the requests, as long as the client does not send ahead of a read and leaves
the writer alone. A read that starts throws away the bytes received before it, and
`OPTIONS` reads on without looking at the queue.
-/

namespace AwsMock.Gateway

open Http Foundation

variable (wire : Wire) (limits : Limits)

/-- What the protocol promises of a connection through which these requests come. The
last part says that the session does not stop before it has answered everything. -/
structure IsOrderly (requests : List Request) (connection : Connection) : Prop where
  reads : connection.reads.length ≤ 1
  writes : connection.writes.length ≤ 1
  mostWrites : connection.mostWrites ≤ 1
  queue : connection.responseQueue.length ≤ limits.queueLimit
  kept : connection.discarded = []
  ordered : connection.written <+: requests
  answered : (∀ event, connection.step wire limits event = none) → connection.written = requests

def Steps (permitted : Connection → Connection.Event → Prop) (before after : Connection) : Prop :=
  ∃ event, permitted before event ∧ before.step wire limits event = some after

/-- The protocol is kept in every run over well-formed requests. -/
def IsPipelined (requests : List Request) : Prop :=
  ∀ connection,
    Relation.ReflTransGen (Steps wire limits fun _ _ => True) (Connection.start wire requests)
      connection → IsOrderly wire limits requests connection

/-- A read begins with an empty buffer, `OPTIONS` has no body and leaves room in the
queue, an interim response is not written beside another one, bodies are within the
limit, and responses keep the connection alive. -/
def IsHeeded (connection : Connection) : Connection.Event → Prop
  | .headerRead => ∀ request, wire.parseHeader connection.buffer = .complete request →
      (wire.body request).length ≤ limits.bodyLimit ∧
      if request.method = .options then
        wire.body request = [] ∧ connection.buffer.length = (wire.header request).length ∧
          connection.responseQueue.length + 1 < limits.queueLimit
      else request.get (ascii "Expect") = ascii "100-continue" → connection.writes = []
  | .bodyRead => ∀ request, connection.parser = some request →
      wire.isLambdaInvocation request = false →
      connection.responseQueue.length + 1 < limits.queueLimit →
      connection.buffer.length = (wire.body request).length
  | .completed _ => connection.responseQueue.length + 1 < limits.queueLimit → connection.buffer = []
  | .written response => wire.keepsAlive response = true ∧
      (connection.responseQueue.length = limits.queueLimit → connection.buffer = [])
  | _ => True

inductive Stage where
  | header
  | body (request : Request)
  | invoking (request : Request)
  | answering (request : Request)
  | paused

namespace Stage

def pending : Stage → List Request
  | .body request | .invoking request | .answering request => [request]
  | .header | .paused => []

def unread : Stage → Bytes
  | .body request => wire.body request
  | _ => []

def reads : Stage → List Reading
  | .header => [.header]
  | .body _ => [.body]
  | _ => []

def workers : Stage → List Request
  | .invoking request => [request]
  | _ => []

def posted : Stage → List Request
  | .answering request => [request]
  | _ => []

/-- The queue has room for the answer of the request that is read, and is full when no
request is. -/
def HasRoom (length : Nat) : Stage → Prop
  | .paused => length = limits.queueLimit
  | _ => length < limits.queueLimit

end Stage

/-- The first response of the queue is being written, and no other ever was beside it. -/
structure WritesFirst (connection : Connection) : Prop where
  writes : connection.writes = connection.responseQueue.take 1
  mostWrites : connection.mostWrites ≤ 1

/-- The account of a connection: what it has written, queued and pending are the requests
up to `rest`, and what it has received and not used is where the rest begins. -/
structure Accounts (requests pending rest : List Request) (unread : Bytes)
    (connection : Connection) : Prop where
  writing : WritesFirst connection
  kept : connection.discarded = []
  isOpen : connection.closed = false
  order : requests = connection.written ++ connection.responseQueue ++ pending ++ rest
  bytes : connection.buffer ++ connection.incoming = unread ++ wire.encode rest

/-- The connection is at a stage, and the requests in `rest` are still to be read. -/
structure IsAt (requests rest : List Request) (stage : Stage) (connection : Connection) :
    Prop where
  reads : connection.reads = stage.reads
  workers : connection.workers = stage.workers
  posted : connection.posted = stage.posted
  parser : ∀ request, stage = .body request → connection.parser = some request
  room : stage.HasRoom limits connection.responseQueue.length
  accounts : Accounts wire requests stage.pending rest (stage.unread wire) connection

namespace Connection

variable {wire limits} {connection : Connection}

theorem exists_doWrite (hidle : connection.writes = []) (hmost : connection.mostWrites ≤ 1) :
    ∃ mostWrites ≤ 1, connection.doWrite =
      { connection with writes := connection.responseQueue.take 1, mostWrites } := by
  cases connection with
  | mk buffer parser responseQueue =>
    cases responseQueue with
    | nil =>
      cases hidle
      exact ⟨_, hmost, rfl⟩
    | cons response responses =>
      cases hidle
      exact ⟨_, Nat.max_le.mpr ⟨hmost, Nat.le_refl 1⟩, rfl⟩

theorem exists_queueWrite (hwriting : WritesFirst connection) (response : Request) :
    ∃ mostWrites ≤ 1, connection.queueWrite response = { connection with
      responseQueue := connection.responseQueue ++ [response]
      writes := (connection.responseQueue ++ [response]).take 1
      mostWrites } := by
  cases connection with
  | mk buffer parser responseQueue reads writes =>
    cases responseQueue with
    | nil =>
      have hidle : writes = [] := hwriting.writes
      subst hidle
      exact ⟨_, Nat.max_le.mpr ⟨hwriting.mostWrites, Nat.le_refl 1⟩, rfl⟩
    | cons first responses =>
      refine ⟨_, hwriting.mostWrites, ?_⟩
      have hwrites : writes = [first] := hwriting.writes
      subst hwrites
      rw [queueWrite, if_neg (by simp)]
      rfl

end Connection

namespace Accounts

variable {wire limits} {requests pending rest : List Request} {unread : Bytes} {request : Request}
variable {connection : Connection}

theorem doRead (haccounts : Accounts wire requests pending rest unread connection)
    (hbuffer : connection.buffer = []) :
    Accounts wire requests pending rest unread connection.doRead where
  writing := ⟨haccounts.writing.writes, haccounts.writing.mostWrites⟩
  kept := by
    change connection.discarded ++ connection.buffer = []
    rw [haccounts.kept, hbuffer]
    rfl
  isOpen := haccounts.isOpen
  order := haccounts.order
  bytes := by
    have hbytes := haccounts.bytes
    rw [hbuffer] at hbytes
    exact hbytes

theorem queueWrite (haccounts : Accounts wire requests [request] rest unread connection) :
    Accounts wire requests [] rest unread (connection.queueWrite request) := by
  obtain ⟨mostWrites, hmost, heq⟩ := Connection.exists_queueWrite haccounts.writing request
  rw [heq]
  refine ⟨⟨rfl, hmost⟩, haccounts.kept, haccounts.isOpen, ?_, haccounts.bytes⟩
  rw [haccounts.order, List.append_nil, List.append_assoc connection.written]

theorem resume (haccounts : Accounts wire requests [request] rest [] connection)
    (hreads : connection.reads = []) (hworkers : connection.workers = [])
    (hposted : connection.posted = [])
    (hroom : connection.responseQueue.length < limits.queueLimit)
    (hbuffer : connection.responseQueue.length + 1 < limits.queueLimit → connection.buffer = []) :
    ∃ stage, IsAt wire limits requests rest stage
      ((connection.queueWrite request).resume limits) := by
  have hqueued := haccounts.queueWrite
  obtain ⟨mostWrites, _, heq⟩ := Connection.exists_queueWrite haccounts.writing request
  rw [heq] at hqueued ⊢
  have hlength : (connection.responseQueue ++ [request]).length =
      connection.responseQueue.length + 1 := List.length_append
  unfold Connection.resume
  dsimp only
  split
  next hbelow =>
    rw [hlength] at hbelow
    refine ⟨.header, ?_, hworkers, hposted, nofun, ?_, hqueued.doRead (hbuffer hbelow)⟩
    · change connection.reads ++ [Reading.header] = [.header]
      rw [hreads]
      rfl
    · exact lt_of_eq_of_lt hlength hbelow
  next hfull =>
    rw [hlength] at hfull
    refine ⟨.paused, hreads, hworkers, hposted, nofun, ?_, hqueued⟩
    change (connection.responseQueue ++ [request]).length = limits.queueLimit
    omega

end Accounts

theorem Wire.IsLawful.parseHeader {wire : Wire} (hlawful : wire.IsLawful) {rest : List Request}
    (hformed : ∀ request ∈ rest, wire.wellFormed request) {buffer incoming : Bytes}
    (hbytes : buffer ++ incoming = wire.encode rest) :
    wire.parseHeader buffer = .needMore ∨
      ∃ request following remaining, rest = request :: remaining ∧
        buffer = wire.header request ++ following ∧
        wire.parseHeader buffer = .complete request := by
  cases rest with
  | nil =>
    have hbuffer : buffer = [] := (List.append_eq_nil_iff.mp hbytes).1
    exact .inl (hbuffer ▸ hlawful.nothing)
  | cons request remaining =>
    have hrequest := hformed request List.mem_cons_self
    rw [Wire.encode, List.flatMap_cons, List.append_assoc] at hbytes
    rcases List.append_eq_append_iff.mp hbytes with ⟨following, hheader, _⟩ | ⟨following, rfl, _⟩
    · by_cases hwhole : buffer = wire.header request
      · refine .inr ⟨request, [], remaining, rfl, ?_, ?_⟩
        · rw [hwhole, List.append_nil]
        · have hcomplete := @hlawful.complete request [] hrequest
          rwa [List.append_nil, ← hwhole] at hcomplete
      · exact .inl (hlawful.incomplete hrequest ⟨following, hheader.symm⟩ hwhole)
    · exact .inr ⟨request, following, remaining, rfl, rfl, hlawful.complete hrequest⟩

namespace IsAt

variable {wire limits} {requests rest : List Request} {stage : Stage}
variable {connection after : Connection} {request : Request}

section

variable (hat : IsAt wire limits requests rest stage connection)
include hat

theorem receive (count : Nat) :
    IsAt wire limits requests rest stage (connection.receive count) where
  reads := hat.reads
  workers := hat.workers
  posted := hat.posted
  parser := hat.parser
  room := hat.room
  accounts := by
    refine ⟨⟨hat.accounts.writing.writes, hat.accounts.writing.mostWrites⟩, hat.accounts.kept,
      hat.accounts.isOpen, hat.accounts.order, ?_⟩
    rw [← hat.accounts.bytes]
    dsimp only [Connection.receive]
    rw [List.append_assoc, List.take_append_drop]

theorem stage_of_header (hreading : Reading.header ∈ connection.reads) : stage = .header := by
  rw [hat.reads] at hreading
  cases stage with
  | header => rfl
  | body request => exact absurd (List.mem_singleton.mp hreading) nofun
  | invoking request => exact absurd hreading List.not_mem_nil
  | answering request => exact absurd hreading List.not_mem_nil
  | paused => exact absurd hreading List.not_mem_nil

theorem stage_of_body
    (hreading : Reading.body ∈ connection.reads) (hparser : connection.parser = some request) :
    stage = .body request := by
  rw [hat.reads] at hreading
  cases stage with
  | header => exact absurd (List.mem_singleton.mp hreading) nofun
  | body other =>
    have hother := hat.parser other rfl
    rw [hparser] at hother
    rw [Option.some.inj hother]
  | invoking request => exact absurd hreading List.not_mem_nil
  | answering request => exact absurd hreading List.not_mem_nil
  | paused => exact absurd hreading List.not_mem_nil

theorem stage_of_workers (hworking : request ∈ connection.workers) : stage = .invoking request := by
  rw [hat.workers] at hworking
  cases stage with
  | invoking other => rw [List.mem_singleton.mp hworking]
  | header => exact absurd hworking List.not_mem_nil
  | body other => exact absurd hworking List.not_mem_nil
  | answering other => exact absurd hworking List.not_mem_nil
  | paused => exact absurd hworking List.not_mem_nil

theorem stage_of_posted (hposted : request ∈ connection.posted) : stage = .answering request := by
  rw [hat.posted] at hposted
  cases stage with
  | answering other => rw [List.mem_singleton.mp hposted]
  | header => exact absurd hposted List.not_mem_nil
  | body other => exact absurd hposted List.not_mem_nil
  | invoking other => exact absurd hposted List.not_mem_nil
  | paused => exact absurd hposted List.not_mem_nil

end

/-- A header is read: `OPTIONS` is answered, the body of another request is read next. -/
theorem headerRead (hlawful : wire.IsLawful) (hformed : ∀ request ∈ rest, wire.wellFormed request)
    (hat : IsAt wire limits requests rest .header connection)
    (hheeded : IsHeeded wire limits connection .headerRead)
    (hstep : connection.headerRead wire limits = some after) :
    ∃ stage remaining, remaining <:+ rest ∧ IsAt wire limits requests remaining stage after := by
  have hbytes : connection.buffer ++ connection.incoming = wire.encode rest := hat.accounts.bytes
  have horder := hat.accounts.order
  rcases hlawful.parseHeader hformed hbytes with hmore | ⟨request, following, remaining, rfl,
    hbuffer, hcomplete⟩
  · rw [Connection.headerRead, hmore] at hstep
    exact absurd hstep nofun
  have hpermitted := hheeded request hcomplete
  rw [Connection.headerRead, hcomplete] at hstep
  dsimp only at hstep
  rw [if_neg (Nat.not_lt.mpr hpermitted.1)] at hstep
  obtain rfl := Option.some.inj hstep
  have hreads : connection.reads.erase .header = [] := by
    rw [hat.reads]
    rfl
  have hleft : connection.buffer.drop (wire.header request).length = following := by
    rw [hbuffer, List.drop_left]
  have hfollowing : following ++ connection.incoming =
      wire.body request ++ wire.encode remaining := by
    rw [hbuffer, Wire.encode, List.flatMap_cons, List.append_assoc, List.append_assoc] at hbytes
    exact List.append_cancel_left hbytes
  have haccounts : Accounts wire requests [request] remaining (wire.body request)
      { connection with
        reads := connection.reads.erase .header
        buffer := connection.buffer.drop (wire.header request).length
        parser := some request } := by
    refine ⟨⟨hat.accounts.writing.writes, hat.accounts.writing.mostWrites⟩, hat.accounts.kept,
      hat.accounts.isOpen, ?_, ?_⟩
    · rw [horder]
      simp [Stage.pending]
    · rw [← hfollowing, ← hleft]
  have hbody : ∀ mostWrites ≤ 1, IsAt wire limits requests remaining (.body request)
      { connection with
        reads := connection.reads.erase .header ++ [.body]
        buffer := connection.buffer.drop (wire.header request).length
        parser := some request
        mostWrites } := by
    intro mostWrites hmost
    refine ⟨?_, hat.workers, hat.posted, ?_, hat.room, ?_⟩
    · change connection.reads.erase .header ++ [Reading.body] = [.body]
      rw [hreads]
      rfl
    · intro other hother
      cases hother
      rfl
    · exact ⟨⟨haccounts.writing.writes, hmost⟩, haccounts.kept, haccounts.isOpen,
        haccounts.order, haccounts.bytes⟩
  refine (?_ : ∃ stage, IsAt wire limits requests remaining stage _).imp fun stage hstage =>
    ⟨remaining, List.suffix_cons request remaining, hstage⟩
  unfold Connection.onReadHeader
  split
  next hoptions =>
    have halone := hpermitted.2
    rw [if_pos hoptions] at halone
    obtain ⟨hempty, hlength, hroom⟩ := halone
    have hnothing : connection.buffer.drop (wire.header request).length = [] := by
      rw [← hlength, List.drop_length]
    rw [hempty] at haccounts
    have hqueued := haccounts.queueWrite
    obtain ⟨mostWrites, _, heq⟩ := Connection.exists_queueWrite haccounts.writing request
    rw [heq] at hqueued ⊢
    refine ⟨.header, ?_, hat.workers, hat.posted, nofun, ?_, hqueued.doRead hnothing⟩
    · change connection.reads.erase .header ++ [Reading.header] = [.header]
      rw [hreads]
      rfl
    · change (connection.responseQueue ++ [request]).length < limits.queueLimit
      rw [List.length_append]
      exact hroom
  next hother =>
    have hidle := hpermitted.2
    rw [if_neg hother] at hidle
    split
    next hexpect =>
      rw [if_neg (Nat.not_lt.mpr hpermitted.1)]
      refine ⟨.body request, hbody _ ?_⟩
      change max connection.mostWrites (connection.writes.length + 1) ≤ 1
      rw [hidle hexpect]
      exact Nat.max_le.mpr ⟨hat.accounts.writing.mostWrites, Nat.le_refl 1⟩
    next => exact ⟨.body request, hbody _ hat.accounts.writing.mostWrites⟩

theorem bodyRead (hat : IsAt wire limits requests rest (.body request) connection)
    (hheeded : IsHeeded wire limits connection .bodyRead)
    (hstep : connection.bodyRead wire limits = some after) :
    ∃ stage, IsAt wire limits requests rest stage after := by
  have hparser := hat.parser request rfl
  rw [Connection.bodyRead, hparser] at hstep
  dsimp only at hstep
  split at hstep
  next => exact absurd hstep nofun
  next hlength =>
    obtain rfl := Option.some.inj hstep
    have hreads : connection.reads.erase .body = [] := by
      rw [hat.reads]
      rfl
    have hbytes : connection.buffer ++ connection.incoming = wire.body request ++ wire.encode rest :=
      hat.accounts.bytes
    have hdrop : connection.buffer.drop (wire.body request).length ++ connection.incoming =
        wire.encode rest := by
      rw [← List.drop_append_of_le_length (Nat.not_lt.mp hlength), hbytes, List.drop_left]
    have haccounts : Accounts wire requests [request] rest []
        { connection with
          parser := none
          reads := connection.reads.erase .body
          buffer := connection.buffer.drop (wire.body request).length } :=
      ⟨⟨hat.accounts.writing.writes, hat.accounts.writing.mostWrites⟩, hat.accounts.kept,
        hat.accounts.isOpen, hat.accounts.order, hdrop⟩
    unfold Connection.onRead
    dsimp only
    split
    next =>
      refine ⟨.invoking request, hreads, ?_, hat.posted, nofun, hat.room, ?_⟩
      · change connection.workers ++ [request] = [request]
        rw [hat.workers]
        rfl
      · exact ⟨⟨haccounts.writing.writes, haccounts.writing.mostWrites⟩, haccounts.kept,
          haccounts.isOpen, haccounts.order, haccounts.bytes⟩
    next hplain =>
      apply haccounts.resume hreads hat.workers hat.posted hat.room
      intro hroom
      have hexact := hheeded request hparser (eq_false_of_ne_true hplain) hroom
      change connection.buffer.drop (wire.body request).length = []
      rw [← hexact, List.drop_length]

theorem invoked (hat : IsAt wire limits requests rest (.invoking request) connection) :
    IsAt wire limits requests rest (.answering request) { connection with
      workers := connection.workers.erase request
      posted := connection.posted ++ [request] } where
  reads := hat.reads
  workers := by
    change connection.workers.erase request = []
    rw [hat.workers]
    simp [Stage.workers]
  posted := by
    change connection.posted ++ [request] = [request]
    rw [hat.posted]
    rfl
  parser := nofun
  room := hat.room
  accounts := ⟨⟨hat.accounts.writing.writes, hat.accounts.writing.mostWrites⟩, hat.accounts.kept,
    hat.accounts.isOpen, hat.accounts.order, hat.accounts.bytes⟩

theorem completed (hat : IsAt wire limits requests rest (.answering request) connection)
    (hheeded : IsHeeded wire limits connection (.completed request)) :
    ∃ stage, IsAt wire limits requests rest stage
      (({ connection with posted := connection.posted.erase request }.queueWrite
        request).resume limits) := by
  have haccounts : Accounts wire requests [request] rest []
      { connection with posted := connection.posted.erase request } :=
    ⟨⟨hat.accounts.writing.writes, hat.accounts.writing.mostWrites⟩, hat.accounts.kept,
      hat.accounts.isOpen, hat.accounts.order, hat.accounts.bytes⟩
  apply haccounts.resume hat.reads hat.workers ?_ hat.room hheeded
  change connection.posted.erase request = []
  rw [hat.posted]
  simp [Stage.posted]

theorem written (hat : IsAt wire limits requests rest stage connection)
    (hwriting : request ∈ connection.writes)
    (hheeded : IsHeeded wire limits connection (.written request)) :
    ∃ stage, IsAt wire limits requests rest stage ({ connection with
        writes := connection.writes.erase request
        written := connection.written ++ [request] }.onWrite wire limits request) := by
  obtain ⟨responses, hqueue⟩ : ∃ responses, connection.responseQueue = request :: responses := by
    rw [hat.accounts.writing.writes] at hwriting
    cases hqueue : connection.responseQueue with
    | nil =>
      rw [hqueue] at hwriting
      exact absurd hwriting List.not_mem_nil
    | cons first responses =>
      rw [hqueue] at hwriting
      exact ⟨responses, by rw [List.mem_singleton.mp hwriting]⟩
  have hidle : connection.writes.erase request = [] := by
    rw [hat.accounts.writing.writes, hqueue]
    simp
  have horder : requests = (connection.written ++ [request]) ++ responses ++ stage.pending ++
      rest := by
    rw [hat.accounts.order, hqueue, List.append_assoc connection.written [request],
      List.singleton_append]
  unfold Connection.onWrite
  rw [if_pos hheeded.1]
  dsimp only
  split
  next hfull =>
    -- the queue is full only while the session pauses, so no other read is outstanding
    have hpaused : stage = .paused := by
      have hroom := hat.room
      cases stage with
      | paused => rfl
      | header => exact absurd hfull (Nat.ne_of_lt hroom)
      | body other => exact absurd hfull (Nat.ne_of_lt hroom)
      | invoking other => exact absurd hfull (Nat.ne_of_lt hroom)
      | answering other => exact absurd hfull (Nat.ne_of_lt hroom)
    subst hpaused
    have hbuffer := hheeded.2 hfull
    have hbytes := hat.accounts.bytes
    rw [hbuffer] at hbytes
    obtain ⟨mostWrites, hmost, heq⟩ := @Connection.exists_doWrite
      { { connection with
          writes := connection.writes.erase request
          written := connection.written ++ [request] }.doRead with
        responseQueue := connection.responseQueue.tail } hidle hat.accounts.writing.mostWrites
    refine ⟨.header, Eq.mpr (congrArg _ heq) ?_⟩
    refine ⟨?_, hat.workers, hat.posted, nofun, ?_, ⟨rfl, hmost⟩, ?_,
      hat.accounts.isOpen, ?_, hbytes⟩
    · change connection.reads ++ [Reading.header] = [.header]
      rw [hat.reads]
      rfl
    · change connection.responseQueue.tail.length < limits.queueLimit
      rw [← hfull, hqueue]
      exact Nat.lt_succ_self _
    · change connection.discarded ++ connection.buffer = []
      rw [hat.accounts.kept, hbuffer]
      rfl
    · change requests = connection.written ++ [request] ++ connection.responseQueue.tail ++ [] ++
        rest
      rw [hqueue]
      exact horder
  next hroom =>
    obtain ⟨mostWrites, hmost, heq⟩ := @Connection.exists_doWrite
      { connection with
        responseQueue := connection.responseQueue.tail
        writes := connection.writes.erase request
        written := connection.written ++ [request] } hidle hat.accounts.writing.mostWrites
    rw [heq]
    refine ⟨stage, hat.reads, hat.workers, hat.posted, hat.parser, ?_, ⟨rfl, hmost⟩,
      hat.accounts.kept, hat.accounts.isOpen, ?_, hat.accounts.bytes⟩
    · have hshorter : connection.responseQueue.tail.length < connection.responseQueue.length := by
        rw [hqueue]
        exact Nat.lt_succ_self _
      have hbefore := hat.room
      cases stage with
      | paused => exact absurd hbefore hroom
      | header => exact Nat.lt_trans hshorter hbefore
      | body other => exact Nat.lt_trans hshorter hbefore
      | invoking other => exact Nat.lt_trans hshorter hbefore
      | answering other => exact Nat.lt_trans hshorter hbefore
    · change requests = connection.written ++ [request] ++ connection.responseQueue.tail ++
        stage.pending ++ rest
      rw [hqueue]
      exact horder

variable (hlawful : wire.IsLawful)
include hlawful

theorem step (hformed : ∀ request ∈ rest, wire.wellFormed request)
    (hat : IsAt wire limits requests rest stage connection) {event : Connection.Event}
    (hheeded : IsHeeded wire limits connection event)
    (hstep : connection.step wire limits event = some after) :
    ∃ stage remaining, remaining <:+ rest ∧ IsAt wire limits requests remaining stage after := by
  have hsame : (∃ stage, IsAt wire limits requests rest stage after) →
      ∃ stage remaining, remaining <:+ rest ∧
        IsAt wire limits requests remaining stage after :=
    fun ⟨stage, hafter⟩ => ⟨stage, rest, List.suffix_refl rest, hafter⟩
  cases event with
  | received count =>
    obtain ⟨_, hafter⟩ := Option.ite_none_right_eq_some.mp hstep
    obtain rfl := Option.some.inj hafter
    exact hsame ⟨stage, hat.receive count⟩
  | headerRead =>
    obtain ⟨hready, hread⟩ := Option.ite_none_right_eq_some.mp hstep
    obtain rfl := hat.stage_of_header hready.2
    exact hat.headerRead hlawful hformed hheeded hread
  | bodyRead =>
    obtain ⟨hready, hread⟩ := Option.ite_none_right_eq_some.mp hstep
    cases hparser : connection.parser with
    | none =>
      rw [Connection.bodyRead, hparser] at hread
      exact absurd hread nofun
    | some request =>
      obtain rfl := hat.stage_of_body hready.2 hparser
      exact hsame (hat.bodyRead hheeded hread)
  | invoked request =>
    obtain ⟨hready, hafter⟩ := Option.ite_none_right_eq_some.mp hstep
    obtain rfl := Option.some.inj hafter
    obtain rfl := hat.stage_of_workers hready.2
    exact hsame ⟨_, hat.invoked⟩
  | completed request =>
    obtain ⟨hready, hafter⟩ := Option.ite_none_right_eq_some.mp hstep
    obtain rfl := Option.some.inj hafter
    obtain rfl := hat.stage_of_posted hready.2
    exact hsame (hat.completed hheeded)
  | written response =>
    obtain ⟨hready, hafter⟩ := Option.ite_none_right_eq_some.mp hstep
    obtain rfl := Option.some.inj hafter
    exact hsame (hat.written hready.2 hheeded)

theorem written_of_stuck (hformed : ∀ request ∈ rest, wire.wellFormed request)
    (hat : IsAt wire limits requests rest stage connection) (hlimit : 1 ≤ limits.queueLimit)
    (hstuck : ∀ event, connection.step wire limits event = none) :
    connection.written = requests := by
  have hopen : (!connection.closed) = true := by
    rw [hat.accounts.isOpen]
    rfl
  have hqueue : connection.responseQueue = [] := by
    cases hqueue : connection.responseQueue with
    | nil => rfl
    | cons response responses =>
      have hwriting : response ∈ connection.writes := by
        rw [hat.accounts.writing.writes, hqueue]
        exact List.mem_singleton_self response
      have hnone := hstuck (.written response)
      rw [Connection.step, if_pos ⟨hopen, hwriting⟩] at hnone
      exact absurd hnone nofun
  -- bytes that are still to come are received while a read waits for them
  have harrived : connection.isWaiting wire = true → connection.incoming = [] := by
    intro hwaiting
    by_contra hincoming
    have hcount := List.length_pos_iff.mpr hincoming
    have hnone := hstuck (.received 1)
    rw [Connection.step, if_pos ⟨hopen, hwaiting, Nat.le_refl 1, hcount⟩] at hnone
    exact absurd hnone nofun
  have horder := hat.accounts.order
  rw [hqueue, List.append_nil] at horder
  have hbytes := hat.accounts.bytes
  cases stage with
  | header =>
    have hreading : Reading.header ∈ connection.reads := by
      rw [hat.reads]
      exact List.mem_singleton_self _
    have hnone := hstuck .headerRead
    rw [Connection.step, if_pos ⟨hopen, hreading⟩, Connection.headerRead] at hnone
    rcases hlawful.parseHeader hformed hbytes with hmore | ⟨request, _, _, _, _, hcomplete⟩
    · have hwaiting : connection.isWaiting wire = true := by
        rw [Connection.isWaiting, hmore]
        simp [hreading]
      have hincoming := harrived hwaiting
      rw [hincoming, List.append_nil] at hbytes
      cases rest with
      | nil =>
        rw [horder]
        simp [Stage.pending]
      | cons request remaining =>
        have hrequest := hformed request List.mem_cons_self
        have hcomplete := @hlawful.complete request
          (wire.body request ++ wire.encode remaining) hrequest
        have hwhole : connection.buffer = wire.header request ++
            (wire.body request ++ wire.encode remaining) := by
          rw [hbytes, Wire.encode, List.flatMap_cons, List.append_assoc]
          rfl
        rw [← hwhole, hmore] at hcomplete
        exact absurd hcomplete nofun
    · rw [hcomplete] at hnone
      dsimp only at hnone
      split at hnone
      next => exact absurd hnone nofun
      next => exact absurd hnone nofun
  | body request =>
    have hparser := hat.parser request rfl
    have hreading : Reading.body ∈ connection.reads := by
      rw [hat.reads]
      exact List.mem_singleton_self _
    have hnone := hstuck .bodyRead
    rw [Connection.step, if_pos ⟨hopen, hreading⟩, Connection.bodyRead, hparser] at hnone
    dsimp only at hnone
    split at hnone
    next hshort =>
      have hwaiting : connection.isWaiting wire = true := by
        rw [Connection.isWaiting, hparser]
        simp [hreading, hshort]
      have hincoming := harrived hwaiting
      rw [hincoming, List.append_nil] at hbytes
      rw [hbytes] at hshort
      change (wire.body request ++ wire.encode rest).length < _ at hshort
      rw [List.length_append] at hshort
      omega
    next => exact absurd hnone nofun
  | invoking request =>
    have hworking : request ∈ connection.workers := by
      rw [hat.workers]
      exact List.mem_singleton_self _
    have hnone := hstuck (.invoked request)
    rw [Connection.step, if_pos ⟨hopen, hworking⟩] at hnone
    exact absurd hnone nofun
  | answering request =>
    have hposted : request ∈ connection.posted := by
      rw [hat.posted]
      exact List.mem_singleton_self _
    have hnone := hstuck (.completed request)
    rw [Connection.step, if_pos ⟨hopen, hposted⟩] at hnone
    exact absurd hnone nofun
  | paused =>
    have hfull : connection.responseQueue.length = limits.queueLimit := hat.room
    rw [hqueue] at hfull
    exact absurd hfull (Nat.ne_of_lt hlimit)

theorem isOrderly (hformed : ∀ request ∈ rest, wire.wellFormed request)
    (hat : IsAt wire limits requests rest stage connection) (hlimit : 1 ≤ limits.queueLimit) :
    IsOrderly wire limits requests connection where
  reads := by
    rw [hat.reads]
    cases stage <;> simp [Stage.reads]
  writes := by
    rw [hat.accounts.writing.writes]
    exact List.length_take_le 1 _
  mostWrites := hat.accounts.writing.mostWrites
  queue := by
    have hroom := hat.room
    cases stage with
    | paused => exact Nat.le_of_eq hroom
    | header => exact Nat.le_of_lt hroom
    | body request => exact Nat.le_of_lt hroom
    | invoking request => exact Nat.le_of_lt hroom
    | answering request => exact Nat.le_of_lt hroom
  kept := hat.accounts.kept
  ordered := by
    rw [hat.accounts.order, List.append_assoc, List.append_assoc]
    exact List.prefix_append _ _
  answered := hat.written_of_stuck hlawful hformed hlimit

end IsAt

variable {wire limits}

theorem isAt_start {requests : List Request} (hlimit : 1 ≤ limits.queueLimit) :
    IsAt wire limits requests requests .header (Connection.start wire requests) where
  reads := rfl
  workers := rfl
  posted := rfl
  parser := nofun
  room := hlimit
  accounts := ⟨⟨rfl, Nat.zero_le 1⟩, rfl, rfl, rfl, rfl⟩

def healthRequest : Request where
  methodString := ascii "GET"
  target := ascii "/health"
  fields := [(ascii "Host", ascii "localhost")]

def healthHeader : Bytes := ascii "GET /health HTTP/1.1\r\nHost: localhost\r\n\r\n"

def healthWire : Wire where
  wellFormed request := request = healthRequest
  header _ := healthHeader
  body _ := []
  parseHeader received :=
    if healthHeader <+: received then .complete healthRequest
    else if received <+: healthHeader then .needMore
    else .malformed
  pathSegments target := (Bytes.split target 47).drop 1
  keepsAlive request := request.version = 11

theorem healthWire_isLawful : healthWire.IsLawful where
  nothing := by decide
  incomplete := by
    intro request received _ hpart hproper
    have hpart : received <+: healthHeader := hpart
    dsimp only [healthWire]
    rw [if_neg, if_pos hpart]
    intro hwhole
    exact hproper (hpart.eq_of_length_le hwhole.length_le)
  complete := by
    intro request following hformed
    dsimp only [healthWire]
    rw [if_pos (List.prefix_append _ _), hformed]

/-- Two requests arrive together, and the read of the second one clears the buffer. -/
theorem not_isPipelined_together :
    ¬∀ (wire : Wire) (limits : Limits) (requests : List Request), wire.IsLawful →
      (∀ request ∈ requests, wire.wellFormed request) → 1 ≤ limits.queueLimit →
      IsPipelined wire limits requests := by
  intro hpipelined
  have hrun := hpipelined healthWire ⟨2, 1000⟩ [healthRequest, healthRequest] healthWire_isLawful
    (by simp [healthWire]) (by decide)
  have hreceived : (Connection.start healthWire [healthRequest, healthRequest]).step healthWire
      ⟨2, 1000⟩ (.received (2 * healthHeader.length)) = some
        { buffer := healthHeader ++ healthHeader, reads := [.header], incoming := [] } := by
    decide
  have hheader : Connection.step healthWire ⟨2, 1000⟩
      { buffer := healthHeader ++ healthHeader, reads := [.header], incoming := [] }
      .headerRead = some
        { buffer := healthHeader, reads := [.body], parser := some healthRequest,
          incoming := [] } := by
    decide
  have hbody : Connection.step healthWire ⟨2, 1000⟩
      { buffer := healthHeader, reads := [.body], parser := some healthRequest, incoming := [] }
      .bodyRead = some
        { responseQueue := [healthRequest], reads := [.header], writes := [healthRequest],
          incoming := [], discarded := healthHeader, mostWrites := 1 } := by
    decide
  have horderly := hrun _ (((Relation.ReflTransGen.refl.tail ⟨_, trivial, hreceived⟩).tail
    ⟨_, trivial, hheader⟩).tail ⟨_, trivial, hbody⟩)
  exact absurd horderly.kept (by decide)

/-- In every run whose steps heed the session, the protocol is kept. -/
theorem isOrderly_of_heeded (hlawful : wire.IsLawful) {requests : List Request}
    (hformed : ∀ request ∈ requests, wire.wellFormed request) (hlimit : 1 ≤ limits.queueLimit)
    {connection : Connection}
    (hrun : Relation.ReflTransGen (Steps wire limits (IsHeeded wire limits))
      (Connection.start wire requests) connection) :
    IsOrderly wire limits requests connection := by
  have hstage : ∃ stage rest, rest <:+ requests ∧
      IsAt wire limits requests rest stage connection := by
    induction hrun with
    | refl => exact ⟨.header, requests, List.suffix_refl _, isAt_start hlimit⟩
    | tail _ hlast ih =>
      obtain ⟨stage, rest, hrest, hat⟩ := ih
      obtain ⟨event, hheeded, hstep⟩ := hlast
      obtain ⟨next, remaining, hremaining, hafter⟩ := hat.step hlawful
        (fun request hrequest => hformed request (hrest.subset hrequest)) hheeded hstep
      exact ⟨next, remaining, hremaining.trans hrest, hafter⟩
  obtain ⟨stage, rest, hrest, hat⟩ := hstage
  exact hat.isOrderly hlawful (fun request hrequest => hformed request (hrest.subset hrequest))
    hlimit

theorem isOrderly_of_heeded_once :
    IsOrderly healthWire ⟨2, 1000⟩ [healthRequest]
      { reads := [.header], incoming := [], written := [healthRequest], mostWrites := 1 } := by
  have hreceived : (Connection.start healthWire [healthRequest]).step healthWire ⟨2, 1000⟩
      (.received healthHeader.length) = some
        { buffer := healthHeader, reads := [.header], incoming := [] } := by
    decide
  have hheader : Connection.step healthWire ⟨2, 1000⟩
      { buffer := healthHeader, reads := [.header], incoming := [] } .headerRead = some
        { reads := [.body], parser := some healthRequest, incoming := [] } := by
    decide
  have hbody : Connection.step healthWire ⟨2, 1000⟩
      { reads := [.body], parser := some healthRequest, incoming := [] } .bodyRead = some
        { responseQueue := [healthRequest], reads := [.header], writes := [healthRequest],
          incoming := [], mostWrites := 1 } := by
    decide
  have hwritten : Connection.step healthWire ⟨2, 1000⟩
      { responseQueue := [healthRequest], reads := [.header], writes := [healthRequest],
        incoming := [], mostWrites := 1 } (.written healthRequest) = some
        { reads := [.header], incoming := [], written := [healthRequest], mostWrites := 1 } := by
    decide
  have hheeded : IsHeeded healthWire ⟨2, 1000⟩
      { buffer := healthHeader, reads := [.header], incoming := [] } .headerRead := by
    intro request hcomplete
    have hknown : healthWire.parseHeader healthHeader = .complete healthRequest := by
      decide
    rw [hknown] at hcomplete
    obtain rfl := Parse.complete.inj hcomplete
    decide
  have hempty : IsHeeded healthWire ⟨2, 1000⟩
      { reads := [.body], parser := some healthRequest, incoming := [] } .bodyRead := by
    intro request hrequest _ _
    rfl
  have hlast : IsHeeded healthWire ⟨2, 1000⟩
      { responseQueue := [healthRequest], reads := [.header], writes := [healthRequest],
        incoming := [], mostWrites := 1 } (.written healthRequest) :=
    ⟨by decide, nofun⟩
  have hfirst : IsHeeded healthWire ⟨2, 1000⟩ (Connection.start healthWire [healthRequest])
      (.received healthHeader.length) := trivial
  exact isOrderly_of_heeded healthWire_isLawful (by simp [healthWire]) (by decide)
    ((((Relation.ReflTransGen.refl.tail ⟨_, hfirst, hreceived⟩).tail ⟨_, hheeded, hheader⟩).tail
      ⟨_, hempty, hbody⟩).tail ⟨_, hlast, hwritten⟩)

end AwsMock.Gateway
