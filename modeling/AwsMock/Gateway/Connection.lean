import AwsMock.Core.Http

/-! # The connection of a gateway session

The completion handlers of `GatewaySession`: a session reads a request, answers it
through a queue of responses, and reads on. Handlers run one at a time, in any order
the executor allows. A response is named by the request it answers.
-/

namespace AwsMock.Gateway

open Http

inductive Parse where
  | needMore
  | complete (request : Request)
  | malformed
deriving DecidableEq, Repr

/-- The libraries under a session: how requests are written on the wire, what the header
parser makes of bytes, the path segments of a target, and which answers of the
handlers keep the connection alive. -/
structure Wire where
  wellFormed : Request → Prop
  header : Request → Bytes
  body : Request → Bytes
  parseHeader : Bytes → Parse
  pathSegments : Bytes → List Bytes
  keepsAlive : Request → Bool

/-- The parser waits for the whole header and leaves what comes after it. -/
structure Wire.IsLawful (wire : Wire) : Prop where
  nothing : wire.parseHeader [] = .needMore
  incomplete : ∀ {request : Request} {received : Bytes}, wire.wellFormed request →
    received <+: wire.header request → received ≠ wire.header request →
    wire.parseHeader received = .needMore
  complete : ∀ {request : Request} {following : Bytes}, wire.wellFormed request →
    wire.parseHeader (wire.header request ++ following) = .complete request

def Wire.encode (wire : Wire) (requests : List Request) : Bytes :=
  requests.flatMap fun request => wire.header request ++ wire.body request

structure Limits where
  queueLimit : Nat
  bodyLimit : Nat
deriving DecidableEq, Repr

inductive Reading where
  | header
  | body
deriving DecidableEq, Repr

/-- The fields of a session, the operations that are outstanding, and what went
through the socket. -/
structure Connection where
  buffer : Bytes := []
  parser : Option Request := none
  responseQueue : List Request := []
  reads : List Reading := []
  writes : List Request := []
  workers : List Request := []
  posted : List Request := []
  closed : Bool := false
  incoming : Bytes
  discarded : Bytes := []
  written : List Request := []
  mostWrites : Nat := 0
deriving DecidableEq, Repr

/-- `IsLambdaInvocation`. -/
def Wire.isLambdaInvocation (wire : Wire) (request : Request) : Bool :=
  request.method = .post && 3 < (wire.pathSegments request.target).length &&
    (wire.pathSegments request.target)[3]? = some (ascii "invocations")

namespace Connection

variable (wire : Wire) (limits : Limits) (connection : Connection)

/-- `DoRead`: the buffer is cleared for each message. -/
def doRead : Connection :=
  { connection with
    parser := none
    buffer := []
    discarded := connection.discarded ++ connection.buffer
    reads := connection.reads ++ [.header] }

/-- `DoClose`. -/
def doClose : Connection := { connection with closed := true }

def beginWrite : Connection :=
  { connection with mostWrites := max connection.mostWrites (connection.writes.length + 1) }

/-- `DoWrite`. -/
def doWrite : Connection :=
  match connection.responseQueue with
  | [] => connection
  | response :: _ => { connection.beginWrite with writes := connection.writes ++ [response] }

/-- `QueueWrite`. -/
def queueWrite (response : Request) : Connection :=
  let queued := { connection with responseQueue := connection.responseQueue ++ [response] }
  if queued.responseQueue.length = 1 then queued.doWrite else queued

def resume : Connection :=
  if connection.responseQueue.length < limits.queueLimit then connection.doRead else connection

/-- `OnWrite`. -/
def onWrite (response : Request) : Connection :=
  if wire.keepsAlive response then
    let resumed := if connection.responseQueue.length = limits.queueLimit then connection.doRead
      else connection
    { resumed with responseQueue := resumed.responseQueue.tail }.doWrite
  else connection.doClose

def readBody : Connection := { connection with reads := connection.reads ++ [.body] }

/-- `OnReadHeader`. The interim response is written before the handler returns. -/
def onReadHeader (request : Request) : Connection :=
  if request.method = .options then (connection.queueWrite request).doRead
  else if request.get (ascii "Expect") = ascii "100-continue" then
    if limits.bodyLimit < (wire.body request).length then connection.beginWrite.doClose
    else connection.beginWrite.readBody
  else connection.readBody

/-- `OnRead`: an invocation goes to the worker pool. -/
def onRead (request : Request) : Connection :=
  let released := { connection with parser := none }
  if wire.isLambdaInvocation request then
    { released with workers := released.workers ++ [request] }
  else (released.queueWrite request).resume limits

inductive Event where
  | received (count : Nat)
  | headerRead
  | bodyRead
  | invoked (request : Request)
  | completed (request : Request)
  | written (response : Request)
deriving DecidableEq, Repr

def isWaiting : Bool :=
  (.header ∈ connection.reads && wire.parseHeader connection.buffer = .needMore) ||
    (.body ∈ connection.reads && match connection.parser with
      | some request => connection.buffer.length < (wire.body request).length
      | none => true)

def receive (count : Nat) : Connection :=
  { connection with
    buffer := connection.buffer ++ connection.incoming.take count
    incoming := connection.incoming.drop count }

def headerRead : Option Connection :=
  let finished := { connection with reads := connection.reads.erase .header }
  match wire.parseHeader connection.buffer with
  | .needMore => none
  | .malformed => some finished.doClose
  | .complete request =>
    if limits.bodyLimit < (wire.body request).length then some finished.doClose
    else some ({ finished with
      buffer := connection.buffer.drop (wire.header request).length
      parser := some request }.onReadHeader wire limits request)

def bodyRead : Option Connection :=
  match connection.parser with
  | none => none
  | some request =>
    if connection.buffer.length < (wire.body request).length then none
    else some ({ connection with
      reads := connection.reads.erase .body
      buffer := connection.buffer.drop (wire.body request).length }.onRead wire limits request)

/-- The next state, when the executor can do this. Nothing reaches the client after
the connection is closed, and the run ends there. -/
def step : Event → Option Connection
  | .received count =>
    if !connection.closed ∧ connection.isWaiting wire ∧ 1 ≤ count ∧
        count ≤ connection.incoming.length then some (connection.receive count)
    else none
  | .headerRead =>
    if !connection.closed ∧ .header ∈ connection.reads then connection.headerRead wire limits
    else none
  | .bodyRead =>
    if !connection.closed ∧ .body ∈ connection.reads then connection.bodyRead wire limits
    else none
  | .invoked request =>
    if !connection.closed ∧ request ∈ connection.workers then
      some { connection with
        workers := connection.workers.erase request
        posted := connection.posted ++ [request] }
    else none
  | .completed request =>
    if !connection.closed ∧ request ∈ connection.posted then
      some (({ connection with posted := connection.posted.erase request }.queueWrite
        request).resume limits)
    else none
  | .written response =>
    if !connection.closed ∧ response ∈ connection.writes then
      some ({ connection with
        writes := connection.writes.erase response
        written := connection.written ++ [response] }.onWrite wire limits response)
    else none

end Connection

/-- `Run` on a connection through which these requests come. -/
def Connection.start (wire : Wire) (requests : List Request) : Connection :=
  { incoming := wire.encode requests : Connection }.doRead

end AwsMock.Gateway
