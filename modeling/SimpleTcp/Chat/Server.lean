import Mathlib.Data.List.AList
import SimpleTcp.Chat.Request
import SimpleTcp.Http.StringHelper
import SimpleTcp.Tcp.Invocation
import SimpleTcp.Tcp.RecvBuffer

/-!
# The chat server

The chat server keeps the connected clients with their names. A client registers its name, and what
it says is sent to all clients, itself included. The server has one loop, so one event is handled
after the other; the handlers of a connection are those of the library, with the callbacks of the
chat server in the place of the user's. The order in which the hash map is walked comes with the
event.

The limit of the number of connections and the listen socket are left out: the events of the model
are those of the connections.

## Main definitions

* `ChatServer`, `ChatEvent`, `ChatServer.step`: the server and its events
* `ChatServer.onConnection`, `ChatServer.onMessage`: the callbacks
* `nextRequest`: the request that a look at the receive buffer finds
* `ChatLog`: what the server logs
-/

namespace SimpleTcp

open TcpConnection

/-- The lines the server logs for its users. A connection is known by its pointer. -/
inductive ChatLog where
  | established (conn : Nat)
  | destroyed (conn : Nat)
  | message (conn : Nat) (requestData : Bytes)
  | register (conn : Nat) (requestData : Bytes)
  deriving DecidableEq, Repr

structure ChatServer where
  mClients : AList fun _ : Nat => Bytes
  conns : Nat → Ctx
  log : List ChatLog
  /-- The bytes that each `read(2)` of a connection has stored. -/
  pieces : Nat → List Bytes
  /-- The requests that were extracted from a connection. -/
  requests : Nat → List Bytes

/-- What a handler of an event meets: the results of `read(2)` and `write(2)`, the error pending on
the socket, and the order in which `mClients` is walked. -/
structure ChatIo where
  readRes : ReadResult
  writeRes : WriteResult
  soError : Errno
  order : List Nat

inductive ChatEvent where
  /-- A connection was accepted. -/
  | establish (conn : Nat)
  /-- `epoll_wait` has reported the mask for the connection. -/
  | event (conn : Nat) (mRevent : EventMask) (io : ChatIo)
  /-- The task that the close callback has queued. -/
  | close (conn : Nat)

abbrev ChatM := EStateM Stop ChatServer

/-- The first request of the bytes, when its header and its length are there. -/
def nextRequest (bs : Bytes) : Option Bytes :=
  let length := (RequestHdr.ofBytes (bs.take RequestHdr.size)).mReqLength.toNat
  if RequestHdr.size ≤ bs.length ∧ length ≤ bs.length then some (bs.take length) else none

/-- The type that a look at the bytes finds. -/
def requestType (bs : Bytes) : ChatRequestType :=
  (RequestHdr.ofBytes (bs.take RequestHdr.size)).mReqType

/-- `requestData`, when it is looked at: the view starts behind the header, and its length is a
difference of sizes. -/
def requestData (request : Bytes) : Except Stop Bytes :=
  let size := sizeSub request.length RequestHdr.size
  if RequestHdr.size + size ≤ request.length then .ok (Vec.slice request RequestHdr.size size)
  else .error .outOfBounds

/-- `fmt::format("[{}] {}", clientName, requestData)`. -/
def chatMessage (clientName data : Bytes) : Bytes :=
  ascii "[" ++ clientName ++ ascii "] " ++ data

namespace ChatServer

def start : ChatServer where
  mClients := ∅
  conns := fun _ => Ctx.created
  log := []
  pieces := fun _ => []
  requests := fun _ => []

/-! ### The state of a callback -/

/-- A program of one connection. -/
def onConn {α : Type} (conn : Nat) (x : ConnM α) : ChatM α := fun s =>
  match x.run (s.conns conn) with
  | .ok a c => .ok a { s with conns := Function.update s.conns conn c }
  | .error e c => .error e { s with conns := Function.update s.conns conn c }

def note (line : ChatLog) : ChatM Unit := modify fun s => { s with log := s.log ++ [line] }

/-- `mClients.at(conn)`. -/
def clientName (conn : Nat) : ChatM Bytes := do
  match (← get).mClients.lookup conn with
  | some name => pure name
  | none => throw .outOfRange

/-- `mClients.at(conn) = name`. -/
def setClientName (conn : Nat) (name : Bytes) : ChatM Unit := do
  match (← get).mClients.lookup conn with
  | some _ => modify fun s => { s with mClients := s.mClients.insert conn name }
  | none => throw .outOfRange

/-- `sendString`, in the loop thread. No high-water-mark callback is set. -/
def sendString (conn : Nat) (message : Bytes) : ChatM Unit :=
  onConn conn (sendInLoop message (pure ()))

/-! ### The callbacks of the server -/

def onConnection (conn : Nat) : ChatM Unit := do
  if ((← get).conns conn).conn.mState = .connected then
    note (.established conn)
    -- a client that is there keeps its name
    modify fun s => { s with
      mClients := if conn ∈ s.mClients then s.mClients else s.mClients.insert conn [] }
  else
    note (.destroyed conn)
    modify fun s => { s with mClients := s.mClients.erase conn }

/-- The loop over `mClients`, which looks the name up for each client. -/
def sayTo (conn : Nat) (data : Bytes) : List Nat → ChatM Unit
  | [] => pure ()
  | client :: clients => do
    let name ← clientName conn
    sendString client (chatMessage name data)
    sayTo conn data clients

/-- The `switch` over the type. The data of a request of another type is not looked at. -/
def handleRequest (conn : Nat) (mReqType : ChatRequestType) (request : Bytes) (order : List Nat) :
    ChatM Unit := do
  if mReqType = .Message then
    match requestData request with
    | .ok data => do
      note (.message conn data)
      sayTo conn data order
    | .error e => throw e
  else if mReqType = .Register then
    match requestData request with
    | .ok data => do
      note (.register conn data)
      assertTrue (conn ∈ (← get).mClients)
      setClientName conn (cStr data)
    | .error e => throw e

/-- One request at most: what is behind it waits for the next message callback. -/
def onMessage (conn : Nat) (order : List Nat) : ChatM Unit := do
  let b := ((← get).conns conn).conn.mRecvBuffer
  if b.size ≥ RequestHdr.size then
    let hdrBuf := b.read RequestHdr.size
    assertTrue (RequestHdr.size = hdrBuf.length)
    let requestHdr := RequestHdr.ofBytes hdrBuf
    if b.size ≥ requestHdr.mReqLength.toNat then
      let request ← onConn conn (extract requestHdr.mReqLength.toNat)
      assertTrue (requestHdr.mReqLength.toNat = request.length)
      modify fun s => { s with
        requests := Function.update s.requests conn (s.requests conn ++ [request]) }
      handleRequest conn requestHdr.mReqType request order

/-! ### The handlers of a connection -/

def handleClose (conn : Nat) : ChatM Unit := do
  onConn conn (TcpConnection.handleClose [])
  onConnection conn

/-- `mRecvBuffer.readFromSocket(mpSocket)`. -/
def readFromSocket (conn : Nat) (io : ChatIo) : ChatM Unit := do
  let b := ((← get).conns conn).conn.mRecvBuffer
  onConn conn do
    let b ← call (b.readFromSocket io.readRes io.soError)
    setRecvBuffer b
  modify fun s => { s with
    pieces := Function.update s.pieces conn (s.pieces conn ++ [b.stored io.readRes]) }

/-- What `handleRead` does about an exception. -/
def onReadError (conn : Nat) : Stop → ChatM Unit
  | .networkException err =>
    if err = 0 then handleClose conn else onConn conn TcpConnection.handleError
  | e => throw e

def handleRead (conn : Nat) (io : ChatIo) : ChatM Unit := do
  onConn conn (effect (.entered .handleRead))
  let mState := ((← get).conns conn).conn.mState
  assertTrue (mState = .connected ∨ mState = .halfClosed)
  try
    readFromSocket conn io
    onMessage conn io.order
  catch e => onReadError conn e

/-- No write-complete callback is set. -/
def handleWrite (conn : Nat) (io : ChatIo) : ChatM Unit :=
  onConn conn (TcpConnection.handleWrite ⟨io.writeRes, io.soError, []⟩)

def handleEvent (conn : Nat) (mRevent : EventMask) (io : ChatIo) : ChatM Unit :=
  Channel.handleEvent mRevent (handleClose conn) (onConn conn TcpConnection.handleError)
    (handleRead conn io) (handleWrite conn io)

/-- One event. A connection has none before it is established and none after it is closed: the
close task takes its channel out of the loop before the next poll. -/
def step : ChatEvent → ChatM Unit
  | .establish conn => do
    if (← get).conns conn = Ctx.created then
      onConn conn (establishConnect [])
      onConnection conn
  | .event conn mRevent io => do
    let s ← get
    if (s.conns conn).conn.mState ≠ .disConnected ∧ io.order.Perm s.mClients.keys then
      handleEvent conn mRevent io
  | .close conn => do
    if .close ∈ ((← get).conns conn).mPendingTasks then
      onConn conn do
        modify fun c => { c with mPendingTasks := c.mPendingTasks.erase .close }
        destroyConnection

end ChatServer

end SimpleTcp
