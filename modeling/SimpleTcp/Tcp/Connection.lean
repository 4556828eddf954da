import SimpleTcp.Tcp.Buffer
import SimpleTcp.Net.Channel

/-!
# TCP connections

A `TcpConnection` joins a socket, its channel and two buffers. Its handlers are called by the
channel, its tasks by the loop, and both call back into the user, who may send, extract and shut
down before returning. A handler is a program over the connection, the tasks it queues in the
loop and the trace of what it did; the results of the system calls and the calls that the user's
callbacks make are its arguments, so that every behaviour of the kernel and of the user is some
choice of them.

Addresses, identification and log texts are left out, and so are the mutex of the receive buffer
and the checks that the caller is in the loop thread.

## Main definitions

* `TcpConnection`, `ConnState`: the connection and its states
* `UserCall`: what a user callback may do with its connection
* `handleRead`, `handleWrite`, `handleClose`, `handleError`: the callbacks of the channel
* `establishConnect`, `destroyConnection`, `sendInLoop`, `runConnTask`: what the loop runs
* `Effect`: the entries of the trace
-/

namespace SimpleTcp

inductive ConnState where
  | connected
  | halfClosed
  | disConnected
  deriving DecidableEq, Repr

/-- `mpSocket` is released together with `mpChannel`. -/
structure TcpConnection where
  mState : ConnState
  mpChannel : Option Channel
  mSendBuffer : TcpBuffer
  mRecvBuffer : TcpBuffer
  deriving DecidableEq, Repr

/-- A call of the user on the connection, from a callback in the loop thread. `send` stands for
the four ways to send, and comes with the calls of the high-water-mark callback it may run. -/
inductive UserCall where
  | send (data : Bytes) (onHighWater : List UserCall)
  | extract (size : Nat)
  | shutdownConnection

/-- A task a connection queues in its loop: a send from another thread, the body of
`shutdownConnection`, and what the close callback of the owner queues. -/
inductive ConnTask where
  | send (data : Bytes)
  | shutdown
  | close
  deriving DecidableEq, Repr

inductive Handler where
  | handleRead
  | handleWrite
  | handleClose
  | handleError
  | destroyConnection
  deriving DecidableEq, Repr

/-- What a connection does that others can see. -/
inductive Effect where
  /-- A handler was entered. -/
  | entered (handler : Handler)
  /-- `mState` was assigned. -/
  | state (mState : ConnState)
  /-- `sendInLoop` accepted the data. -/
  | appended (data : Bytes)
  /-- `write(2)` took the data. -/
  | written (data : Bytes)
  /-- Write interest was on and is off. -/
  | writeDisabled
  /-- `Socket::shutdown` was called. -/
  | shutWr
  deriving DecidableEq, Repr

/-- The state a handler runs in: the connection, the tasks waiting in the loop and the trace. -/
structure Ctx where
  conn : TcpConnection
  mPendingTasks : List ConnTask
  trace : List Effect
  deriving DecidableEq, Repr

abbrev ConnM := EStateM Stop Ctx

def TCP_HIGH_WATER_MARK : Nat := 65535

namespace TcpConnection

/-- `TcpConnection::TcpConnection`. -/
def create : TcpConnection where
  mState := .disConnected
  mpChannel := some Channel.create
  mSendBuffer := TcpBuffer.fresh
  mRecvBuffer := TcpBuffer.fresh

/-! ### The state of a handler -/

def effect (e : Effect) : ConnM Unit := modify fun s => { s with trace := s.trace ++ [e] }

/-- `EventLoop::queueInLoop`. -/
def queueInLoop (task : ConnTask) : ConnM Unit :=
  modify fun s => { s with mPendingTasks := s.mPendingTasks ++ [task] }

def setState (mState : ConnState) : ConnM Unit := do
  modify fun s => { s with conn.mState := mState }
  effect (.state mState)

def setSendBuffer (b : TcpBuffer) : ConnM Unit := modify fun s => { s with conn.mSendBuffer := b }

def setRecvBuffer (b : TcpBuffer) : ConnM Unit := modify fun s => { s with conn.mRecvBuffer := b }

def setChannel (ch : Option Channel) : ConnM Unit := modify fun s => { s with conn.mpChannel := ch }

/-- `mpChannel`, dereferenced. -/
def channel : ConnM Channel := do
  match (← get).conn.mpChannel with
  | some ch => pure ch
  | none => throw .nullPointer

/-- A call of the buffer, whose exception goes to the caller. -/
def call {α : Type} (result : Except Stop α) : ConnM α :=
  match result with
  | .ok a => pure a
  | .error e => throw e

def enableRead : ConnM Unit := do
  let ch ← channel
  setChannel (some ch.enableRead)

def enableWrite : ConnM Unit := do
  let ch ← channel
  setChannel (some ch.enableWrite)

def disableWrite : ConnM Unit := do
  let ch ← channel
  if ch.isWriting then
    setChannel (some ch.disableWrite)
    effect .writeDisabled

/-! ### Sending and extracting -/

/-- `highWater` is what `mHighWaterMarkCb` does. -/
def sendInLoop (data : Bytes) (highWater : ConnM Unit) : ConnM Unit := do
  -- otherwise the data is dropped with a log line
  if (← get).conn.mState = .connected then
    let b ← call ((← get).conn.mSendBuffer.appendToBuffer data)
    setSendBuffer b
    effect (.appended data)
    -- the callback may call back, so the channel is looked at after it
    if b.size > TCP_HIGH_WATER_MARK then highWater
    if ¬ (← channel).isWriting then enableWrite

/-- `mSendBuffer.writeToSocket(mpSocket)`. -/
def writeSendBuffer (res : WriteResult) (soError : Errno) : ConnM Unit := do
  let (taken, b) ← call ((← get).conn.mSendBuffer.writeToSocket res soError)
  setSendBuffer b
  effect (.written taken)

/-- `extract`, `extractString` and their variants. -/
def extract (size : Nat) : ConnM Bytes := do
  let (result, b) ← call ((← get).conn.mRecvBuffer.extract size)
  setRecvBuffer b
  pure result

mutual

def runCall : UserCall → ConnM Unit
  | .send data onHighWater => sendInLoop data (runCalls onHighWater)
  | .extract size => do
    let _ ← extract size
  | .shutdownConnection => queueInLoop .shutdown

/-- The calls of a user callback, in order. -/
def runCalls : List UserCall → ConnM Unit
  | [] => pure ()
  | call :: calls => do
    runCall call
    runCalls calls

end

/-! ### The callbacks of the channel -/

/-- The close callback of the owner queues a task, then the connection callback runs. -/
def handleClose (onConnection : List UserCall) : ConnM Unit := do
  effect (.entered .handleClose)
  let mState := (← get).conn.mState
  assertTrue (mState = .connected ∨ mState = .halfClosed)
  setState .disConnected
  queueInLoop .close
  runCalls onConnection

/-- The error is logged; the connection is left alone. -/
def handleError : ConnM Unit := effect (.entered .handleError)

/-- What a read meets: the result of `read(2)`, the error pending on the socket, and the calls of
the message callback or, when the peer has gone, of the connection callback. -/
structure ReadIo where
  res : ReadResult
  soError : Errno
  onMessage : List UserCall
  onConnection : List UserCall

def handleRead (io : ReadIo) : ConnM Unit := do
  effect (.entered .handleRead)
  let mState := (← get).conn.mState
  assertTrue (mState = .connected ∨ mState = .halfClosed)
  try
    let b ← call ((← get).conn.mRecvBuffer.readFromSocket io.res io.soError)
    setRecvBuffer b
    runCalls io.onMessage
  catch
    | .networkException err =>
      -- no pending error: the peer has closed
      if err = 0 then handleClose io.onConnection else handleError
    | e => throw e

/-- What a write meets: the result of `write(2)`, the error pending on the socket, and the calls of
the write-complete callback. -/
structure WriteIo where
  res : WriteResult
  soError : Errno
  onWriteComplete : List UserCall

def handleWrite (io : WriteIo) : ConnM Unit := do
  effect (.entered .handleWrite)
  assertTrue ((← get).conn.mState = .connected)
  if (← get).conn.mSendBuffer.size ≠ 0 then writeSendBuffer io.res io.soError
  if (← get).conn.mSendBuffer.size = 0 then
    -- write interest goes after the callback, even when the callback has sent
    runCalls io.onWriteComplete
    disableWrite

/-! ### What the owner and the loop run -/

def establishConnect (onConnection : List UserCall) : ConnM Unit := do
  enableRead
  setState .connected
  runCalls onConnection

def destroyConnection : ConnM Unit := do
  effect (.entered .destroyConnection)
  assertTrue ((← get).conn.mState = .disConnected)
  match (← get).conn.mpChannel with
  | some _ => setChannel none
  | none => pure ()

/-- The task queued by `shutdownConnection`. -/
def shutdownInLoop (res : WriteResult) (soError : Errno) : ConnM Unit := do
  try
    if (← get).conn.mState ≠ .disConnected then
      -- one write; what it leaves stays in the buffer
      if (← get).conn.mSendBuffer.size ≠ 0 then writeSendBuffer res soError
      setState .halfClosed
      disableWrite
      effect .shutWr
  catch e => if e.isException then pure () else throw e

/-- What a task meets: the result of the `write(2)` of a shutdown, the error pending on the socket,
and the calls of the high-water-mark callback of a send. -/
structure TaskIo where
  res : WriteResult
  soError : Errno
  onHighWater : List UserCall

/-- A task, when its turn comes. The one queued by the close callback of a server destroys the
connection. -/
def runConnTask (io : TaskIo) : ConnTask → ConnM Unit
  | .send data => sendInLoop data (runCalls io.onHighWater)
  | .shutdown => shutdownInLoop io.res io.soError
  | .close => destroyConnection

end TcpConnection

end SimpleTcp
