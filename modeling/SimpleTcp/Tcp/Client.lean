import SimpleTcp.Tcp.Session

/-!
# A client

A `TcpClient` connects to one server and connects again when the connection is lost. Its state
changes in one function, guarded by the state it is in; the functions behind the states queue each
other in the loop, and the close callback of a connection always asks for the same change. The loop
runs timers, events and tasks one at a time; the tasks run in the order in which they were queued.

The calls of a user on the client are steps of their own, as are those from another thread. The
removal of a timer that has fired, addresses, identification and log texts are left out.

## Main definitions

* `TcpClient`, `ClientState`, `ClientTask`: the client, its states and the tasks of its loop
* `TcpClient.transStateInLoop`: the change of state, with its guards
* `ClientEvent`, `TcpClient.step`: the steps of a client
-/

namespace SimpleTcp

open TcpConnection

inductive ClientState where
  | disconnect
  | connecting
  | connected
  | forceDisconnected
  deriving DecidableEq, Repr

/-- A task in the loop of the client: a change of state, the body of `doForceDisconnected`, the
start of a timer with the delay that `runAfter` was given, and the task of a connection. -/
inductive ClientTask where
  | transState (newState : ClientState)
  | shutdownConnection
  | addTimer (delay : Nat)
  | conn (pos : Nat) (task : ConnTask)
  deriving DecidableEq, Repr

/-- The task starts a timer. -/
def ClientTask.startsTimer : ClientTask → Bool
  | .addTimer _ => true
  | .transState _ | .shutdownConnection | .conn _ _ => false

@[simp] theorem ClientTask.startsTimer_addTimer (delay : Nat) :
    (ClientTask.addTimer delay).startsTimer = true := rfl

@[simp] theorem ClientTask.startsTimer_transState (newState : ClientState) :
    (ClientTask.transState newState).startsTimer = false := rfl

@[simp] theorem ClientTask.startsTimer_shutdownConnection :
    ClientTask.shutdownConnection.startsTimer = false := rfl

@[simp] theorem ClientTask.startsTimer_conn (pos : Nat) (task : ConnTask) :
    (ClientTask.conn pos task).startsTimer = false := rfl

/-- The connections are those created so far, in order; `none` is one that is destroyed. A timer
counts when it is started and has not fired. -/
structure TcpClient where
  mState : ClientState
  conns : List (Option TcpConnection)
  mConnection : Option Nat
  mConnSocket : Bool
  mConnChannel : Option Channel
  mConnRetryDelay : Nat
  mConnRandomDelay : Nat
  timers : Nat
  mPendingTasks : List ClientTask
  deriving DecidableEq

abbrev ClientM := EStateM Stop TcpClient

/-- What `Socket::createTcpClientSocket` gives: an exception when there is no descriptor, a null
pointer when `connect(2)` has failed, or a socket, with the error that is pending on it. -/
inductive ConnectResult where
  | noSocket (errno : Errno)
  | failed
  | socket (soError : Errno)
  deriving DecidableEq, Repr

/-- What a change of state meets: the result of connecting, the error pending on the connected
socket, the calls of the connection callback, and the `errno` of a retry that gives up. -/
structure TransIo where
  connect : ConnectResult
  soError : Errno
  onConnection : List UserCall
  errno : Errno

namespace TcpClient

/-- In milliseconds. -/
def TCP_MAX_RETRY_TIMEOUT : Nat := 300000

/-- In milliseconds. -/
def TCP_INIT_RETRY_TIMEOUT : Nat := 100

/-- `TcpClient::TcpClient`, which draws `mConnRandomDelay` from 0 to 500 milliseconds. -/
def create (mConnRandomDelay : Nat) : TcpClient where
  mState := .disconnect
  conns := []
  mConnection := none
  mConnSocket := false
  mConnChannel := none
  mConnRetryDelay := TCP_INIT_RETRY_TIMEOUT
  mConnRandomDelay := mConnRandomDelay
  timers := 0
  mPendingTasks := []

/-- `EventLoop::queueInLoop`. -/
def queueInLoop (task : ClientTask) : ClientM Unit :=
  modify fun s => { s with mPendingTasks := s.mPendingTasks ++ [task] }

/-- The connection at the position has run to `c`. -/
def after (s : TcpClient) (pos : Nat) (c : Ctx) : TcpClient :=
  { s with
    conns := s.conns.set pos (some c.conn)
    mPendingTasks := s.mPendingTasks ++ c.mPendingTasks.map (.conn pos) }

/-- A handler or a task of the connection at the position. -/
def onConn (pos : Nat) (x : ConnM Unit) : ClientM Unit := fun s =>
  match s.conns[pos]? with
  | some (some conn) =>
    match x.run ⟨conn, [], []⟩ with
    | .ok _ c => .ok () (s.after pos c)
    | .error e c => .error e (s.after pos c)
  | _ => .error .danglingPointer s

/-- `mConnection`, dereferenced. -/
def connection : ClientM Nat := do
  match (← get).mConnection with
  | some pos => pure pos
  | none => throw .nullPointer

def retry (errno : Errno) : ClientM Unit := do
  let s ← get
  if s.mConnRetryDelay < TCP_MAX_RETRY_TIMEOUT then
    -- `runAfter` starts the timer in a task of its own
    queueInLoop (.addTimer (s.mConnRetryDelay + s.mConnRandomDelay))
    modify fun s => { s with mConnRetryDelay := s.mConnRetryDelay * 2 }
  else throw (.networkException errno)

/-- `mConnChannel = nullptr`. The destructor of a channel checks that no event is handled. -/
def resetConnChannel (mIsLoopingNow : Bool) : ClientM Unit := do
  assertTrue ((← get).mConnChannel = none ∨ mIsLoopingNow = false)
  modify fun s => { s with mConnChannel := none }

def doConnecting (mIsLoopingNow : Bool) (io : TransIo) : ClientM Unit := do
  -- the previous attempt is dropped first, whatever came of it
  resetConnChannel mIsLoopingNow
  modify fun s => { s with mConnSocket := false }
  match io.connect with
  | .noSocket errno => throw (.systemException errno)
  | .failed => retry io.errno
  | .socket errCode =>
    modify fun s => { s with mConnSocket := true }
    if errCode = Errno.EINPROGRESS ∨ errCode = Errno.EINTR ∨ errCode = Errno.EISCONN then
      -- the connect goes on: the channel reports its end as a write event
      modify fun s => { s with mConnChannel := some Channel.create.enableWrite }
    else if errCode = 0 then queueInLoop (.transState .connected)
    else retry io.errno

def doConnected (io : TransIo) : ClientM Unit := do
  assertTrue ((← get).mConnSocket = true)
  assertTrue (io.soError = 0)
  resetConnChannel false
  -- the socket moves into the new connection
  let pos := (← get).conns.length
  modify fun s => { s with
    mConnRetryDelay := TCP_INIT_RETRY_TIMEOUT
    mConnSocket := false
    mConnection := some pos
    conns := s.conns ++ [some TcpConnection.create] }
  onConn pos (establishConnect io.onConnection)

def doDisconnected (io : TransIo) : ClientM Unit := do
  assertTrue ((← get).mConnection ≠ none)
  onConn (← connection) destroyConnection
  modify fun s => { s with
    mConnection := none
    mConnRetryDelay := TCP_INIT_RETRY_TIMEOUT }
  retry io.errno

def doForceDisconnected : ClientM Unit := queueInLoop .shutdownConnection

def setState (mState : ClientState) : ClientM Unit := modify fun s => { s with mState := mState }

/-- A change of state that the guard refuses is logged and does nothing. -/
def transStateInLoop (mIsLoopingNow : Bool) (io : TransIo) (newState : ClientState) :
    ClientM Unit := do
  let oldState := (← get).mState
  match newState with
  | .disconnect =>
    if oldState = .connected then
      setState newState
      doDisconnected io
  | .connecting =>
    -- from `connecting` too: a retry
    if oldState ≠ .connected then
      setState newState
      doConnecting mIsLoopingNow io
  | .connected =>
    if oldState = .connecting then
      setState newState
      doConnected io
  | .forceDisconnected =>
    -- from `connecting` too, when there may be no connection to shut down
    if oldState ≠ .disconnect ∧ oldState ≠ .forceDisconnected then
      setState newState
      doForceDisconnected

/-- A call of the user in the loop, from a callback of a channel or from a task. -/
def connect (mIsLoopingNow : Bool) (io : TransIo) : ClientM Unit :=
  transStateInLoop mIsLoopingNow io .connecting

def disconnect : ClientM Unit := do
  -- without a connection the call is logged and does nothing
  if (← get).mConnection ≠ none then queueInLoop (.transState .forceDisconnected)

/-- An event of the channel that watches the connecting socket. -/
def handleConnEvent (mRevent : EventMask) (errno : Errno) : ClientM Unit :=
  Channel.handleEvent mRevent (pure ()) (retry errno) (pure ())
    (queueInLoop (.transState .connected))

/-- A task, when its turn comes. The close callback of every connection queues the same change. -/
def runTask (io : TransIo) (taskIo : TaskIo) : ClientTask → ClientM Unit
  | .transState newState => transStateInLoop false io newState
  -- `mConnection` is read when the task runs, not when it is queued
  | .shutdownConnection => do queueInLoop (.conn (← connection) .shutdown)
  | .addTimer _ => modify fun s => { s with timers := s.timers + 1 }
  | .conn pos task =>
    match task with
    | .close => transStateInLoop false io .disconnect
    | task => onConn pos (runConnTask taskIo task)

/-- The connection at the position is there, and its channel is registered. -/
def Registered (s : TcpClient) (pos : Nat) : Prop :=
  ∃ conn, s.conns[pos]? = some (some conn) ∧ conn.mpChannel ≠ none

def Alive (s : TcpClient) (pos : Nat) : Prop := ∃ conn, s.conns[pos]? = some (some conn)

end TcpClient

inductive ClientEvent where
  /-- The user connects, in the loop. -/
  | connect (mIsLoopingNow : Bool) (io : TransIo)
  /-- The user disconnects, in any thread. -/
  | disconnect
  /-- A timer fires. -/
  | timer (io : TransIo)
  /-- `epoll_wait` has reported the mask for the connecting socket. -/
  | connEvent (mRevent : EventMask) (errno : Errno)
  /-- `epoll_wait` has reported the mask for the connection at the position. -/
  | event (pos : Nat) (mRevent : EventMask) (io : EventIo)
  /-- The user calls on the connection at the position, in the loop. -/
  | calls (pos : Nat) (cs : List UserCall)
  /-- Another thread sends on the connection at the position, or shuts it down. -/
  | queue (pos : Nat) (task : ConnTask)
  /-- The last reference to the connection at the position is dropped. Its destructor releases the
  channel in every state. -/
  | release (pos : Nat)
  /-- The next task runs. -/
  | task (io : TransIo) (taskIo : TaskIo)

namespace TcpClient

instance (s : TcpClient) (pos : Nat) : Decidable (s.Alive pos) :=
  match h : s.conns[pos]? with
  | some (some conn) => .isTrue ⟨conn, h⟩
  | some none => .isFalse fun ⟨conn, hc⟩ => by simp [h] at hc
  | none => .isFalse fun ⟨conn, hc⟩ => by simp [h] at hc

instance (s : TcpClient) (pos : Nat) : Decidable (s.Registered pos) :=
  match h : s.conns[pos]? with
  | some (some conn) =>
    decidable_of_iff (conn.mpChannel ≠ none) (by simp [Registered, h])
  | some none => .isFalse fun ⟨conn, hc, _⟩ => by simp [h] at hc
  | none => .isFalse fun ⟨conn, hc, _⟩ => by simp [h] at hc

/-- A step that the client is not ready for does nothing. -/
def step : ClientEvent → ClientM Unit
  | .connect mIsLoopingNow io => connect mIsLoopingNow io
  | .disconnect => disconnect
  | .timer io => do
    if 0 < (← get).timers then
      modify fun s => { s with timers := s.timers - 1 }
      transStateInLoop true io .connecting
  | .connEvent mRevent errno => do
    if (← get).mConnChannel ≠ none then handleConnEvent mRevent errno
  | .event pos mRevent io => do
    if (← get).Registered pos then onConn pos (Session.handleEvent mRevent io)
  | .calls pos cs => do
    if (← get).Alive pos then onConn pos (runCalls cs)
  | .queue pos task => do
    if (← get).Alive pos ∧ task ≠ .close then queueInLoop (.conn pos task)
  | .release pos => do
    if (← get).mConnection ≠ some pos then
      modify fun s => { s with conns := s.conns.set pos none }
  | .task io taskIo => do
    match (← get).mPendingTasks with
    | [] => pure ()
    | t :: ts =>
      modify fun s => { s with mPendingTasks := ts }
      runTask io taskIo t

end TcpClient

end SimpleTcp
