import SimpleTcp.Library.Transition
import SimpleTcp.Tcp.Client

/-!
# Lifetimes of the objects on a loop

Servers, clients, connections and timers live on one loop. A channel is removed from the loop by its
destructor, which runs wherever its owner is reset: in the close task of a server, in a change of
state of a client, in the task that removes a timer, or in the destructor of the owner. A connection
is shared: it goes with its last reference, which may be that of its server or client, a copy of the
user, the guard of a close task or that of a handler. A batch of tasks, with the references it
captures, is destroyed when all of its tasks have been called. A task that was queued by `send`,
`sendString` or `shutdownConnection` captures no reference.

User code runs outside the loop, in the callbacks of channels and in tasks, and calls on the objects
from there; other threads send, shut down, copy and release, and start and remove timers. An object
that is gone is not called; an exception ends the run, and so does an assertion other than that of
`removeChannel`. The descriptors, the data, the delays and the loops of a pool are left out.

## Main definitions

* `ChannelRef`, `ConnLife`, `ClientLife`, `LifeTask`: the channels, the objects and the tasks
* `LoopObjects`: the objects on a loop
* `LoopObjects.refs`: the references to a connection
* `LoopObjects.removeChannel`: the removal of a channel, with the assertion on `mIsLoopingNow`
* `LifeStep`, `LoopObjects.step`: the steps
-/

namespace SimpleTcp

/-- A channel, by its owner. -/
inductive ChannelRef where
  | wakeup
  /-- `mpListenChannel` of a server. -/
  | listen (server : ℕ)
  /-- `mConnChannel` of a client. -/
  | connect (client : ℕ)
  /-- `mpChannel` of a connection. -/
  | conn (c : ℕ)
  | timer (j : ℕ)
  deriving DecidableEq, Repr

/-- Whose `mConnectionSet` or `mConnection` a connection is put into. -/
inductive ConnKeeper where
  | server (k : ℕ)
  | client (k : ℕ)
  deriving DecidableEq, Repr

/-- A connection: whether its state is `DisConnected`, whether its server or client keeps it, and
how many copies the user holds. -/
structure ConnLife where
  disConnected : Bool
  keeper : ConnKeeper
  kept : Bool
  copies : ℕ
  deriving DecidableEq, Repr

structure ClientLife where
  mState : ClientState
  mConnSocket : Bool
  mConnection : Option ℕ
  deriving DecidableEq, Repr

/-- The callback of a timer: the retry of a client, or one of the user. -/
inductive TimerCallback where
  | retry (client : ℕ)
  | user (mIsRepeating : Bool)
  deriving DecidableEq, Repr

inductive LifeTask where
  /-- Of `send` and `sendString`. -/
  | send (c : ℕ)
  /-- Of `TcpConnection::shutdownConnection`. -/
  | shutdown (c : ℕ)
  /-- Of the close callback of a server, with its guard. -/
  | destroyConnection (server c : ℕ)
  | transState (client : ℕ) (newState : ClientState)
  /-- Of `doForceDisconnected`. -/
  | shutdownConnection (client : ℕ)
  | addTimer (j : ℕ)
  | removeTimer (j : ℕ)
  /-- Of the user. -/
  | functor
  deriving DecidableEq, Repr

namespace LifeTask

/-- The connection that the task captures as `this`. -/
def captured : LifeTask → Option ℕ
  | send c | shutdown c => some c
  | destroyConnection _ _ | transState _ _ | shutdownConnection _ | addTimer _ | removeTimer _ |
    functor => none

/-- The connection to which the task captures a reference. -/
def guard : LifeTask → Option ℕ
  | destroyConnection _ c => some c
  | send _ | shutdown _ | transState _ _ | shutdownConnection _ | addTimer _ | removeTimer _ |
    functor => none

/-- The task runs code of the user: a functor, a callback of a connection, or the destructor of a
callback of a timer. -/
def isUser : LifeTask → Bool
  | functor | send _ | transState _ .connected | removeTimer _ => true
  | shutdown _ | destroyConnection _ _ | transState _ _ | shutdownConnection _ | addTimer _ => false

end LifeTask

/-- Where the thread of the loop is. -/
inductive LifePc where
  /-- Outside `startLoop`. -/
  | outside
  | polling
  /-- The channels that are left of those reported. -/
  | dispatching (active : List ChannelRef)
  /-- In the callbacks of the channel, with a reference to the connection. -/
  | handling (ref : ChannelRef) (guard : Option ℕ) (active : List ChannelRef)
  /-- In `doPendingTasks`: the tasks of the batch that were called, and the others. -/
  | running (called tasks : List LifeTask)
  /-- The loop is destroyed. -/
  | destroyed
  deriving DecidableEq, Repr

namespace LifePc

def mIsLoopingNow : LifePc → Bool
  | polling | dispatching _ | handling _ _ _ => true
  | outside | running _ _ | destroyed => false

/-- Code of the user may run in the thread of the loop. -/
def isUser : LifePc → Bool
  | outside | handling _ _ _ => true
  -- in the last of the tasks called, or in the destructors of the batch
  | running called tasks => called.getLast?.any (·.isUser) || (called ≠ [] && tasks = [])
  | polling | dispatching _ | destroyed => false

def active : LifePc → List ChannelRef
  | dispatching active | handling _ _ active => active
  | outside | polling | running _ _ | destroyed => []

/-- The connection to which a handler holds a reference. -/
def guard : LifePc → Option ℕ
  | handling _ guard _ => guard
  | outside | polling | dispatching _ | running _ _ | destroyed => none

/-- The tasks of the batch that were called. -/
def called : LifePc → List LifeTask
  | running called _ => called
  | outside | polling | dispatching _ | handling _ _ _ | destroyed => []

/-- The tasks of the batch that were not called. -/
def tasks : LifePc → List LifeTask
  | running _ tasks => tasks
  | outside | polling | dispatching _ | handling _ _ _ | destroyed => []

end LifePc

/-- The objects have positions of their own. A server, connection or timer that was never created is
`false` or `none`; a server is there as long as its channel is registered, and a client that is
destroyed is `some none`. `terminated` is whether the assertion of `removeChannel` has failed, and
`trace` are the tasks called that have captured `this`, with whether the connection was there. -/
structure LoopObjects where
  pc : LifePc
  mPendingTasks : List LifeTask
  /-- `mChannelSet` of the poller. -/
  registered : ChannelRef → Bool
  servers : ℕ → Bool
  clients : ℕ → Option (Option ClientLife)
  conns : ℕ → Option ConnLife
  timers : ℕ → Option TimerCallback
  terminated : Bool
  trace : List (LifeTask × Bool)

/-- What comes of connecting: a retry with its timer, with or without a socket, a channel that
watches the socket, or a connected socket. -/
inductive ConnectOutcome where
  | retry (j : ℕ) (mConnSocket : Bool)
  | inProgress
  | connected
  deriving DecidableEq, Repr

/-- The timer of a retry, the connection that is created, and what comes of connecting. -/
structure ObjectIo where
  timer : ℕ
  conn : ℕ
  connect : ConnectOutcome
  deriving DecidableEq, Repr

/-- What `handleEvent` finds: nothing to call, an error, or a channel that is ready. -/
inductive ChannelEvent where
  | none
  | error
  | ready
  deriving DecidableEq, Repr

inductive LifeStep where
  /-- Another thread sends on the connection. -/
  | send (c : ℕ)
  | shutdownConnection (c : ℕ)
  | copy (c : ℕ)
  /-- A copy of the connection is released, in the thread of the loop or in another. -/
  | release (c : ℕ) (inLoop : Bool)
  | queueInLoop
  | addTimer (j : ℕ) (mIsRepeating : Bool)
  | removeTimer (j : ℕ)
  | createServer (k : ℕ)
  | createClient (k : ℕ)
  | destroyServer (k : ℕ)
  | destroyClient (k : ℕ)
  | connect (k : ℕ) (io : ObjectIo)
  | disconnect (k : ℕ)
  | startLoop
  | poll (active : List ChannelRef)
  | dispatch (event : ChannelEvent) (io : ObjectIo)
  /-- The handler finds its connection closed. -/
  | handleClose
  | handlerReturn
  | swap
  | next (io : ObjectIo)
  /-- The batch is destroyed, and the loop polls again or returns. -/
  | finish (mIsExit : Bool)
  | destroyLoop
  deriving DecidableEq, Repr

namespace LoopObjects

open Function (update)

/-- A loop on which nothing was created. -/
def create : LoopObjects where
  pc := .outside
  mPendingTasks := []
  registered := fun ref => ref = .wakeup
  servers := fun _ => false
  clients := fun _ => none
  conns := fun _ => none
  timers := fun _ => none
  terminated := false
  trace := []

/-- The tasks that wait. -/
def tasks (s : LoopObjects) : List LifeTask := s.pc.tasks ++ s.mPendingTasks

/-! ## References -/

/-- The references that handlers and tasks hold. -/
def guards (s : LoopObjects) (c : ℕ) : ℕ :=
  [s.pc.guard].count (some c) + (s.pc.called ++ s.tasks).countP fun task => task.guard = some c

/-- The references to a connection. -/
def refs (s : LoopObjects) (c : ℕ) : ℕ :=
  match s.conns c with
  | some conn => conn.kept.toNat + conn.copies + s.guards c
  | none => 0

/-- `EventLoop::removeChannel`, where the channel is there. -/
def removeChannel (s : LoopObjects) (ref : ChannelRef) : LoopObjects :=
  if s.registered ref = false then s
  else if s.pc.mIsLoopingNow then { s with terminated := true }
  else { s with registered := update s.registered ref false }

/-- `TcpConnection::~TcpConnection`, when a reference was given up. -/
def reap (s : LoopObjects) (c : ℕ) : LoopObjects :=
  if s.refs c = 0 then s.removeChannel (.conn c) else s

@[simps] def setPc (s : LoopObjects) (pc : LifePc) : LoopObjects := { s with pc }

@[simps] def setConn (s : LoopObjects) (c : ℕ) (conn : ConnLife) : LoopObjects :=
  { s with conns := update s.conns c (some conn) }

@[simps] def setClient (s : LoopObjects) (k : ℕ) (client : Option ClientLife) : LoopObjects :=
  { s with clients := update s.clients k (some client) }

@[simps] def register (s : LoopObjects) (ref : ChannelRef) : LoopObjects :=
  { s with registered := update s.registered ref true }

@[simps] def queueInLoop (s : LoopObjects) (task : LifeTask) : LoopObjects :=
  { s with mPendingTasks := s.mPendingTasks ++ [task] }

/-- The server or the client gives up its reference. -/
def unkeep (s : LoopObjects) (keeper : ConnKeeper) (c : ℕ) : LoopObjects :=
  match s.conns c with
  | some conn => if conn.keeper = keeper then s.setConn c { conn with kept := false } else s
  | none => s

/-- `TcpConnection::createTcpConnection`, with its channel. -/
def createTcpConnection (s : LoopObjects) (c : ℕ) (keeper : ConnKeeper) (kept : Bool) :
    LoopObjects :=
  (s.setConn c ⟨false, keeper, kept, 0⟩).register (.conn c)

/-- `addOneshotTimer` and `addRepeatingTimer`: the timer is registered in a task of its own. -/
def startTimer (s : LoopObjects) (j : ℕ) (cb : TimerCallback) : Option LoopObjects :=
  if s.timers j = none then
    some ({ s with timers := update s.timers j (some cb) }.queueInLoop (.addTimer j))
  else none

/-! ## Clients -/

def doConnecting (s : LoopObjects) (k : ℕ) (client : ClientLife) (io : ConnectOutcome) :
    Option LoopObjects :=
  let s := s.removeChannel (.connect k)
  match io with
  | .retry j mConnSocket =>
    (s.setClient k (some ⟨.connecting, mConnSocket, client.mConnection⟩)).startTimer j
      (.retry k)
  | .inProgress =>
    some ((s.setClient k (some ⟨.connecting, true, client.mConnection⟩)).register (.connect k))
  | .connected =>
    some ((s.setClient k (some ⟨.connecting, true, client.mConnection⟩)).queueInLoop
      (.transState k .connected))

/-- `mConnection` is reset. -/
def resetConnection (s : LoopObjects) (k : ℕ) (client : ClientLife) : LoopObjects :=
  match client.mConnection with
  | some c => (s.unkeep (.client k) c).reap c
  | none => s

def doConnected (s : LoopObjects) (k : ℕ) (client : ClientLife) (c : ℕ) : Option LoopObjects :=
  if client.mConnSocket = true ∧ s.conns c = none then
    -- the connection is there before the old one goes
    let s := (s.removeChannel (.connect k)).createTcpConnection c (.client k) true
    some ((s.resetConnection k client).setClient k (some ⟨.connected, false, some c⟩))
  else none

def doDisconnected (s : LoopObjects) (k : ℕ) (client : ClientLife) (j : ℕ) :
    Option LoopObjects :=
  match client.mConnection with
  | some c =>
    if (s.conns c).any (·.disConnected) then
      (((s.removeChannel (.conn c)).resetConnection k client).setClient k
        (some { client with mState := .disconnect, mConnection := none })).startTimer j (.retry k)
    else none
  | none => none

def transStateInLoop (s : LoopObjects) (k : ℕ) (newState : ClientState) (io : ObjectIo) :
    Option LoopObjects :=
  match s.clients k with
  | some (some client) =>
    match newState with
    | .disconnect =>
      if client.mState = .connected then s.doDisconnected k client io.timer else some s
    | .connecting =>
      if client.mState = .connected then some s else s.doConnecting k client io.connect
    | .connected =>
      if client.mState = .connecting then s.doConnected k client io.conn else some s
    | .forceDisconnected =>
      if client.mState = .disconnect ∨ client.mState = .forceDisconnected then some s
      else
        some ((s.setClient k (some { client with mState := .forceDisconnected })).queueInLoop
          (.shutdownConnection k))
  | _ => none

/-! ## The loop -/

/-- The channel, whose turn it is, handles its event. -/
def handleEvent (s : LoopObjects) (ref : ChannelRef) (active : List ChannelRef)
    (io : ObjectIo) : ChannelEvent → Option LoopObjects
  | .ready =>
    match ref with
    | .wakeup => some s
    | .listen k =>
      if s.conns io.conn = none then
        some ((s.createTcpConnection io.conn (.server k) false).setPc
          (.handling ref (some io.conn) active))
      else none
    | .connect k => some (s.queueInLoop (.transState k .connected))
    | .conn c => some (s.setPc (.handling ref (some c) active))
    | .timer j =>
      match s.timers j with
      | some (.retry k) =>
        (s.transStateInLoop k .connecting io).map (·.queueInLoop (.removeTimer j))
      | some (.user _) => some (s.setPc (.handling ref none active))
      | none => none
  | .error =>
    match ref with
    | .connect k => s.startTimer io.timer (.retry k)
    | _ => some s
  | .none => some s

/-- What the close callback queues. -/
def handleClose (s : LoopObjects) (c : ℕ) (conn : ConnLife) : Option LoopObjects :=
  let s := s.setConn c { conn with disConnected := true }
  match conn.keeper with
  | .server k => some (s.queueInLoop (.destroyConnection k c))
  | .client k =>
    match s.clients k with
    | some (some _) => some (s.queueInLoop (.transState k .disconnect))
    | _ => none

/-- The callbacks of the channel return. -/
def handlerReturn (s : LoopObjects) (ref : ChannelRef) (guard : Option ℕ)
    (active : List ChannelRef) : Option LoopObjects :=
  let s := s.setPc (.dispatching active)
  match ref, guard with
  | .listen _, some c =>
    -- the connection is put into `mConnectionSet`
    (s.conns c).map fun conn => s.setConn c { conn with kept := true }
  | .conn _, some c => some (s.reap c)
  | .timer j, none =>
    if s.timers j = some (.user false) then some (s.queueInLoop (.removeTimer j)) else some s
  | _, _ => none

/-- A task of the connection is called. -/
@[simps] def called (s : LoopObjects) (task : LifeTask) (c : ℕ) : LoopObjects :=
  { s with trace := s.trace ++ [(task, decide (0 < s.refs c))] }

def runTask (s : LoopObjects) (io : ObjectIo) : LifeTask → Option LoopObjects
  | .send c => some (s.called (.send c) c)
  | .shutdown c => some (s.called (.shutdown c) c)
  | .destroyConnection k c =>
    if s.registered (.listen k) = true ∧ (s.conns c).any (·.disConnected) then
      some ((s.removeChannel (.conn c)).unkeep (.server k) c)
    else none
  | .transState k newState => s.transStateInLoop k newState io
  | .shutdownConnection k =>
    match s.clients k with
    | some (some ⟨_, _, some c⟩) => some (s.queueInLoop (.shutdown c))
    | _ => none
  | .addTimer j => some (s.register (.timer j))
  | .removeTimer j => some (s.removeChannel (.timer j))
  | .functor => some s

/-- The connections of a server lose its reference. -/
def clearConnections (s : LoopObjects) (k : ℕ) : LoopObjects :=
  { s with conns := fun c => (s.conns c).map fun conn =>
      if conn.keeper = .server k then { conn with kept := false } else conn }

/-- `TcpServer::~TcpServer`. It removes the channels of the connections that no one else holds, and
that of the server. -/
def destroyServer (s : LoopObjects) (k : ℕ) : LoopObjects :=
  if s.pc.mIsLoopingNow then { s with terminated := true }
  else
    let s := s.clearConnections k
    { s with registered := fun ref =>
        match ref with
        | .conn c => s.registered ref && decide (0 < s.refs c)
        | _ => s.registered ref && decide (ref ≠ .listen k) }

/-- `TcpClient::~TcpClient`. -/
def destroyClient (s : LoopObjects) (k : ℕ) (client : ClientLife) : LoopObjects :=
  ((s.removeChannel (.connect k)).resetConnection k client).setClient k none

/-- `EventLoop::~EventLoop`: the wakeup channel goes, and the timers. -/
def destroyLoop (s : LoopObjects) : LoopObjects :=
  { s with
    pc := .destroyed
    registered := fun ref =>
      match ref with
      | .wakeup | .timer _ => false
      | _ => s.registered ref }

/-- A copy of the connection is released. The last reference to a connection that has its channel is
not given up outside the loop: its destructor checks the thread. -/
def release (s : LoopObjects) (c : ℕ) (inLoop : Bool) : Option LoopObjects :=
  match s.conns c with
  | some conn =>
    let s' := s.setConn c { conn with copies := conn.copies - 1 }
    if conn.copies = 0 then none
    else if inLoop then if s.pc.isUser then some (s'.reap c) else none
    else if 0 < s'.refs c ∨ s'.registered (.conn c) = false then some s' else none
  | none => none

/-- A step on a loop that is there. -/
def stepLive (s : LoopObjects) : LifeStep → Option LoopObjects
  -- other threads, or user code in the loop
  | .send c => if (s.conns c).any (0 < ·.copies) then some (s.queueInLoop (.send c)) else none
  | .shutdownConnection c => if 0 < s.refs c then some (s.queueInLoop (.shutdown c)) else none
  | .copy c =>
    match s.conns c with
    | some conn =>
      if 0 < s.refs c then some (s.setConn c { conn with copies := conn.copies + 1 }) else none
    | none => none
  | .release c inLoop => s.release c inLoop
  | .queueInLoop => some (s.queueInLoop .functor)
  | .addTimer j mIsRepeating => s.startTimer j (.user mIsRepeating)
  | .removeTimer j => some (s.queueInLoop (.removeTimer j))
  | .disconnect k =>
    match s.clients k with
    | some (some client) =>
      if client.mConnection ≠ none then some (s.queueInLoop (.transState k .forceDisconnected))
      else some s
    | _ => none
  -- user code in the loop
  | .createServer k =>
    if s.pc.isUser ∧ s.servers k = false then
      some ({ s with servers := update s.servers k true }.register (.listen k))
    else none
  | .createClient k =>
    if s.pc.isUser ∧ s.clients k = none then
      some (s.setClient k (some ⟨.disconnect, false, none⟩))
    else none
  | .destroyServer k =>
    if s.pc.isUser ∧ s.registered (.listen k) = true then some (s.destroyServer k) else none
  | .destroyClient k =>
    match s.clients k with
    | some (some client) => if s.pc.isUser then some (s.destroyClient k client) else none
    | _ => none
  | .connect k io => if s.pc.isUser then s.transStateInLoop k .connecting io else none
  | .destroyLoop => if s.pc = .outside then some s.destroyLoop else none
  -- the loop
  | .startLoop => if s.pc = .outside then some (s.setPc .polling) else none
  | .poll active =>
    if s.pc = .polling ∧ active.Nodup ∧ ∀ ref ∈ active, s.registered ref = true then
      some (s.setPc (.dispatching active))
    else none
  | .dispatch event io =>
    match s.pc with
    | .dispatching (ref :: active) =>
      -- a channel that is not registered any more is passed over
      if s.registered ref = true then
        (s.setPc (.dispatching active)).handleEvent ref active io event
      else some (s.setPc (.dispatching active))
    | _ => none
  | .handleClose =>
    match s.pc with
    | .handling (.conn c) _ _ =>
      match s.conns c with
      | some conn => if conn.disConnected then none else s.handleClose c conn
      | none => none
    | _ => none
  | .handlerReturn =>
    match s.pc with
    | .handling ref guard active => s.handlerReturn ref guard active
    | _ => none
  | .swap =>
    match s.pc with
    | .dispatching [] => some { s with pc := .running [] s.mPendingTasks, mPendingTasks := [] }
    | _ => none
  | .next io =>
    match s.pc with
    | .running called (task :: tasks) =>
      (s.setPc (.running (called ++ [task]) tasks)).runTask io task
    | _ => none
  | .finish mIsExit =>
    match s.pc with
    -- the tasks of the batch that have held a reference have removed the channel
    | .running _ [] => some (s.setPc (if mIsExit then .outside else .polling))
    | _ => none

def step (s : LoopObjects) (i : LifeStep) : Option LoopObjects :=
  if s.terminated = true ∨ s.pc = .destroyed then none else s.stepLive i

end LoopObjects

end SimpleTcp
