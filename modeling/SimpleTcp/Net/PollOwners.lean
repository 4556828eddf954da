import SimpleTcp.Net.Epoller

/-!
# The owners of channels

The loop, its timer queue, the servers, the clients and the connections open descriptors, put
channels on them, and release both: the channel first, then the descriptor, in their destructors, in
the tasks that close them, and when an exception unwinds a constructor or a task. An exception that
is not caught leaves the loop; the user, who may go on, still has the objects.

What a function of an owner calls back, and what runs after it, are steps of their own: a connection
callback, the release of a last reference, and the destruction of a task that was not called. A call
that opens no descriptor changes nothing here.

## Main definitions

* `resetChannel`, `resetFd`, `makeChannel`: the parts of an owner
* `eventLoop`, `addTimer`, `createNewConnection`, `destroyConnection`, `doConnecting` and so on: the
  functions of the owners
* `PollStep`, `step`: the steps
-/

namespace SimpleTcp

namespace Epoller

open Function (update)
open PollState

/-! ## Descriptors and channels of an owner -/

/-- The kernel gives a descriptor that is not open. -/
def openFd (fd : ℕ) : PollM Unit := do
  let s ← get
  if s.isOpen fd = true then throw .blocked
  else set { s with isOpen := update s.isOpen fd true }

/-- A new object, which has no descriptor and no channel. -/
def requireNew (o : FdOwner) : PollM Unit := do
  let s ← get
  if s.fds o = none ∧ s.channels o = none then pure () else throw .blocked

/-- A new object opens its descriptor. -/
def holdFd (o : FdOwner) (fd : ℕ) : PollM Unit := do
  requireNew o
  openFd fd
  modify fun s => s.setFd o (some fd)

/-- The owner makes its channel. Channels check that their descriptor is valid. -/
def makeChannel (o : FdOwner) (channel : ℕ) (io : CtlIo) : PollM Unit := do
  let s ← get
  match s.fds o with
  | none => throw .terminate
  | some fd =>
    createChannel fd channel io
    modify fun s => s.setChannel o (some channel)

/-- `mpChannel = nullptr`, or the destructor of the pointer. -/
def resetChannel (o : FdOwner) (io : CtlIo) : PollM Unit := do
  let s ← get
  match s.channels o with
  | none => pure ()
  | some channel =>
    destroyChannel channel io
    modify fun s => s.setChannel o none

/-- `close`. The kernel forgets a descriptor that it watches. -/
def closed (s : PollState) (fd : ℕ) : PollState :=
  { s with
    isOpen := update s.isOpen fd false
    interest := update s.interest fd none
    closedRegistered := s.closedRegistered || (s.interest fd).isSome }

/-- `mpSocket = nullptr`, or the destructor of the pointer. -/
def resetFd (o : FdOwner) : PollM Unit := do
  let s ← get
  match s.fds o with
  | none => pure ()
  | some fd => set ((closed s fd).setFd o none)

/-- An exception destroys what was made before it goes on. -/
def unwind (x cleanup : PollM Unit) : PollM Unit :=
  tryCatch x fun e => do
    match e with
    | .systemException _ => cleanup
    | .terminate | .blocked => pure ()
    throw e

/-- A handler of `std::exception`, which logs. -/
def logged (x : PollM Unit) : PollM Unit :=
  tryCatch x fun e =>
    match e with
    | .systemException _ => pure ()
    | .terminate | .blocked => throw e

/-! ## The loop -/

/-- `Epoller::~Epoller`: the kernel forgets what `epoll` watches. -/
def destroyPoller : PollM Unit :=
  modify fun s => { s with
    interest := fun _ => none
    mChannelMap := fun _ => none
    mChannelSet := fun _ => false
    destroyed := true }

/-- `EventLoop::EventLoop`. -/
def eventLoop (fd channel : ℕ) (io : CtlIo) : PollM Unit := do
  holdFd .wakeup fd
  unwind (makeChannel .wakeup channel io) do
    resetFd .wakeup
    destroyPoller
  -- the destructor of the channel would not find the loop, which the constructor has taken back
  tryCatch (enableRead .wakeup io) fun _ => throw .terminate

/-- The timers are released one after another. -/
def forTimers (x : FdOwner → PollM Unit) : List (ℕ × ℕ) → PollM Unit
  | [] => pure ()
  | entry :: entries => do
    x (.timer entry.2)
    forTimers x entries

/-- `EventLoop::~EventLoop`, with `TimerQueue::~TimerQueue`. -/
def destroyEventLoop (io : CtlIo) : PollM Unit := do
  resetChannel .wakeup io
  resetFd .wakeup
  let s ← get
  -- all channels go before the first timer
  forTimers (fun o => resetChannel o io) s.mTimerMap
  forTimers resetFd s.mTimerMap
  modify fun s => { s with mTimerMap := [] }
  destroyPoller

/-! ## Timers -/

/-- `Timer::createTimer`, in `addOneshotTimer` and `addRepeatingTimer`. -/
def createTimer (j fd : ℕ) : PollM Unit := holdFd (.timer j) fd

/-- The task of a timer is destroyed before it is called. -/
def dropTimer (j : ℕ) : PollM Unit := do
  let s ← get
  if s.channels (.timer j) = none then resetFd (.timer j) else throw .blocked

/-- The task of `addOneshotTimer` and `addRepeatingTimer`. -/
def addTimer (j id channel : ℕ) (io : CtlIo) : PollM Unit := do
  let s ← get
  if s.channels (.timer j) ≠ none then throw .blocked
  else
    -- the timer goes with the task
    unwind (makeChannel (.timer j) channel io) (resetFd (.timer j))
    unwind (enableRead (.timer j) io) do
      resetChannel (.timer j) io
      resetFd (.timer j)
    let s ← get
    if s.mTimerMap.any (·.1 = id) then
      -- `emplace` does not replace: the new entry is destroyed
      resetChannel (.timer j) io
      resetFd (.timer j)
    else set { s with mTimerMap := s.mTimerMap ++ [(id, j)] }

/-- The task of `TimerQueue::removeTimer`. -/
def removeTimer (id : ℕ) (io : CtlIo) : PollM Unit := do
  let s ← get
  match s.mTimerMap.find? (·.1 = id) with
  | none => pure ()
  | some entry =>
    resetChannel (.timer entry.2) io
    resetFd (.timer entry.2)
    modify fun s => { s with mTimerMap := s.mTimerMap.filter (·.1 ≠ id) }

/-! ## Servers -/

/-- `TcpServer::TcpServer`. -/
def createServer (k fd channel : ℕ) (io : CtlIo) : PollM Unit := do
  holdFd (.listener k) fd
  unwind (makeChannel (.listener k) channel io) (resetFd (.listener k))

/-- `TcpServer::start`. -/
def start (k : ℕ) (io : CtlIo) : PollM Unit := enableRead (.listener k) io

/-- `TcpServer::~TcpServer`, after `mConnectionSet` is cleared. -/
def destroyServer (k : ℕ) (io : CtlIo) : PollM Unit := do
  resetChannel (.listener k) io
  resetFd (.listener k)

/-! ## Connections -/

/-- `TcpConnection::establishConnect`. -/
def establishConnect (c : ℕ) (io : CtlIo) : PollM Unit := enableRead (.connection c) io

/-- `TcpConnection::destroyConnection`. -/
def destroyConnection (c : ℕ) (io : CtlIo) : PollM Unit :=
  logged do
    let s ← get
    if s.channels (.connection c) ≠ none then
      disableAll (.connection c) io
      resetChannel (.connection c) io
    resetFd (.connection c)

/-- `TcpConnection::~TcpConnection`. What `destroyConnection` has left goes with the members. -/
def destroyTcpConnection (c : ℕ) (isConnected : Bool) (io : CtlIo) : PollM Unit := do
  if isConnected = true then destroyConnection c io
  resetChannel (.connection c) io
  resetFd (.connection c)

/-- `TcpServer::createNewConnectionInSubLoop`, up to the connection callback. -/
def createNewConnection (c fd channel : ℕ) (io : CtlIo) : PollM Unit := do
  holdFd (.connection c) fd
  unwind (makeChannel (.connection c) channel io) (resetFd (.connection c))
  unwind (establishConnect c io) (destroyTcpConnection c false io)

/-- `TcpConnection::sendInLoop`, when there is a connection. -/
def sendInLoop (c : ℕ) (io : CtlIo) : PollM Unit := enableWrite (.connection c) io

/-- `TcpConnection::handleWrite`, when everything is written. -/
def handleWrite (c : ℕ) (io : CtlIo) : PollM Unit := disableWrite (.connection c) io

/-- The task of `TcpConnection::shutdownConnection`. -/
def shutdownConnection (c : ℕ) (io : CtlIo) : PollM Unit :=
  logged (disableWrite (.connection c) io)

/-! ## Clients -/

/-- What `Socket::createTcpClientSocket` gives, and whether the connect goes on: a null pointer,
with the descriptor that is left open when `connect` has failed, or a socket. -/
inductive ClientSocket where
  | failed (fd : Option ℕ)
  | socket (fd : ℕ) (inProgress : Bool)
  deriving DecidableEq, Repr

/-- `TcpClient::doConnecting`. -/
def doConnecting (k : ℕ) (socket : ClientSocket) (channel : ℕ) (io : CtlIo) : PollM Unit := do
  resetChannel (.connector k) io
  resetFd (.connector k)
  match socket with
  | .failed none => pure ()
  | .failed (some fd) => openFd fd
  | .socket fd inProgress =>
    holdFd (.connector k) fd
    if inProgress = true then
      makeChannel (.connector k) channel io
      enableWrite (.connector k) io

/-- The socket of a client moves into a new connection. -/
def moveFd (k c : ℕ) : PollM Unit := do
  let s ← get
  match s.fds (.connector k) with
  | none => throw .terminate
  | some fd => set ((s.setFd (.connector k) none).setFd (.connection c) (some fd))

/-- `TcpClient::doConnected`, up to the release of the connection before. -/
def doConnected (k c channel : ℕ) (io : CtlIo) : PollM Unit := do
  let s ← get
  if s.fds (.connector k) = none then throw .terminate
  else
    resetChannel (.connector k) io
    requireNew (.connection c)
    moveFd k c
    unwind (makeChannel (.connection c) channel io) (resetFd (.connection c))

/-- `TcpClient::~TcpClient`, before its connection is released. -/
def destroyClient (k : ℕ) (io : CtlIo) : PollM Unit := do
  resetChannel (.connector k) io
  resetFd (.connector k)

end Epoller

/-! ## Steps -/

inductive PollStep where
  | eventLoop (fd channel : ℕ)
  | destroyEventLoop
  /-- `epoll_wait` returns. -/
  | poll (events : List (ℕ × EventMask))
  | createTimer (j fd : ℕ)
  | dropTimer (j : ℕ)
  | addTimer (j id channel : ℕ)
  | removeTimer (id : ℕ)
  | createServer (k fd channel : ℕ)
  | start (k : ℕ)
  | destroyServer (k : ℕ)
  | createNewConnection (c fd channel : ℕ)
  | establishConnect (c : ℕ)
  | sendInLoop (c : ℕ)
  | handleWrite (c : ℕ)
  | shutdownConnection (c : ℕ)
  | destroyConnection (c : ℕ)
  | destroyTcpConnection (c : ℕ) (isConnected : Bool)
  | doConnecting (k : ℕ) (socket : Epoller.ClientSocket) (channel : ℕ)
  | doConnected (k c channel : ℕ)
  | destroyClient (k : ℕ)
  deriving DecidableEq, Repr

def PollStep.constructs : PollStep → Bool
  | eventLoop _ _ => true
  | _ => false

namespace Epoller

/-- The events are of descriptors that the kernel watches. -/
def Watched (s : PollState) (events : List (ℕ × EventMask)) : Prop :=
  ∀ event ∈ events, s.interest event.1 ≠ none

instance (s : PollState) (events : List (ℕ × EventMask)) : Decidable (Watched s events) :=
  inferInstanceAs (Decidable (∀ event ∈ events, s.interest event.1 ≠ none))

def runStep (io : CtlIo) : PollStep → PollM Unit
  | .eventLoop fd channel => eventLoop fd channel io
  | .destroyEventLoop => destroyEventLoop io
  | .poll events => do
    let s ← get
    if Watched s events then
      let _ ← poll events
      pure ()
    else throw .blocked
  | .createTimer j fd => createTimer j fd
  | .dropTimer j => dropTimer j
  | .addTimer j id channel => addTimer j id channel io
  | .removeTimer id => removeTimer id io
  | .createServer k fd channel => createServer k fd channel io
  | .start k => start k io
  | .destroyServer k => destroyServer k io
  | .createNewConnection c fd channel => createNewConnection c fd channel io
  | .establishConnect c => establishConnect c io
  | .sendInLoop c => sendInLoop c io
  | .handleWrite c => handleWrite c io
  | .shutdownConnection c => shutdownConnection c io
  | .destroyConnection c => destroyConnection c io
  | .destroyTcpConnection c isConnected => destroyTcpConnection c isConnected io
  | .doConnecting k socket channel => doConnecting k socket channel io
  | .doConnected k c channel => doConnected k c channel io
  | .destroyClient k => destroyClient k io

/-- A step with the results of its system calls. The first one constructs the loop, and there is
none after the loop is destroyed. The user may go on after an exception. -/
def step (i : PollStep × CtlIo) : PollM Unit := do
  let s ← get
  if s.destroyed = true ∨ s.channels .wakeup = none ∧ i.1.constructs = false then throw .blocked
  else logged (runStep i.2 i.1)

end Epoller

end SimpleTcp
