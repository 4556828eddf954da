import Mathlib.Logic.Function.Basic
import SimpleTcp.Base.Error
import SimpleTcp.Library.Machine

/-!
# Event loops and threads

Every thread keeps a pointer to the loop that was constructed on it, and a loop asks whether it is
in its own thread by that pointer. The system is all the loops and threads of a process: any thread
makes any call on any loop, one at a time and in any order. A call of a functor is an entry of the
trace, with the thread that makes it; what the functor does is a call of that thread.

Waiting for a functor given to another thread, `quitLoop` and the tid of a loop are left out: a loop
that has been started may run its tasks at any later time.

## Main definitions

* `LoopSystem`, `EventLoop`: the loops, and the pointers of the threads
* `LoopEffect`: the entries of the trace
* `construct`, `destroy`, `isInLoopThread`, `runInLoop`, `startLoop`: the functions of `EventLoop`
* `createNewConnection`: the accept of a server, in its loop or in a loop of its pool
* `LoopEvent`, `LoopSystem.step`: the calls that threads make
-/

namespace SimpleTcp

abbrev ThreadId := Nat

/-- The position of a loop among those constructed so far. -/
abbrev LoopId := Nat

/-- What a loop is given to run: a functor of the user, the send of a connection, and the accept of
a server whose loop is `main`. -/
inductive LoopTask where
  | functor
  | sendInLoop
  | createNewConnectionInSubLoop (main : LoopId)
  deriving DecidableEq, Repr

/-- The thread is the one that is in `startLoop`. -/
structure EventLoop where
  thread : Option ThreadId
  mPendingTasks : List LoopTask
  deriving DecidableEq, Repr

inductive LoopEffect where
  /-- The constructor has returned on the thread. -/
  | constructed (t : ThreadId) (L : LoopId)
  | destroyed (L : LoopId)
  /-- `isInLoopThread` has given the result on the thread. -/
  | checked (t : ThreadId) (L : LoopId) (result : Bool)
  /-- What the loop was given is called on the thread. -/
  | called (t : ThreadId) (L : LoopId)
  deriving DecidableEq, Repr

/-- A loop that is destroyed is `none`. -/
structure LoopSystem where
  tCurrentLoop : ThreadId → Option LoopId
  loops : List (Option EventLoop)
  trace : List LoopEffect

abbrev LoopM := EStateM Stop LoopSystem

/-- Whether the constructor succeeds, fails before it has made the wake-up channel, or fails in
registering that channel. -/
inductive ConstructResult where
  | built
  | failed (errno : Errno)
  | enableReadFailed (errno : Errno)
  deriving DecidableEq, Repr

namespace LoopSystem

def start : LoopSystem := ⟨fun _ => none, [], []⟩

def effect (e : LoopEffect) : LoopM Unit := modify fun s => { s with trace := s.trace ++ [e] }

def setCurrentLoop (t : ThreadId) (L : Option LoopId) : LoopM Unit :=
  modify fun s => { s with tCurrentLoop := Function.update s.tCurrentLoop t L }

/-- The loop, dereferenced. -/
def getLoop (L : LoopId) : LoopM EventLoop := do
  match (← get).loops[L]? with
  | some (some loop) => pure loop
  | _ => throw .danglingPointer

def setLoop (L : LoopId) (loop : EventLoop) : LoopM Unit :=
  modify fun s => { s with loops := s.loops.set L (some loop) }

/-- The pointer of the calling thread decides, whichever the loop is. -/
def isInLoopThread (t : ThreadId) (L : LoopId) : LoopM Bool := do
  let result := ((← get).tCurrentLoop t).isSome
  effect (.checked t L result)
  pure result

def assertInLoopThread (t : ThreadId) (L : LoopId) : LoopM Unit := do
  assertTrue ((← isInLoopThread t L) = true)

/-- `EventLoop::EventLoop`. When the registration of the wake-up channel fails, its destructor runs
after the pointer is reset. -/
def construct (t : ThreadId) (result : ConstructResult) : LoopM Unit := do
  assertTrue ((← get).tCurrentLoop t = none)
  let L := (← get).loops.length
  setCurrentLoop t (some L)
  match result with
  | .built =>
    modify fun s => { s with loops := s.loops ++ [some ⟨none, []⟩] }
    effect (.constructed t L)
  | .failed errno =>
    setCurrentLoop t none
    throw (.systemException errno)
  | .enableReadFailed errno =>
    setCurrentLoop t none
    assertInLoopThread t L
    throw (.systemException errno)

/-- `EventLoop::~EventLoop`. -/
def destroy (t : ThreadId) (L : LoopId) : LoopM Unit := do
  assertInLoopThread t L
  setCurrentLoop t none
  modify fun s => { s with loops := s.loops.set L none }
  effect (.destroyed L)

def queueInLoop (L : LoopId) (task : LoopTask) : LoopM Unit := do
  let loop ← getLoop L
  setLoop L { loop with mPendingTasks := loop.mPendingTasks ++ [task] }

/-- A task is called. `sendInLoop` checks its loop, and the accept of a server checks both. -/
def call (t : ThreadId) (L : LoopId) (task : LoopTask) : LoopM Unit := do
  effect (.called t L)
  match task with
  | .functor => pure ()
  | .sendInLoop => assertInLoopThread t L
  | .createNewConnectionInSubLoop main =>
    assertInLoopThread t L
    assertInLoopThread t main

/-- `EventLoop::runInLoop`; `TcpConnection::send` chooses in the same way. -/
def runInLoop (t : ThreadId) (L : LoopId) (task : LoopTask) : LoopM Unit := do
  if ← isInLoopThread t L then call t L task else queueInLoop L task

/-- `TcpServer::createNewConnection`; the loop is that of the pool, if the pool has one. -/
def createNewConnection (t : ThreadId) (main : LoopId) (newLoop : Option LoopId) : LoopM Unit := do
  assertInLoopThread t main
  match newLoop with
  | none => call t main (.createNewConnectionInSubLoop main)
  | some newLoop => runInLoop t newLoop (.createNewConnectionInSubLoop main)

def startLoop (t : ThreadId) (L : LoopId) : LoopM Unit := do
  assertInLoopThread t L
  let loop ← getLoop L
  setLoop L { loop with thread := some t }

/-- The next task of a loop that has been started. -/
def doPendingTask (L : LoopId) : LoopM Unit := do
  let loop ← getLoop L
  match loop.thread, loop.mPendingTasks with
  | some t, task :: tasks =>
    setLoop L { loop with mPendingTasks := tasks }
    call t L task
  | _, _ => pure ()

/-- The loop was constructed, and may be destroyed. -/
def Known (s : LoopSystem) (L : LoopId) : Prop := L < s.loops.length

/-- The loop was constructed and is not destroyed. -/
def Alive (s : LoopSystem) (L : LoopId) : Prop := (s.loops[L]?.join).isSome

instance (s : LoopSystem) (L : LoopId) : Decidable (s.Known L) := Nat.decLt _ _

instance (s : LoopSystem) (L : LoopId) : Decidable (s.Alive L) := instDecidableEqBool _ _

end LoopSystem

/-- A call, with the thread that makes it. -/
inductive LoopEvent where
  | construct (t : ThreadId) (result : ConstructResult)
  | destroy (t : ThreadId) (L : LoopId)
  | isInLoopThread (t : ThreadId) (L : LoopId)
  | assertInLoopThread (t : ThreadId) (L : LoopId)
  | queueInLoop (L : LoopId)
  | runInLoop (t : ThreadId) (L : LoopId)
  /-- `TcpConnection::send`, on a connection of the loop. -/
  | send (t : ThreadId) (L : LoopId)
  | createNewConnection (t : ThreadId) (main : LoopId) (newLoop : Option LoopId)
  | startLoop (t : ThreadId) (L : LoopId)
  | doPendingTask (L : LoopId)
  deriving DecidableEq, Repr

namespace LoopSystem

/-- The caller of a constructor catches its exception. A call on a loop that is not there is not
made. -/
def step : LoopEvent → LoopM Unit
  | .construct t result => do
    try construct t result
    catch
      | .systemException _ => pure ()
      | e => throw e
  | .destroy t L => do
    if (← get).Alive L then destroy t L
  | .isInLoopThread t L => do
    if (← get).Known L then
      let _ ← isInLoopThread t L
  | .assertInLoopThread t L => do
    if (← get).Known L then assertInLoopThread t L
  | .queueInLoop L => do
    if (← get).Alive L then queueInLoop L .functor
  | .runInLoop t L => do
    if (← get).Alive L then runInLoop t L .functor
  | .send t L => do
    if (← get).Alive L then runInLoop t L .sendInLoop
  | .createNewConnection t main newLoop => do
    if (← get).Alive main ∧ ∀ L ∈ newLoop, (← get).Alive L then createNewConnection t main newLoop
  | .startLoop t L => do
    if (← get).Alive L then startLoop t L
  | .doPendingTask L => do
    if (← get).Alive L then doPendingTask L

end LoopSystem

end SimpleTcp
