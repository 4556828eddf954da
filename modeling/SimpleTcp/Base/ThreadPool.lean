import Mathlib.Logic.Function.Basic
import SimpleTcp.Library.Transition

/-!
# The thread pool

The workers of a `ThreadPool` wait on `mCond` under `mMutex` until there is a task or the pool has
exited. `enqueue` puts a task into the list and notifies under the lock. `exit` and the destructor
set `mExited` and notify without it; the destructor joins the workers then. One of the two is
called, once.

Any number of threads call `enqueue`, and a task may. Between two steps any other thread may take
steps. A worker that finds the predicate of `wait` false releases the mutex and blocks in one step,
as `std::condition_variable` does, and it may wake up without a notification. The flag is read and
written as if it was atomic. What the tasks do is left out, and so are their results and the number
of cores, which bounds that of the workers.

## Main definitions

* `ThreadPool`, `WorkerPc`, `EnqueuePc`, `ExitPc`: the pool and where its threads are
* `ThreadPoolStep`, `ThreadPool.step`: the steps
-/

namespace SimpleTcp

/-- Where a worker is. -/
inductive WorkerPc where
  /-- `while (!mExited)` comes next. -/
  | testing
  | locking
  /-- `if (mTasks.empty())` comes next, under the lock. -/
  | locked
  /-- The predicate of `wait` comes next, under the lock. -/
  | evaluating
  /-- The predicate was false, and the worker releases the lock and blocks next. -/
  | blocking
  /-- Blocked on `mCond`, without the lock. -/
  | waiting
  /-- Woken, the worker takes the lock again. -/
  | notified
  /-- `if (mExited)` comes next, under the lock. -/
  | checking
  | running (task : ℕ)
  | done
  deriving DecidableEq, Repr

/-- Where a thread is in `enqueue`. -/
inductive EnqueuePc where
  | outside
  | called (task : ℕ)
  | locked (task : ℕ)
  /-- `mCond.notify_all()` comes next, under the lock. -/
  | pushed
  /-- The lock is released next. -/
  | notified
  deriving DecidableEq, Repr

/-- Where the thread is that calls `exit`, or the destructor, which joins. -/
inductive ExitPc where
  | outside
  /-- `mExited` is set, and `mCond.notify_all()` comes next. -/
  | flagged (joins : Bool)
  | notified (joins : Bool)
  | joined
  deriving DecidableEq, Repr

namespace WorkerPc

/-- The worker holds the lock. -/
def isInside : WorkerPc → Bool
  | locked | evaluating | blocking | checking => true
  | testing | locking | waiting | notified | running _ | done => false

/-- A notification wakes the worker, if it is blocked. -/
def woken : WorkerPc → WorkerPc
  | waiting => notified
  | pc => pc

end WorkerPc

namespace EnqueuePc

/-- The caller holds the lock. -/
def isInside : EnqueuePc → Bool
  | locked _ | pushed | notified => true
  | outside | called _ => false

/-- The caller has still to notify. -/
def isPending : EnqueuePc → Bool
  | called _ | locked _ | pushed => true
  | outside | notified => false

end EnqueuePc

/-- `exit` or the destructor has notified. -/
def ExitPc.isNotified : ExitPc → Bool
  | notified _ | joined => true
  | outside | flagged _ => false

inductive PoolThread where
  | worker (w : ℕ)
  | caller (t : ℕ)
  deriving DecidableEq, Repr

/-- `workers` are `mWorkers`: those from `mMaxThreadNum` on are none. -/
structure ThreadPool where
  mMaxThreadNum : ℕ
  mExited : Bool
  mMutex : Option PoolThread
  mTasks : List ℕ
  workers : ℕ → WorkerPc
  callers : ℕ → EnqueuePc
  exiter : ExitPc

inductive ThreadPoolStep where
  /-- A worker tests its loop condition. -/
  | test (w : ℕ)
  | lock (w : ℕ)
  /-- A worker looks whether there are tasks. -/
  | look (w : ℕ)
  /-- A worker evaluates the predicate of `wait`. -/
  | evaluate (w : ℕ)
  | block (w : ℕ)
  | wakeSpuriously (w : ℕ)
  | relock (w : ℕ)
  /-- A worker takes a task, or returns. -/
  | take (w : ℕ)
  /-- The task has run. -/
  | finish (w : ℕ)
  /-- A thread calls `enqueue`. -/
  | enqueue (t task : ℕ)
  | lockQueue (t : ℕ)
  | push (t : ℕ)
  | notify (t : ℕ)
  | unlock (t : ℕ)
  /-- `exit` or the destructor is called, and sets `mExited`. -/
  | exit (joins : Bool)
  | notifyExit
  /-- The destructor has joined the workers. -/
  | join
  deriving DecidableEq, Repr

namespace ThreadPool

open Function (update)

/-- A pool with this many workers. -/
def create (mMaxThreadNum : ℕ) : ThreadPool where
  mMaxThreadNum
  mExited := false
  mMutex := none
  mTasks := []
  workers := fun w => if w < mMaxThreadNum then .testing else .done
  callers := fun _ => .outside
  exiter := .outside

/-- A worker goes on, and the mutex is this one's then. -/
def setWorker (s : ThreadPool) (w : ℕ) (pc : WorkerPc) (mMutex : Option PoolThread) : ThreadPool :=
  { s with workers := update s.workers w pc, mMutex }

def setCaller (s : ThreadPool) (t : ℕ) (pc : EnqueuePc) (mMutex : Option PoolThread) : ThreadPool :=
  { s with callers := update s.callers t pc, mMutex }

/-- `mCond.notify_all()`. -/
def notifyAll (s : ThreadPool) : ThreadPool := { s with workers := fun w => (s.workers w).woken }

/-- `if (mExited) { return; }`, or the front of the tasks is taken. -/
def takeTask (s : ThreadPool) (w : ℕ) : Option ThreadPool :=
  if s.mExited then some (s.setWorker w .done none)
  else
    match s.mTasks with
    | task :: mTasks => some ({ s with mTasks }.setWorker w (.running task) none)
    -- the predicate has found a task, and the lock was kept
    | [] => none

def step (s : ThreadPool) : ThreadPoolStep → Option ThreadPool
  | .test w =>
    match s.workers w with
    -- without the lock
    | .testing => some (s.setWorker w (if s.mExited then .done else .locking) s.mMutex)
    | _ => none
  | .lock w =>
    match s.workers w with
    | .locking =>
      if s.mMutex = none then some (s.setWorker w .locked (some (.worker w))) else none
    | _ => none
  | .look w =>
    match s.workers w with
    | .locked => some (s.setWorker w (if s.mTasks = [] then .evaluating else .checking) s.mMutex)
    | _ => none
  | .evaluate w =>
    match s.workers w with
    | .evaluating =>
      some (s.setWorker w (if s.mTasks ≠ [] ∨ s.mExited = true then .checking else .blocking)
        s.mMutex)
    | _ => none
  | .block w =>
    match s.workers w with
    | .blocking => some (s.setWorker w .waiting none)
    | _ => none
  | .wakeSpuriously w =>
    match s.workers w with
    | .waiting => some (s.setWorker w .notified s.mMutex)
    | _ => none
  | .relock w =>
    match s.workers w with
    | .notified =>
      if s.mMutex = none then some (s.setWorker w .evaluating (some (.worker w))) else none
    | _ => none
  | .take w =>
    match s.workers w with
    | .checking => s.takeTask w
    | _ => none
  | .finish w =>
    match s.workers w with
    | .running _ => some (s.setWorker w .testing s.mMutex)
    | _ => none
  | .enqueue t task =>
    match s.callers t with
    | .outside => some (s.setCaller t (.called task) s.mMutex)
    | _ => none
  | .lockQueue t =>
    match s.callers t with
    | .called task =>
      if s.mMutex = none then some (s.setCaller t (.locked task) (some (.caller t))) else none
    | _ => none
  | .push t =>
    match s.callers t with
    | .locked task =>
      some ({ s with mTasks := s.mTasks ++ [task] }.setCaller t .pushed s.mMutex)
    | _ => none
  | .notify t =>
    match s.callers t with
    | .pushed => some (s.notifyAll.setCaller t .notified s.mMutex)
    | _ => none
  | .unlock t =>
    match s.callers t with
    | .notified => some (s.setCaller t .outside none)
    | _ => none
  | .exit joins =>
    match s.exiter with
    -- without the lock
    | .outside => some { s with mExited := true, exiter := .flagged joins }
    | _ => none
  | .notifyExit =>
    match s.exiter with
    | .flagged joins => some { s.notifyAll with exiter := .notified joins }
    | _ => none
  | .join =>
    match s.exiter with
    | .notified true =>
      if ∀ w < s.mMaxThreadNum, s.workers w = .done then
        some { s with exiter := .joined, mTasks := [] }
      else none
    | _ => none

end ThreadPool

end SimpleTcp
