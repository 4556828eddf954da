import Mathlib.Logic.Function.Basic
import SimpleTcp.Library.Trace
import SimpleTcp.Library.Transition
import SimpleTcp.Net.Channel

/-!
# The timers of an event loop

A call that adds a timer creates the timerfd, reads the clock for the id, and queues the task that
makes the channel and stores both; a call that removes one queues a task that looks the id up. The
calls are made by any thread, so other steps come between the reading and the queueing. The loop
polls, dispatches the timers that were reported and then runs the tasks that were queued; a one-shot
timer queues its own removal behind its callback.

`queueInLoop` is one step here: it appends under the mutex of the loop. What the callback of a timer
does is any number of calls made while it runs. The priority of a channel, its text for the log and
the delay of a timer are left out: a timer that is set expires at any time, or never.

## Main definitions

* `Timer`, `TimerFd`: a timer with its id, and the state of its timerfd
* `TimerSystem`: the loop, its `TimerQueue`, the add calls in progress and what was queued so far
* `TimerStep`, `TimerSystem.step`: the steps
* `TimerSystem.tasks`: the tasks that wait, in the batch or behind it
-/

namespace SimpleTcp

/-- A reading of the steady clock. -/
abbrev TimerId := ℤ

def INVALID_TIMER_ID : TimerId := 0

/-- A timer, with its position among those created and the id under which it is stored. -/
structure Timer where
  serial : ℕ
  mIsRepeating : Bool
  newId : TimerId
  deriving DecidableEq, Repr

/-- A timerfd: whether it will expire, and whether it has since it was read. -/
structure TimerFd where
  armed : Bool
  readable : Bool
  deriving DecidableEq, Repr

namespace TimerFd

/-- `Timer::setDelay` and `Timer::setRepeating`. -/
def set : TimerFd := ⟨true, false⟩

/-- The kernel arms a repeating timer again. -/
def expire (mIsRepeating : Bool) : TimerFd := ⟨mIsRepeating, true⟩

/-- `Timer::handleRead`. -/
def handleRead (fd : TimerFd) : TimerFd := { fd with readable := false }

end TimerFd

/-- A task of the loop, with its position among those queued where it is no timer that tells it from
others. -/
inductive TimerTask where
  /-- The task of `addOneshotTimer` or `addRepeatingTimer`. -/
  | add (timer : Timer)
  /-- The task of `removeTimer`. -/
  | remove (pos : ℕ) (timerId : TimerId)
  | functor (pos : ℕ)
  deriving DecidableEq, Repr

/-- The timer that a task holds until it is called. -/
def TimerTask.newTimer : TimerTask → Option Timer
  | .add timer => some timer
  | .remove _ _ | .functor _ => none

/-- The timers that the tasks hold. -/
def timersOf (tasks : List TimerTask) : List Timer := tasks.filterMap TimerTask.newTimer

inductive TimerEffect where
  | channelCreated (timer : Timer)
  /-- The callback of the user is called. -/
  | called (timer : Timer)
  /-- The removal at the position has found the timer. -/
  | found (pos : ℕ) (timer : Timer)
  | channelReleased (timer : Timer)
  | descriptorReleased (timer : Timer)
  /-- The removal at the position has run. -/
  | removed (pos : ℕ)
  deriving DecidableEq, Repr

/-- Where the thread of the loop is. -/
inductive TimerPc where
  /-- Outside `startLoop`. -/
  | stopped
  | polling
  /-- The timers that are left of those reported; when none is, `doPendingTasks` is next. -/
  | dispatching (active : List (Timer × EventMask))
  /-- In the callback of the timer. -/
  | calling (timer : Timer) (active : List (Timer × EventMask))
  /-- In `doPendingTasks`, with the rest of the batch. -/
  | running (tasks : List TimerTask)
  /-- In a task that is none of a timer. -/
  | inTask (tasks : List TimerTask)
  /-- An assertion has failed in the first of the tasks. -/
  | terminated (tasks : List TimerTask)
  | destroyed
  deriving DecidableEq, Repr

namespace TimerPc

/-- The tasks of the batch that have not been called. -/
def batch : TimerPc → List TimerTask
  | .running tasks | .inTask tasks | .terminated tasks => tasks
  | .stopped | .polling | .dispatching _ | .calling _ _ | .destroyed => []

/-- The timers that are left of those reported. -/
def active : TimerPc → List (Timer × EventMask)
  | .dispatching active | .calling _ active => active
  | .stopped | .polling | .running _ | .inTask _ | .terminated _ | .destroyed => []

end TimerPc

/-- `created` are the timers created so far, and `calls` those whose add call has read the clock and
not yet queued its task. `queued` are the tasks in the order in which they were queued: the task of
a timer is queued when the call returns its id. `mTimerMap` holds each timer under its `newId`. -/
structure TimerSystem where
  pc : TimerPc
  mPendingTasks : List TimerTask
  mIsExit : Bool
  mTimerMap : List Timer
  clock : TimerId
  fds : Timer → TimerFd
  calls : List Timer
  created : List Timer
  queued : List TimerTask
  trace : List TimerEffect

/-- How the task of a timer ends. -/
inductive AddResult where
  | stored
  /-- There was no descriptor for the timer, which `Channel::Channel` asserts. -/
  | fatal
  /-- `Channel::Channel` throws. -/
  | createFailed
  /-- `Channel::enableRead` throws, and its channel is released. -/
  | enableReadFailed
  deriving DecidableEq, Repr

inductive TimerStep where
  /-- The call up to its reading of the clock. -/
  | addOneshotTimer (now : TimerId)
  | addRepeatingTimer (now : TimerId)
  /-- The rest of the call that adds the timer: it queues its task and returns its id. -/
  | queueTimer (timer : Timer)
  | removeTimer (timerId : TimerId)
  /-- `queueInLoop`, of another task. -/
  | queueInLoop
  | expire (timer : Timer)
  | quitLoop
  | startLoop
  /-- What `epoll_wait` reports of the timers. -/
  | poll (active : List (Timer × EventMask))
  | dispatch
  | callbackReturn
  | callbackThrow
  /-- The callback of another channel throws. -/
  | handlerThrow
  | swap
  /-- The next task, or the end of `doPendingTasks` and the test of `mIsExit`. -/
  | next (result : AddResult)
  | taskReturn
  | taskThrow
  /-- `EventLoop::~EventLoop`. -/
  | destroy
  deriving DecidableEq, Repr

namespace TimerSystem

open Function (update)

/-- A loop on which nothing was called, when the clock has the reading. -/
def create (clock : TimerId) : TimerSystem where
  pc := .stopped
  mPendingTasks := []
  mIsExit := true
  mTimerMap := []
  clock := clock
  fds := fun _ => ⟨false, false⟩
  calls := []
  created := []
  queued := []
  trace := []

/-- The loop is there to be called. -/
def Alive (s : TimerSystem) : Prop :=
  match s.pc with
  | .terminated _ | .destroyed => False
  | _ => True

instance (s : TimerSystem) : Decidable s.Alive := by
  unfold Alive
  split <;> infer_instance

def effects (s : TimerSystem) (es : List TimerEffect) : TimerSystem :=
  { s with trace := s.trace ++ es }

/-- The tasks that wait: the rest of the batch, and those queued behind it. -/
def tasks (s : TimerSystem) : List TimerTask := s.pc.batch ++ s.mPendingTasks

/-! ## Calls -/

/-- The first part of the calls that add a timer. The clock does not go back, and reads the time
since the machine was started. -/
def createTimer (s : TimerSystem) (mIsRepeating : Bool) (now : TimerId) : Option TimerSystem :=
  if s.Alive ∧ s.clock ≤ now ∧ now ≠ INVALID_TIMER_ID then
    let newTimer : Timer := ⟨s.created.length, mIsRepeating, now⟩
    some { s with
      clock := now
      fds := update s.fds newTimer TimerFd.set
      calls := s.calls ++ [newTimer]
      created := s.created ++ [newTimer] }
  else none

def addOneshotTimer (s : TimerSystem) (now : TimerId) : Option TimerSystem :=
  s.createTimer false now

def addRepeatingTimer (s : TimerSystem) (now : TimerId) : Option TimerSystem :=
  s.createTimer true now

/-- `EventLoop::queueInLoop`. -/
def queueInLoop (s : TimerSystem) (task : TimerTask) : TimerSystem :=
  { s with mPendingTasks := s.mPendingTasks ++ [task], queued := s.queued ++ [task] }

/-- The second part of the calls that add a timer. -/
def queueTimer (s : TimerSystem) (timer : Timer) : Option TimerSystem :=
  if s.Alive ∧ timer ∈ s.calls then
    some { s.queueInLoop (.add timer) with calls := s.calls.erase timer }
  else none

def removeTimer (s : TimerSystem) (timerId : TimerId) : TimerSystem :=
  s.queueInLoop (.remove s.queued.length timerId)

/-! ## Dispatch -/

/-- What `epoll_wait` may report: registered channels, once each, and input only when the timerfd is
readable. -/
def Reports (s : TimerSystem) (active : List (Timer × EventMask)) : Prop :=
  (active.map Prod.fst).Nodup ∧
    ∀ e ∈ active, e.1 ∈ s.mTimerMap ∧ (Channel.Reads e.2 → (s.fds e.1).readable = true)

instance (s : TimerSystem) (active : List (Timer × EventMask)) : Decidable (s.Reports active) :=
  inferInstanceAs (Decidable (_ ∧ _))

/-- `Timer::handleRead`. -/
def handleRead (s : TimerSystem) (timer : Timer) : TimerSystem :=
  { s with fds := update s.fds timer (s.fds timer).handleRead }

/-- The read callback of a timer, up to the call of the user's callback. A repeating timer reads its
timerfd first. -/
def readCallback (s : TimerSystem) (timer : Timer) (active : List (Timer × EventMask)) :
    TimerSystem :=
  let s' := if timer.mIsRepeating then s.handleRead timer else s
  { s'.effects [.called timer] with pc := .calling timer active }

/-- The rest of the read callback: a one-shot timer reads its timerfd and removes itself. -/
def callbackReturn (s : TimerSystem) (timer : Timer) (active : List (Timer × EventMask)) :
    TimerSystem :=
  let s' := if timer.mIsRepeating then s else (s.handleRead timer).removeTimer timer.newId
  { s' with pc := .dispatching active }

/-- The error callback of a timer only logs, and its other callbacks are the defaults. -/
def handleEvent (s : TimerSystem) (timer : Timer) (mRevent : EventMask)
    (active : List (Timer × EventMask)) : TimerSystem :=
  if timer ∈ s.mTimerMap ∧ Channel.Reads mRevent then s.readCallback timer active
  else { s with pc := .dispatching active }

/-! ## Tasks -/

/-- An exception of a task destroys the rest of the batch, and leaves `startLoop`. -/
def unwind (s : TimerSystem) (tasks : List TimerTask) : TimerSystem :=
  { s.effects ((timersOf tasks).map .descriptorReleased) with pc := .stopped }

/-- `mTimerMap.emplace`: where the id is taken the map keeps its entry, and the new `TimerStruct` is
destroyed, its channel first. -/
def emplace (s : TimerSystem) (timer : Timer) : TimerSystem :=
  if ∃ t ∈ s.mTimerMap, t.newId = timer.newId then
    s.effects [.channelReleased timer, .descriptorReleased timer]
  else { s with mTimerMap := s.mTimerMap ++ [timer] }

/-- The task of a timer, and the rest of its batch. -/
def runAdd (s : TimerSystem) (timer : Timer) (tasks : List TimerTask) :
    AddResult → TimerSystem
  | .stored =>
    { (s.effects [.channelCreated timer]).emplace timer with pc := .running tasks }
  | .fatal => { s with pc := .terminated (.add timer :: tasks) }
  | .createFailed => s.unwind (.add timer :: tasks)
  | .enableReadFailed =>
    (s.effects [.channelCreated timer, .channelReleased timer]).unwind (.add timer :: tasks)

/-- The task of `removeTimer`, and the rest of its batch. -/
def runRemove (s : TimerSystem) (pos : ℕ) (timerId : TimerId) (tasks : List TimerTask) :
    TimerSystem :=
  match s.mTimerMap.find? (·.newId = timerId) with
  | none => { s.effects [.removed pos] with pc := .running tasks }
  | some timer =>
    { s.effects [.found pos timer, .channelReleased timer, .descriptorReleased timer, .removed pos]
      with pc := .running tasks, mTimerMap := s.mTimerMap.erase timer }

/-- `EventLoop::~EventLoop`: `~TimerQueue` releases all channels and then the timers, and the tasks
that wait are destroyed with the loop. -/
def destroy (s : TimerSystem) : TimerSystem :=
  { s.effects (s.mTimerMap.map .channelReleased ++ s.mTimerMap.map .descriptorReleased ++
      (timersOf s.mPendingTasks).map .descriptorReleased) with
    pc := .destroyed
    mPendingTasks := []
    mTimerMap := [] }

/-! ## Steps -/

/-- A step of the thread of the loop. -/
def loopStep (s : TimerSystem) : TimerStep → Option TimerSystem
  | .startLoop =>
    match s.pc with
    -- the test of `mIsExit` comes next, as it does after a batch
    | .stopped => some { s with pc := .running [], mIsExit := false }
    | _ => none
  | .poll active =>
    match s.pc with
    | .polling => if s.Reports active then some { s with pc := .dispatching active } else none
    | _ => none
  | .dispatch =>
    match s.pc with
    | .dispatching ((timer, mRevent) :: active) => some (s.handleEvent timer mRevent active)
    | _ => none
  | .callbackReturn =>
    match s.pc with
    | .calling timer active => some (s.callbackReturn timer active)
    | _ => none
  | .callbackThrow =>
    match s.pc with
    | .calling _ _ => some { s with pc := .stopped }
    | _ => none
  | .handlerThrow =>
    match s.pc with
    | .dispatching _ => some { s with pc := .stopped }
    | _ => none
  | .swap =>
    match s.pc with
    | .dispatching [] => some { s with pc := .running s.mPendingTasks, mPendingTasks := [] }
    | _ => none
  | .next result =>
    match s.pc with
    | .running [] => some { s with pc := if s.mIsExit then .stopped else .polling }
    | .running (.add timer :: tasks) => some (s.runAdd timer tasks result)
    | .running (.remove pos timerId :: tasks) => some (s.runRemove pos timerId tasks)
    | .running (.functor _ :: tasks) => some { s with pc := .inTask tasks }
    | _ => none
  | .taskReturn =>
    match s.pc with
    | .inTask tasks => some { s with pc := .running tasks }
    | _ => none
  | .taskThrow =>
    match s.pc with
    | .inTask tasks => some (s.unwind tasks)
    | _ => none
  | .destroy =>
    match s.pc with
    -- no call on the loop is in progress
    | .stopped => if s.calls = [] then some s.destroy else none
    | _ => none
  | .addOneshotTimer _ | .addRepeatingTimer _ | .queueTimer _ | .removeTimer _ | .queueInLoop |
    .expire _ | .quitLoop => none

/-- A step of any thread, or of the kernel. -/
def step (s : TimerSystem) : TimerStep → Option TimerSystem
  | .addOneshotTimer now => s.addOneshotTimer now
  | .addRepeatingTimer now => s.addRepeatingTimer now
  | .queueTimer timer => s.queueTimer timer
  | .removeTimer timerId => if s.Alive then some (s.removeTimer timerId) else none
  | .queueInLoop =>
    if s.Alive then some (s.queueInLoop (.functor s.queued.length)) else none
  | .expire timer =>
    if (s.fds timer).armed then
      some { s with fds := update s.fds timer (TimerFd.expire timer.mIsRepeating) }
    else none
  | .quitLoop => if s.Alive then some { s with mIsExit := true } else none
  | i => s.loopStep i

end TimerSystem

end SimpleTcp
