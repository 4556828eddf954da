import Mathlib.Logic.Function.Basic
import SimpleTcp.Base.Error
import SimpleTcp.Library.Machine
import SimpleTcp.Net.Channel

/-!
# The poller

An `Epoller` registers the channels of a loop with `epoll`. The kernel keeps the descriptors that it
watches, with the events of interest, and forgets a descriptor that is closed. The poller keeps a
map from descriptors to channels and the set of the channels. A channel registers itself in its
constructor and removes itself in its destructor; it does not hold its descriptor, which its owner
opens and closes.

Any call of `epoll_ctl` may fail. The exception of a failed removal leaves a destructor, which
terminates the process, and so does a failed assertion. Addresses and descriptors that are not in
use are given out again. The checks of the thread and of `mIsLoopingNow` are left out, and so is the
order of the active channels by their priority.

## Main definitions

* `PollState`, `PolledChannel`: the kernel, the poller and the channels
* `PollStop`, `CtlIo`: how a program stops, and the results of the system calls
* `addChannel`, `updateChannel`, `removeChannel`, `poll`: the poller
* `createChannel`, `destroyChannel`, `enableRead` and the other updates: channels

## Main results

* `addChannel_error`, `removeChannel_error`: a call that fails changes nothing
-/

namespace SimpleTcp

namespace Errno

def ENOENT : Errno := 2
def EBADF : Errno := 9
def EEXIST : Errno := 17

end Errno

/-- Who holds a descriptor and its channel. -/
inductive FdOwner where
  /-- `mpWakeupFd` and `mpWakeupChannel` of the loop. -/
  | wakeup
  /-- `mpListenSocket` and `mpListenChannel` of a server. -/
  | listener (server : ℕ)
  /-- `mConnSocket` and `mConnChannel` of a client. -/
  | connector (client : ℕ)
  /-- `mpSocket` and `mpChannel` of a connection. -/
  | connection (c : ℕ)
  /-- A timer, and its channel in the timer queue. -/
  | timer (j : ℕ)
  deriving DecidableEq, Repr

/-- A channel, with its descriptor and the events that were reported last. -/
structure PolledChannel extends Channel where
  mFd : ℕ
  mRevent : EventMask
  deriving DecidableEq, Repr

/-- The kernel, the poller and the owners. Channels have addresses, and `heap` are those that are
there. `modFailed` is whether an `EPOLL_CTL_MOD` has failed, and `closedRegistered` whether a
descriptor was closed while the kernel watched it. -/
structure PollState where
  isOpen : ℕ → Bool
  /-- What the kernel watches, with the events of interest. -/
  interest : ℕ → Option EventMask
  mChannelMap : ℕ → Option ℕ
  mChannelSet : ℕ → Bool
  heap : ℕ → Option PolledChannel
  fds : FdOwner → Option ℕ
  channels : FdOwner → Option ℕ
  /-- The timers of the timer queue, with their ids. -/
  mTimerMap : List (ℕ × ℕ)
  /-- The poller is destroyed. -/
  destroyed : Bool
  modFailed : Bool
  closedRegistered : Bool

/-- How a program stops. -/
inductive PollStop where
  | systemException (err : Errno)
  /-- An assertion has failed, an exception leaves a destructor, or a pointer is null. -/
  | terminate
  /-- The label asks for a descriptor, an address or an object that cannot be given. -/
  | blocked
  deriving DecidableEq, Repr

abbrev PollM := EStateM PollStop PollState

/-- The errors of `fcntl` and of the operations of `epoll_ctl` on each descriptor. No function of an
owner makes one of these calls on a descriptor twice. -/
structure CtlIo where
  fcntl : ℕ → Option Errno
  add : ℕ → Option Errno
  mod : ℕ → Option Errno
  del : ℕ → Option Errno

namespace PollState

open Function (update)

/-- After `epoll_create`. -/
def create : PollState where
  isOpen := fun _ => false
  interest := fun _ => none
  mChannelMap := fun _ => none
  mChannelSet := fun _ => false
  heap := fun _ => none
  fds := fun _ => none
  channels := fun _ => none
  mTimerMap := []
  destroyed := false
  modFailed := false
  closedRegistered := false

/-! ## The poller -/

/-- The error of `EPOLL_CTL_ADD`. -/
def addError (s : PollState) (fd : ℕ) (err : Option Errno) : Option Errno :=
  if err ≠ none then err
  else if s.isOpen fd = false then some Errno.EBADF
  else if s.interest fd ≠ none then some Errno.EEXIST
  else none

/-- The error of `EPOLL_CTL_MOD` and `EPOLL_CTL_DEL`. -/
def changeError (s : PollState) (fd : ℕ) (err : Option Errno) : Option Errno :=
  if err ≠ none then err
  else if s.isOpen fd = false then some Errno.EBADF
  else if s.interest fd = none then some Errno.ENOENT
  else none

theorem addError_eq_none {s : PollState} {fd : ℕ} {err : Option Errno} :
    s.addError fd err = none ↔ err = none ∧ s.isOpen fd = true ∧ s.interest fd = none := by
  unfold addError
  split_ifs <;> simp_all

/-- `EPOLL_CTL_ADD` with no events, and the channel is put into the containers. -/
def added (s : PollState) (fd channel : ℕ) : PollState :=
  { s with
    interest := update s.interest fd (some 0)
    -- `insert` does not replace
    mChannelMap := if s.mChannelMap fd = none then update s.mChannelMap fd (some channel)
      else s.mChannelMap
    mChannelSet := update s.mChannelSet channel true }

def removed (s : PollState) (fd channel : ℕ) : PollState :=
  { s with
    interest := update s.interest fd none
    mChannelMap := update s.mChannelMap fd none
    mChannelSet := update s.mChannelSet channel false }

def setHeap (s : PollState) (channel : ℕ) (ch : Option PolledChannel) : PollState :=
  { s with heap := update s.heap channel ch }

def setChannel (s : PollState) (o : FdOwner) (channel : Option ℕ) : PollState :=
  { s with channels := update s.channels o channel }

def setFd (s : PollState) (o : FdOwner) (fd : Option ℕ) : PollState :=
  { s with fds := update s.fds o fd }

end PollState

namespace Epoller

open PollState

/-- `Epoller::addChannel`. -/
def addChannel (channel : ℕ) (io : CtlIo) : PollM Unit := do
  let s ← get
  if s.mChannelSet channel = true then throw .terminate
  else
    match s.heap channel with
    | none => throw .terminate
    | some ch =>
      match s.addError ch.mFd (io.add ch.mFd) with
      | some err => throw (.systemException err)
      | none => set (s.added ch.mFd channel)

/-- `Epoller::updateChannel`. -/
def updateChannel (channel : ℕ) (io : CtlIo) : PollM Unit := do
  let s ← get
  if s.mChannelSet channel = false then throw .terminate
  else
    match s.heap channel with
    | none => throw .terminate
    | some ch =>
      match s.changeError ch.mFd (io.mod ch.mFd) with
      | some err =>
        set { s with modFailed := true }
        throw (.systemException err)
      | none => set { s with interest := Function.update s.interest ch.mFd (some ch.mEvent) }

/-- `Epoller::removeChannel`. -/
def removeChannel (channel : ℕ) (io : CtlIo) : PollM Unit := do
  let s ← get
  if s.mChannelSet channel = false then throw .terminate
  else
    match s.heap channel with
    | none => throw .terminate
    | some ch =>
      match s.changeError ch.mFd (io.del ch.mFd) with
      | some err => throw (.systemException err)
      | none => set (s.removed ch.mFd channel)

/-- An event that `epoll_wait` has returned is handed to its channel. -/
def setRevents (fd : ℕ) (events : EventMask) : PollM ℕ := do
  let s ← get
  match s.mChannelMap fd with
  | none => throw .terminate
  | some channel =>
    match s.heap channel with
    | none => throw .terminate
    | some ch =>
      set (s.setHeap channel (some { ch with mRevent := events }))
      pure channel

/-- `Epoller::poll`, with the events that `epoll_wait` has returned. -/
def poll : List (ℕ × EventMask) → PollM (List ℕ)
  | [] => pure []
  | event :: events => do
    let channel ← setRevents event.1 event.2
    let result ← poll events
    pure (channel :: result)

/-! ## Channels -/

/-- `Channel::Channel`, at an address that is free. -/
def createChannel (fd channel : ℕ) (io : CtlIo) : PollM Unit := do
  match io.fcntl fd with
  | some err => throw (.systemException err)
  | none =>
    let s ← get
    if s.heap channel ≠ none then throw .blocked
    else
      set (s.setHeap channel (some ⟨Channel.create, fd, 0⟩))
      tryCatch (addChannel channel io) fun e => do
        -- the memory is given back when the constructor throws
        modify fun s => s.setHeap channel none
        throw e

/-- `Channel::~Channel`. -/
def destroyChannel (channel : ℕ) (io : CtlIo) : PollM Unit := do
  tryCatch (removeChannel channel io) fun _ => throw .terminate
  modify fun s => s.setHeap channel none

/-- The channel of an owner changes its events and updates the poller, unless there is nothing to
change. -/
def changeEvents (o : FdOwner) (isDone : Channel → Prop) [DecidablePred isDone]
    (change : Channel → Channel) (io : CtlIo) : PollM Unit := do
  let s ← get
  match s.channels o with
  | none => throw .terminate
  | some channel =>
    match s.heap channel with
    | none => throw .terminate
    | some ch =>
      if isDone ch.toChannel then pure ()
      else
        set (s.setHeap channel (some { ch with toChannel := change ch.toChannel }))
        updateChannel channel io

def enableRead (o : FdOwner) (io : CtlIo) : PollM Unit :=
  changeEvents o (fun ch => ch.isReading) Channel.enableRead io

def enableWrite (o : FdOwner) (io : CtlIo) : PollM Unit :=
  changeEvents o (fun ch => ch.isWriting) Channel.enableWrite io

def disableWrite (o : FdOwner) (io : CtlIo) : PollM Unit :=
  changeEvents o (fun ch => ¬ ch.isWriting) Channel.disableWrite io

def disableAll (o : FdOwner) (io : CtlIo) : PollM Unit :=
  changeEvents o (fun _ => False) Channel.disableAll io

/-! ## Failures -/

variable {s s' : PollState} {channel : ℕ} {io : CtlIo} {ch : PolledChannel}

theorem addChannel_run (hset : s.mChannelSet channel = false) (hch : s.heap channel = some ch) :
    (addChannel channel io).run s =
      match s.addError ch.mFd (io.add ch.mFd) with
      | some err => .error (.systemException err) s
      | none => .ok () (s.added ch.mFd channel) := by
  simp only [addChannel, EStateM.run_bind, EStateM.run_get, hset, hch]
  cases s.addError ch.mFd (io.add ch.mFd) <;> rfl

theorem updateChannel_run (hset : s.mChannelSet channel = true) (hch : s.heap channel = some ch) :
    (updateChannel channel io).run s =
      match s.changeError ch.mFd (io.mod ch.mFd) with
      | some err => .error (.systemException err) { s with modFailed := true }
      | none =>
        .ok () { s with interest := Function.update s.interest ch.mFd (some ch.mEvent) } := by
  simp only [updateChannel, EStateM.run_bind, EStateM.run_get, hset, hch]
  cases s.changeError ch.mFd (io.mod ch.mFd) <;> rfl

theorem removeChannel_run (hset : s.mChannelSet channel = true) (hch : s.heap channel = some ch) :
    (removeChannel channel io).run s =
      match s.changeError ch.mFd (io.del ch.mFd) with
      | some err => .error (.systemException err) s
      | none => .ok () (s.removed ch.mFd channel) := by
  simp only [removeChannel, EStateM.run_bind, EStateM.run_get, hset, hch]
  cases s.changeError ch.mFd (io.del ch.mFd) <;> rfl

/-- **A failing `addChannel` changes nothing.** -/
theorem addChannel_error {e : PollStop} (h : (addChannel channel io).run s = .error e s') :
    s' = s := by
  cases hset : s.mChannelSet channel with
  | true =>
    simp only [addChannel, EStateM.run_bind, EStateM.run_get, hset] at h
    exact (EStateM.Result.error.inj h).2.symm
  | false =>
    cases hch : s.heap channel with
    | none =>
      simp only [addChannel, EStateM.run_bind, EStateM.run_get, hset, hch] at h
      exact (EStateM.Result.error.inj h).2.symm
    | some ch =>
      rw [addChannel_run hset hch] at h
      split at h
      · exact (EStateM.Result.error.inj h).2.symm
      · cases h

/-- **A failing `removeChannel` changes nothing.** -/
theorem removeChannel_error {e : PollStop} (h : (removeChannel channel io).run s = .error e s') :
    s' = s := by
  cases hset : s.mChannelSet channel with
  | false =>
    simp only [removeChannel, EStateM.run_bind, EStateM.run_get, hset] at h
    exact (EStateM.Result.error.inj h).2.symm
  | true =>
    cases hch : s.heap channel with
    | none =>
      simp only [removeChannel, EStateM.run_bind, EStateM.run_get, hset, hch] at h
      exact (EStateM.Result.error.inj h).2.symm
    | some ch =>
      rw [removeChannel_run hset hch] at h
      split at h
      · exact (EStateM.Result.error.inj h).2.symm
      · cases h

end Epoller

end SimpleTcp
