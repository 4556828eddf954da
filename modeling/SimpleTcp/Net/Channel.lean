import Mathlib.Data.BitVec

/-!
# Channels

A `Channel` registers the events of one file descriptor with the poller of its loop, and hands the
events that `epoll_wait` reports to four callbacks. The event masks are the 32-bit masks of
`epoll`. The descriptor, the priority and the texts for the log are left out.

## Main definitions

* `EventMask`, `EPOLLIN` and the other flags
* `Channel`: the events of interest, with `enableRead` and the other updates
* `Channel.handleEvent`: the callbacks that a reported mask invokes, in order

## Main results

* `Channel.handleEvent_of_closes`, `handleEvent_of_errors`, `handleEvent_of_ready`: which
  callbacks run
-/

namespace SimpleTcp

/-- The `events` of an `epoll_event`. -/
abbrev EventMask := BitVec 32

def EPOLLIN : EventMask := 0x001
def EPOLLPRI : EventMask := 0x002
def EPOLLOUT : EventMask := 0x004
def EPOLLERR : EventMask := 0x008
def EPOLLHUP : EventMask := 0x010
def EPOLLRDHUP : EventMask := 0x2000

def CHANNEL_READ_EVENT : EventMask := EPOLLIN ||| EPOLLPRI
def CHANNEL_WRITE_EVENT : EventMask := EPOLLOUT
def CHANNEL_NONE_EVENT : EventMask := 0

/-- `mask & flags`, as a condition. -/
def EventMask.Meets (mask flags : EventMask) : Prop := mask &&& flags ≠ 0

instance (mask flags : EventMask) : Decidable (mask.Meets flags) :=
  inferInstanceAs (Decidable (_ ≠ _))

structure Channel where
  mEvent : EventMask
  deriving DecidableEq, Repr

namespace Channel

/-- `Channel::Channel`, which adds the channel to the poller. -/
def create : Channel := ⟨EPOLLERR⟩

def isWriting (ch : Channel) : Prop := ch.mEvent.Meets CHANNEL_WRITE_EVENT

def isReading (ch : Channel) : Prop := ch.mEvent.Meets CHANNEL_READ_EVENT

instance (ch : Channel) : Decidable ch.isWriting :=
  inferInstanceAs (Decidable (EventMask.Meets _ _))

instance (ch : Channel) : Decidable ch.isReading :=
  inferInstanceAs (Decidable (EventMask.Meets _ _))

def enableRead (ch : Channel) : Channel :=
  if ch.isReading then ch else ⟨ch.mEvent ||| CHANNEL_READ_EVENT⟩

def enableWrite (ch : Channel) : Channel :=
  if ch.isWriting then ch else ⟨ch.mEvent ||| CHANNEL_WRITE_EVENT⟩

def disableWrite (ch : Channel) : Channel :=
  if ¬ ch.isWriting then ch else ⟨ch.mEvent &&& ~~~CHANNEL_WRITE_EVENT⟩

def disableAll (_ : Channel) : Channel := ⟨CHANNEL_NONE_EVENT⟩

/-! ### Interest -/

variable (ch : Channel)

theorem isWriting_enableWrite : ch.enableWrite.isWriting := by
  unfold enableWrite
  split
  · assumption
  · simp only [isWriting, EventMask.Meets, BitVec.and_or_distrib_right, BitVec.and_self]
    intro h
    have := (BitVec.or_eq_zero_iff.mp h).2
    simp [CHANNEL_WRITE_EVENT, EPOLLOUT] at this

theorem isReading_enableRead : ch.enableRead.isReading := by
  unfold enableRead
  split
  · assumption
  · simp only [isReading, EventMask.Meets, BitVec.and_or_distrib_right, BitVec.and_self]
    intro h
    have := (BitVec.or_eq_zero_iff.mp h).2
    simp [CHANNEL_READ_EVENT, EPOLLIN, EPOLLPRI] at this

theorem not_isWriting_disableWrite : ¬ ch.disableWrite.isWriting := by
  unfold disableWrite
  split
  · assumption
  · simp [isWriting, EventMask.Meets, BitVec.and_assoc]

theorem isReading_enableWrite (h : ch.isReading) : ch.enableWrite.isReading := by
  unfold enableWrite
  split
  · exact h
  · simp only [isReading, EventMask.Meets, BitVec.and_or_distrib_right] at h ⊢
    exact fun h0 => h (BitVec.or_eq_zero_iff.mp h0).1

theorem isReading_disableWrite (h : ch.isReading) : ch.disableWrite.isReading := by
  unfold disableWrite
  split
  · exact h
  · simp only [isReading, EventMask.Meets, BitVec.and_assoc] at h ⊢
    rwa [show ~~~CHANNEL_WRITE_EVENT &&& CHANNEL_READ_EVENT = CHANNEL_READ_EVENT by decide]

/-! ### Event handling -/

variable {m : Type → Type} [Monad m]

/-- The reported events are handed to the callbacks: a hang-up without input closes, an error goes
to the error callback, and otherwise input is read before output is written. -/
def handleEvent (mRevent : EventMask) (mCloseCb mErrorCb mReadCb mWriteCb : m Unit) : m Unit :=
  if mRevent.Meets EPOLLHUP ∧ ¬ mRevent.Meets EPOLLIN then mCloseCb
  else if mRevent.Meets EPOLLERR then mErrorCb
  else do
    if mRevent.Meets (EPOLLIN ||| EPOLLPRI ||| EPOLLRDHUP) then mReadCb
    if mRevent.Meets EPOLLOUT then mWriteCb

/-- The mask invokes the close callback, and nothing else. -/
def Closes (mRevent : EventMask) : Prop :=
  mRevent.Meets EPOLLHUP ∧ ¬ mRevent.Meets EPOLLIN

/-- The mask invokes the error callback, and nothing else. -/
def Errors (mRevent : EventMask) : Prop := ¬ Closes mRevent ∧ mRevent.Meets EPOLLERR

/-- The mask invokes the read or the write callback, or none. -/
def Ready (mRevent : EventMask) : Prop := ¬ Closes mRevent ∧ ¬ mRevent.Meets EPOLLERR

/-- The mask invokes the read callback. -/
def Reads (mRevent : EventMask) : Prop :=
  Ready mRevent ∧ mRevent.Meets (EPOLLIN ||| EPOLLPRI ||| EPOLLRDHUP)

instance (mRevent : EventMask) : Decidable (Reads mRevent) := by
  unfold Reads Ready Closes
  infer_instance

/-- The mask invokes the write callback, after the read callback when it also reads. -/
def Writes (mRevent : EventMask) : Prop := Ready mRevent ∧ mRevent.Meets EPOLLOUT

section

variable {mRevent : EventMask} (mCloseCb mErrorCb mReadCb mWriteCb : m Unit)

theorem handleEvent_of_closes (h : Closes mRevent) :
    handleEvent mRevent mCloseCb mErrorCb mReadCb mWriteCb = mCloseCb := if_pos h

theorem handleEvent_of_errors (h : Errors mRevent) :
    handleEvent mRevent mCloseCb mErrorCb mReadCb mWriteCb = mErrorCb :=
  (if_neg h.1).trans (if_pos h.2)

theorem handleEvent_of_ready (h : Ready mRevent) :
    handleEvent mRevent mCloseCb mErrorCb mReadCb mWriteCb = (do
      if mRevent.Meets (EPOLLIN ||| EPOLLPRI ||| EPOLLRDHUP) then mReadCb
      if mRevent.Meets EPOLLOUT then mWriteCb) :=
  (if_neg h.1).trans (if_neg h.2)

end

theorem closes_or_errors_or_ready (mRevent : EventMask) :
    Closes mRevent ∨ Errors mRevent ∨ Ready mRevent := by
  unfold Errors Ready
  tauto

end Channel

end SimpleTcp
