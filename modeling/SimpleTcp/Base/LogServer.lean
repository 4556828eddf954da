import Mathlib.Logic.Function.Basic
import SimpleTcp.Base.Bytes
import SimpleTcp.Library.Transition

/-!
# The log server

Any number of threads write log lines into the current buffer of a `LogServer`. A buffer that is
full is retired to the pending buffers; the flush thread swaps the pending buffers out, flushes
them to the log file without the lock and returns them to the available ones. `mMutex` protects
the buffers, and the two flags `mStopThread` and `mNeedFlushNow` are set and tested without it.

Between two steps any other thread may take steps. The flush thread reads each flag once in the
step that it takes under the lock: a flag that is set between these reads is as if it was set
behind the step. `std::condition_variable` wakes the flush thread when its predicate holds or the
time is out. The formatting of a line and the names of the files are left out, and an exception of
`createLogFileStream` ends the process.

## Main definitions

* `LogBuffer`: a buffer, with the bytes that are in use
* `LogServer`, `FlushPc`, `WriterPc`: the server and where its threads are
* `LogServer.append`, `LogServer.proceed`, `LogServer.flushNext`: the bodies of `write` and of
  `doFlushAsync`
* `LogStep`, `LogServer.step`: the steps
-/

namespace SimpleTcp

/-- 256Kb. -/
def LOG_BUFFER_SIZE : Nat := 1 <<< 18

/-- 256Mb. -/
def LOG_MAX_FILE_SIZE : Nat := 1 <<< 28

/-- The first `mUsedSize` bytes of `mRawBuffer`. -/
structure LogBuffer where
  used : Bytes
  deriving DecidableEq, Repr

namespace LogBuffer

/-- `LogBuffer::LogBuffer()`. -/
def fresh : LogBuffer := ⟨[]⟩

def size (b : LogBuffer) : Nat := b.used.length

def writable (b : LogBuffer) (size : Nat) : Prop := sizeSub LOG_BUFFER_SIZE b.size ≥ size

def flushEnable (b : LogBuffer) : Prop := b.size > 0

instance (b : LogBuffer) (size : Nat) : Decidable (b.writable size) :=
  inferInstanceAs (Decidable (_ ≥ _))

instance (b : LogBuffer) : Decidable b.flushEnable := inferInstanceAs (Decidable (_ > _))

/-- The copy is not checked; the caller asks `writable` or has a fresh buffer. -/
def write (b : LogBuffer) (line : Bytes) : LogBuffer := ⟨b.used ++ line⟩

end LogBuffer

/-- Where a thread is in `write`. -/
inductive WriterPc where
  | outside
  /-- The line is formatted and `mMutex` is locked. -/
  | locked (line : Bytes)
  /-- `mMutex` is released next. -/
  | written
  deriving DecidableEq, Repr

/-- Where the flush thread is in `doFlushAsync`. -/
inductive FlushPc where
  /-- `while (!mStopThread)` comes next. -/
  | testing
  /-- In `wait_for`, without the lock. -/
  | waiting
  /-- `wait_for` has returned, with the lock, and `if (mStopThread)` comes next. -/
  | woken (timeout : Bool)
  /-- The buffers before the position are flushed. -/
  | flushing (pos : Nat)
  /-- The buffers are returned next, under the lock. -/
  | returning
  | done
  deriving DecidableEq, Repr

/-- Where the caller of `forceDestroy` is, with the lines accepted before the call. -/
inductive DestroyPc where
  | outside
  | called (before : List Bytes)
  /-- `mStopThread` is set, and `join` comes next. -/
  | joining (before : List Bytes)
  | joined (before : List Bytes)
  deriving DecidableEq, Repr

inductive LogThread where
  | client (t : Nat)
  | flush
  deriving DecidableEq, Repr

/-- `closedFiles` are the log files that were full, and `accepted` the lines that `write` has put
in a buffer. -/
structure LogServer where
  /-- The bytes of the open log file. -/
  mLogFileStream : Bytes
  closedFiles : List Bytes
  mLogAlreadyWritenBytes : Nat
  mMutex : Option LogThread
  mStopThread : Bool
  mNeedFlushNow : Bool
  mpCurrentBuffer : LogBuffer
  mvAvailbleBuffers : List LogBuffer
  mvPendingBuffers : List LogBuffer
  needFlushBuffers : List LogBuffer
  mFlushThread : FlushPc
  writers : Nat → WriterPc
  destroyer : DestroyPc
  accepted : List Bytes

inductive LogStep where
  /-- A thread that writes the line takes the lock. -/
  | write (t : Nat) (line : Bytes)
  /-- The body of `write` under the lock. -/
  | append (t : Nat)
  | unlock (t : Nat)
  | forceFlush
  /-- `forceDestroy` is called. -/
  | forceDestroy
  /-- `mStopThread = true`. -/
  | setStop
  /-- `join` returns. -/
  | join
  /-- The flush thread tests its loop condition. -/
  | test
  /-- `wait_for` returns; it may only time out while its predicate is false. -/
  | wake
  /-- The flush thread goes on under the lock. -/
  | proceed
  /-- The next buffer is flushed, or the loop over the buffers ends. -/
  | flush
  | returnBuffers
  deriving DecidableEq, Repr

namespace LogServer

open Function (update)

/-- If there are too many pending buffers, new lines are discarded. -/
def MAX_PENDING_BUFFERS : Nat := 6

/-- `LogServer::LogServer`. -/
def create : LogServer where
  mLogFileStream := []
  closedFiles := []
  mLogAlreadyWritenBytes := 0
  mMutex := none
  mStopThread := false
  mNeedFlushNow := false
  mpCurrentBuffer := LogBuffer.fresh
  mvAvailbleBuffers := []
  mvPendingBuffers := []
  needFlushBuffers := []
  mFlushThread := .testing
  writers := fun _ => .outside
  destroyer := .outside
  accepted := []

/-- The bytes handed to the log file streams so far. -/
def handed (s : LogServer) : Bytes := s.closedFiles.flatten ++ s.mLogFileStream

/-- The current buffer is retired, and the last available buffer or a new one takes its place. -/
def retire (s : LogServer) : LogServer :=
  { s with
    mvPendingBuffers := s.mvPendingBuffers ++ [s.mpCurrentBuffer]
    mpCurrentBuffer := s.mvAvailbleBuffers.getLast?.getD LogBuffer.fresh
    mvAvailbleBuffers := s.mvAvailbleBuffers.dropLast }

/-- `mpCurrentBuffer->write(logLine)`. -/
def writeLine (s : LogServer) (line : Bytes) : LogServer :=
  { s with
    mpCurrentBuffer := s.mpCurrentBuffer.write line
    accepted := s.accepted ++ [line] }

/-- The body of `write`. -/
def append (s : LogServer) (line : Bytes) : LogServer :=
  if s.mpCurrentBuffer.writable line.length then s.writeLine line
  else if s.mvPendingBuffers.length ≤ MAX_PENDING_BUFFERS then s.retire.writeLine line
  -- too many pending buffers, the line is discarded
  else s

/-- `buffer->flush(mLogFileStream)`; the caller resets the buffer. -/
def flushBuffer (s : LogServer) (b : LogBuffer) : LogServer :=
  { s with mLogFileStream := s.mLogFileStream ++ b.used }

/-- A full log file is closed, and a new one is created. -/
def rotate (s : LogServer) (b : LogBuffer) : LogServer :=
  if b.size + s.mLogAlreadyWritenBytes ≥ LOG_MAX_FILE_SIZE then
    { s with
      closedFiles := s.closedFiles ++ [s.mLogFileStream]
      mLogFileStream := []
      mLogAlreadyWritenBytes := 0 }
  else s

/-- All buffers are flushed, and the thread returns. -/
def finalFlush (s : LogServer) : LogServer :=
  let s := s.mvPendingBuffers.foldl flushBuffer s
  let s := { s with mvPendingBuffers := s.mvPendingBuffers.map fun _ => LogBuffer.fresh }
  -- the current buffer comes last: its lines are the newest
  let s :=
    if s.mpCurrentBuffer.flushEnable then
      { s.flushBuffer s.mpCurrentBuffer with mpCurrentBuffer := LogBuffer.fresh }
    else s
  { s with mFlushThread := .done, mMutex := none }

/-- The pending buffers are swapped with the empty `needFlushBuffers`. -/
def swapBuffers (s : LogServer) : LogServer :=
  { s with
    needFlushBuffers := s.mvPendingBuffers
    mvPendingBuffers := s.needFlushBuffers
    mFlushThread := .flushing 0
    mMutex := none }

/-- What the flush thread does under the lock once `wait_for` has returned. -/
def proceed (s : LogServer) (timeout : Bool) : LogServer :=
  if s.mStopThread then s.finalFlush
  -- the current buffer goes with the pending ones, however little is in it
  else if timeout ∨ s.mNeedFlushNow then { s.retire with mNeedFlushNow := false }.swapBuffers
  else s.swapBuffers

/-- The body of the loop over `needFlushBuffers`. -/
def flushNext (s : LogServer) (pos : Nat) (b : LogBuffer) : LogServer :=
  let s := s.rotate b
  { s.flushBuffer b with
    mLogAlreadyWritenBytes := s.mLogAlreadyWritenBytes + b.size
    needFlushBuffers := s.needFlushBuffers.set pos LogBuffer.fresh
    mFlushThread := .flushing (pos + 1) }

/-- The predicate of `wait_for`. -/
def MayWake (s : LogServer) : Prop :=
  s.mStopThread = true ∨ s.mvPendingBuffers ≠ [] ∨ s.mNeedFlushNow = true

instance (s : LogServer) : Decidable s.MayWake := inferInstanceAs (Decidable (_ ∨ _ ∨ _))

def step (s : LogServer) : LogStep → Option LogServer
  | .write t line =>
    if s.mMutex = none ∧ s.writers t = .outside then
      some { s with mMutex := some (.client t), writers := update s.writers t (.locked line) }
    else none
  | .append t =>
    match s.writers t with
    | .locked line => some { s.append line with writers := update s.writers t .written }
    | _ => none
  | .unlock t =>
    match s.writers t with
    | .written => some { s with writers := update s.writers t .outside, mMutex := none }
    | _ => none
  | .forceFlush => some { s with mNeedFlushNow := true }
  | .forceDestroy =>
    match s.destroyer with
    | .outside => some { s with destroyer := .called s.accepted }
    | _ => none
  | .setStop =>
    match s.destroyer with
    | .called before => some { s with mStopThread := true, destroyer := .joining before }
    | _ => none
  | .join =>
    match s.destroyer, s.mFlushThread with
    | .joining before, .done => some { s with destroyer := .joined before }
    | _, _ => none
  | .test =>
    match s.mFlushThread with
    -- without the lock, and without a look at the buffers
    | .testing => some { s with mFlushThread := if s.mStopThread then .done else .waiting }
    | _ => none
  | .wake =>
    match s.mFlushThread with
    | .waiting =>
      if s.mMutex = none then
        some { s with mMutex := some .flush, mFlushThread := .woken (decide ¬ s.MayWake) }
      else none
    | _ => none
  | .proceed =>
    match s.mFlushThread with
    | .woken timeout => some (s.proceed timeout)
    | _ => none
  | .flush =>
    match s.mFlushThread with
    | .flushing pos =>
      match s.needFlushBuffers[pos]? with
      | some b => some (s.flushNext pos b)
      | none => some { s with mFlushThread := .returning }
    | _ => none
  | .returnBuffers =>
    match s.mFlushThread with
    | .returning =>
      if s.mMutex = none then
        some { s with
          mvAvailbleBuffers := s.mvAvailbleBuffers ++ s.needFlushBuffers
          needFlushBuffers := []
          mFlushThread := .testing }
      else none
    | _ => none

end LogServer

end SimpleTcp
