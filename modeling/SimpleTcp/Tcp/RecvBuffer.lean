import SimpleTcp.Library.Machine
import SimpleTcp.Library.Fifo
import SimpleTcp.Tcp.Buffer

/-!
# The receive buffer as a byte FIFO

The receive buffer of a connection is filled by `readFromSocket` and consumed by `extract` and its
variants; `read` and its variants look at the bytes that wait. The machine of this file takes these
calls in any order, and records beside the buffer the bytes `read(2)` has stored and those the
user has extracted. A run ends where the vector cannot be doubled any more, at `max_size()`.

## Main definitions

* `RecvBuffer`, `RecvCall`, `RecvBuffer.step`: the buffer, the calls and their effect
* `RecvBuffer.queue`: the FIFO a state stands for
* `RecvBuffer.Exact`: there is room to read, the queue holds what was received, and a read returns
  its front

## Main results

* `RecvBuffer.step_readFromSocket`, `RecvBuffer.step_extract`: a read is a push and an extraction a
  pop
* `RecvBuffer.served_always`: every run from the fresh buffer is exact throughout
-/

namespace SimpleTcp

namespace TcpBuffer

/-- The same bytes as `read`, as characters. -/
def readString (b : TcpBuffer) (size : Nat) : Bytes := b.read size

def readU8String (b : TcpBuffer) (size : Nat) : Bytes := b.read size

def extractString (b : TcpBuffer) (size : Nat) : Except Stop (Bytes × TcpBuffer) := b.extract size

def extractU8String (b : TcpBuffer) (size : Nat) : Except Stop (Bytes × TcpBuffer) :=
  b.extract size

/-- What `read(2)` stores behind `mWritePos` when it is given `writablebytes()`. -/
def stored (b : TcpBuffer) : ReadResult → Bytes
  | .bytes arrived => arrived.take b.writablebytes
  | .failed _ => []

end TcpBuffer

structure RecvBuffer where
  buffer : TcpBuffer
  /-- The bytes `read(2)` has stored. -/
  received : Bytes
  /-- The bytes the user has extracted. -/
  extracted : Bytes
  /-- What the last call returned. -/
  result : Bytes

/-- A call on the buffer; a read comes with the result of its `read(2)`. -/
inductive RecvCall where
  | readFromSocket (res : ReadResult) (soError : Errno)
  | read (size : Nat)
  | readString (size : Nat)
  | readU8String (size : Nat)
  | extract (size : Nat)
  | extractString (size : Nat)
  | extractU8String (size : Nat)

namespace RecvBuffer

def fresh : RecvBuffer := ⟨TcpBuffer.fresh, [], [], []⟩

/-- A view is returned, and the buffer stays as it is. -/
def view (read : TcpBuffer → Bytes) : EStateM Stop RecvBuffer Unit :=
  modify fun s => { s with result := read s.buffer }

/-- A container is returned, and its bytes leave the buffer. -/
def take (extract : TcpBuffer → Except Stop (Bytes × TcpBuffer)) :
    EStateM Stop RecvBuffer Unit := do
  let s ← get
  match extract s.buffer with
  | .ok (result, b) =>
    set { s with buffer := b, extracted := s.extracted ++ result, result := result }
  | .error e => throw e

/-- One call. The exception of `readFromSocket` is left to the caller, and the buffer is as it
was. -/
def step : RecvCall → EStateM Stop RecvBuffer Unit
  | .readFromSocket res soError => do
    let s ← get
    match s.buffer.readFromSocket res soError with
    | .ok b => set { s with buffer := b, received := s.received ++ s.buffer.stored res }
    | .error (.networkException _) => pure ()
    | .error e => throw e
  | .read size => view (TcpBuffer.read · size)
  | .readString size => view (TcpBuffer.readString · size)
  | .readU8String size => view (TcpBuffer.readU8String · size)
  | .extract size => take (TcpBuffer.extract · size)
  | .extractString size => take (TcpBuffer.extractString · size)
  | .extractU8String size => take (TcpBuffer.extractU8String · size)

/-- The queue a state stands for. -/
def queue (s : RecvBuffer) : Fifo.Queue UInt8 := ⟨s.extracted, s.buffer.readable⟩

/-- `call` returns the first `min(size, readable)` bytes and does nothing else. -/
def Views (s : RecvBuffer) (call : RecvCall) (size : Nat) : Prop :=
  (step call).run s =
    .ok () { s with result := s.buffer.readable.take (min size s.buffer.readable.length) }

/-- `mReadPos <= mWritePos < mBuffer.size()`, so that `read(2)` is given a positive length; the
bytes extracted followed by the readable ones are those received; and the views are exact. -/
structure Exact (s : RecvBuffer) : Prop where
  read_le : s.buffer.mReadPos ≤ s.buffer.mWritePos
  write_lt : s.buffer.mWritePos < s.buffer.mBuffer.length
  room : 0 < s.buffer.writablebytes
  received_eq : s.extracted ++ s.buffer.readable = s.received
  read : ∀ size, s.Views (.read size) size
  readString : ∀ size, s.Views (.readString size) size
  readU8String : ∀ size, s.Views (.readU8String size) size

/-- The call returns in an exact state, or stops because the vector has no double. -/
def Served : EStateM.Result Stop RecvBuffer Unit → Prop
  | .ok _ s => s.Exact
  | .error e s => e = .lengthError ∧ maxSize < 2 * s.buffer.mBuffer.length

/-- What the calls keep. -/
structure Inv (s : RecvBuffer) : Prop where
  hasRoom : s.buffer.HasRoom
  all_eq : s.queue.all = s.received

variable {s : RecvBuffer}

theorem fresh_inv : fresh.Inv := ⟨TcpBuffer.fresh_hasRoom, rfl⟩

theorem run_view (read : TcpBuffer → Bytes) :
    (view read).run s = .ok () { s with result := read s.buffer } := rfl

theorem run_take_ok {extract : TcpBuffer → Except Stop (Bytes × TcpBuffer)} {result : Bytes}
    {b : TcpBuffer} (h : extract s.buffer = .ok (result, b)) :
    (take extract).run s =
      .ok () { s with buffer := b, extracted := s.extracted ++ result, result := result } := by
  simp [take, EStateM.run_bind, EStateM.run_get, h, EStateM.run_set]

theorem Inv.exact (h : s.Inv) : s.Exact := by
  have hw := h.hasRoom.writablebytes_eq
  have hroom := h.hasRoom.room
  have hview : ∀ size, s.buffer.read size =
      s.buffer.readable.take (min size s.buffer.readable.length) := by
    intro size
    rw [h.hasRoom.read_eq, ← List.take_eq_take_min]
  constructor
  · exact h.hasRoom.read_le
  · exact hroom
  · omega
  · exact h.all_eq
  all_goals
    intro size
    unfold Views
    rw [← hview]
    rfl

/-- The vector is asked to grow past `max_size()` only by a read that fills it. -/
theorem two_mul_length_gt_of_lengthError {b : TcpBuffer} (h : b.HasRoom) {res : ReadResult}
    {soError : Errno} (herr : b.readFromSocket res soError = .error .lengthError) :
    maxSize < 2 * b.mBuffer.length := by
  by_contra hmax
  have hroom := h.room
  have hw := h.writablebytes_eq
  cases res with
  | failed errno => cases herr
  | bytes arrived =>
    have hlen : (arrived.take b.writablebytes).length ≤ b.mBuffer.length - b.mWritePos := by
      rw [List.length_take]
      omega
    obtain ⟨c, hc, -, -, hcl, -⟩ :=
      TcpBuffer.copyToWritePos_spec h.toValid (arrived.take b.writablebytes) (by omega)
    have hdouble : sizeMul c.mBuffer.length 2 ≤ maxSize := by
      rw [sizeMul_of_le (by omega)]
      omega
    simp only [TcpBuffer.readFromSocket, hc, ok_bind, TcpBuffer.resize, hdouble, if_true] at herr
    split at herr
    · cases herr
    · split at herr <;> cases herr

/-- **Reading from the socket** pushes what `read(2)` has stored. A read that stores nothing leaves
the state as it was, and one that fills a vector without a double ends the run. -/
theorem step_readFromSocket (h : s.Inv) (res : ReadResult) (soError : Errno) :
    (∃ s', (step (.readFromSocket res soError)).run s = .ok () s' ∧ s'.Inv ∧
        s'.queue = s.queue.push (s.buffer.stored res)) ∨
      (res.Nothing ∧ (step (.readFromSocket res soError)).run s = .ok () s) ∨
      ((step (.readFromSocket res soError)).run s = .error .lengthError s ∧
        maxSize < 2 * s.buffer.mBuffer.length) := by
  rcases TcpBuffer.readFromSocket_spec h.hasRoom res soError with
    ⟨hnothing, hr⟩ | ⟨-, hr⟩ | ⟨arrived, b, rfl, -, hr, hb, hreadable⟩
  · refine .inr (.inl ⟨hnothing, ?_⟩)
    simp [step, EStateM.run_bind, EStateM.run_get, hr]
  · refine .inr (.inr ⟨?_, two_mul_length_gt_of_lengthError h.hasRoom hr⟩)
    simp [step, EStateM.run_bind, EStateM.run_get, hr]
  · left
    rw [← h.hasRoom.writablebytes_eq] at hreadable
    have hq : queue { s with
        buffer := b
        received := s.received ++ s.buffer.stored (.bytes arrived) } =
          s.queue.push (s.buffer.stored (.bytes arrived)) := by
      simp only [queue, Fifo.Queue.push, hreadable, TcpBuffer.stored]
    refine ⟨_, ?_, ⟨hb, ?_⟩, hq⟩
    · simp [step, EStateM.run_bind, EStateM.run_get, hr, EStateM.run_set]
    · rw [hq, Fifo.Queue.all_push, h.all_eq]

/-- **Extracting** pops the first readable bytes. -/
theorem step_extract (h : s.Inv) (size : Nat) :
    ∃ s', (take (TcpBuffer.extract · size)).run s = .ok () s' ∧ s'.Inv ∧
      s'.queue = s.queue.pop size ∧ s'.result = s.buffer.readable.take size := by
  obtain ⟨b, hb, -, hreadable, hroom⟩ := TcpBuffer.extract_spec h.hasRoom.toValid size
  have hq : queue { s with
      buffer := b
      extracted := s.extracted ++ s.buffer.readable.take size
      result := s.buffer.readable.take size } = s.queue.pop size := by
    simp only [queue, Fifo.Queue.pop, hreadable]
  refine ⟨_, run_take_ok hb, ⟨hroom h.hasRoom, ?_⟩, hq, rfl⟩
  rw [hq, Fifo.Queue.all_pop, h.all_eq]

theorem step_view (h : s.Inv) (read : TcpBuffer → Bytes) :
    ∃ s', (view read).run s = .ok () s' ∧ s'.Inv :=
  ⟨_, run_view read, h.hasRoom, h.all_eq⟩

/-- One call, from a state of the invariant. -/
theorem step_outcome (h : s.Inv) (call : RecvCall) :
    (∃ s', (step call).run s = .ok () s' ∧ s'.Inv) ∨
      ((step call).run s = .error .lengthError s ∧ maxSize < 2 * s.buffer.mBuffer.length) := by
  cases call with
  | readFromSocket res soError =>
    rcases step_readFromSocket h res soError with ⟨s', hs', hi, -⟩ | ⟨-, hs⟩ | hstop
    · exact .inl ⟨s', hs', hi⟩
    · exact .inl ⟨s, hs, h⟩
    · exact .inr hstop
  | read size => exact .inl (step_view h (TcpBuffer.read · size))
  | readString size => exact .inl (step_view h (TcpBuffer.readString · size))
  | readU8String size => exact .inl (step_view h (TcpBuffer.readU8String · size))
  | extract size | extractString size | extractU8String size =>
    obtain ⟨s', hs', hi, -⟩ := step_extract h size
    exact .inl ⟨s', hs', hi⟩

/-- **The receive buffer is a FIFO with room to read**, in every state of every run. -/
theorem served_always (calls : List RecvCall) : Machine.Always step Served fresh calls := by
  refine Machine.always_of_invariant (I := Inv) (fun s hs => hs.exact) ?_ ?_ fresh_inv calls
  · intro s call s' hs hok
    rcases step_outcome hs call with ⟨t, ht, hi⟩ | ⟨hstop, -⟩
    · rw [hok] at ht
      cases ht
      exact hi
    · rw [hok] at hstop
      cases hstop
  · intro s call e s' hs herr
    rcases step_outcome hs call with ⟨t, ht, -⟩ | ⟨hstop, hmax⟩
    · rw [herr] at ht
      cases ht
    · rw [herr] at hstop
      cases hstop
      exact ⟨rfl, hmax⟩

end RecvBuffer

end SimpleTcp
