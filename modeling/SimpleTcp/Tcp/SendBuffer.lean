import SimpleTcp.Library.Machine
import SimpleTcp.Library.Fifo
import SimpleTcp.Tcp.Buffer

/-!
# The send buffer as a byte FIFO

The send buffer of a connection sees two operations: `appendToBuffer` behind the readable bytes
and `writeToSocket` from the front of them. The machine of this file takes them in any order and
records, beside the buffer, the bytes `write(2)` has taken and the data given to
`appendToBuffer`; the abstract queue of a state consists of the bytes taken and the readable ones.

## Main definitions

* `SendBuffer`, `BufferOp`, `SendBuffer.step`: the buffer, its operations and their effect
* `SendBuffer.queue`: the FIFO a state stands for
* `SendBuffer.Fifo`: the positions are in order and the queue holds what was appended

## Main results

* `SendBuffer.step_append`, `SendBuffer.step_write`: the operations are a push and a pop
* `SendBuffer.fifo_iff_canAppend`: the runs that keep the FIFO
-/

namespace SimpleTcp

structure SendBuffer where
  buffer : TcpBuffer
  /-- The bytes `write(2)` has taken. -/
  handed : Bytes
  /-- The data given to `appendToBuffer`. -/
  appended : Bytes

/-- `appendToBuffer(data)`, or `writeToSocket` with the result of its `write(2)`. -/
inductive BufferOp where
  | append (data : Bytes)
  | write (res : WriteResult) (soError : Errno)

namespace SendBuffer

def fresh : SendBuffer := ⟨TcpBuffer.fresh, [], []⟩

/-- One operation. The exception of `writeToSocket` is left to the caller, and the buffer is as it
was. -/
def step : BufferOp → EStateM Stop SendBuffer Unit
  | .append data => do
    let s ← get
    match s.buffer.appendToBuffer data with
    | .ok b => set { s with buffer := b, appended := s.appended ++ data }
    | .error e => throw e
  | .write res soError => do
    let s ← get
    match s.buffer.writeToSocket res soError with
    | .ok (taken, b) => set { s with buffer := b, handed := s.handed ++ taken }
    | .error (.networkException _) => pure ()
    | .error e => throw e

/-- The queue a state stands for. -/
def queue (s : SendBuffer) : Fifo.Queue UInt8 := ⟨s.handed, s.buffer.readable⟩

/-- `mReadPos <= mWritePos <= mBuffer.size()`, and the bytes handed over followed by the readable
ones are the data appended. -/
structure Fifo (s : SendBuffer) : Prop where
  valid : s.buffer.Valid
  all_eq : s.queue.all = s.appended

/-- An operation completes, in a state that is a FIFO of what was appended. -/
def Kept (r : EStateM.Result Stop SendBuffer Unit) : Prop := ∃ s, r = .ok () s ∧ s.Fifo

/-- The data of an append finds room. -/
def CanStep (s : SendBuffer) : BufferOp → Prop
  | .append data => s.buffer.CanAppend data
  | .write _ _ => True

variable {s : SendBuffer}

theorem fresh_fifo : fresh.Fifo := ⟨TcpBuffer.fresh_valid, rfl⟩

theorem step_append_ok {data : Bytes} {b : TcpBuffer} (h : s.buffer.appendToBuffer data = .ok b) :
    (step (.append data)).run s =
      .ok () { s with buffer := b, appended := s.appended ++ data } := by
  simp [step, EStateM.run_bind, EStateM.run_get, h, EStateM.run_set]

theorem step_append_error {data : Bytes} {e : Stop} (h : s.buffer.appendToBuffer data = .error e) :
    (step (.append data)).run s = .error e s := by
  simp [step, EStateM.run_bind, EStateM.run_get, h]

/-- **Appending** with room pushes the data. -/
theorem step_append (h : s.Fifo) {data : Bytes} (hd : s.buffer.CanAppend data) :
    ∃ s', (step (.append data)).run s = .ok () s' ∧ s'.Fifo ∧ s'.queue = s.queue.push data := by
  obtain ⟨b, hb, hv, hr⟩ := TcpBuffer.appendToBuffer_of_canAppend h.valid hd
  have hq : queue { s with buffer := b, appended := s.appended ++ data } = s.queue.push data := by
    simp only [queue, Fifo.Queue.push, hr]
  refine ⟨_, step_append_ok hb, ⟨hv, ?_⟩, hq⟩
  rw [hq, Fifo.Queue.all_push, h.all_eq]

theorem step_append_stops (h : s.Fifo) {data : Bytes} (hd : ¬ s.buffer.CanAppend data) :
    ∃ e, (step (.append data)).run s = .error e s ∧ TcpBuffer.GrowStop e := by
  obtain ⟨e, he, hstop⟩ := TcpBuffer.appendToBuffer_of_not_canAppend h.valid hd
  exact ⟨e, step_append_error he, hstop⟩

/-- **Writing** pops the bytes the kernel takes, none when it takes none. -/
theorem step_write (h : s.Fifo) (res : WriteResult) (soError : Errno) :
    ∃ s' n, (step (.write res soError)).run s = .ok () s' ∧ s'.Fifo ∧
      s'.queue = s.queue.pop n := by
  have hstay : s.queue = s.queue.pop 0 := by simp [queue, Fifo.Queue.pop]
  cases res with
  | failed errno =>
    refine ⟨s, 0, ?_, h, hstay⟩
    simp [step, TcpBuffer.writeToSocket]
  | accepted room =>
    rcases TcpBuffer.writeToSocket_accepted h.valid room soError with
      ⟨-, hw⟩ | ⟨b, hw, -, hv, hr⟩
    · refine ⟨s, 0, ?_, h, hstay⟩
      simp [step, EStateM.run_bind, EStateM.run_get, hw]
    · have hq : queue { s with
          buffer := b
          handed := s.handed ++ s.buffer.readable.take room } = s.queue.pop room := by
        simp only [queue, Fifo.Queue.pop, hr]
      refine ⟨{ s with
          buffer := b
          handed := s.handed ++ s.buffer.readable.take room }, room, ?_, ⟨hv, ?_⟩, hq⟩
      · simp [step, EStateM.run_bind, EStateM.run_get, hw, EStateM.run_set]
      · rw [hq, Fifo.Queue.all_pop, h.all_eq]

theorem kept_of_canStep (h : s.Fifo) {op : BufferOp} (hop : s.CanStep op) :
    Kept ((step op).run s) := by
  cases op with
  | append data =>
    obtain ⟨s', hs', hf, -⟩ := step_append h hop
    exact ⟨s', hs', hf⟩
  | write res soError =>
    obtain ⟨s', _, hs', hf, -⟩ := step_write h res soError
    exact ⟨s', hs', hf⟩

theorem canStep_of_kept (h : s.Fifo) {op : BufferOp} (hop : Kept ((step op).run s)) :
    s.CanStep op := by
  cases op with
  | append data =>
    by_contra hd
    obtain ⟨e, he, -⟩ := step_append_stops h hd
    obtain ⟨s', hs', -⟩ := hop
    rw [he] at hs'
    cases hs'
  | write res soError => trivial

/-- **The send buffer is a FIFO** in the runs whose appends all find room, and in no others. -/
theorem fifo_iff_canAppend (ops : List BufferOp) :
    Machine.Always step Kept fresh ops ↔ Machine.Along step CanStep fresh ops := by
  refine Machine.always_iff_along (I := Fifo) (fun s hs => ⟨s, rfl, hs⟩) ?_ ?_ ?_ fresh_fifo
  · intro s op s' hs hop hrun
    obtain ⟨t, ht, hf⟩ := kept_of_canStep hs hop
    rw [hrun] at ht
    cases ht
    exact hf
  · intro s op e s' hs hop hrun
    obtain ⟨t, ht, -⟩ := kept_of_canStep hs hop
    rw [hrun] at ht
    cases ht
  · intro s op hs hop
    exact canStep_of_kept hs hop

/-- A second append that is shorter than the first cuts the vector below `mWritePos` and copies
past its end. -/
theorem not_fifo_second_append :
    ¬ ∀ ops : List BufferOp, Machine.Always step Kept fresh ops := by
  intro h
  have hrun := h [.append (List.replicate 1000 1), .append (List.replicate 100 2)]
  obtain ⟨b, hb, hstop⟩ : ∃ b, TcpBuffer.fresh.appendToBuffer (List.replicate 1000 1) = .ok b ∧
      b.appendToBuffer (List.replicate 100 2) = .error .outOfBounds :=
    ⟨⟨List.replicate 1000 1 ++ List.replicate 24 0, 0, 1000⟩, by decide +kernel,
      by decide +kernel⟩
  obtain ⟨s, hs, -⟩ := (hrun.tail (step_append_ok hb)).head
  rw [step_append_error hstop] at hs
  cases hs

end SendBuffer

end SimpleTcp
