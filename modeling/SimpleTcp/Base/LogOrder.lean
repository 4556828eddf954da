import SimpleTcp.Base.LogBounds

/-!
# The order of the log

The accepted lines pass from the current buffer through the pending buffers and the buffers being
flushed to the log files. Read from the files backwards to the current buffer, these places hold
the lines in the order in which they were accepted: a writer appends at the end, retiring and
swapping move a boundary between two places, and flushing moves the front.

## Main definitions

* `contents`, `LogServer.pipeline`: the bytes of buffers, and those of all places in order
* `LogServer.InOrder`: no line is lost, duplicated or out of order

## Main results

* `LogServer.inOrder_of_run`: the lines are in order in every state of every run
-/

namespace SimpleTcp

namespace LogServer

open Function (update)

/-- The bytes on their way, from the log files to the current buffer. -/
def pipeline (s : LogServer) : Bytes :=
  s.handed ++
    (contents s.needFlushBuffers ++ (contents s.mvPendingBuffers ++ s.mpCurrentBuffer.used))

/-- The lines that were accepted are on their way in order, the available buffers are empty, and no
buffer was written past its end. -/
structure InOrder (s : LogServer) : Prop where
  order : s.handed ++ contents s.needFlushBuffers ++ contents s.mvPendingBuffers ++
    s.mpCurrentBuffer.used = s.accepted.flatten
  available : ∀ b ∈ s.mvAvailbleBuffers, b.used = []
  fits : ∀ b ∈ s.mpCurrentBuffer :: (s.mvPendingBuffers ++ s.needFlushBuffers),
    b.size ≤ LOG_BUFFER_SIZE

/-- A line is discarded only when it does not fit into the current buffer and too many buffers are
pending; any other line is accepted behind the others. -/
def DiscardsOnlyFull (s s' : LogServer) (line : Bytes) : Prop :=
  s'.accepted = s.accepted ++ [line] ∨
    s'.accepted = s.accepted ∧ ¬ s.mpCurrentBuffer.writable line.length ∧
      MAX_PENDING_BUFFERS < s.mvPendingBuffers.length

/-- The step writes lines that fit into a buffer. -/
def Writes : LogStep → Prop
  | .write _ line => line.length ≤ LOG_BUFFER_SIZE
  | _ => True

/-- What the steps keep. -/
structure Inv (s : LogServer) : Prop where
  order : s.pipeline = s.accepted.flatten
  available : ∀ b ∈ s.mvAvailbleBuffers, b.used = []
  flushed : Flushed s.mFlushThread s.needFlushBuffers
  current : s.mpCurrentBuffer.size ≤ LOG_BUFFER_SIZE
  pending : ∀ b ∈ s.mvPendingBuffers, b.size ≤ LOG_BUFFER_SIZE
  needFlush : ∀ b ∈ s.needFlushBuffers, b.size ≤ LOG_BUFFER_SIZE
  lines : ∀ t line, s.writers t = .locked line → line.length ≤ LOG_BUFFER_SIZE

variable {s s' : LogServer}

theorem create_inv : create.Inv where
  order := rfl
  available := fun _ h => by cases h
  flushed := rfl
  current := Nat.zero_le _
  pending := fun _ h => by cases h
  needFlush := fun _ h => by cases h
  lines := fun _ _ h => by cases h

theorem Inv.inOrder (h : s.Inv) : s.InOrder where
  order := by
    rw [List.append_assoc, List.append_assoc]
    exact h.order
  available := h.available
  fits := by
    intro b hb
    rcases List.mem_cons.mp hb with rfl | hb
    · exact h.current
    · exact (List.mem_append.mp hb).elim (h.pending b) (h.needFlush b)

theorem Inv.bounded (h : s.Inv) : s.Bounded :=
  ⟨h.current, h.available, h.pending, h.needFlush, h.flushed⟩

theorem Inv.flushed_flushing (h : s.Inv) {pos : Nat} (hpc : s.mFlushThread = .flushing pos) :
    ∀ b ∈ s.needFlushBuffers.take pos, b.used = [] := by
  have hflushed := h.flushed
  rwa [hpc] at hflushed

theorem Inv.flushed_returning (h : s.Inv) (hpc : s.mFlushThread = .returning) :
    ∀ b ∈ s.needFlushBuffers, b.used = [] := by
  have hflushed := h.flushed
  rwa [hpc] at hflushed

/-- The flush thread has no buffer while it waits for one. -/
theorem Inv.needFlush_eq_nil (h : s.Inv) (hidle : s.mFlushThread.isIdle = true) :
    s.needFlushBuffers = [] :=
  (flushed_of_isIdle hidle).mp h.flushed

/-! ### The order -/

/-- The bytes on their way are the accepted lines. -/
def Ordered (s : LogServer) : Prop := s.pipeline = s.accepted.flatten

/-- **Retiring** moves the boundary between the current buffer and the pending ones. -/
theorem Ordered.retire (h : s.Ordered) (hb : s.Bounded) : s.retire.Ordered := by
  rw [Ordered, pipeline, retire_current hb.available, List.append_nil]
  show s.handed ++ (contents s.needFlushBuffers ++
    contents (s.mvPendingBuffers ++ [s.mpCurrentBuffer])) = s.accepted.flatten
  rw [contents_append, contents_singleton]
  exact h

/-- **Writing** a line appends it to the pipeline. -/
theorem Ordered.writeLine (h : s.Ordered) (line : Bytes) : (s.writeLine line).Ordered := by
  change s.handed ++ (contents s.needFlushBuffers ++ (contents s.mvPendingBuffers ++
    (s.mpCurrentBuffer.used ++ line))) = (s.accepted ++ [line]).flatten
  rw [List.flatten_append, ← h, pipeline]
  simp only [List.append_assoc, List.flatten_cons, List.flatten_nil, List.append_nil]

theorem Ordered.append (h : s.Ordered) (hb : s.Bounded) (line : Bytes) :
    (s.append line).Ordered := by
  unfold LogServer.append
  split
  · exact h.writeLine line
  · split
    · exact (h.retire hb).writeLine line
    · exact h

theorem Ordered.finalFlush (h : s.Ordered) (hnone : s.needFlushBuffers = []) :
    s.finalFlush.Ordered := by
  rw [finalFlush_eq]
  change s.closedFiles.flatten ++ (s.mLogFileStream ++ contents s.mvPendingBuffers ++
    s.mpCurrentBuffer.used) ++ (contents s.needFlushBuffers ++
      (contents (s.mvPendingBuffers.map fun _ => LogBuffer.fresh) ++ [])) = s.accepted.flatten
  rw [hnone, contents_map_fresh, ← h, pipeline, hnone, handed]
  simp only [contents_nil, List.append_nil, List.nil_append, List.append_assoc]

/-- **Swapping** makes the pending buffers those that are flushed next. -/
theorem Ordered.swapBuffers (h : s.Ordered) (hnone : s.needFlushBuffers = []) :
    s.swapBuffers.Ordered := by
  change s.handed ++ (contents s.mvPendingBuffers ++ (contents s.needFlushBuffers ++
    s.mpCurrentBuffer.used)) = s.accepted.flatten
  rw [← h, pipeline, hnone]
  rfl

theorem Ordered.proceed (h : s.Ordered) (hb : s.Bounded) (hnone : s.needFlushBuffers = [])
    (timeout : Bool) : (s.proceed timeout).Ordered := by
  unfold LogServer.proceed
  split
  · exact h.finalFlush hnone
  · split
    · exact Ordered.swapBuffers (h.retire hb) hnone
    · exact h.swapBuffers hnone

/-- **Flushing** moves the front of the buffers to the log file. -/
theorem Ordered.flushNext (h : s.Ordered) {pos : Nat} {b : LogBuffer}
    (hget : s.needFlushBuffers[pos]? = some b)
    (hflushed : ∀ c ∈ s.needFlushBuffers.take pos, c.used = []) : (s.flushNext pos b).Ordered := by
  obtain ⟨files, stream, n, hhanded, hrotate⟩ := rotate_eq s b
  unfold LogServer.flushNext
  rw [hrotate]
  -- all buffers before this one are empty, so its bytes are the next of the pipeline
  change files.flatten ++ (stream ++ b.used) ++
    (contents (s.needFlushBuffers.set pos LogBuffer.fresh) ++
      (contents s.mvPendingBuffers ++ s.mpCurrentBuffer.used)) = s.accepted.flatten
  rw [← h, pipeline, ← hhanded, contents_set_fresh hget hflushed]
  simp only [List.append_assoc]

/-! ### Steps -/

theorem append_discards (s : LogServer) (line : Bytes) :
    s.DiscardsOnlyFull (s.append line) line := by
  unfold append
  split
  · exact .inl rfl
  · next hw =>
    split
    · exact .inl rfl
    · next hfull => exact .inr ⟨rfl, hw, Nat.lt_of_not_le hfull⟩

theorem step_ordered {i : LogStep} (h : s.Inv) (hstep : s.step i = some s') : s'.Ordered := by
  have horder : s.Ordered := h.order
  cases step_turn hstep with
  | idle buffers files accepted =>
    rw [Ordered, pipeline, handed, files.closed, files.stream, buffers.needFlush, buffers.pending,
      buffers.current, accepted]
    exact horder
  | append t line locked eq =>
    subst eq
    exact horder.append h.bounded line
  | proceed timeout pc eq =>
    subst eq
    exact horder.proceed h.bounded (h.needFlush_eq_nil (by rw [pc]; rfl)) timeout
  | flush pos b pc get eq =>
    subst eq
    exact horder.flushNext get (h.flushed_flushing pc)
  | flushed pos pc none eq =>
    subst eq
    exact horder
  | returned pc eq =>
    subst eq
    -- the buffers are empty, so they add nothing to the pipeline
    rw [Ordered, pipeline, contents_eq_nil (h.flushed_returning pc)] at horder
    exact horder

theorem step_inv {i : LogStep} (h : s.Inv) (hi : Writes i) (hstep : s.step i = some s') :
    s'.Inv := by
  -- every line that is locked fits into a buffer, so no buffer is overrun
  have hfits : s.FitsOrDiscards i := by
    cases i with
    | append t => exact fun line hlocked => .inl (h.lines t line hlocked)
    | _ => trivial
  have hb := step_bounded h.bounded hfits hstep
  refine ⟨step_ordered h hstep, hb.available, hb.flushed, hb.current, hb.pending, hb.needFlush,
    fun t line hline => ?_⟩
  rcases step_writers hstep t line hline with hold | rfl
  · exact h.lines t line hold
  · exact hi

theorem run_inv {is : List LogStep} (his : ∀ i ∈ is, Writes i)
    (hrun : Transition.run step create is = some s) : s.Inv :=
  Transition.run_invariant_of (fun _ _ _ h hi hstep => step_inv h hi hstep) create_inv his hrun

/-- **The log keeps its order**: in every state of a run whose lines fit into a buffer, the bytes in
the log files followed by those in the buffers are the accepted lines, and the next line that is
written is accepted unless the buffers are full. -/
theorem inOrder_of_run {is : List LogStep} (his : ∀ i ∈ is, Writes i)
    (hrun : Transition.run step create is = some s) :
    s.InOrder ∧
      ∀ t line s', s.writers t = .locked line → s.step (.append t) = some s' →
        s.DiscardsOnlyFull s' line := by
  refine ⟨(run_inv his hrun).inOrder, fun t line s' hpc hstep => ?_⟩
  simp only [step, hpc, Option.some.injEq] at hstep
  subst hstep
  exact append_discards s line

/-- Three lines, two of which the flush thread has swapped out when the third is written. -/
theorem inOrder_swapped :
    ∃ s : LogServer, s.needFlushBuffers = [⟨[1, 2, 3]⟩] ∧ s.mpCurrentBuffer = ⟨[4]⟩ ∧
      s.InOrder := by
  have hrun : ∃ s, Transition.run step create [.write 1 [1, 2], .append 1, .unlock 1, .write 2 [3],
      .append 2, .unlock 2, .forceFlush, .test, .wake, .proceed, .write 1 [4], .append 1] = some s ∧
        s.needFlushBuffers = [⟨[1, 2, 3]⟩] ∧ s.mpCurrentBuffer = ⟨[4]⟩ :=
    ⟨_, rfl, rfl, rfl⟩
  obtain ⟨s, hrun, hneedFlush, hcurrent⟩ := hrun
  exact ⟨s, hneedFlush, hcurrent, (inOrder_of_run (by simp [Writes, LOG_BUFFER_SIZE]) hrun).1⟩

end LogServer

end SimpleTcp
