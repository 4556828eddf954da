import SimpleTcp.Base.LogOrder

/-!
# The sizes of the log files

The loop over the buffers creates a new log file when a buffer would fill the current one, and
counts what it writes. The final flush writes all buffers that are left to the current file, without
a look at its size. A log file stays in its limit exactly if the final flush finds room for what is
left.

## Main definitions

* `LogServer.FilesBounded`: the files are in their limit, and the bytes are counted
* `LogServer.LeavesRoom`: the final flush finds room for what is left

## Main results

* `LogServer.step_accounted`: the steps keep the limit and the count
* `LogServer.filesBounded_iff`: the runs that keep the files in their limit
-/

namespace SimpleTcp

namespace LogServer

open Function (update)

open Transition (Along Always run_cons_eq_some)

/-- No log file has received more than its limit, and the bytes of the current one are counted when
the flush thread waits. -/
def FilesBounded (s : LogServer) : Prop :=
  (∀ file ∈ s.closedFiles ++ [s.mLogFileStream], file.length ≤ LOG_MAX_FILE_SIZE) ∧
    (s.mFlushThread = .waiting → s.mLogAlreadyWritenBytes = s.mLogFileStream.length)

/-- When the server stops, the current log file has room for the buffers that are left. -/
def LeavesRoom (s : LogServer) : LogStep → Prop
  | .proceed => s.mStopThread = true →
      s.mLogAlreadyWritenBytes + (contents s.mvPendingBuffers).length + s.mpCurrentBuffer.size ≤
        LOG_MAX_FILE_SIZE
  | _ => True

instance (s : LogServer) : (i : LogStep) → Decidable (s.LeavesRoom i)
  | .proceed => inferInstanceAs (Decidable (_ → _))
  | .write _ _ | .append _ | .unlock _ | .forceFlush | .forceDestroy | .setStop | .join | .test
  | .wake | .flush | .returnBuffers => .isTrue trivial

/-- What the steps keep. -/
structure Accounted (s : LogServer) : Prop where
  buffers : s.Inv
  closed : ∀ file ∈ s.closedFiles, file.length ≤ LOG_MAX_FILE_SIZE
  stream : s.mLogFileStream.length ≤ LOG_MAX_FILE_SIZE
  /-- The final flush is the only one that is not counted. -/
  written : s.mFlushThread ≠ .done → s.mLogAlreadyWritenBytes = s.mLogFileStream.length

variable {s s' : LogServer} {i : LogStep}

theorem create_accounted : create.Accounted where
  buffers := create_inv
  closed := fun _ h => by cases h
  stream := Nat.zero_le _
  written := fun _ => rfl

theorem Accounted.filesBounded (h : s.Accounted) : s.FilesBounded := by
  refine ⟨fun file hfile => ?_, fun hpc => h.written ?_⟩
  · rcases List.mem_append.mp hfile with hclosed | hstream
    · exact h.closed file hclosed
    · exact List.mem_singleton.mp hstream ▸ h.stream
  · rw [hpc]
    simp

/-! ### Steps -/

/-- The buffers that are left come behind what is in the file. -/
theorem finalFlush_length (s : LogServer) : s.finalFlush.mLogFileStream.length =
    s.mLogFileStream.length + (contents s.mvPendingBuffers).length + s.mpCurrentBuffer.size := by
  rw [finalFlush_eq]
  change (s.mLogFileStream ++ contents s.mvPendingBuffers ++ s.mpCurrentBuffer.used).length = _
  rw [List.length_append, List.length_append, LogBuffer.size]

/-- Without a final flush the flush thread only swaps buffers. -/
theorem proceed_sameFiles (hstop : s.mStopThread ≠ true) (timeout : Bool) :
    s.SameFiles (s.proceed timeout) := by
  rw [proceed, if_neg hstop]
  split <;> exact ⟨rfl, rfl, rfl⟩

/-- A buffer goes to the current file while it stays below its limit, and to a new one else. -/
theorem flushNext_files (s : LogServer) (pos : ℕ) (b : LogBuffer) :
    let s' := s.flushNext pos b
    (b.size + s.mLogAlreadyWritenBytes < LOG_MAX_FILE_SIZE ∧ s'.closedFiles = s.closedFiles ∧
        s'.mLogFileStream = s.mLogFileStream ++ b.used ∧
        s'.mLogAlreadyWritenBytes = s.mLogAlreadyWritenBytes + b.size) ∨
      (LOG_MAX_FILE_SIZE ≤ b.size + s.mLogAlreadyWritenBytes ∧
        s'.closedFiles = s.closedFiles ++ [s.mLogFileStream] ∧ s'.mLogFileStream = b.used ∧
        s'.mLogAlreadyWritenBytes = b.size) := by
  intro s'
  by_cases hfull : b.size + s.mLogAlreadyWritenBytes ≥ LOG_MAX_FILE_SIZE
  · right
    have hrotate : s.rotate b = { s with
        closedFiles := s.closedFiles ++ [s.mLogFileStream]
        mLogFileStream := []
        mLogAlreadyWritenBytes := 0 } := if_pos hfull
    simp only [s', flushNext, hrotate, flushBuffer, List.nil_append, Nat.zero_add, and_self,
      and_true]
    exact hfull
  · left
    have hrotate : s.rotate b = s := if_neg hfull
    simp only [s', flushNext, hrotate, flushBuffer, and_self, and_true]
    exact Nat.not_le.mp hfull

/-- **The limit and the count are kept** by every step, if the final flush finds room. -/
theorem step_accounted (h : s.Accounted) (hw : Writes i) (hroom : s.LeavesRoom i)
    (hstep : s.step i = some s') : s'.Accounted := by
  have hinv := step_inv h.buffers hw hstep
  -- most steps leave the files alone; the count holds until the flush thread is done
  have hsame (files : s.SameFiles s') (hpc : s'.mFlushThread ≠ .done → s.mFlushThread ≠ .done) :
      s'.Accounted := by
    refine ⟨hinv, ?_, ?_, fun hrunning => ?_⟩
    · rw [files.closed]
      exact h.closed
    · rw [files.stream]
      exact h.stream
    · rw [files.written, files.stream]
      exact h.written (hpc hrunning)
  cases step_turn hstep with
  | idle buffers files accepted writers pc =>
    refine hsame files fun hrunning => ?_
    rcases pc with hpc | ⟨-, hpc, -⟩
    · exact hpc ▸ hrunning
    · exact hpc
  | append t line locked eq =>
    subst eq
    obtain ⟨hstream, hclosed, hwritten⟩ := append_sameFiles s line
    exact hsame ⟨hstream, hclosed, hwritten⟩ fun hrunning => append_pc s line ▸ hrunning
  | proceed timeout pc eq =>
    subst eq
    -- the final flush appends what is left without counting it
    by_cases hstop : s.mStopThread = true
    · have hproceed : s.proceed timeout = s.finalFlush := if_pos hstop
      have hwritten : s.mLogAlreadyWritenBytes = s.mLogFileStream.length :=
        h.written (by simp [pc])
      rw [hproceed] at hinv ⊢
      refine ⟨hinv, ?_, ?_, fun hrunning => absurd ?_ hrunning⟩
      · rw [finalFlush_eq]
        exact h.closed
      · rw [finalFlush_length, ← hwritten]
        exact hroom hstop
      · rw [finalFlush_eq]
    · exact hsame (proceed_sameFiles hstop timeout) fun _ => by simp [pc]
  | flush pos b pc get eq =>
    subst eq
    have hwritten : s.mLogAlreadyWritenBytes = s.mLogFileStream.length := h.written (by simp [pc])
    have hsize : b.size ≤ LOG_BUFFER_SIZE := h.buffers.needFlush b (List.mem_of_getElem? get)
    have hbuffer : LOG_BUFFER_SIZE ≤ LOG_MAX_FILE_SIZE := by decide
    -- a buffer goes behind the others, or a new file begins with it
    rcases flushNext_files s pos b with ⟨hroom, hclosed, hstream, hcount⟩ |
      ⟨hfull, hclosed, hstream, hcount⟩
    · have hlength : (s.flushNext pos b).mLogFileStream.length =
          s.mLogFileStream.length + b.size := by
        rw [hstream, List.length_append, LogBuffer.size]
      refine ⟨hinv, ?_, by omega, fun _ => by omega⟩
      rw [hclosed]
      exact h.closed
    · have hlength : (s.flushNext pos b).mLogFileStream.length = b.size := by
        rw [hstream, LogBuffer.size]
      refine ⟨hinv, ?_, by omega, fun _ => by omega⟩
      -- the file that is closed was in its limit
      rw [hclosed]
      intro file hfile
      rcases List.mem_append.mp hfile with hfile | hfile
      · exact h.closed file hfile
      · exact List.mem_singleton.mp hfile ▸ h.stream
  | flushed pos pc none eq =>
    subst eq
    exact hsame ⟨rfl, rfl, rfl⟩ fun _ => by simp [pc]
  | returned pc eq =>
    subst eq
    exact hsame ⟨rfl, rfl, rfl⟩ fun _ => by simp [pc]

/-- A final flush that does not find room leaves a file that is too long. -/
theorem leavesRoom_of_filesBounded (h : s.Accounted) (hstep : s.step i = some s')
    (hbounded : s'.FilesBounded) : s.LeavesRoom i := by
  cases i with
  | proceed =>
    intro hstop
    cases step_turn hstep with
    | idle buffers files accepted writers pc append proceed => exact absurd rfl proceed
    | proceed timeout pc eq =>
      have hwritten : s.mLogAlreadyWritenBytes = s.mLogFileStream.length :=
        h.written (by simp [pc])
      have hproceed : s' = s.finalFlush := eq.trans (if_pos hstop)
      have hlast := hbounded.1 s'.mLogFileStream
        (List.mem_append_right _ (List.mem_singleton_self _))
      rwa [hproceed, finalFlush_length, ← hwritten] at hlast
  | _ => trivial

/-- **The log files stay in their limit** exactly when every final flush finds room for the buffers
that are left; the bytes are counted in any case. -/
theorem filesBounded_iff (is : List LogStep) (his : ∀ i ∈ is, Writes i) :
    Always step FilesBounded create is ↔ Along step LeavesRoom create is :=
  Transition.always_iff_along_of (fun _ h => h.filesBounded)
    (fun _ _ _ h hw hroom hstep => step_accounted h hw hroom hstep)
    (fun _ _ _ h _ hstep hbounded => leavesRoom_of_filesBounded h hstep hbounded)
    create_accounted his

/-- A line is left when the server stops. -/
theorem filesBounded_iff_stopped :
    Always step FilesBounded create [.write 0 [1, 2], .append 0, .unlock 0, .test, .forceDestroy,
      .setStop, .wake, .proceed] :=
  (filesBounded_iff _ (by simp [Writes, LOG_BUFFER_SIZE])).mpr (by decide)

/-! ### A file that is too long -/

/-- The flush thread tests its condition, the current buffer alone is in use, and the log file has
`n` bytes. -/
structure Resting (s : LogServer) (line : Bytes) (n : ℕ) : Prop where
  pc : s.mFlushThread = .testing
  mutex : s.mMutex = none
  running : s.mStopThread = false
  writer : s.writers 0 = .outside
  destroyer : s.destroyer = .outside
  current : s.mpCurrentBuffer.used = line
  available : ∀ b ∈ s.mvAvailbleBuffers, b.used = []
  pending : s.mvPendingBuffers = []
  needFlush : s.needFlushBuffers = []
  stream : s.mLogFileStream.length = n
  written : s.mLogAlreadyWritenBytes = n

theorem create_resting : create.Resting [] 0 :=
  ⟨rfl, rfl, rfl, rfl, rfl, rfl, fun _ h => (by cases h), rfl, rfl, rfl, rfl⟩

section

variable {line : Bytes} {n : ℕ}

/-- A thread writes the line. -/
def writeSteps (line : Bytes) : List LogStep := [.write 0 line, .append 0, .unlock 0]

/-- The flush thread goes once through its loop. -/
def flushSteps : List LogStep :=
  [.forceFlush, .test, .wake, .proceed, .flush, .flush, .returnBuffers]

/-- The server stops while the flush thread waits. -/
def stopSteps : List LogStep := [.test, .forceDestroy, .setStop, .wake, .proceed]

theorem writeSteps_writes (hline : line.length ≤ LOG_BUFFER_SIZE) :
    ∀ i ∈ writeSteps line, Writes i := by
  simpa [writeSteps, Writes] using hline

theorem flushSteps_writes : ∀ i ∈ flushSteps, Writes i := by simp [flushSteps, Writes]

theorem stopSteps_writes : ∀ i ∈ stopSteps, Writes i := by simp [stopSteps, Writes]

/-- A line that fits into the empty buffer is written. -/
theorem Resting.exists_write (h : s.Resting [] n) (hline : line.length ≤ LOG_BUFFER_SIZE) :
    ∃ s', Transition.run step s (writeSteps line) = some s' ∧
      s'.Resting line n := by
  have hsize : s.mpCurrentBuffer.size = 0 := by rw [LogBuffer.size, h.current, List.length_nil]
  have hw : s.mpCurrentBuffer.writable line.length := by
    rw [LogBuffer.writable_iff (by omega)]
    omega
  refine ⟨{ s with
    mpCurrentBuffer := ⟨line⟩
    accepted := s.accepted ++ [line]
    writers := update (update (update s.writers 0 (.locked line)) 0 .written) 0 .outside
    mMutex := none }, ?_, ?_⟩
  · have hwrite : s.mpCurrentBuffer.write line = ⟨line⟩ := by
      rw [LogBuffer.write, h.current, List.nil_append]
    simp only [writeSteps, Transition.run, step, h.mutex, h.writer, and_self, if_true,
      Option.bind_some, Function.update_self, append, hw, writeLine, hwrite]
  · refine ⟨h.pc, rfl, h.running, ?_, h.destroyer, rfl, h.available, h.pending, h.needFlush,
      h.stream, h.written⟩
    change update (update (update s.writers 0 (.locked line)) 0 .written) 0 .outside 0 = .outside
    exact Function.update_self 0 _ _

/-- A forced flush takes the current buffer alone, and returns it. -/
theorem Resting.exists_flush (h : s.Resting line n) (hroom : n + line.length < LOG_MAX_FILE_SIZE) :
    ∃ s', Transition.run step s flushSteps = some s' ∧ s'.Resting [] (n + line.length) := by
  have hfull : ¬ s.mpCurrentBuffer.size + s.mLogAlreadyWritenBytes ≥ LOG_MAX_FILE_SIZE := by
    rw [LogBuffer.size, h.current, h.written]
    omega
  refine ⟨{ s with
    mLogFileStream := s.mLogFileStream ++ s.mpCurrentBuffer.used
    mLogAlreadyWritenBytes := s.mLogAlreadyWritenBytes + s.mpCurrentBuffer.size
    mNeedFlushNow := false
    mpCurrentBuffer := s.mvAvailbleBuffers.getLast?.getD LogBuffer.fresh
    mvAvailbleBuffers := s.mvAvailbleBuffers.dropLast ++ [LogBuffer.fresh] }, ?_, ?_⟩
  · simp [flushSteps, Transition.run, step, h.pc, h.mutex, h.running, proceed, retire, swapBuffers,
      h.pending, h.needFlush, flushNext, rotate, hfull, flushBuffer]
  · refine ⟨h.pc, h.mutex, h.running, h.writer, h.destroyer, retire_current h.available, ?_,
      h.pending, h.needFlush, ?_, ?_⟩
    · intro b hb
      rcases List.mem_append.mp hb with hb | hb
      · exact h.available b (List.dropLast_subset _ hb)
      · rw [List.mem_singleton.mp hb]
        rfl
    · change (s.mLogFileStream ++ s.mpCurrentBuffer.used).length = n + line.length
      rw [List.length_append, h.stream, h.current]
    · change s.mLogAlreadyWritenBytes + s.mpCurrentBuffer.used.length = n + line.length
      rw [h.written, h.current]

/-- Lines of one length fill the log file up to its limit. -/
theorem exists_filled (hline : line.length ≤ LOG_BUFFER_SIZE) (k : ℕ)
    (hroom : k * line.length < LOG_MAX_FILE_SIZE) :
    ∃ is s, (∀ i ∈ is, Writes i) ∧ Transition.run step create is = some s ∧
      s.Resting [] (k * line.length) := by
  induction k with
  | zero => exact ⟨[], create, fun i hi => (by cases hi), rfl, by simpa using create_resting⟩
  | succ k ih =>
    rw [Nat.succ_mul] at hroom ⊢
    obtain ⟨is, s, his, hrun, hresting⟩ := ih (by omega)
    obtain ⟨s₁, hwrite, hloaded⟩ := hresting.exists_write hline
    obtain ⟨s₂, hflush, hresting'⟩ := hloaded.exists_flush hroom
    refine ⟨is ++ (writeSteps line ++ flushSteps), s₂, ?_, ?_, hresting'⟩
    · exact List.forall_mem_append.mpr
        ⟨his, List.forall_mem_append.mpr ⟨writeSteps_writes hline, flushSteps_writes⟩⟩
    · rw [Transition.run_append, hrun, Option.bind_some, Transition.run_append, hwrite,
        Option.bind_some, hflush]

/-- The final flush does not look at the size of the file. -/
theorem Resting.exists_final (h : s.Resting line n) :
    ∃ s', Transition.run step s stopSteps = some s' ∧
      s'.mLogFileStream.length = n + line.length := by
  refine ⟨finalFlush { s with
    mStopThread := true
    destroyer := .joining s.accepted
    mMutex := some .flush
    mFlushThread := .woken false }, ?_, ?_⟩
  · simp [stopSteps, Transition.run, step, h.pc, h.mutex, h.running, h.destroyer, proceed, MayWake]
  · rw [finalFlush_length]
    change s.mLogFileStream.length + (contents s.mvPendingBuffers).length +
      s.mpCurrentBuffer.used.length = n + line.length
    rw [h.stream, h.pending, h.current]
    rfl

end

/-- Lines that are one byte shorter than a buffer: 1024 of them leave 1024 bytes of the file, and
the final flush writes one more. -/
theorem not_filesBounded :
    ¬ ∀ is, (∀ i ∈ is, Writes i) → Always step FilesBounded create is := by
  intro h
  have hline : (List.replicate (LOG_BUFFER_SIZE - 1) 0 : Bytes).length = LOG_BUFFER_SIZE - 1 :=
    List.length_replicate
  -- of the line only its length matters
  generalize (List.replicate (LOG_BUFFER_SIZE - 1) 0 : Bytes) = line at hline
  have hfits : line.length ≤ LOG_BUFFER_SIZE := by omega
  obtain ⟨is, s, his, hrun, hresting⟩ := exists_filled hfits 1024 (by rw [hline]; decide)
  obtain ⟨s₁, hwrite, hloaded⟩ := hresting.exists_write hfits
  obtain ⟨s₂, hfinal, hlength⟩ := hloaded.exists_final
  have hrun' : Transition.run step create (is ++ (writeSteps line ++ stopSteps)) = some s₂ := by
    rw [Transition.run_append, hrun, Option.bind_some, Transition.run_append, hwrite,
      Option.bind_some, hfinal]
  have hwrites : ∀ i ∈ is ++ (writeSteps line ++ stopSteps), Writes i :=
    List.forall_mem_append.mpr
      ⟨his, List.forall_mem_append.mpr ⟨writeSteps_writes hfits, stopSteps_writes⟩⟩
  -- 2^28 - 1024 bytes and 2^18 - 1 more
  have hbounded := h _ hwrites _ s₂ List.prefix_rfl hrun'
  have hlast := hbounded.1 s₂.mLogFileStream
    (List.mem_append_right _ (List.mem_singleton_self _))
  rw [hlength, hline] at hlast
  exact absurd hlast (by decide)

end LogServer

end SimpleTcp
