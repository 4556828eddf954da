import SimpleTcp.Base.LogServer

/-!
# The steps of the log

What a step of the log server does to its buffers and to its files: most do nothing, a line is
appended under the lock, the flush thread swaps the pending buffers out, flushes them one by one and
returns them.

## Main definitions

* `contents`: the bytes of buffers
* `LogServer.Flushed`: the buffers that the flush thread has, by where it is
* `LogServer.SameBuffers`, `LogServer.SameFiles`: a step that leaves them alone
* `LogServer.Turn`: the steps by what they do to buffers and files

## Main results

* `LogServer.step_turn`: every step is one of them
* `LogServer.finalFlush_eq`, `LogServer.rotate_eq`: what the flush thread does to the files
-/

namespace SimpleTcp

/-- The bytes of the buffers, in order. -/
def contents (bs : List LogBuffer) : Bytes := bs.flatMap LogBuffer.used

section

variable {bs cs : List LogBuffer} {b : LogBuffer}

@[simp] theorem contents_nil : contents [] = [] := rfl

@[simp] theorem contents_append : contents (bs ++ cs) = contents bs ++ contents cs :=
  List.flatMap_append

@[simp] theorem contents_singleton : contents [b] = b.used := List.append_nil _

@[simp] theorem contents_cons : contents (b :: bs) = b.used ++ contents bs := rfl

theorem contents_eq_nil (h : ∀ b ∈ bs, b.used = []) : contents bs = [] :=
  List.flatMap_eq_nil_iff.mpr h

theorem contents_map_fresh : contents (bs.map fun _ => LogBuffer.fresh) = [] :=
  contents_eq_nil fun b hb => by
    obtain ⟨_, -, rfl⟩ := List.mem_map.mp hb
    rfl

/-- The first buffer that is not flushed holds the front of the contents. -/
theorem contents_set_fresh {pos : Nat} (hget : bs[pos]? = some b)
    (hflushed : ∀ c ∈ bs.take pos, c.used = []) :
    contents bs = b.used ++ contents (bs.set pos LogBuffer.fresh) := by
  induction bs generalizing pos with
  | nil => cases hget
  | cons c bs ih =>
    cases pos with
    | zero =>
      cases hget
      rfl
    | succ pos =>
      have hc : c.used = [] := hflushed c List.mem_cons_self
      rw [List.set_cons_succ, contents_cons, contents_cons, hc, List.nil_append, List.nil_append]
      exact ih hget fun c' hc' => hflushed c' (List.mem_cons_of_mem _ hc')

end

/-- A line that is writable fits behind what is in the buffer. -/
theorem LogBuffer.writable_iff {b : LogBuffer} (h : b.size ≤ LOG_BUFFER_SIZE) {n : Nat} :
    b.writable n ↔ b.size + n ≤ LOG_BUFFER_SIZE := by
  rw [writable, sizeSub_of_le h (by decide)]
  omega

/-- The flush thread has no buffers. -/
def FlushPc.isIdle : FlushPc → Bool
  | .testing | .waiting | .woken _ | .done => true
  | .flushing _ | .returning => false

namespace LogServer

open Function (update)

/-- The buffers that the flush thread has flushed are empty, and it has none outside its loop over
them. -/
def Flushed (pc : FlushPc) (bs : List LogBuffer) : Prop :=
  match pc with
  | .flushing pos => ∀ b ∈ bs.take pos, b.used = []
  | .returning => ∀ b ∈ bs, b.used = []
  | .testing | .waiting | .woken _ | .done => bs = []

variable {s s' : LogServer} {i : LogStep}

/-- The buffers are where they were. -/
structure SameBuffers (s s' : LogServer) : Prop where
  current : s'.mpCurrentBuffer = s.mpCurrentBuffer
  available : s'.mvAvailbleBuffers = s.mvAvailbleBuffers
  pending : s'.mvPendingBuffers = s.mvPendingBuffers
  needFlush : s'.needFlushBuffers = s.needFlushBuffers

/-- The log files are as they were. -/
structure SameFiles (s s' : LogServer) : Prop where
  stream : s'.mLogFileStream = s.mLogFileStream
  closed : s'.closedFiles = s.closedFiles
  written : s'.mLogAlreadyWritenBytes = s.mLogAlreadyWritenBytes

/-- The steps by what they do to buffers and files. -/
inductive Turn (s : LogServer) : LogStep → LogServer → Prop where
  /-- A step that touches neither; the flush thread may move while it has no buffers. -/
  | idle {i : LogStep} {s' : LogServer} (buffers : s.SameBuffers s') (files : s.SameFiles s')
      (accepted : s'.accepted = s.accepted)
      (writers : ∀ t line, s'.writers t = .locked line → s.writers t = .locked line ∨
        i = .write t line)
      (pc : s'.mFlushThread = s.mFlushThread ∨
        s.mFlushThread.isIdle = true ∧ s.mFlushThread ≠ .done ∧ s'.mFlushThread.isIdle = true)
      (append : ∀ t, i ≠ .append t) (proceed : i ≠ .proceed) (flush : i ≠ .flush)
      (returned : i ≠ .returnBuffers) : Turn s i s'
  | append {s' : LogServer} (t : ℕ) (line : Bytes) (locked : s.writers t = .locked line)
      (eq : s' = { s.append line with writers := update s.writers t .written }) :
      Turn s (.append t) s'
  | proceed {s' : LogServer} (timeout : Bool) (pc : s.mFlushThread = .woken timeout)
      (eq : s' = s.proceed timeout) : Turn s .proceed s'
  | flush {s' : LogServer} (pos : ℕ) (b : LogBuffer) (pc : s.mFlushThread = .flushing pos)
      (get : s.needFlushBuffers[pos]? = some b) (eq : s' = s.flushNext pos b) : Turn s .flush s'
  /-- The loop over the buffers ends. -/
  | flushed {s' : LogServer} (pos : ℕ) (pc : s.mFlushThread = .flushing pos)
      (none : s.needFlushBuffers[pos]? = none) (eq : s' = { s with mFlushThread := .returning }) :
      Turn s .flush s'
  | returned {s' : LogServer} (pc : s.mFlushThread = .returning)
      (eq : s' = { s with
        mvAvailbleBuffers := s.mvAvailbleBuffers ++ s.needFlushBuffers
        needFlushBuffers := []
        mFlushThread := .testing }) : Turn s .returnBuffers s'

/-- A writer that has moved on has the line that it takes, or none. -/
theorem locked_update {writers : ℕ → WriterPc} {t u : ℕ} {pc : WriterPc} {line : Bytes}
    (h : update writers t pc u = .locked line) :
    writers u = .locked line ∨ u = t ∧ pc = .locked line := by
  by_cases hu : u = t
  · rw [hu, Function.update_self] at h
    exact .inr ⟨hu, h⟩
  · rw [Function.update_of_ne hu] at h
    exact .inl h

theorem step_turn (hstep : s.step i = some s') : s.Turn i s' := by
  cases i with
  | write t line =>
    simp only [step] at hstep
    split at hstep <;> cases hstep
    refine .idle ⟨rfl, rfl, rfl, rfl⟩ ⟨rfl, rfl, rfl⟩ rfl (fun u line' hu => ?_) (.inl rfl)
      (by simp) (by simp) (by simp) (by simp)
    -- the line of the call is the one that the thread has then
    refine (locked_update hu).imp_right ?_
    rintro ⟨rfl, hline⟩
    rw [WriterPc.locked.inj hline]
  | unlock t =>
    simp only [step] at hstep
    split at hstep <;> cases hstep
    refine .idle ⟨rfl, rfl, rfl, rfl⟩ ⟨rfl, rfl, rfl⟩ rfl (fun u line hu => ?_) (.inl rfl) (by simp)
      (by simp) (by simp) (by simp)
    refine (locked_update hu).imp_right ?_
    rintro ⟨-, hline⟩
    cases hline
  | forceDestroy | setStop | join =>
    simp only [step] at hstep
    split at hstep <;> cases hstep
    exact .idle ⟨rfl, rfl, rfl, rfl⟩ ⟨rfl, rfl, rfl⟩ rfl (fun _ _ hu => .inl hu) (.inl rfl)
      (by simp) (by simp) (by simp) (by simp)
  | forceFlush =>
    cases hstep
    exact .idle ⟨rfl, rfl, rfl, rfl⟩ ⟨rfl, rfl, rfl⟩ rfl (fun _ _ hu => .inl hu) (.inl rfl)
      (by simp) (by simp) (by simp) (by simp)
  | append t =>
    simp only [step] at hstep
    split at hstep <;> cases hstep
    next line hlocked => exact .append t line hlocked rfl
  | test =>
    simp only [step] at hstep
    split at hstep <;> cases hstep
    next hpc =>
    refine .idle ⟨rfl, rfl, rfl, rfl⟩ ⟨rfl, rfl, rfl⟩ rfl (fun _ _ hu => .inl hu) (.inr ?_)
      (by simp) (by simp) (by simp) (by simp)
    refine ⟨by rw [hpc]; rfl, by simp [hpc], ?_⟩
    dsimp only
    split <;> rfl
  | wake =>
    simp only [step] at hstep
    split at hstep
    · next hpc =>
      split at hstep <;> cases hstep
      exact .idle ⟨rfl, rfl, rfl, rfl⟩ ⟨rfl, rfl, rfl⟩ rfl (fun _ _ hu => .inl hu)
        (.inr ⟨by rw [hpc]; rfl, by simp [hpc], rfl⟩) (by simp) (by simp) (by simp) (by simp)
    · cases hstep
  | proceed =>
    simp only [step] at hstep
    split at hstep <;> cases hstep
    next timeout hpc => exact .proceed timeout hpc rfl
  | flush =>
    simp only [step] at hstep
    split at hstep
    · next pos hpc =>
      split at hstep <;> cases hstep
      · next b hget => exact .flush pos b hpc hget rfl
      · next hnone => exact .flushed pos hpc hnone rfl
    · cases hstep
  | returnBuffers =>
    simp only [step] at hstep
    split at hstep
    · next hpc =>
      split at hstep <;> cases hstep
      exact .returned hpc rfl
    · cases hstep

/-! ### The functions -/

/-- The buffer that takes the place of a retired one is empty. -/
theorem retire_current (h : ∀ b ∈ s.mvAvailbleBuffers, b.used = []) :
    s.retire.mpCurrentBuffer.used = [] := by
  change (s.mvAvailbleBuffers.getLast?.getD LogBuffer.fresh).used = []
  cases hlast : s.mvAvailbleBuffers.getLast? with
  | none => rfl
  | some b => exact h b (List.mem_of_getLast? hlast)

theorem append_sameFiles (s : LogServer) (line : Bytes) : s.SameFiles (s.append line) := by
  unfold append
  split
  · exact ⟨rfl, rfl, rfl⟩
  · split <;> exact ⟨rfl, rfl, rfl⟩

theorem append_pc (s : LogServer) (line : Bytes) :
    (s.append line).mFlushThread = s.mFlushThread := by
  unfold append
  split
  · rfl
  · split <;> rfl

theorem foldl_flushBuffer (bs : List LogBuffer) (s : LogServer) :
    bs.foldl flushBuffer s = { s with mLogFileStream := s.mLogFileStream ++ contents bs } := by
  induction bs generalizing s with
  | nil => simp
  | cons b bs ih =>
    rw [List.foldl_cons, ih]
    simp only [flushBuffer, contents_cons, List.append_assoc]

/-- The final flush empties the pending buffers and the current one into the log file. -/
theorem finalFlush_eq (s : LogServer) : s.finalFlush =
    { s with
      mLogFileStream := s.mLogFileStream ++ contents s.mvPendingBuffers ++ s.mpCurrentBuffer.used
      mvPendingBuffers := s.mvPendingBuffers.map fun _ => LogBuffer.fresh
      mpCurrentBuffer := LogBuffer.fresh
      mFlushThread := .done
      mMutex := none } := by
  unfold finalFlush
  -- the loop over the pending buffers is one append to the file
  dsimp only
  rw [foldl_flushBuffer]
  split
  · rfl
  · next hempty =>
    -- a buffer that is not worth a flush is a fresh one
    have hused : s.mpCurrentBuffer.used = [] :=
      List.length_eq_zero_iff.mp (Nat.eq_zero_of_not_pos hempty)
    have hfresh : s.mpCurrentBuffer = LogBuffer.fresh := by
      cases hb : s.mpCurrentBuffer with
      | mk used =>
        rw [hb] at hused
        subst hused
        rfl
    rw [hused, List.append_nil]
    simp only [hfresh]

/-- A rotation moves a boundary inside what was handed to the log files. -/
theorem rotate_eq (s : LogServer) (b : LogBuffer) :
    ∃ files stream n, files.flatten ++ stream = s.handed ∧
      s.rotate b =
        { s with closedFiles := files, mLogFileStream := stream, mLogAlreadyWritenBytes := n } := by
  unfold rotate
  split
  · refine ⟨_, _, _, ?_, rfl⟩
    simp [handed]
  · exact ⟨_, _, _, rfl, rfl⟩

/-- The buffers up to the one that was flushed are empty. -/
theorem flushed_set {bs : List LogBuffer} {b : LogBuffer} {pos : Nat} (hget : bs[pos]? = some b)
    (hflushed : ∀ c ∈ bs.take pos, c.used = []) :
    ∀ c ∈ (bs.set pos LogBuffer.fresh).take (pos + 1), c.used = [] := by
  intro c hc
  obtain ⟨hlt, -⟩ := List.getElem?_eq_some_iff.mp hget
  have hlen : (bs.take pos).length = pos := by
    rw [List.length_take]
    exact Nat.min_eq_left hlt.le
  rw [List.take_set, List.take_succ_eq_append_getElem hlt,
    List.set_append_right pos LogBuffer.fresh hlen.le, hlen, Nat.sub_self] at hc
  rcases List.mem_append.mp hc with hc | hc
  · exact hflushed c hc
  · rw [List.mem_singleton.mp hc]
    rfl

theorem flushed_of_isIdle {pc : FlushPc} {bs : List LogBuffer} (h : pc.isIdle = true) :
    Flushed pc bs ↔ bs = [] := by
  cases pc with
  | flushing _ | returning => cases h
  | _ => exact Iff.rfl

theorem proceed_writers (s : LogServer) (timeout : Bool) :
    (s.proceed timeout).writers = s.writers := by
  unfold proceed
  split
  · rw [finalFlush_eq]
  · split <;> rfl

/-- A writer has the line of its call. -/
theorem step_writers (hstep : s.step i = some s') (t : ℕ) (line : Bytes)
    (hline : s'.writers t = .locked line) : s.writers t = .locked line ∨ i = .write t line := by
  cases step_turn hstep with
  | idle buffers files accepted writers => exact writers t line hline
  | append u line' locked eq =>
    subst eq
    refine .inl ((locked_update hline).resolve_right ?_)
    rintro ⟨-, hnot⟩
    cases hnot
  | proceed timeout pc eq =>
    subst eq
    rw [proceed_writers] at hline
    exact .inl hline
  | flush pos b pc get eq =>
    obtain ⟨files, stream, n, -, hrotate⟩ := rotate_eq s b
    subst eq
    rw [flushNext, hrotate] at hline
    exact .inl hline
  | flushed pos pc none eq | returned pc eq =>
    subst eq
    exact .inl hline

end LogServer

end SimpleTcp
