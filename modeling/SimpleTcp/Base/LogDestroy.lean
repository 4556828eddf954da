import SimpleTcp.Base.LogOrder

/-!
# The end of the log

`forceDestroy` sets `mStopThread` and joins the flush thread. A flush thread that finds the flag
when it has waited flushes all buffers; one that finds it in the condition of its loop returns at
once, with the lines that are still in the pending buffers and in the current one. Which of the two
happens is decided by where the flush thread is when the flag is set.

## Main definitions

* `LogServer.StopsSafely`: the flush thread waits, or none of the lines is in a buffer it leaves

## Main results

* `LogServer.kept_iff`: the runs whose lines are in the log files when `join` returns
-/

namespace SimpleTcp

/-- `mStopThread` has been set. -/
def DestroyPc.isStopped : DestroyPc → Bool
  | .joining _ | .joined _ => true
  | .outside | .called _ => false

/-- The flush thread is between the condition of its loop and the test under the lock. -/
def FlushPc.isWaiting : FlushPc → Bool
  | .waiting | .woken _ => true
  | _ => false

namespace LogServer

/-- The lines are in the log files. -/
def Kept (s : LogServer) (lines : List Bytes) : Prop := lines.flatten <+: s.handed

/-- The flush thread waits, or the lines are in the log files and in the buffers that it flushes. -/
def StopsSafely (s : LogServer) (lines : List Bytes) : Prop :=
  s.mFlushThread.isWaiting = true ∨ lines.flatten <+: s.handed ++ contents s.needFlushBuffers

variable {s s' : LogServer} {lines : List Bytes}

/-- The log files, the buffers being flushed and the flag are as they were, and no line is
withdrawn. -/
structure Same (s s' : LogServer) : Prop where
  handed : s'.handed = s.handed
  needFlush : s'.needFlushBuffers = s.needFlushBuffers
  accepted : s.accepted <+: s'.accepted
  flag : s'.mStopThread = s.mStopThread

theorem Same.of_eq (handed : s'.handed = s.handed)
    (needFlush : s'.needFlushBuffers = s.needFlushBuffers) (accepted : s'.accepted = s.accepted)
    (flag : s'.mStopThread = s.mStopThread) : s.Same s' :=
  ⟨handed, needFlush, accepted ▸ List.prefix_refl _, flag⟩

/-- What a step does to the flush thread and to `forceDestroy`. -/
inductive Moves (s s' : LogServer) : Prop where
  /-- A writer, or `forceFlush`. -/
  | write (same : s.Same s') (pc : s'.mFlushThread = s.mFlushThread)
      (destroyer : s'.destroyer = s.destroyer)
  | call (same : s.Same s') (pc : s'.mFlushThread = s.mFlushThread)
      (outside : s.destroyer = .outside) (destroyer : s'.destroyer = .called s.accepted)
  | stop (lines : List Bytes) (called : s.destroyer = .called lines)
      (eq : s' = { s with mStopThread := true, destroyer := .joining lines })
  | join (lines : List Bytes) (same : s.Same s') (pc : s.mFlushThread = .done)
      (pc' : s'.mFlushThread = .done) (joining : s.destroyer = .joining lines)
      (destroyer : s'.destroyer = .joined lines)
  | test (same : s.Same s') (pc : s.mFlushThread = .testing)
      (pc' : s'.mFlushThread = if s.mStopThread then .done else .waiting)
      (destroyer : s'.destroyer = s.destroyer)
  | wake (timeout : Bool) (same : s.Same s') (pc : s.mFlushThread = .waiting)
      (pc' : s'.mFlushThread = .woken timeout) (destroyer : s'.destroyer = s.destroyer)
  | proceed (timeout : Bool) (pc : s.mFlushThread = .woken timeout) (eq : s' = s.proceed timeout)
  /-- The front of the buffers is flushed, or they are returned. -/
  | flush (handed : s'.handed ++ contents s'.needFlushBuffers =
        s.handed ++ contents s.needFlushBuffers)
      (accepted : s'.accepted = s.accepted) (flag : s'.mStopThread = s.mStopThread)
      (pc : s.mFlushThread.isWaiting = false ∧ s.mFlushThread ≠ .done)
      (pc' : s'.mFlushThread.isWaiting = false ∧ s'.mFlushThread ≠ .done)
      (destroyer : s'.destroyer = s.destroyer)

theorem append_same (s : LogServer) (line : Bytes) :
    s.Same (s.append line) ∧ (s.append line).mFlushThread = s.mFlushThread ∧
      (s.append line).destroyer = s.destroyer := by
  unfold append
  split
  · exact ⟨⟨rfl, rfl, List.prefix_append _ _, rfl⟩, rfl, rfl⟩
  · split
    · exact ⟨⟨rfl, rfl, List.prefix_append _ _, rfl⟩, rfl, rfl⟩
    · exact ⟨⟨rfl, rfl, List.prefix_refl _, rfl⟩, rfl, rfl⟩

theorem flushNext_moves (h : s.Inv) {pos : Nat} {b : LogBuffer}
    (hpc : s.mFlushThread = .flushing pos) (hget : s.needFlushBuffers[pos]? = some b) :
    s.Moves (s.flushNext pos b) := by
  obtain ⟨files, stream, n, hhanded, hrotate⟩ := rotate_eq s b
  unfold flushNext
  rw [hrotate]
  refine .flush ?_ rfl rfl (by rw [hpc]; exact ⟨rfl, by simp⟩) ⟨rfl, by simp⟩ rfl
  change files.flatten ++ (stream ++ b.used) ++
    contents (s.needFlushBuffers.set pos LogBuffer.fresh) = _
  rw [← hhanded, contents_set_fresh hget (h.flushed_flushing hpc)]
  simp only [List.append_assoc]

theorem step_moves {i : LogStep} (h : s.Inv) (hstep : s.step i = some s') : s.Moves s' := by
  cases i with
  | write t line | unlock t =>
    simp only [step] at hstep
    split at hstep <;> cases hstep
    exact .write (.of_eq rfl rfl rfl rfl) rfl rfl
  | append t =>
    simp only [step] at hstep
    split at hstep <;> cases hstep
    next line _ =>
    obtain ⟨hsame, hpc, hdestroyer⟩ := append_same s line
    exact .write ⟨hsame.handed, hsame.needFlush, hsame.accepted, hsame.flag⟩ hpc hdestroyer
  | forceFlush =>
    cases hstep
    exact .write (.of_eq rfl rfl rfl rfl) rfl rfl
  | forceDestroy =>
    simp only [step] at hstep
    split at hstep <;> cases hstep
    next houtside => exact .call (.of_eq rfl rfl rfl rfl) rfl houtside rfl
  | setStop =>
    simp only [step] at hstep
    split at hstep <;> cases hstep
    next lines hcalled => exact .stop lines hcalled rfl
  | join =>
    simp only [step] at hstep
    split at hstep <;> cases hstep
    next lines hjoining hpc => exact .join lines (.of_eq rfl rfl rfl rfl) hpc hpc hjoining rfl
  | test =>
    simp only [step] at hstep
    split at hstep <;> cases hstep
    next hpc => exact .test (.of_eq rfl rfl rfl rfl) hpc rfl rfl
  | wake =>
    simp only [step] at hstep
    split at hstep
    · next hpc =>
      split at hstep <;> cases hstep
      exact .wake _ (.of_eq rfl rfl rfl rfl) hpc rfl rfl
    · cases hstep
  | proceed =>
    simp only [step] at hstep
    split at hstep <;> cases hstep
    next timeout hpc => exact .proceed timeout hpc rfl
  | flush =>
    simp only [step] at hstep
    split at hstep
    · next pos hpc =>
      split at hstep <;> cases hstep
      · next b hget => exact flushNext_moves h hpc hget
      · exact .flush rfl rfl rfl (by rw [hpc]; exact ⟨rfl, by simp⟩) ⟨rfl, by simp⟩ rfl
    · cases hstep
  | returnBuffers =>
    simp only [step] at hstep
    split at hstep
    · next hpc =>
      split at hstep <;> cases hstep
      -- what is returned is empty already
      refine .flush ?_ rfl rfl (by rw [hpc]; exact ⟨rfl, by simp⟩) ⟨rfl, by simp⟩ rfl
      rw [contents_eq_nil (h.flushed_returning hpc)]
      rfl
    · cases hstep

/-! ## Before the flag is set -/

/-- What the steps keep of `forceDestroy`. -/
structure Stopping (s : LogServer) : Prop where
  flag : s.mStopThread = s.destroyer.isStopped
  done : s.mFlushThread = .done → s.mStopThread = true
  before : ∀ lines, s.destroyer = .called lines → lines <+: s.accepted

theorem create_stopping : create.Stopping where
  flag := rfl
  done := fun h => by cases h
  before := fun _ h => by cases h

/-- A flush thread that finds `mStopThread` under the lock leaves nothing behind. -/
theorem proceed_stopped (h : s.Inv) (hnone : s.needFlushBuffers = []) (hstop : s.mStopThread = true)
    (timeout : Bool) :
    (s.proceed timeout).handed = s.accepted.flatten ∧ (s.proceed timeout).mFlushThread = .done ∧
      (s.proceed timeout).accepted = s.accepted := by
  rw [proceed, if_pos hstop, finalFlush_eq]
  refine ⟨?_, rfl, rfl⟩
  rw [← h.order, pipeline, hnone, handed, handed]
  simp only [contents_nil, List.nil_append, List.append_assoc]

theorem proceed_frame (s : LogServer) (timeout : Bool) :
    (s.proceed timeout).destroyer = s.destroyer ∧
      (s.proceed timeout).mStopThread = s.mStopThread ∧
      (s.proceed timeout).accepted = s.accepted ∧
      ((s.proceed timeout).mFlushThread = .done → s.mStopThread = true) := by
  unfold proceed
  split
  · next hstop =>
    rw [finalFlush_eq]
    exact ⟨rfl, rfl, rfl, fun _ => hstop⟩
  · split <;> exact ⟨rfl, rfl, rfl, fun h => by cases h⟩

/-- A step that has nothing to do with `forceDestroy`. -/
theorem Stopping.of_frame (h : s.Stopping) (accepted : s.accepted <+: s'.accepted)
    (flag : s'.mStopThread = s.mStopThread) (destroyer : s'.destroyer = s.destroyer)
    (done : s'.mFlushThread = .done → s.mStopThread = true) : s'.Stopping where
  flag := by rw [flag, destroyer, h.flag]
  done := fun hdone => flag.trans (done hdone)
  before := fun lines hcalled => (h.before lines (destroyer ▸ hcalled)).trans accepted

theorem Moves.stopping (hm : s.Moves s') (h : s.Stopping) : s'.Stopping := by
  cases hm with
  | write same pc destroyer =>
    exact h.of_frame same.accepted same.flag destroyer fun hdone => h.done (pc ▸ hdone)
  -- `forceDestroy` is called, and the flag is not set yet
  | call same pc outside destroyer =>
    refine ⟨?_, fun hdone => ?_, fun lines hcalled => ?_⟩
    · rw [same.flag, destroyer, h.flag, outside]
      rfl
    · rw [same.flag]
      exact h.done (pc ▸ hdone)
    · rw [destroyer] at hcalled
      cases hcalled
      exact same.accepted
  | stop lines called eq =>
    subst eq
    exact ⟨rfl, fun _ => rfl, fun _ hcalled => by cases hcalled⟩
  -- the thread is joined when it is done, and so behind the flag
  | join lines same pc pc' joining destroyer =>
    have hstop := h.done pc
    refine ⟨by rw [same.flag, destroyer, hstop]; rfl, fun _ => by rw [same.flag, hstop], ?_⟩
    intro lines' hcalled
    rw [destroyer] at hcalled
    cases hcalled
  | test same pc pc' destroyer =>
    refine h.of_frame same.accepted same.flag destroyer fun hdone => ?_
    by_contra hstop
    rw [pc', if_neg hstop] at hdone
    cases hdone
  -- the flush thread is in its loop
  | wake timeout same pc pc' destroyer =>
    refine h.of_frame same.accepted same.flag destroyer fun hdone => ?_
    rw [pc'] at hdone
    cases hdone
  | proceed timeout pc eq =>
    subst eq
    obtain ⟨hdestroyer, hstop, haccepted, hdone⟩ := proceed_frame s timeout
    exact h.of_frame (haccepted ▸ List.prefix_refl _) hstop hdestroyer hdone
  | flush handed accepted flag pc pc' destroyer =>
    exact h.of_frame (accepted ▸ List.prefix_refl _) flag destroyer fun hdone => absurd hdone pc'.2

/-! ## Behind the flag -/

/-- What the steps keep once the flag is set: a flush thread that waited then waits, or has left
nothing behind; any other flushes the buffers that it had and leaves the rest. -/
structure Stopped (waited : Bool) (total : Bytes) (lines : List Bytes) (s : LogServer) : Prop where
  flag : s.mStopThread = true
  destroyer : s.destroyer = .joining lines ∨
    s.destroyer = .joined lines ∧ s.mFlushThread = .done
  accepted : lines <+: s.accepted
  nothing : waited = true →
    s.mFlushThread.isWaiting = true ∨ s.mFlushThread = .done ∧ s.Kept lines
  rest : waited = false →
    s.mFlushThread.isWaiting = false ∧ s.handed ++ contents s.needFlushBuffers = total

theorem flatten_prefix {xs ys : List Bytes} (h : xs <+: ys) : xs.flatten <+: ys.flatten := by
  obtain ⟨zs, rfl⟩ := h
  rw [List.flatten_append]
  exact List.prefix_append _ _

section

variable {waited : Bool} {total : Bytes}

/-- A step that leaves the flush thread where it is. -/
theorem Same.stopped (hs : s.Same s') (h : Stopped waited total lines s)
    (pc : s'.mFlushThread = s.mFlushThread)
    (destroyer : s'.destroyer = .joining lines ∨
      s'.destroyer = .joined lines ∧ s'.mFlushThread = .done) :
    Stopped waited total lines s' where
  flag := hs.flag.trans h.flag
  destroyer := destroyer
  accepted := h.accepted.trans hs.accepted
  nothing hw := by
    rw [pc, Kept, hs.handed]
    exact h.nothing hw
  rest hw := by
    rw [pc, hs.handed, hs.needFlush]
    exact h.rest hw

/-- The flag is not set a second time. -/
theorem Stopped.isStopped (h : Stopped waited total lines s) : s.destroyer.isStopped = true := by
  rcases h.destroyer with hj | ⟨hj, -⟩ <;> rw [hj] <;> rfl

/-- A flush thread that moves has not been joined. -/
theorem Stopped.joining (h : Stopped waited total lines s) (hpc : s.mFlushThread ≠ .done) :
    s.destroyer = .joining lines := by
  rcases h.destroyer with hj | ⟨-, hdone⟩
  · exact hj
  · exact absurd hdone hpc

/-- Until the flush thread is done it shows whether it waited when the flag was set. -/
theorem Stopped.isWaiting_eq (h : Stopped waited total lines s) (hpc : s.mFlushThread ≠ .done) :
    s.mFlushThread.isWaiting = waited := by
  cases hw : waited with
  | true => exact (h.nothing hw).resolve_right fun hdone => hpc hdone.1
  | false => exact (h.rest hw).1

theorem Moves.stopped (hm : s.Moves s') (hinv : s.Inv) (h : Stopped waited total lines s) :
    Stopped waited total lines s' := by
  have hstopped := h.isStopped
  cases hm with
  | write same pc destroyer =>
    apply same.stopped h pc
    rw [destroyer, pc]
    exact h.destroyer
  | call same pc outside destroyer =>
    -- `forceDestroy` is called once
    rw [outside] at hstopped
    cases hstopped
  | stop lines' called eq =>
    rw [called] at hstopped
    cases hstopped
  | join lines' same pc pc' joining destroyer =>
    apply same.stopped h (pc'.trans pc.symm)
    rcases h.destroyer with hj | ⟨hj, -⟩
    · rw [joining] at hj
      cases hj
      exact .inr ⟨destroyer, pc'⟩
    · rw [joining] at hj
      cases hj
  | test same pc pc' destroyer =>
    -- the flag ends the loop, and the thread leaves what is in its buffers
    rw [h.flag, if_pos rfl] at pc'
    have hnot : s.mFlushThread ≠ .done := by simp [pc]
    have hj := h.joining hnot
    obtain rfl : waited = false := by simp [← h.isWaiting_eq hnot, pc, FlushPc.isWaiting]
    refine ⟨same.flag.trans h.flag, .inl (destroyer.trans hj), h.accepted.trans same.accepted,
      fun hw => absurd hw Bool.false_ne_true, fun _ => ?_⟩
    rw [pc', same.handed, same.needFlush]
    exact ⟨rfl, (h.rest rfl).2⟩
  | wake timeout same pc pc' destroyer =>
    have hnot : s.mFlushThread ≠ .done := by simp [pc]
    have hj := h.joining hnot
    obtain rfl : waited = true := by rw [← h.isWaiting_eq hnot, pc, FlushPc.isWaiting]
    refine ⟨same.flag.trans h.flag, .inl (destroyer.trans hj), h.accepted.trans same.accepted,
      fun _ => .inl ?_, fun hw => absurd hw.symm Bool.false_ne_true⟩
    rw [pc', FlushPc.isWaiting]
  | proceed timeout pc eq =>
    subst eq
    -- the thread finds the flag under the lock, and flushes everything before it returns
    have hnone := hinv.needFlush_eq_nil (by rw [pc]; rfl)
    have hnot : s.mFlushThread ≠ .done := by simp [pc]
    have hj := h.joining hnot
    obtain rfl : waited = true := by rw [← h.isWaiting_eq hnot, pc, FlushPc.isWaiting]
    obtain ⟨hhanded, hdone, haccepted⟩ := proceed_stopped hinv hnone h.flag timeout
    obtain ⟨hdestroyer, hflag, -, -⟩ := proceed_frame s timeout
    refine ⟨hflag.trans h.flag, .inl (hdestroyer.trans hj), haccepted.symm ▸ h.accepted,
      fun _ => .inr ⟨hdone, ?_⟩, fun hw => absurd hw.symm Bool.false_ne_true⟩
    rw [Kept, hhanded]
    exact flatten_prefix h.accepted
  | flush handed accepted flag pc pc' destroyer =>
    -- what it flushes or returns it had when the flag was set
    have hj := h.joining pc.2
    obtain rfl : waited = false := (h.isWaiting_eq pc.2).symm.trans pc.1
    refine ⟨flag.trans h.flag, .inl (destroyer.trans hj), accepted.symm ▸ h.accepted,
      fun hw => absurd hw Bool.false_ne_true, fun _ => ?_⟩
    rw [handed]
    exact ⟨pc'.1, (h.rest rfl).2⟩

end

section Runs

variable {pre post : List LogStep} {s₁ : LogServer}

theorem run_stopping {is : List LogStep} (his : ∀ i ∈ is, Writes i)
    (hrun : Transition.run step create is = some s) : s.Inv ∧ s.Stopping := by
  refine Transition.run_invariant_of (I := fun s => s.Inv ∧ s.Stopping) ?_
    ⟨create_inv, create_stopping⟩ his hrun
  rintro s i s' ⟨hinv, hs⟩ hi hstep
  exact ⟨step_inv hinv hi hstep, (step_moves hinv hstep).stopping hs⟩

/-- The flag is set. -/
theorem setStop_stopped (hs : s₁.Stopping) (hcalled : s₁.destroyer = .called lines) :
    Stopped s₁.mFlushThread.isWaiting (s₁.handed ++ contents s₁.needFlushBuffers) lines
      { s₁ with mStopThread := true, destroyer := .joining lines } where
  flag := rfl
  destroyer := .inl rfl
  accepted := hs.before lines hcalled
  nothing hw := .inl hw
  rest hw := ⟨hw, rfl⟩

theorem run_stopped {waited : Bool} {total : Bytes} {is : List LogStep}
    (his : ∀ i ∈ is, Writes i) (hinv : s₁.Inv) (h : Stopped waited total lines s₁)
    (hrun : Transition.run step s₁ is = some s) : s.Inv ∧ Stopped waited total lines s := by
  refine Transition.run_invariant_of (I := fun s => s.Inv ∧ Stopped waited total lines s) ?_
    ⟨hinv, h⟩ his hrun
  rintro s i s' ⟨hinv, hs⟩ hi hstep
  exact ⟨step_inv hinv hi hstep, (step_moves hinv hstep).stopped hinv hs⟩

/-- A thread that is joined has flushed the buffers that it had. -/
theorem Stopped.kept_iff_of_done {waited : Bool} {total : Bytes}
    (h : Stopped waited total lines s) (hinv : s.Inv) (hdone : s.mFlushThread = .done) :
    s.Kept lines ↔ waited = true ∨ lines.flatten <+: total := by
  cases hw : waited with
  | true =>
    rcases h.nothing hw with hwaiting | ⟨-, hkept⟩
    · rw [hdone] at hwaiting
      cases hwaiting
    · exact iff_of_true hkept (.inl rfl)
  | false =>
    have htotal := (h.rest hw).2
    rw [hinv.needFlush_eq_nil (by rw [hdone]; rfl), contents_nil, List.append_nil] at htotal
    rw [Kept, htotal]
    simp

/-- **`forceDestroy` loses no line** exactly in the runs in which it sets `mStopThread` while the
flush thread waits, or when all lines that were accepted before the call are in the log files and
in the buffers being flushed. -/
theorem kept_iff (hwrites : ∀ i ∈ pre ++ .setStop :: post, Writes i)
    (hpre : Transition.run step create pre = some s₁)
    (hrun : Transition.run step create (pre ++ .setStop :: post) = some s)
    (hjoined : s.destroyer = .joined lines) : s.Kept lines ↔ s₁.StopsSafely lines := by
  have hwrites₁ : ∀ i ∈ pre, Writes i := fun i hi => hwrites i (List.mem_append_left _ hi)
  have hwrites₂ : ∀ i ∈ post, Writes i :=
    fun i hi => hwrites i (List.mem_append_right _ (List.mem_cons_of_mem _ hi))
  obtain ⟨hinv, hs⟩ := run_stopping hwrites₁ hpre
  rw [Transition.run_append, hpre, Option.bind_some] at hrun
  obtain ⟨s₂, hstop, hpost⟩ := Transition.run_cons_eq_some.mp hrun
  have hinv₂ := step_inv hinv (hwrites .setStop (by simp)) hstop
  simp only [step] at hstop
  split at hstop <;> cases hstop
  next lines' hcalled =>
  obtain ⟨hinv', hstopped⟩ := run_stopped hwrites₂ hinv₂ (setStop_stopped hs hcalled) hpost
  rcases hstopped.destroyer with hj | ⟨hj, hdone⟩
  · rw [hjoined] at hj
    cases hj
  · rw [hjoined] at hj
    cases hj
    exact hstopped.kept_iff_of_done hinv' hdone

/-- The flag is set while the flush thread waits. -/
theorem kept_iff_waiting :
    ∃ s s₁ : LogServer, s.handed = [7] ∧ (s.Kept [[7]] ↔ s₁.StopsSafely [[7]]) := by
  have hpre : ∃ s₁, Transition.run step create
      [.write 1 [7], .append 1, .unlock 1, .test, .forceDestroy] = some s₁ :=
    ⟨_, rfl⟩
  have hrun : ∃ s, Transition.run step create ([.write 1 [7], .append 1, .unlock 1, .test,
      .forceDestroy] ++ .setStop :: [.wake, .proceed, .join]) = some s ∧
        s.destroyer = .joined [[7]] ∧ s.handed = [7] :=
    ⟨_, rfl, rfl, rfl⟩
  obtain ⟨s₁, hpre⟩ := hpre
  obtain ⟨s, hrun, hjoined, hhanded⟩ := hrun
  exact ⟨s, s₁, hhanded, kept_iff (by simp [Writes, LOG_BUFFER_SIZE]) hpre hrun hjoined⟩

/-- The flush thread flushes the first line when the second is written and the flag is set. -/
theorem not_kept_flushing :
    ¬ ∀ (is : List LogStep) (s : LogServer) (lines : List Bytes), (∀ i ∈ is, Writes i) →
        Transition.run step create is = some s → s.destroyer = .joined lines → s.Kept lines := by
  intro h
  have hkept := h [.write 1 [7], .append 1, .unlock 1, .forceFlush, .test, .wake, .proceed,
    .write 1 [8], .append 1, .unlock 1, .forceDestroy, .setStop, .flush, .flush, .returnBuffers,
    .test, .join] _ [[7], [8]] (by simp [Writes, LOG_BUFFER_SIZE]) rfl rfl
  have hlen : ([7, 8] : Bytes).length ≤ ([7] : Bytes).length := hkept.length_le
  exact absurd hlen (by decide)

end Runs

end LogServer

end SimpleTcp
