import SimpleTcp.Base.LogSteps

/-!
# Overruns of log buffers

`LogBuffer::write` copies without a check. `LogServer::write` asks whether the line fits into the
current buffer, but a line that does not is copied into a fresh one whatever its length, unless it
is discarded. A line is as long as its text, so a buffer is overrun by the first line that is longer
than a buffer and is not discarded, and by no other.

## Main definitions

* `LogServer.target`: the buffer that a line is copied into
* `LogServer.WritesInside`: the copy stays inside the buffer
* `LogServer.Fits`: no buffer holds more than it has room for
* `LogServer.FitsOrDiscards`: the line is no longer than a buffer, or it is discarded

## Main results

* `LogServer.step_bounded`: the lines that fit keep the bounds
* `LogServer.neverOverrun_iff`: the runs in which no buffer is overrun
-/

namespace SimpleTcp

namespace LogServer

open Function (update)

open Transition (Along Always)

/-- The buffer on which `write` calls `LogBuffer::write`. -/
def target (s : LogServer) (line : Bytes) : Option LogBuffer :=
  if s.mpCurrentBuffer.writable line.length then some s.mpCurrentBuffer
  else if s.mvPendingBuffers.length ≤ MAX_PENDING_BUFFERS then some s.retire.mpCurrentBuffer
  else none

/-- The step copies a line, if it does, inside the buffer. -/
def WritesInside (s : LogServer) : LogStep → Prop
  | .append t => ∀ line, s.writers t = .locked line →
      ∀ b ∈ s.target line, b.size + line.length ≤ LOG_BUFFER_SIZE
  | _ => True

/-- No buffer holds more than it has room for. -/
def Fits (s : LogServer) : Prop :=
  ∀ b ∈ s.mpCurrentBuffer :: (s.mvAvailbleBuffers ++ (s.mvPendingBuffers ++ s.needFlushBuffers)),
    b.size ≤ LOG_BUFFER_SIZE

/-- In every step of the run the copy stays inside the buffer, and in every state the buffers hold
no more than they have room for. -/
def NeverOverrun (is : List LogStep) : Prop :=
  Along step WritesInside create is ∧ Always step Fits create is

/-- The line is no longer than a buffer, or too many buffers are pending. -/
def FitsOrDiscards (s : LogServer) : LogStep → Prop
  | .append t => ∀ line, s.writers t = .locked line →
      line.length ≤ LOG_BUFFER_SIZE ∨ MAX_PENDING_BUFFERS < s.mvPendingBuffers.length
  | _ => True

variable {s s' : LogServer} {i : LogStep} {line : Bytes}

/-- The line is copied behind what is in the target. -/
theorem append_of_target {b : LogBuffer} (h : b ∈ s.target line) :
    (s.append line).mpCurrentBuffer = b.write line := by
  unfold target at h
  unfold append
  split at h
  · next hw =>
    rw [if_pos hw]
    cases h
    rfl
  · next hw =>
    split at h
    · next hpending =>
      rw [if_neg hw, if_pos hpending]
      cases h
      rfl
    · cases h

/-! ### Bounds -/

/-- What the steps keep: besides the bounds, that buffers that are used again are empty. -/
structure Bounded (s : LogServer) : Prop where
  current : s.mpCurrentBuffer.size ≤ LOG_BUFFER_SIZE
  available : ∀ b ∈ s.mvAvailbleBuffers, b.used = []
  pending : ∀ b ∈ s.mvPendingBuffers, b.size ≤ LOG_BUFFER_SIZE
  needFlush : ∀ b ∈ s.needFlushBuffers, b.size ≤ LOG_BUFFER_SIZE
  flushed : Flushed s.mFlushThread s.needFlushBuffers

theorem create_bounded : create.Bounded where
  current := Nat.zero_le _
  available := fun _ h => by cases h
  pending := fun _ h => by cases h
  needFlush := fun _ h => by cases h
  flushed := rfl

theorem Bounded.fits (h : s.Bounded) : s.Fits := by
  intro b hb
  rcases List.mem_cons.mp hb with rfl | hb
  · exact h.current
  · rcases List.mem_append.mp hb with hb | hb
    · rw [LogBuffer.size, h.available b hb]
      exact Nat.zero_le _
    · exact (List.mem_append.mp hb).elim (h.pending b) (h.needFlush b)

/-- A retired buffer is replaced by an empty one. -/
theorem Bounded.retire (h : s.Bounded) : s.retire.Bounded where
  current := by
    rw [LogBuffer.size, retire_current h.available]
    exact Nat.zero_le _
  available := fun b hb => h.available b (List.dropLast_subset _ hb)
  pending := by
    intro b hb
    rcases List.mem_append.mp hb with hb | hb
    · exact h.pending b hb
    · exact List.mem_singleton.mp hb ▸ h.current
  needFlush := h.needFlush
  flushed := h.flushed

theorem Bounded.writeLine (h : s.Bounded)
    (hfit : s.mpCurrentBuffer.size + line.length ≤ LOG_BUFFER_SIZE) :
    (s.writeLine line).Bounded where
  current := by
    change (s.mpCurrentBuffer.used ++ line).length ≤ LOG_BUFFER_SIZE
    rw [List.length_append]
    exact hfit
  available := h.available
  pending := h.pending
  needFlush := h.needFlush
  flushed := h.flushed

/-- The target has room for a line that is no longer than a buffer. -/
theorem Bounded.target_fits (h : s.Bounded)
    (hline : line.length ≤ LOG_BUFFER_SIZE ∨ MAX_PENDING_BUFFERS < s.mvPendingBuffers.length) :
    ∀ b ∈ s.target line, b.size + line.length ≤ LOG_BUFFER_SIZE := by
  intro b hb
  unfold target at hb
  split at hb
  · next hw =>
    cases hb
    exact (LogBuffer.writable_iff h.current).mp hw
  · split at hb
    · next hpending =>
      cases hb
      -- the fresh buffer is empty
      rw [LogBuffer.size, retire_current h.available, List.length_nil, Nat.zero_add]
      exact hline.resolve_right (Nat.not_lt.mpr hpending)
    · cases hb

theorem Bounded.append (h : s.Bounded)
    (hline : line.length ≤ LOG_BUFFER_SIZE ∨ MAX_PENDING_BUFFERS < s.mvPendingBuffers.length) :
    (s.append line).Bounded := by
  have htarget := h.target_fits hline
  unfold target at htarget
  unfold LogServer.append
  split
  · next hw =>
    rw [if_pos hw] at htarget
    exact h.writeLine (htarget _ rfl)
  · next hw =>
    split
    · next hpending =>
      rw [if_neg hw, if_pos hpending] at htarget
      exact h.retire.writeLine (htarget _ rfl)
    · exact h

theorem Bounded.finalFlush (h : s.Bounded) (hnone : s.needFlushBuffers = []) :
    s.finalFlush.Bounded := by
  rw [finalFlush_eq]
  refine ⟨Nat.zero_le _, h.available, fun b hb => ?_, h.needFlush, hnone⟩
  obtain ⟨_, -, rfl⟩ := List.mem_map.mp hb
  exact Nat.zero_le _

theorem Bounded.swapBuffers (h : s.Bounded) : s.swapBuffers.Bounded where
  current := h.current
  available := h.available
  pending := h.needFlush
  needFlush := h.pending
  flushed := fun b hb => by cases hb

theorem Bounded.proceed (h : s.Bounded) (hnone : s.needFlushBuffers = []) (timeout : Bool) :
    (s.proceed timeout).Bounded := by
  unfold LogServer.proceed
  split
  · exact h.finalFlush hnone
  · split
    · have hr := h.retire
      exact swapBuffers ⟨hr.current, hr.available, hr.pending, hr.needFlush, hr.flushed⟩
    · exact h.swapBuffers

theorem Bounded.flushNext (h : s.Bounded) {pos : ℕ} {b : LogBuffer}
    (hpc : s.mFlushThread = .flushing pos) (hget : s.needFlushBuffers[pos]? = some b) :
    (s.flushNext pos b).Bounded := by
  obtain ⟨files, stream, n, -, hrotate⟩ := rotate_eq s b
  have hflushed := h.flushed
  rw [hpc] at hflushed
  unfold LogServer.flushNext
  rw [hrotate]
  refine ⟨h.current, h.available, h.pending, fun c hc => ?_, flushed_set hget hflushed⟩
  rcases List.mem_or_eq_of_mem_set hc with hc | rfl
  · exact h.needFlush c hc
  · exact Nat.zero_le _

/-- **The bounds are kept** by every step whose line is no longer than a buffer. -/
theorem step_bounded (h : s.Bounded) (hi : s.FitsOrDiscards i) (hstep : s.step i = some s') :
    s'.Bounded := by
  have hflushed := h.flushed
  cases step_turn hstep with
  | idle buffers files accepted writers pc =>
    refine ⟨?_, ?_, ?_, ?_, ?_⟩
    · rw [buffers.current]
      exact h.current
    · rw [buffers.available]
      exact h.available
    · rw [buffers.pending]
      exact h.pending
    · rw [buffers.needFlush]
      exact h.needFlush
    · rw [buffers.needFlush]
      rcases pc with hpc | ⟨hidle, -, hidle'⟩
      · rwa [hpc]
      · exact (flushed_of_isIdle hidle').mpr ((flushed_of_isIdle hidle).mp hflushed)
  | append t line locked eq =>
    have ha := h.append (hi line locked)
    subst eq
    exact ⟨ha.current, ha.available, ha.pending, ha.needFlush, ha.flushed⟩
  | proceed timeout pc eq =>
    rw [pc] at hflushed
    exact eq ▸ h.proceed hflushed timeout
  | flush pos b pc get eq => exact eq ▸ h.flushNext pc get
  | flushed pos pc none eq =>
    subst eq
    refine ⟨h.current, h.available, h.pending, h.needFlush, fun b hb => ?_⟩
    -- behind the last buffer all of them are flushed
    rw [pc] at hflushed
    apply hflushed b
    rwa [List.take_of_length_le (List.getElem?_eq_none_iff.mp none)]
  | returned pc eq =>
    rw [pc] at hflushed
    subst eq
    refine ⟨h.current, fun b hb => ?_, h.pending, fun b hb => (by cases hb), rfl⟩
    exact (List.mem_append.mp hb).elim (h.available b) (hflushed b)

/-- A line that is longer than a buffer and is not discarded overruns the buffer. -/
theorem fitsOrDiscards_of_fits (h : s.Bounded) (hstep : s.step i = some s') (hfits : s'.Fits) :
    s.FitsOrDiscards i := by
  cases i with
  | append t =>
    intro line hlocked
    by_contra hnot
    obtain ⟨hlong, hpending⟩ := not_or.mp hnot
    -- a line that is longer than a buffer is not writable, and goes to a fresh one
    have hw : ¬ s.mpCurrentBuffer.writable line.length := by
      rw [LogBuffer.writable_iff h.current]
      omega
    have htarget : s.retire.mpCurrentBuffer ∈ s.target line := by
      rw [target, if_neg hw, if_pos (Nat.not_lt.mp hpending)]
      rfl
    have hcurrent : s'.mpCurrentBuffer = s.retire.mpCurrentBuffer.write line := by
      simp only [step, hlocked, Option.some.injEq] at hstep
      subst hstep
      exact append_of_target htarget
    have hsize := hfits s'.mpCurrentBuffer List.mem_cons_self
    rw [hcurrent, LogBuffer.size, LogBuffer.write, List.length_append] at hsize
    omega
  | _ => trivial

/-- **No buffer is overrun** exactly when every line that is not discarded is no longer than a
buffer. -/
theorem neverOverrun_iff (is : List LogStep) :
    NeverOverrun is ↔ Along step FitsOrDiscards create is := by
  -- the states are in their bounds as long as the lines fit, and from then on the copies are inside
  have hkeep : ∀ (s : LogServer) (i : LogStep) (s' : LogServer), s.Bounded → s.FitsOrDiscards i →
      s.step i = some s' → s'.Bounded := fun _ _ _ h hi hstep => step_bounded h hi hstep
  have hfits : Always step Fits create is ↔ Along step FitsOrDiscards create is :=
    Transition.always_iff_along (fun _ h => h.fits) hkeep
      (fun _ _ _ h hstep hfits => fitsOrDiscards_of_fits h hstep hfits) create_bounded
  rw [NeverOverrun, hfits]
  refine and_iff_right_of_imp fun h => h.of_invariant hkeep (fun s i hs hi => ?_) create_bounded
  cases i with
  | append t => exact fun line hlocked => hs.target_fits (hi line hlocked)
  | _ => trivial

/-- The first line is one byte longer than a buffer. -/
theorem not_neverOverrun : ¬ ∀ is, NeverOverrun is := by
  intro h
  let line : Bytes := List.replicate (LOG_BUFFER_SIZE + 1) 0
  have hline : line.length = LOG_BUFFER_SIZE + 1 := List.length_replicate
  let s : LogServer :=
    { create with mMutex := some (.client 0), writers := update create.writers 0 (.locked line) }
  have hstep : create.step (.write 0 line) = some s := rfl
  have hlocked : s.writers 0 = .locked line := by
    change update create.writers 0 (.locked line) 0 = .locked line
    exact Function.update_self 0 _ _
  have hpending : s.mvPendingBuffers.length ≤ MAX_PENDING_BUFFERS := Nat.zero_le _
  have hw : ¬ s.mpCurrentBuffer.writable line.length := by
    rw [LogBuffer.writable_iff (Nat.zero_le _), hline]
    change ¬ 0 + (LOG_BUFFER_SIZE + 1) ≤ LOG_BUFFER_SIZE
    omega
  have htarget : LogBuffer.fresh ∈ s.target line := by
    rw [target, if_neg hw, if_pos hpending]
    rfl
  have happend : ∃ s', s.step (.append 0) = some s' := by
    simp only [step, hlocked]
    exact ⟨_, rfl⟩
  obtain ⟨s', happend⟩ := happend
  obtain ⟨-, hrest⟩ := (h [.write 0 line, .append 0]).1 s hstep
  have hinside := (hrest s' happend).1 line hlocked _ htarget
  rw [hline] at hinside
  omega

end LogServer

end SimpleTcp
