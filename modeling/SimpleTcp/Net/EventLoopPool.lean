import Mathlib.Algebra.Order.BigOperators.Group.Finset
import SimpleTcp.Library.Transition

/-!
# The pool of event loops

Each thread of a pool constructs its loop, registers it under `mMutex` and waits on `mCond` until
the loop is acquired; then it starts the loop, and locks `mMutex` again when the loop has returned.
The destructor locks `mMutex`, tells every registered loop to exit, wakes the threads and joins them
before it releases the mutex.

A part of a function that holds `mMutex` and does not block is one step. The loops are quit by the
destructor alone.

## Main definitions

* `EventLoopPool`: the threads of a pool, their loops and the destructor
* `PoolStep`, `EventLoopPool.step`: the steps of the threads
* `EventLoopPool.Deadlocked`: the destructor has begun, and no thread can take a step
* `EventLoopPool.Ignores`: a thread that was told to exit waits on, or runs its loop
* `EventLoopPool.Safe`: neither is ever reached

## Main results

* `hangs_of_pos`: a destructor that has begun never ends, and always runs into one of them
* `not_safe_one`: the destructor of a pool whose thread has not registered its loop
-/

namespace SimpleTcp

/-- The `State` of a loop of the pool. -/
inductive PoolLoopState where
  | Initialized
  | Running
  | Exit
  deriving DecidableEq, Repr

/-- Where a thread of the pool is. -/
inductive SubThreadPc where
  /-- The loop is constructed, and `mMutex` is locked next. -/
  | starting
  /-- In `mCond.wait`. -/
  | waiting
  /-- In `mCond.wait`, which has to lock `mMutex` again. -/
  | woken
  /-- `mMutex` is released, and `startLoop` is next. -/
  | released
  /-- In `startLoop`. -/
  | looping
  /-- `startLoop` has returned, and `mMutex` is locked next. -/
  | returned
  | finished
  deriving DecidableEq, Repr

/-- Where the destructor is. It holds `mMutex` until it is finished. -/
inductive DestructorPc where
  | idle
  /-- The loops that are left to be told to exit; when none is, `notify_all` is next. -/
  | marking (loops : List ℕ)
  /-- The threads that are left to be joined. -/
  | joining (threads : List ℕ)
  | finished
  deriving DecidableEq, Repr

/-- A loop has the position of its thread in `mSubThreads`. -/
structure EventLoopPool where
  mMaxThreadNum : ℕ
  mSubThreads : ℕ → SubThreadPc
  mSubLoops : List ℕ
  mSubLoopStates : ℕ → Option PoolLoopState
  mIsExit : ℕ → Bool
  mIndex : ℕ
  destructor : DestructorPc

inductive PoolStep where
  /-- A thread locks `mMutex`, registers its loop and waits. -/
  | registerLoop (i : ℕ)
  | wakeSpuriously (i : ℕ)
  /-- `mCond.wait` returns, and the state of the loop is tested. -/
  | relock (i : ℕ)
  | startLoop (i : ℕ)
  /-- A turn of the loop, up to the test of `mIsExit`. -/
  | turn (i : ℕ)
  /-- The thread locks `mMutex` at its end. -/
  | finish (i : ℕ)
  | acquireLoop
  /-- The destructor locks `mMutex`. -/
  | destroy
  /-- The destructor tells the next loop to exit. -/
  | mark
  | notifyAll
  /-- `join` returns for the next thread. -/
  | join
  /-- The destructor releases `mMutex` and returns. -/
  | destroyed
  deriving DecidableEq, Repr

namespace EventLoopPool

open Function (update)

/-- `EventLoopPool::EventLoopPool`: the threads are started. -/
def create (maxThreadNum : ℕ) : EventLoopPool where
  mMaxThreadNum := maxThreadNum
  mSubThreads := fun _ => .starting
  mSubLoops := []
  mSubLoopStates := fun _ => none
  mIsExit := fun _ => true
  mIndex := 0
  destructor := .idle

/-- Nobody holds `mMutex` between two steps but the destructor. -/
def Unlocked (s : EventLoopPool) : Prop := s.destructor = .idle ∨ s.destructor = .finished

instance (s : EventLoopPool) : Decidable s.Unlocked := inferInstanceAs (Decidable (_ ∨ _))

def setPc (s : EventLoopPool) (i : ℕ) (pc : SubThreadPc) : EventLoopPool :=
  { s with mSubThreads := update s.mSubThreads i pc }

/-- A thread after `notify_all`. -/
def SubThreadPc.notified : SubThreadPc → SubThreadPc
  | .waiting => .woken
  | pc => pc

/-- `mCond.notify_all()`. -/
def notifyAll (s : EventLoopPool) : EventLoopPool :=
  { s with mSubThreads := fun i => SubThreadPc.notified (s.mSubThreads i) }

/-- The first part of a thread, under `mMutex`. The new loop is not `Running`. -/
def registerLoop (s : EventLoopPool) (i : ℕ) : EventLoopPool :=
  { s.setPc i .waiting with
    mSubLoops := s.mSubLoops ++ [i]
    mSubLoopStates := update s.mSubLoopStates i (some .Initialized) }

/-- `EventLoopPool::acquireLoop`, of the loop. -/
def acquire (s : EventLoopPool) (loop : ℕ) : EventLoopPool :=
  if s.mSubLoopStates loop = some .Initialized then
    { s with
      mIndex := (s.mIndex + 1) % 2 ^ 64
      mSubLoopStates := update s.mSubLoopStates loop (some .Running) }.notifyAll
  else { s with mIndex := (s.mIndex + 1) % 2 ^ 64 }

/-- `EventLoopPool::acquireLoop`. Before a loop is registered it divides by zero. -/
def acquireLoop (s : EventLoopPool) : Option EventLoopPool :=
  if s.mMaxThreadNum = 0 then some s
  else if s.Unlocked then
    (s.mSubLoops[s.mIndex % s.mSubLoops.length]?).map s.acquire
  else none

/-- The loop is told to exit, and `EventLoop::quitLoop` sets its `mIsExit`. -/
def mark (s : EventLoopPool) (loop : ℕ) (loops : List ℕ) : EventLoopPool :=
  { s with
    mSubLoopStates := update s.mSubLoopStates loop (some .Exit)
    mIsExit := update s.mIsExit loop true
    destructor := .marking loops }

/-- A step of a thread of the pool, of a thread that acquires a loop, or of the one that destroys
the pool. -/
def step (s : EventLoopPool) : PoolStep → Option EventLoopPool
  -- the thread of a loop, up to its wait
  | .registerLoop i =>
    if i < s.mMaxThreadNum ∧ s.Unlocked ∧ s.mSubThreads i = .starting then
      some (s.registerLoop i)
    else none
  | .wakeSpuriously i => if s.mSubThreads i = .waiting then some (s.setPc i .woken) else none
  -- the state is looked at again with the mutex
  | .relock i =>
    if s.Unlocked ∧ s.mSubThreads i = .woken then
      some (s.setPc i (if s.mSubLoopStates i = some .Running then .released else .waiting))
    else none
  | .startLoop i =>
    if s.mSubThreads i = .released then
      some { s.setPc i .looping with mIsExit := update s.mIsExit i false }
    else none
  -- a turn of the loop, that looks at `mIsExit` at its end
  | .turn i =>
    if s.mSubThreads i = .looping then some (if s.mIsExit i then s.setPc i .returned else s)
    else none
  -- the mutex is locked once more, to look at the state of the loop
  | .finish i =>
    if s.Unlocked ∧ s.mSubThreads i = .returned then some (s.setPc i .finished) else none
  | .acquireLoop => s.acquireLoop
  -- the destructor keeps the mutex to its end
  | .destroy =>
    if s.destructor = .idle then some { s with destructor := .marking s.mSubLoops } else none
  | .mark =>
    match s.destructor with
    | .marking (loop :: loops) => some (s.mark loop loops)
    | _ => none
  | .notifyAll =>
    match s.destructor with
    | .marking [] =>
      some { s.notifyAll with destructor := .joining (List.range s.mMaxThreadNum) }
    | _ => none
  -- the threads are joined one by one
  | .join =>
    match s.destructor with
    | .joining (i :: threads) =>
      if s.mSubThreads i = .finished then some { s with destructor := .joining threads } else none
    | _ => none
  | .destroyed =>
    match s.destructor with
    | .joining [] => some { s with destructor := .finished }
    | _ => none

/-! ## The property -/

/-- The destructor has locked `mMutex`. -/
def Begun (s : EventLoopPool) : Prop := s.destructor ≠ .idle

/-- The destructor has begun and not finished, and no thread can take a step. -/
def Deadlocked (s : EventLoopPool) : Prop :=
  s.Begun ∧ s.destructor ≠ .finished ∧ ∀ i, s.step i = none

/-- The thread was told to exit. It waits on `mCond` when the threads were notified, or it is in its
loop and does not see that. -/
def Ignores (s : EventLoopPool) (i : ℕ) : Prop :=
  s.mSubLoopStates i = some .Exit ∧
    ((s.mSubThreads i = .waiting ∧ ∃ threads, s.destructor = .joining threads) ∨
      (s.mSubThreads i = .looping ∧ s.mIsExit i = false))

/-- What the destructor must not run into. -/
def Bad (s : EventLoopPool) : Prop := s.Deadlocked ∨ ∃ i, s.Ignores i

/-- No interleaving runs into it. -/
def Safe (maxThreadNum : ℕ) : Prop :=
  ∀ is s, Transition.run step (create maxThreadNum) is = some s → ¬ s.Bad

/-! ## The mutex is not released -/

/-- What the steps keep. A loop is quit only when the destructor has begun, and then its thread
waits for a mutex that the destructor holds until the thread has ended. -/
structure Held (s : EventLoopPool) : Prop where
  pos : 0 < s.mMaxThreadNum
  not_finished : ∀ i, s.mSubThreads i ≠ .finished
  quit : ∀ i, s.mSubThreads i = .returned ∨ (s.mSubThreads i = .looping ∧ s.mIsExit i = true) →
    s.Begun
  not_destroyed : s.destructor ≠ .finished
  joining : ∀ threads, s.destructor = .joining threads →
    threads = List.range s.mMaxThreadNum ∧ ∀ i, s.mSubThreads i ≠ .waiting
  started : ∀ i, s.mSubThreads i ≠ .starting → i < s.mMaxThreadNum
  told : ∀ i, s.mSubThreads i ≠ .starting → i ∈ s.mSubLoops ∧
    match s.destructor with
    | .marking loops => i ∈ loops ∨ s.mSubLoopStates i = some .Exit
    | .joining _ => s.mSubLoopStates i = some .Exit
    | _ => True

section

variable {pc : SubThreadPc}

theorem SubThreadPc.notified_ne_waiting : SubThreadPc.notified pc ≠ .waiting := by
  cases pc <;> simp [SubThreadPc.notified]

theorem SubThreadPc.notified_eq_iff {pc' : SubThreadPc} (h : pc' ≠ .waiting) (h' : pc' ≠ .woken) :
    SubThreadPc.notified pc = pc' ↔ pc = pc' := by
  cases pc <;> simp [SubThreadPc.notified, h.symm, h'.symm]

end

variable {s s' : EventLoopPool}

theorem create_held {maxThreadNum : ℕ} (h : 0 < maxThreadNum) : (create maxThreadNum).Held := by
  constructor <;> simp [create, h]

/-- The mutex is free before the destructor has locked it. -/
theorem Held.idle (h : s.Held) (hfree : s.Unlocked) : s.destructor = .idle :=
  hfree.resolve_right h.not_destroyed

/-- A thread moves on. -/
theorem Held.setPc (h : s.Held) {i : ℕ} {pc : SubThreadPc} (hfinished : pc ≠ .finished)
    (hquit : pc = .returned ∨ (pc = .looping ∧ s.mIsExit i = true) → s.Begun)
    (hwaiting : pc = .waiting → s.destructor = .idle) (hstarted : s.mSubThreads i ≠ .starting) :
    (s.setPc i pc).Held := by
  have hpc : ∀ j, (s.setPc i pc).mSubThreads j = if j = i then pc else s.mSubThreads j :=
    fun j => Function.update_apply ..
  refine ⟨h.pos, fun j => ?_, fun j => ?_, h.not_destroyed, fun threads hjoin => ?_, fun j => ?_,
    fun j => ?_⟩
  · rw [hpc]
    split
    · -- no thread has finished
      exact hfinished
    · exact h.not_finished j
  · rw [hpc]
    split
    · next hj =>
      subst hj
      -- a thread quits only because of the destructor
      exact hquit
    · exact h.quit j
  · -- once the destructor joins, no thread waits
    obtain ⟨hthreads, hnot⟩ := h.joining threads hjoin
    refine ⟨hthreads, fun j => ?_⟩
    rw [hpc]
    split
    · intro hpc'
      have hidle : (s.setPc i pc).destructor = .idle := hwaiting hpc'
      rw [hidle] at hjoin
      cases hjoin
    · exact hnot j
  · rw [hpc]
    split
    · next hj =>
      subst hj
      -- the loop of a thread that has started stays registered
      exact fun _ => h.started j hstarted
    · exact h.started j
  · rw [hpc]
    split
    · next hj =>
      subst hj
      exact fun _ => h.told j hstarted
    · exact h.told j

theorem Held.notifyAll (h : s.Held) : s.notifyAll.Held := by
  refine ⟨h.pos, fun j => ?_, fun j => ?_, h.not_destroyed, fun threads hjoin => ?_, fun j => ?_,
    fun j => ?_⟩
  · exact (SubThreadPc.notified_eq_iff (by simp) (by simp)).not.mpr (h.not_finished j)
  · change SubThreadPc.notified _ = _ ∨ SubThreadPc.notified _ = _ ∧ _ → _
    rw [SubThreadPc.notified_eq_iff (by simp) (by simp),
      SubThreadPc.notified_eq_iff (by simp) (by simp)]
    exact h.quit j
  · exact ⟨(h.joining threads hjoin).1, fun j => SubThreadPc.notified_ne_waiting⟩
  · change SubThreadPc.notified _ ≠ _ → _
    rw [Ne, SubThreadPc.notified_eq_iff (by simp) (by simp)]
    exact h.started j
  · change SubThreadPc.notified _ ≠ _ → _
    rw [Ne, SubThreadPc.notified_eq_iff (by simp) (by simp)]
    exact h.told j

/-- A step of a thread that holds the mutex while the destructor does not. -/
theorem Held.registerLoop (h : s.Held) (hidle : s.destructor = .idle) {i : ℕ}
    (hi : i < s.mMaxThreadNum) : (s.registerLoop i).Held := by
  have hpc : ∀ j, (s.registerLoop i).mSubThreads j =
      if j = i then .waiting else s.mSubThreads j := fun j => Function.update_apply ..
  refine ⟨h.pos, fun j => ?_, fun j => ?_, h.not_destroyed, fun threads hjoin => ?_, fun j => ?_,
    fun j => ?_⟩
  · rw [hpc]
    split
    · simp
    · exact h.not_finished j
  · rw [hpc]
    split
    · simp
    · exact h.quit j
  · rw [show (s.registerLoop i).destructor = s.destructor from rfl, hidle] at hjoin
    cases hjoin
  · rw [hpc]
    split
    · next hj => exact fun _ => hj ▸ hi
    · exact h.started j
  · rw [hpc, show (s.registerLoop i).destructor = s.destructor from rfl, hidle]
    split
    · next hj => exact fun _ => ⟨List.mem_append_right _ (List.mem_singleton.mpr hj), trivial⟩
    · exact fun hstarted => ⟨List.mem_append_left _ (h.told j hstarted).1, trivial⟩

/-- `startLoop` resets what `quitLoop` has set. -/
theorem Held.startLoop (h : s.Held) {i : ℕ} (hpc : s.mSubThreads i = .released) :
    Held { s.setPc i .looping with mIsExit := update s.mIsExit i false } := by
  have hreset : Held { s with mIsExit := update s.mIsExit i false } := by
    refine ⟨h.pos, h.not_finished, fun j hj => h.quit j ?_, h.not_destroyed, h.joining, h.started,
      h.told⟩
    refine hj.imp_right fun ⟨hlooping, hexit⟩ => ⟨hlooping, ?_⟩
    have hne : j ≠ i := by
      rintro rfl
      simp at hexit
    simpa only [Function.update_of_ne hne] using hexit
  exact hreset.setPc (i := i) (by simp) (by simp) (by simp) (by simp [hpc])

/-- Before the destructor has begun, the states of the loops are free. -/
theorem Held.setStates (h : s.Held) (hidle : s.destructor = .idle) (mIndex : ℕ)
    (states : ℕ → Option PoolLoopState) :
    Held { s with mIndex, mSubLoopStates := states } := by
  refine ⟨h.pos, h.not_finished, h.quit, h.not_destroyed, h.joining, h.started, fun j hj => ?_⟩
  refine ⟨(h.told j hj).1, ?_⟩
  change match s.destructor with
    | .marking loops => _
    | .joining _ => _
    | _ => True
  rw [hidle]
  trivial

theorem Held.acquireLoop (h : s.Held) (hstep : s.acquireLoop = some s') : s'.Held := by
  simp only [EventLoopPool.acquireLoop] at hstep
  split at hstep
  · cases hstep
    exact h
  · split at hstep
    · next hfree =>
      obtain ⟨loop, -, rfl⟩ := Option.map_eq_some_iff.mp hstep
      simp only [acquire]
      split
      · exact (h.setStates (h.idle hfree) _ _).notifyAll
      · exact h.setStates (h.idle hfree) _ s.mSubLoopStates
    · cases hstep

theorem Held.mark (h : s.Held) {loop : ℕ} {loops : List ℕ}
    (hpc : s.destructor = .marking (loop :: loops)) : (s.mark loop loops).Held := by
  refine ⟨h.pos, h.not_finished, fun _ _ => by simp [Begun, EventLoopPool.mark],
    by simp [EventLoopPool.mark], by simp [EventLoopPool.mark], h.started, fun j hj => ?_⟩
  obtain ⟨hmem, htold⟩ := h.told j hj
  rw [hpc] at htold
  refine ⟨hmem, ?_⟩
  change j ∈ loops ∨ update s.mSubLoopStates loop (some .Exit) j = _
  by_cases heq : j = loop
  · exact .inr (heq ▸ Function.update_self ..)
  · rw [Function.update_of_ne heq]
    exact htold.imp_left fun hj => (List.mem_cons.mp hj).resolve_left heq

theorem step_held {i : PoolStep} (h : s.Held) (hstep : s.step i = some s') : s'.Held := by
  cases i with
  | registerLoop i =>
    simp only [step] at hstep
    split at hstep <;> cases hstep
    next hpc => exact h.registerLoop (h.idle hpc.2.1) hpc.1
  | wakeSpuriously i =>
    simp only [step] at hstep
    split at hstep <;> cases hstep
    next hpc => exact h.setPc (by simp) (by simp) (by simp) (by simp [hpc])
  | relock i =>
    simp only [step] at hstep
    split at hstep <;> cases hstep
    next hpc =>
    split
    · exact h.setPc (by simp) (by simp) (by simp) (by simp [hpc.2])
    · exact h.setPc (by simp) (by simp) (fun _ => h.idle hpc.1) (by simp [hpc.2])
  | startLoop i =>
    simp only [step] at hstep
    split at hstep <;> cases hstep
    next hpc => exact h.startLoop hpc
  | turn i =>
    simp only [step] at hstep
    split at hstep <;> cases hstep
    next hpc =>
    split
    · next hexit =>
      exact h.setPc (by simp) (fun _ => h.quit i (.inr ⟨hpc, hexit⟩)) (by simp) (by simp [hpc])
    · exact h
  | finish i =>
    -- a thread whose loop has returned finds the mutex locked
    simp only [step] at hstep
    split at hstep <;> cases hstep
    next hpc => exact absurd (h.idle hpc.1) (h.quit i (.inl hpc.2))
  | acquireLoop => exact h.acquireLoop hstep
  | destroy =>
    simp only [step] at hstep
    split at hstep <;> cases hstep
    exact ⟨h.pos, h.not_finished, fun _ _ => by simp [Begun], by simp, by simp, h.started,
      fun j hj => ⟨(h.told j hj).1, .inl (h.told j hj).1⟩⟩
  | mark =>
    simp only [step] at hstep
    split at hstep <;> cases hstep
    next hpc => exact h.mark hpc
  | notifyAll =>
    simp only [step] at hstep
    split at hstep <;> cases hstep
    next hpc =>
    have hwoken := h.notifyAll
    refine ⟨h.pos, hwoken.not_finished, fun _ _ => by simp [Begun], by simp,
      fun threads hjoin => ⟨(DestructorPc.joining.inj hjoin).symm,
        fun _ => SubThreadPc.notified_ne_waiting⟩, hwoken.started, fun j hj => ?_⟩
    obtain ⟨hmem, htold⟩ := hwoken.told j hj
    rw [show s.notifyAll.destructor = .marking [] from hpc] at htold
    exact ⟨hmem, htold.resolve_left List.not_mem_nil⟩
  | join =>
    simp only [step] at hstep
    split at hstep
    · split at hstep <;> cases hstep
      next hpc => exact absurd hpc (h.not_finished _)
    · cases hstep
  | destroyed =>
    simp only [step] at hstep
    split at hstep <;> cases hstep
    next hpc =>
    have hrange := (h.joining [] hpc).1
    have hpos := h.pos
    rw [List.range_eq_nil.mp hrange.symm] at hpos
    exact absurd hpos (Nat.lt_irrefl 0)

/-! ## What the destructor runs into -/

/-- The steps that a thread can take until it needs the mutex. -/
def SubThreadPc.weight : SubThreadPc → ℕ
  | .released => 2
  | .looping => 1
  | .starting | .waiting | .woken | .returned | .finished => 0

def DestructorPc.weight : DestructorPc → ℕ
  | .marking loops => loops.length + 1
  | .idle | .joining _ | .finished => 0

/-- The steps until every thread needs the mutex. -/
def weight (s : EventLoopPool) : ℕ :=
  DestructorPc.weight s.destructor +
    ∑ i ∈ Finset.range s.mMaxThreadNum, SubThreadPc.weight (s.mSubThreads i)

theorem SubThreadPc.weight_notified (pc : SubThreadPc) :
    SubThreadPc.weight (SubThreadPc.notified pc) = SubThreadPc.weight pc := by
  cases pc <;> rfl

/-- A thread moves towards the mutex. -/
theorem sum_weight_lt {i n : ℕ} {pc : SubThreadPc} {pcs : ℕ → SubThreadPc} (hi : i < n)
    (hpc : SubThreadPc.weight pc < SubThreadPc.weight (pcs i)) :
    ∑ j ∈ Finset.range n, SubThreadPc.weight (update pcs i pc j) <
      ∑ j ∈ Finset.range n, SubThreadPc.weight (pcs j) := by
  refine Finset.sum_lt_sum (fun j _ => ?_) ⟨i, Finset.mem_range.mpr hi, ?_⟩
  · rw [Function.update_apply]
    split
    · next hj => exact hj ▸ hpc.le
    · exact Nat.le_refl _
  · rw [Function.update_self]
    exact hpc

theorem progress (h : s.Held) (hbegun : s.Begun) (hbad : ¬ s.Bad) :
    ∃ i s', s.step i = some s' ∧ (s'.Held ∧ s'.Begun) ∧ s'.weight < s.weight := by
  have hnext : ∀ i s', s.step i = some s' → s'.Begun → s'.weight < s.weight →
      ∃ i s', s.step i = some s' ∧ (s'.Held ∧ s'.Begun) ∧ s'.weight < s.weight :=
    fun i s' hstep hbegun' hlt => ⟨i, s', hstep, ⟨step_held h hstep, hbegun'⟩, hlt⟩
  match hpc : s.destructor with
  | .idle => exact absurd hpc hbegun
  | .finished => exact absurd hpc h.not_destroyed
  | .marking (loop :: loops) =>
    refine hnext .mark (s.mark loop loops) (by simp only [step, hpc]) (by simp [Begun, mark]) ?_
    simp [weight, mark, hpc, DestructorPc.weight]
  | .marking [] =>
    refine hnext .notifyAll { s.notifyAll with destructor := .joining (List.range s.mMaxThreadNum) }
      (by simp only [step, hpc]) (by simp [Begun]) ?_
    simp [weight, notifyAll, hpc, DestructorPc.weight, SubThreadPc.weight_notified]
  | .joining threads =>
    obtain ⟨rfl, hwaiting⟩ := h.joining threads hpc
    by_cases hreleased : ∃ i, s.mSubThreads i = .released
    · obtain ⟨i, hi⟩ := hreleased
      refine hnext (.startLoop i) _ (if_pos hi) hbegun ?_
      have hless : SubThreadPc.weight .looping < SubThreadPc.weight (s.mSubThreads i) := by
        rw [hi]; decide
      have := sum_weight_lt (h.started i (by simp [hi])) hless
      simp only [weight, setPc]
      omega
    · by_cases hlooping : ∃ i, s.mSubThreads i = .looping
      · obtain ⟨i, hi⟩ := hlooping
        have htold := (h.told i (by simp [hi])).2
        rw [hpc] at htold
        have hexit : s.mIsExit i = true := by
          by_contra hexit
          exact hbad (.inr ⟨i, htold, .inr ⟨hi, by simpa using hexit⟩⟩)
        refine hnext (.turn i) (s.setPc i .returned) (by simp [step, hi, hexit]) hbegun ?_
        have hless : SubThreadPc.weight .returned < SubThreadPc.weight (s.mSubThreads i) := by
          rw [hi]; decide
        have := sum_weight_lt (h.started i (by simp [hi])) hless
        simp only [weight, setPc]
        omega
      · -- every thread needs the mutex
        refine absurd (.inl ⟨hbegun, h.not_destroyed, fun i => ?_⟩) hbad
        have hlocked : ¬ s.Unlocked := by simp [Unlocked, hpc]
        have hpos := h.pos
        obtain ⟨threads, hthreads⟩ : ∃ threads, List.range s.mMaxThreadNum = 0 :: threads := by
          rw [← Nat.succ_pred_eq_of_pos hpos, List.range_succ_eq_map]
          exact ⟨_, rfl⟩
        rw [hthreads] at hpc
        cases i with
        | registerLoop | relock | finish => simp [step, hlocked]
        | wakeSpuriously i => simp [step, hwaiting i]
        | startLoop i => simp [step, not_exists.mp hreleased i]
        | turn i => simp [step, not_exists.mp hlooping i]
        | acquireLoop => simp [step, acquireLoop, hlocked, hpos.ne']
        | destroy | mark | notifyAll | destroyed => simp [step, hpc]
        | join => simp [step, hpc, h.not_finished 0]

theorem held_of_run {maxThreadNum : ℕ} (hpos : 0 < maxThreadNum) (is : List PoolStep)
    (hrun : Transition.run step (create maxThreadNum) is = some s) : s.Held :=
  Transition.run_invariant (fun _ _ _ h hstep => step_held h hstep) (create_held hpos) hrun

/-- From the first lock of the destructor on, each run of a pool leads to one of them. -/
theorem exists_bad (h : s.Held) (hbegun : s.Begun) :
    ∃ is s', Transition.run step s is = some s' ∧ s'.Bad :=
  Transition.exists_run_of_progress weight (fun _ h hbad => progress h.1 h.2 hbad) ⟨h, hbegun⟩

/-- **The destructor of a pool hangs**, whatever its threads have done before: it is never finished,
and once it has locked the mutex the run can end only in a deadlock, or in a thread that does not
see that it should exit. -/
theorem hangs_of_pos {maxThreadNum : ℕ} (hpos : 0 < maxThreadNum) :
    ¬ Safe maxThreadNum ∧ ∀ is s, Transition.run step (create maxThreadNum) is = some s →
      s.destructor ≠ .finished ∧
        (s.Begun → ∃ js s', Transition.run step s js = some s' ∧ s'.Bad) := by
  refine ⟨fun hsafe => ?_, fun is s hrun => ?_⟩
  · have hheld := held_of_run hpos [.destroy] rfl
    obtain ⟨js, s', hrun, hbad⟩ := exists_bad hheld (by simp [Begun])
    exact hsafe (.destroy :: js) s' (Transition.run_cons_eq_some.mpr ⟨_, rfl, hrun⟩) hbad
  · have hheld := held_of_run hpos is hrun
    exact ⟨hheld.not_destroyed, exists_bad hheld⟩

theorem hangs_of_pos_one :
    ¬ Safe 1 ∧ ∀ is s, Transition.run step (create 1) is = some s → s.destructor ≠ .finished ∧
      (s.Begun → ∃ js s', Transition.run step s js = some s' ∧ s'.Bad) :=
  hangs_of_pos Nat.one_pos

/-- The destructor locks the mutex before the only thread has registered its loop. -/
theorem not_safe_one : ¬ Safe 1 := by
  intro hsafe
  refine hsafe [.destroy, .notifyAll] _ rfl (.inl ⟨by simp [Begun], by simp, fun i => ?_⟩)
  cases i with
  | registerLoop i | wakeSpuriously i | relock i | startLoop i | turn i | finish i =>
    simp [step, Unlocked, notifyAll, create, SubThreadPc.notified]
  | acquireLoop => simp [step, acquireLoop, Unlocked, notifyAll, create]
  | destroy | mark | notifyAll | join | destroyed =>
    simp [step, create, notifyAll, SubThreadPc.notified]

end EventLoopPool

end SimpleTcp
