import SimpleTcp.Net.Acquisition

/-!
# The loops of a pool that run

A thread of the pool waits until its loop is acquired, and then runs it. As long as the pool is not
destroyed, nobody tells a loop to quit: a loop that was acquired is on its way to `startLoop` or in
it.

## Main definitions

* `PoolStep.OfThread`: the steps of the threads of a pool
* `EventLoopPool.Runs`: the loop is on its way to `startLoop` or in it
* `EventLoopPool.Lively`: what the threads and the calls of `acquireLoop` keep

## Main results

* `EventLoopPool.lively_step`: a thread keeps the loops running
* `EventLoopPool.lively_acquire`: an acquired loop runs
-/

namespace SimpleTcp

/-- A step of a thread of the pool, up to the end of its loop. -/
def PoolStep.OfThread : PoolStep → Prop
  | .registerLoop _ | .wakeSpuriously _ | .relock _ | .startLoop _ | .turn _ | .finish _ => True
  | .acquireLoop | .destroy | .mark | .notifyAll | .join | .destroyed => False

instance : ∀ i : PoolStep, Decidable i.OfThread
  | .registerLoop _ | .wakeSpuriously _ | .relock _ | .startLoop _ | .turn _ | .finish _ =>
    inferInstanceAs (Decidable True)
  | .acquireLoop | .destroy | .mark | .notifyAll | .join | .destroyed =>
    inferInstanceAs (Decidable False)

namespace EventLoopPool

open Function (update)

variable {s s' : EventLoopPool} {loop : ℕ}

/-- The thread of the loop is in `startLoop` or on its way there, and the loop is not told to
quit. -/
def Runs (s : EventLoopPool) (loop : ℕ) : Prop :=
  s.mSubThreads loop = .woken ∨ s.mSubThreads loop = .released ∨
    s.mSubThreads loop = .looping ∧ s.mIsExit loop = false

/-- What the threads of a pool keep, and the calls of `acquireLoop`, as long as the pool is not
destroyed. -/
structure Lively (s : EventLoopPool) : Prop where
  destructor : s.destructor = .idle
  registered : ∀ loop ∈ s.mSubLoops,
    s.mSubLoopStates loop = some .Initialized ∨ s.mSubLoopStates loop = some .Running
  initialized : ∀ loop, s.mSubLoopStates loop = some .Initialized →
    s.mSubThreads loop = .waiting ∨ s.mSubThreads loop = .woken
  running : ∀ loop, s.mSubLoopStates loop = some .Running → s.Runs loop

theorem create_lively (maxThreadNum : ℕ) : (create maxThreadNum).Lively := by
  constructor <;> simp [create]

/-- A thread moves on. -/
theorem Lively.setPc (h : s.Lively) {pc : SubThreadPc}
    (hinitialized : s.mSubLoopStates loop = some .Initialized → pc = .waiting ∨ pc = .woken)
    (hrunning : s.mSubLoopStates loop = some .Running →
      pc = .woken ∨ pc = .released ∨ pc = .looping ∧ s.mIsExit loop = false) :
    (s.setPc loop pc).Lively := by
  have hself : (s.setPc loop pc).mSubThreads loop = pc := Function.update_self ..
  have hother : ∀ j, j ≠ loop → (s.setPc loop pc).mSubThreads j = s.mSubThreads j :=
    fun j hj => Function.update_of_ne hj ..
  refine ⟨h.destructor, h.registered, fun j hj => ?_, fun j hj => ?_⟩
  · by_cases heq : j = loop
    · subst heq
      rw [hself]
      exact hinitialized hj
    · rw [hother j heq]
      exact h.initialized j hj
  · rw [Runs]
    by_cases heq : j = loop
    · subst heq
      rw [hself]
      exact hrunning hj
    · rw [hother j heq]
      exact h.running j hj

/-- A thread that has not come to its wait has a loop without a state. -/
theorem Lively.not_running (h : s.Lively) (hpc : s.mSubThreads loop = .starting) :
    s.mSubLoopStates loop ≠ some .Running := by
  intro hst
  rcases h.running loop hst with hpc' | hpc' | ⟨hpc', -⟩ <;> rw [hpc] at hpc' <;> cases hpc'

theorem Lively.registerLoop (h : s.Lively) (loop : ℕ) : (s.registerLoop loop).Lively := by
  have hstates : ∀ j, j ≠ loop →
      (s.registerLoop loop).mSubLoopStates j = s.mSubLoopStates j :=
    fun j hj => Function.update_of_ne hj ..
  have hself : (s.registerLoop loop).mSubLoopStates loop = some .Initialized :=
    Function.update_self ..
  have hthread : (s.registerLoop loop).mSubThreads loop = .waiting := Function.update_self ..
  have hthreads : ∀ j, j ≠ loop → (s.registerLoop loop).mSubThreads j = s.mSubThreads j :=
    fun j hj => Function.update_of_ne hj ..
  refine ⟨h.destructor, fun j hj => ?_, fun j hj => ?_, fun j hj => ?_⟩
  · by_cases heq : j = loop
    · exact .inl (heq ▸ hself)
    · rw [hstates j heq]
      exact h.registered j ((List.mem_append.mp hj).resolve_right fun hj' =>
        heq (List.mem_singleton.mp hj'))
  · by_cases heq : j = loop
    · exact .inl (heq ▸ hthread)
    · rw [hstates j heq] at hj
      rw [hthreads j heq]
      exact h.initialized j hj
  · by_cases heq : j = loop
    · rw [heq, hself] at hj
      cases hj
    · rw [hstates j heq] at hj
      rw [Runs, hthreads j heq]
      exact h.running j hj

/-- `startLoop` resets the exit of the loop. -/
theorem Lively.startLoop (h : s.Lively) (hpc : s.mSubThreads loop = .released) :
    Lively { s.setPc loop .looping with mIsExit := update s.mIsExit loop false } := by
  have hreset : Lively { s with mIsExit := update s.mIsExit loop false } := by
    refine ⟨h.destructor, h.registered, h.initialized, fun j hj => ?_⟩
    refine (h.running j hj).imp_right fun hruns => hruns.imp_right fun ⟨hlooping, hexit⟩ =>
      ⟨hlooping, ?_⟩
    change update s.mIsExit loop false j = false
    rw [Function.update_apply]
    split
    · rfl
    · exact hexit
  refine hreset.setPc (fun hst : s.mSubLoopStates loop = some .Initialized => ?_) fun _ =>
    .inr (.inr ⟨rfl, by simp⟩)
  -- a thread that is released was told so
  rcases h.initialized loop hst with hpc' | hpc' <;> rw [hpc] at hpc' <;> cases hpc'

/-- **A thread of the pool keeps the loops running.** -/
theorem lively_step {i : PoolStep} (h : s.Lively) (hi : i.OfThread) (hstep : s.step i = some s') :
    s'.Lively ∧ ∀ loop, s.mSubLoopStates loop = some .Running →
      s'.mSubLoopStates loop = some .Running := by
  -- where the thread is neither waiting nor woken, the state of its loop is not `Initialized`
  have hnot : ∀ {j}, s.mSubThreads j ≠ .waiting → s.mSubThreads j ≠ .woken →
      s.mSubLoopStates j ≠ some .Initialized :=
    fun hw hw' hst => (h.initialized _ hst).elim hw hw'
  cases i with
  | registerLoop j =>
    simp only [step] at hstep
    split at hstep <;> cases hstep
    next hpc =>
      refine ⟨h.registerLoop j, fun loop hst => ?_⟩
      have hne : loop ≠ j := fun heq => h.not_running hpc.2.2 (heq ▸ hst)
      exact (Function.update_of_ne hne ..).trans hst
  | wakeSpuriously j =>
    simp only [step] at hstep
    split at hstep <;> cases hstep
    exact ⟨h.setPc (fun _ => .inr rfl) fun _ => .inl rfl, fun _ => id⟩
  | relock j =>
    simp only [step] at hstep
    split at hstep <;> cases hstep
    refine ⟨h.setPc (fun hst => ?_) fun hst => ?_, fun _ => id⟩
    · rw [if_neg (by simp [hst])]
      exact .inl rfl
    · rw [if_pos hst]
      exact .inr (.inl rfl)
  | startLoop j =>
    simp only [step] at hstep
    split at hstep <;> cases hstep
    exact ⟨h.startLoop ‹_›, fun _ => id⟩
  | turn j =>
    simp only [step] at hstep
    split at hstep <;> cases hstep
    next hpc =>
      split
      · next hexit =>
        refine ⟨h.setPc (fun hst => ?_) fun hst => ?_, fun _ => id⟩
        · exact absurd hst (hnot (by simp [hpc]) (by simp [hpc]))
        · -- a loop that runs is not told to quit
          rcases h.running j hst with hpc' | hpc' | ⟨-, hexit'⟩
          · simp [hpc] at hpc'
          · simp [hpc] at hpc'
          · simp [hexit] at hexit'
      · exact ⟨h, fun _ => id⟩
  | finish j =>
    simp only [step] at hstep
    split at hstep <;> cases hstep
    next hpc =>
      refine ⟨h.setPc (fun hst => ?_) fun hst => ?_, fun _ => id⟩
      · exact absurd hst (hnot (by simp [hpc.2]) (by simp [hpc.2]))
      · rcases h.running j hst with hpc' | hpc' | ⟨hpc', -⟩ <;> simp [hpc.2] at hpc'
  | acquireLoop | destroy | mark | notifyAll | join | destroyed => exact hi.elim

/-- **An acquired loop runs**, and the others stay as they are. -/
theorem lively_acquire (h : s.Lively) (hloop : loop ∈ s.mSubLoops) :
    (s.acquire loop).Lively ∧ (s.acquire loop).mSubLoopStates loop = some .Running ∧
      ∀ j, s.mSubLoopStates j = some .Running →
        (s.acquire loop).mSubLoopStates j = some .Running := by
  have ha := acquire_acquires s loop
  refine ⟨?_, ha.running (h.registered loop hloop), fun j hj => ?_⟩
  · by_cases hinit : s.mSubLoopStates loop = some .Initialized
    · -- its thread is notified
      rw [acquire, if_pos hinit]
      have hstates : ∀ j, j ≠ loop →
          update s.mSubLoopStates loop (some .Running) j = s.mSubLoopStates j :=
        fun j hj => Function.update_of_ne hj ..
      refine ⟨h.destructor, fun j hj => ?_, fun j hj => ?_, fun j hj => ?_⟩
      · by_cases heq : j = loop
        · exact .inr (heq ▸ Function.update_self ..)
        · exact (h.registered j hj).imp (hstates j heq).trans (hstates j heq).trans
      · have heq : j ≠ loop := by
          rintro rfl
          simp [notifyAll] at hj
        have hst : s.mSubLoopStates j = some .Initialized := (hstates j heq).symm.trans hj
        change SubThreadPc.notified _ = _ ∨ SubThreadPc.notified _ = _
        rcases h.initialized j hst with hpc | hpc <;> simp [hpc, SubThreadPc.notified]
      · change SubThreadPc.notified _ = _ ∨ SubThreadPc.notified _ = _ ∨
          SubThreadPc.notified _ = _ ∧ _
        by_cases heq : j = loop
        · subst heq
          rcases h.initialized j hinit with hpc | hpc <;> simp [hpc, SubThreadPc.notified]
        · have hst : s.mSubLoopStates j = some .Running := (hstates j heq).symm.trans hj
          rcases h.running j hst with hpc | hpc | ⟨hpc, hexit⟩
          · simp [hpc, SubThreadPc.notified]
          · simp [hpc, SubThreadPc.notified]
          · exact .inr (.inr ⟨by simp [hpc, SubThreadPc.notified], hexit⟩)
    · rw [acquire, if_neg hinit]
      exact ⟨h.destructor, h.registered, h.initialized, h.running⟩
  · by_cases heq : j = loop
    · subst heq
      exact ha.running (.inr hj)
    · exact (ha.others j heq).trans hj

end EventLoopPool

end SimpleTcp
