import SimpleTcp.Net.TimerLife

/-!
# Timer ids

The id of a timer is the reading of the clock in the call that adds it, and the map keeps the entry
it has under an id. Two calls may read the clock between two of its ticks: the second timer is then
released by the task that should store it, and its caller holds the id of the first. A timer is also
lost when its channel cannot be made, or when a task in front of its own throws.

## Main definitions

* `TimerSystem.Live`: a timer that waits to be stored, or is stored
* `TimerSystem.Identified`: live timers have ids of their own, each timer is stored until it is
  removed by its id, and no task of a timer is lost
* `TimerSystem.Meets`: the id that a call returns is that of no live timer, and no task throws

## Main results

* `identified_iff`: the runs in which ids identify timers
* `not_identified_tick`: two calls in one tick of the clock
-/

namespace SimpleTcp

namespace TimerSystem

open Trace (Precedes)

variable {s s' : TimerSystem}

/-- The add call has returned the id of the timer, which waits to be stored or is stored. -/
def Live (s : TimerSystem) (t : Timer) : Prop := .add t ∈ s.tasks ∨ t ∈ s.mTimerMap

/-- The task waits, or has done what it is there for. -/
def Answered (s : TimerSystem) : TimerTask → Prop
  | .add t => s.Live t ∨ ∃ pos, .found pos t ∈ s.trace
  | .remove pos timerId => .remove pos timerId ∈ s.tasks ∨ .removed pos ∈ s.trace
  | .functor _ => True

/-- Ids identify timers. -/
structure Identified (s : TimerSystem) : Prop where
  /-- No assertion has failed in the task of a timer. -/
  running : ∀ tasks, s.pc ≠ .terminated tasks
  /-- A timer has an id of its own. -/
  distinct : ∀ t, s.Live t → ∀ u, s.Live u → t.newId = u.newId → t = u
  /-- A timer whose id was returned is stored by its task and stays until a removal finds it, and
  the task of a removal is called. -/
  answered : s.pc ≠ .destroyed → ∀ task ∈ s.queued, s.Answered task
  /-- A removal that was called with the id of a timer removes it. -/
  removes : ∀ t pos, Precedes s.queued (.add t) (.remove pos t.newId) →
    .removed pos ∈ s.trace → ¬ s.Live t
  /-- It removes no other. -/
  only : ∀ t pos, .found pos t ∈ s.trace → Precedes s.queued (.add t) (.remove pos t.newId)

/-- The condition on a step. -/
def Meets (s : TimerSystem) : TimerStep → Prop
  | .queueTimer timer => ∀ t, s.Live t → t.newId ≠ timer.newId
  | .next result => ∀ timer tasks, s.pc = .running (.add timer :: tasks) → result = .stored
  | .taskThrow => ∀ task ∈ s.pc.batch, ∃ pos, task = .functor pos
  | _ => True

/-! ## Steps that call no task -/

/-- What waits and what is stored stays, and at most a task is queued behind it. -/
structure Grows (s : TimerSystem) (i : TimerStep) (s' : TimerSystem) : Prop where
  running : (∀ tasks, s.pc ≠ .terminated tasks) → ∀ tasks, s'.pc ≠ .terminated tasks
  destroyed : s.pc = .destroyed → s'.pc = .destroyed
  stored : s'.mTimerMap = s.mTimerMap
  trace : s.trace ⊆ s'.trace
  tasks : ∃ new, s'.tasks = s.tasks ++ new ∧ s'.queued = s.queued ++ new ∧
    ∀ t, .add t ∈ new → i = .queueTimer t

theorem Answered.mono {task : TimerTask} (h : s.Answered task) (htasks : s.tasks ⊆ s'.tasks)
    (hstored : s'.mTimerMap = s.mTimerMap) (htrace : s.trace ⊆ s'.trace) : s'.Answered task := by
  cases task with
  | add t =>
    rcases h with (h | h) | ⟨pos, h⟩
    · exact .inl (.inl (htasks h))
    · exact .inl (.inr (hstored ▸ h))
    · exact .inr ⟨pos, htrace h⟩
  | remove pos timerId =>
    rcases h with h | h
    · exact .inl (htasks h)
    · exact .inr (htrace h)
  | functor pos => trivial

theorem answered_of_mem {task : TimerTask} (h : task ∈ s.tasks) : s.Answered task := by
  cases task with
  | add t => exact .inl (.inl h)
  | remove pos timerId => exact .inl h
  | functor pos => trivial

/-- A step that queues nothing, to a program point that is not terminated. -/
theorem grows_of_eq {i : TimerStep} (htasks : s'.tasks = s.tasks) (hqueued : s'.queued = s.queued)
    (hstored : s'.mTimerMap = s.mTimerMap) (htrace : s.trace ⊆ s'.trace)
    (hrunning : ∀ tasks, s'.pc ≠ .terminated tasks) (hpc : s.pc ≠ .destroyed) : s.Grows i s' where
  running := fun _ => hrunning
  destroyed := fun h => absurd h hpc
  stored := hstored
  trace := htrace
  tasks := ⟨[], by rw [htasks, List.append_nil], by rw [hqueued, List.append_nil], by simp⟩

theorem grows_queueInLoop {i : TimerStep} {task : TimerTask} {pc : TimerPc} {fds calls}
    (hbatch : pc.batch = s.pc.batch) (hrunning : ∀ tasks, pc = .terminated tasks → s.pc = pc)
    (hdestroyed : s.pc = .destroyed → pc = .destroyed)
    (htask : ∀ t, task = .add t → i = .queueTimer t) :
    s.Grows i { s.queueInLoop task with pc, fds, calls } where
  running := fun h tasks hpc => h tasks ((hrunning tasks hpc).trans hpc)
  destroyed := hdestroyed
  stored := rfl
  trace := List.Subset.refl _
  tasks := ⟨[task], by simp [tasks, queueInLoop, hbatch, List.append_assoc], rfl,
    fun t ht => htask t (List.mem_singleton.mp ht).symm⟩

theorem step_grows {i : TimerStep} (h : s.step i = some s') (hnext : ∀ result, i ≠ .next result)
    (hthrow : i ≠ .taskThrow) (hdestroy : i ≠ .destroy) : s.Grows i s' := by
  cases i with
  | next result => exact absurd rfl (hnext result)
  | taskThrow => exact absurd rfl hthrow
  | destroy => exact absurd rfl hdestroy
  -- another thread is in the call, the queue is not touched yet
  | addOneshotTimer now | addRepeatingTimer now =>
    simp only [step, addOneshotTimer, addRepeatingTimer, createTimer] at h
    split at h <;> cases h
    exact ⟨id, id, rfl, List.Subset.refl _, [], by simp [tasks], by simp, by simp⟩
  | expire timer | quitLoop =>
    simp only [step] at h
    split at h <;> cases h
    exact ⟨id, id, rfl, List.Subset.refl _, [], by simp [tasks], by simp, by simp⟩
  -- the one step that queues a timer
  | queueTimer timer =>
    simp only [step, queueTimer] at h
    split at h <;> cases h
    refine grows_queueInLoop rfl (fun _ _ => rfl) id fun t ht => ?_
    rw [TimerTask.add.inj ht]
  | removeTimer timerId | queueInLoop =>
    simp only [step] at h
    split at h <;> cases h
    exact grows_queueInLoop rfl (fun _ _ => rfl) id (by simp)
  -- a change of the program counter that leaves the batch
  | startLoop | callbackThrow | handlerThrow | taskReturn | swap =>
    simp only [step, loopStep] at h
    split at h <;> cases h
    next hpc =>
    exact grows_of_eq (by simp [tasks, hpc, TimerPc.batch]) rfl rfl (List.Subset.refl _) (by simp)
      (by simp [hpc])
  | poll active =>
    simp only [step, loopStep] at h
    split at h
    · next hpc =>
      split at h <;> cases h
      exact grows_of_eq (by simp [tasks, hpc, TimerPc.batch]) rfl rfl (List.Subset.refl _)
        (by simp) (by simp [hpc])
    · cases h
  | dispatch =>
    simp only [step, loopStep] at h
    split at h <;> cases h
    next hpc =>
    simp only [handleEvent, readCallback]
    repeat' split
    all_goals
      exact grows_of_eq (by simp [tasks, hpc, TimerPc.batch, effects, handleRead]) rfl rfl
        (by simp [effects, handleRead]) (by simp) (by simp [hpc])
  -- a one-shot timer queues its own removal
  | callbackReturn =>
    simp only [step, loopStep] at h
    split at h <;> cases h
    next timer active hpc =>
    simp only [callbackReturn]
    split
    · exact grows_of_eq (by simp [tasks, hpc, TimerPc.batch]) rfl rfl (List.Subset.refl _)
        (by simp) (by simp [hpc])
    · exact grows_queueInLoop (by rw [hpc]; rfl) (by simp) (by simp [hpc]) (by simp)

/-- A step that calls no task, and queues a timer only under an id of its own. -/
theorem Grows.identified {i : TimerStep} (hg : s.Grows i s') (h : s.Identified)
    (hs : s'.view.Sound) (hm : s.Meets i) : s'.Identified := by
  obtain ⟨new, htasks, hqueued, hnew⟩ := hg.tasks
  -- a timer that is live lived before, or is queued by this step
  have hlive : ∀ {t}, s'.Live t → s.Live t ∨ i = .queueTimer t := by
    rintro t (ht | ht)
    · rw [htasks] at ht
      rcases List.mem_append.mp ht with ht | ht
      · exact .inl (.inl ht)
      · exact .inr (hnew t ht)
    · exact .inl (.inr (hg.stored ▸ ht))
  constructor
  · exact hg.running h.running
  · -- a timer that is queued has an id of its own
    intro t ht u hu hid
    rcases hlive ht with ht | rfl <;> rcases hlive hu with hu | hi
    · exact h.distinct t ht u hu hid
    · subst hi
      exact absurd hid (hm t ht)
    · exact absurd hid.symm (hm u hu)
    · exact TimerStep.queueTimer.inj hi
  · intro hpc task htask
    have hpc' : s.pc ≠ .destroyed := fun hdestroyed => hpc (hg.destroyed hdestroyed)
    rw [hqueued] at htask
    rcases List.mem_append.mp htask with htask | htask
    · refine (h.answered hpc' task htask).mono ?_ hg.stored hg.trace
      rw [htasks]
      exact List.subset_append_left _ _
    · -- what is queued now waits
      refine answered_of_mem ?_
      rw [htasks]
      exact List.mem_append_right _ htask
  · intro t pos horder hremoved hl
    obtain ⟨htask, hstored⟩ := hs.served.gone t pos horder hremoved
    exact hl.elim htask hstored
  · exact fun t pos hfound => (hs.served.found_added t pos hfound).1

/-! ## Steps that call a task -/

/-- The first tasks are called, and have done what they are there for. -/
theorem Identified.shrink (h : s.Identified) (hs : s'.view.Sound) (dropped : List TimerTask)
    (hrunning : ∀ tasks, s'.pc ≠ .terminated tasks) (hpc : s.pc ≠ .destroyed)
    (htasks : s.tasks = dropped ++ s'.tasks) (hqueued : s'.queued = s.queued)
    (hdropped : ∀ task ∈ dropped, s'.Answered task)
    (hstored : ∀ t ∈ s.mTimerMap, s'.Answered (.add t)) (hlive : ∀ t ∈ s'.mTimerMap, s.Live t)
    (htrace : s.trace ⊆ s'.trace) : s'.Identified := by
  -- no timer comes to life
  have hlive' : ∀ {t}, s'.Live t → s.Live t := by
    rintro t (ht | ht)
    · left
      rw [htasks]
      exact List.mem_append_right _ ht
    · exact hlive t ht
  -- a task was called with the first ones, or it still waits
  have htask : ∀ {task}, task ∈ s.tasks → s'.Answered task := by
    intro task hmem
    rw [htasks] at hmem
    rcases List.mem_append.mp hmem with hmem | hmem
    · exact hdropped task hmem
    · exact answered_of_mem hmem
  constructor
  · exact hrunning
  · exact fun t ht u hu => h.distinct t (hlive' ht) u (hlive' hu)
  · -- what was queued is still answered
    intro _ task hmem
    rw [hqueued] at hmem
    have hanswered := h.answered hpc task hmem
    cases task with
    | add t =>
      rcases hanswered with (ht | ht) | ⟨pos, ht⟩
      · exact htask ht
      · exact hstored t ht
      · exact .inr ⟨pos, htrace ht⟩
    | remove pos timerId =>
      rcases hanswered with hmem | hremoved
      · exact htask hmem
      · exact .inr (htrace hremoved)
    | functor pos => trivial
  · -- a timer whose removal has run neither waits nor is stored
    intro t pos horder hremoved hl
    obtain ⟨htask, hstored⟩ := hs.served.gone t pos horder hremoved
    exact hl.elim htask hstored
  · exact fun t pos hfound => (hs.served.found_added t pos hfound).1

/-- The id of a timer that is stored next is free. -/
theorem Identified.free (h : s.Identified) (hs : s.view.Sound) (timer : Timer)
    (htimer : .add timer ∈ s.tasks) : ¬ ∃ t ∈ s.mTimerMap, t.newId = timer.newId := by
  rintro ⟨t, ht, hid⟩
  obtain rfl := h.distinct t (.inr ht) timer (.inl htimer) hid
  have hone := hs.conserved.count_le t
  have htask := List.count_pos_iff.mpr (mem_timersOf.mpr htimer)
  have hstored := List.count_pos_iff.mpr ht
  simp only [view] at hone
  omega

theorem emplace_of_free {timer : Timer} (h : ¬ ∃ t ∈ s.mTimerMap, t.newId = timer.newId) :
    s.emplace timer = { s with mTimerMap := s.mTimerMap ++ [timer] } := if_neg h

theorem Identified.runAdd (h : s.Identified) (hs : s.view.Sound) {timer : Timer}
    {tasks : List TimerTask} (hpc : s.pc = .running (.add timer :: tasks))
    (hs' : (s.runAdd timer tasks .stored).view.Sound) :
    (s.runAdd timer tasks .stored).Identified := by
  have hfree := h.free hs timer (by simp [TimerSystem.tasks, hpc, TimerPc.batch])
  have hrun : s.runAdd timer tasks .stored = { s.effects [.channelCreated timer] with
      pc := .running tasks, mTimerMap := s.mTimerMap ++ [timer] } := by
    rw [TimerSystem.runAdd, emplace_of_free (s := s.effects [.channelCreated timer]) hfree]
    rfl
  rw [hrun] at hs' ⊢
  refine h.shrink hs' [.add timer] (by simp) (by simp [hpc])
    (by simp [TimerSystem.tasks, hpc, TimerPc.batch, effects]) rfl ?_ ?_ ?_
    (List.subset_append_left _ _)
  · intro task htask
    rw [List.mem_singleton.mp htask]
    exact .inl (.inr (List.mem_append_right _ (List.mem_singleton_self timer)))
  · exact fun t ht => .inl (.inr (List.mem_append_left _ ht))
  · intro t ht
    rcases List.mem_append.mp ht with ht | ht
    · exact .inr ht
    · rw [List.mem_singleton.mp ht]
      exact .inl (by simp [TimerSystem.tasks, hpc, TimerPc.batch])

theorem Identified.runRemove (h : s.Identified) {pos : ℕ} {timerId : TimerId}
    {tasks : List TimerTask} (hpc : s.pc = .running (.remove pos timerId :: tasks))
    (hs' : (s.runRemove pos timerId tasks).view.Sound) :
    (s.runRemove pos timerId tasks).Identified := by
  revert hs'
  simp only [TimerSystem.runRemove]
  split <;> intro hs'
  · refine h.shrink hs' [.remove pos timerId] (by simp) (by simp [hpc])
      (by simp [TimerSystem.tasks, hpc, TimerPc.batch, effects]) rfl ?_ (fun t ht => .inl (.inr ht))
      (fun t ht => .inr ht) (List.subset_append_left _ _)
    intro task htask
    rw [List.mem_singleton.mp htask]
    exact .inr (by simp [effects])
  · next timer _ =>
    refine h.shrink hs' [.remove pos timerId] (by simp) (by simp [hpc])
      (by simp [TimerSystem.tasks, hpc, TimerPc.batch, effects]) rfl ?_ ?_
      (fun t ht => .inr (List.mem_of_mem_erase ht)) (List.subset_append_left _ _)
    · intro task htask
      rw [List.mem_singleton.mp htask]
      exact .inr (by simp [effects])
    · intro t ht
      by_cases heq : t = timer
      · exact .inr ⟨pos, by simp [effects, heq]⟩
      · exact .inl (.inr ((List.mem_erase_of_ne heq).mpr ht))

theorem Identified.next (h : s.Identified) (hs : s.view.Sound) {result : AddResult}
    (hs' : s'.view.Sound) (hm : s.Meets (.next result))
    (hstep : s.loopStep (.next result) = some s') : s'.Identified := by
  simp only [loopStep] at hstep
  split at hstep <;> cases hstep
  · next hpc =>
    refine h.shrink hs' [] ?_ (by simp [hpc]) ?_ rfl (by simp)
      (fun t ht => .inl (.inr ht)) (fun t ht => .inr ht) (List.Subset.refl _)
    · intro tasks
      change (if _ then TimerPc.stopped else _) ≠ _
      split <;> simp
    · change s.pc.batch ++ s.mPendingTasks = [] ++ (TimerPc.batch (if _ then _ else _) ++ _)
      rw [hpc]
      split <;> rfl
  · next timer tasks hpc =>
    obtain rfl := hm timer tasks hpc
    exact h.runAdd hs hpc hs'
  · next hpc => exact h.runRemove hpc hs'
  · next pos tasks hpc =>
    refine h.shrink hs' [.functor pos] (by simp) (by simp [hpc])
      (by simp [TimerSystem.tasks, hpc, TimerPc.batch]) rfl ?_ (fun t ht => .inl (.inr ht))
      (fun t ht => .inr ht) (List.Subset.refl _)
    intro task htask
    rw [List.mem_singleton.mp htask]
    trivial

theorem Identified.unwind (h : s.Identified) {tasks : List TimerTask} (hpc : s.pc = .inTask tasks)
    (hs' : (s.unwind tasks).view.Sound) (hm : s.Meets .taskThrow) :
    (s.unwind tasks).Identified := by
  refine h.shrink hs' tasks (by simp [TimerSystem.unwind]) (by simp [hpc])
    (by simp [TimerSystem.tasks, hpc, TimerPc.batch, TimerSystem.unwind, effects]) rfl ?_
    (fun t ht => .inl (.inr ht)) (fun t ht => .inr ht) (List.subset_append_left _ _)
  intro task htask
  obtain ⟨pos, rfl⟩ := hm task (by rw [hpc]; exact htask)
  trivial

theorem identified_destroy (hs : s.destroy.view.Sound) : s.destroy.Identified where
  running := by simp [destroy]
  distinct := by simp [Live, destroy, tasks, TimerPc.batch]
  answered := by simp [destroy]
  removes := by simp [Live, destroy, tasks, TimerPc.batch]
  only := fun t pos hfound => (hs.served.found_added t pos hfound).1

theorem step_identified {i : TimerStep} (h : s.Identified) (hs : s.view.Sound) (hm : s.Meets i)
    (hstep : s.step i = some s') : s'.Identified := by
  have hs' := step_sound hs hstep
  cases i with
  | next result =>
    simp only [step] at hstep
    exact h.next hs hs' hm hstep
  | taskThrow =>
    simp only [step, loopStep] at hstep
    split at hstep <;> cases hstep
    next hpc => exact h.unwind hpc hs' hm
  | destroy =>
    simp only [step, loopStep] at hstep
    split at hstep
    · split at hstep <;> cases hstep
      exact identified_destroy hs'
    · cases hstep
  | addOneshotTimer | addRepeatingTimer | queueTimer | removeTimer | queueInLoop | expire |
    quitLoop | startLoop | poll | dispatch | callbackReturn | callbackThrow | handlerThrow | swap |
    taskReturn =>
    exact (step_grows hstep (by simp) (by simp) (by simp)).identified h hs' hm

/-! ## Lost tasks -/

/-- A task that is destroyed has done nothing, unless it is none of a timer. -/
theorem functor_of_dropped (hs : s.view.Sound) {dropped : List TimerTask}
    (htasks : s.tasks = dropped ++ s'.tasks) (hstored : s'.mTimerMap = s.mTimerMap)
    (hfound : ∀ t pos, .found pos t ∈ s'.trace → .found pos t ∈ s.trace)
    (hremoved : ∀ pos, .removed pos ∈ s'.trace → .removed pos ∈ s.trace) {task : TimerTask}
    (hdropped : task ∈ dropped) (h : s'.Answered task) : ∃ pos, task = .functor pos := by
  have hnodup : (dropped ++ s'.tasks).Nodup :=
    htasks ▸ hs.served.tasks_sublist.nodup hs.served.queued_nodup
  -- a task that is dropped does not wait any more
  have hgone : task ∉ s'.tasks := fun hmem =>
    (List.nodup_append.mp hnodup).2.2 _ hdropped _ hmem rfl
  have hmem : task ∈ s.tasks := by
    rw [htasks]
    exact List.mem_append_left _ hdropped
  cases task with
  | functor pos => exact ⟨pos, rfl⟩
  | add t =>
    rcases h with (h | h) | ⟨pos, h⟩
    · exact absurd h hgone
    · -- its timer was in the task, so that it is not stored
      have hone := hs.conserved.count_le t
      have htask := List.count_pos_iff.mpr (mem_timersOf.mpr hmem)
      have hpos := List.count_pos_iff.mpr (hstored ▸ h)
      simp only [view] at hone
      omega
    · obtain ⟨horder, hdone⟩ := hs.served.found_added t pos (hfound t pos h)
      exact absurd hmem (hs.served.gone t pos horder hdone).1
  | remove pos timerId =>
    rcases h with h | h
    · exact absurd h hgone
    · -- a removal that has run is not in the queue
      obtain ⟨timerId', hqueued, hdone⟩ := hs.served.removed_queued pos (hremoved pos h)
      obtain rfl := hs.served.remove_inj hqueued (hs.served.tasks_sublist.subset hmem)
      exact absurd hmem hdone

/-- Where an exception of a task destroys its batch, there is nothing of a timer in it. -/
theorem functor_of_unwind (hs : s.view.Sound) {tasks : List TimerTask}
    (hbatch : s.pc.batch = tasks) {es : List TimerEffect}
    (hfound : ∀ t pos, .found pos t ∉ es) (hremoved : ∀ pos, .removed pos ∉ es)
    (h : ((s.effects es).unwind tasks).Identified) :
    ∀ task ∈ tasks, ∃ pos, task = .functor pos := by
  intro task htask
  have hqueued : task ∈ s.queued := by
    refine hs.served.tasks_sublist.subset (List.mem_append_left _ ?_)
    rw [hbatch]
    exact htask
  have hanswered := h.answered (by simp [unwind]) task hqueued
  have htasks : s.tasks = tasks ++ ((s.effects es).unwind tasks).tasks := by
    rw [TimerSystem.tasks, hbatch]
    rfl
  refine functor_of_dropped hs htasks rfl ?_ ?_ htask hanswered
  · intro t pos hmem
    simpa [unwind, effects, hfound t pos] using hmem
  · intro pos hmem
    simpa [unwind, effects, hremoved pos] using hmem

theorem effects_nil : s.effects [] = s := by
  rw [effects, List.append_nil]

/-- A step to a state in which ids identify timers meets the condition. -/
theorem meets_of_identified {i : TimerStep} (hs : s.view.Sound) (hstep : s.step i = some s')
    (h : s'.Identified) : s.Meets i := by
  cases i with
  | queueTimer timer =>
    simp only [step, queueTimer] at hstep
    split at hstep <;> cases hstep
    next hcall =>
    intro t ht hid
    have hlive : Live { s.queueInLoop (.add timer) with calls := s.calls.erase timer } t := by
      rcases ht with ht | ht
      · refine .inl ?_
        rcases List.mem_append.mp ht with ht | ht
        · exact List.mem_append_left _ ht
        · exact List.mem_append_right _ (List.mem_append_left _ ht)
      · exact .inr ht
    have hself : Live { s.queueInLoop (.add timer) with calls := s.calls.erase timer } timer :=
      .inl (List.mem_append_right _ (List.mem_append_right _ (List.mem_singleton_self _)))
    obtain rfl := h.distinct t hlive timer hself hid
    -- the timer of a call is nowhere else
    have hone := hs.conserved.count_le t
    have hpos := List.count_pos_iff.mpr hcall.2
    simp only [view] at hone
    rcases ht with ht | ht
    · have := List.count_pos_iff.mpr (mem_timersOf.mpr ht)
      omega
    · have := List.count_pos_iff.mpr ht
      omega
  | next result =>
    intro timer tasks hpc
    simp only [step, loopStep, hpc] at hstep
    cases hstep
    cases result with
    | stored => rfl
    | fatal => exact absurd rfl (h.running _)
    | createFailed =>
      have hunwind : ((s.effects []).unwind (.add timer :: tasks)).Identified := by
        rw [effects_nil]
        exact h
      obtain ⟨pos, hpos⟩ := functor_of_unwind hs (by rw [hpc]; rfl) (by simp) (by simp) hunwind
        (.add timer) List.mem_cons_self
      cases hpos
    | enableReadFailed =>
      obtain ⟨pos, hpos⟩ := functor_of_unwind hs (by rw [hpc]; rfl) (by simp) (by simp)
        h (.add timer) List.mem_cons_self
      cases hpos
  | taskThrow =>
    simp only [step, loopStep] at hstep
    split at hstep <;> cases hstep
    next tasks hpc =>
    have hunwind : ((s.effects []).unwind tasks).Identified := by
      rw [effects_nil]
      exact h
    intro task htask
    rw [hpc] at htask
    exact functor_of_unwind hs (by rw [hpc]; rfl) (by simp) (by simp) hunwind task htask
  | addOneshotTimer | addRepeatingTimer | removeTimer | queueInLoop | expire | quitLoop |
    startLoop | poll | dispatch | callbackReturn | callbackThrow | handlerThrow | swap |
    taskReturn | destroy =>
    trivial

/-! ## Runs -/

theorem create_identified (clock : TimerId) : (create clock).Identified := by
  constructor <;> simp [create, Live, tasks, TimerPc.batch]

/-- **Timer ids identify timers** in a run exactly when each id is, at the time it is returned, that
of no live timer, and no task of the loop throws that is one of a timer or is in front of one. -/
theorem identified_iff {clock : TimerId} {is : List TimerStep} :
    Transition.Always step Identified (create clock) is ↔
      Transition.Along step Meets (create clock) is :=
  Transition.always_iff_along (I := fun s => s.view.Sound ∧ s.Identified)
    (fun _ h => h.2)
    (fun _ _ _ h hm hstep => ⟨step_sound h.1 hstep, step_identified h.2 h.1 hm hstep⟩)
    (fun _ _ _ h hstep h' => meets_of_identified h.1 hstep h')
    ⟨create_sound clock, create_identified clock⟩

/-- Two calls read the clock in one of its ticks: the second timer is released by the task that
should store it. -/
theorem not_identified_tick :
    ¬ ∀ is s, Transition.run step (create 1) is = some s → s.Identified := by
  intro h
  have hrun : ∃ s, Transition.run step (create 1) [.addOneshotTimer 7, .addRepeatingTimer 7,
      .queueTimer ⟨0, false, 7⟩, .queueTimer ⟨1, true, 7⟩, .startLoop, .next .stored, .poll [],
      .swap, .next .stored, .next .stored] = some s ∧ s.pc = .running [] ∧ s.tasks = [] ∧
        s.mTimerMap = [⟨0, false, 7⟩] ∧ s.queued = [.add ⟨0, false, 7⟩, .add ⟨1, true, 7⟩] ∧
        s.trace = [.channelCreated ⟨0, false, 7⟩, .channelCreated ⟨1, true, 7⟩,
          .channelReleased ⟨1, true, 7⟩, .descriptorReleased ⟨1, true, 7⟩] :=
    ⟨_, rfl, rfl, rfl, rfl, rfl, rfl⟩
  obtain ⟨s, hrun, hpc, htasks, hmap, hqueued, htrace⟩ := hrun
  have hanswered := (h _ s hrun).answered (by simp [hpc]) (.add ⟨1, true, 7⟩) (by simp [hqueued])
  simp [Answered, Live, htasks, hmap, htrace] at hanswered

end TimerSystem

end SimpleTcp
