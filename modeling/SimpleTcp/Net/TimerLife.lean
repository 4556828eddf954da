import SimpleTcp.Net.TimerQueue

/-!
# The life of a timer

Seen from outside the loop, a timer is created by a call, waits in a task, is stored, and is
released. `TimerView` is what this takes of a system, and `TimerView.Moves` are the changes that a
step can make to it; every step of `TimerSystem` is one of them. The tasks run in the order in which
they were queued. A removal that was called after the id was returned therefore runs when the timer
is stored, or was never stored and never will be.

## Main definitions

* `TimerView`, `TimerView.Moves`: the abstract machine
* `TimerView.Sound`: what the moves keep
* `TimerSystem.Lifecycle`: a one-shot timer is called once at most, a removed timer is not called,
  and the channel and the descriptor of a timer are released exactly once, the channel first

## Main results

* `moves_of_step`: a step of the system is a move of its view
* `Sound.move`: the moves keep `Sound`
* `lifecycle_of_run`: the lifecycle of the timers, in runs in which no callback of a timer throws
-/

namespace SimpleTcp

open Trace (Precedes)

/-! ## Timers in tasks -/

@[simp] theorem timersOf_nil : timersOf [] = [] := rfl

@[simp] theorem timersOf_append (l m : List TimerTask) :
    timersOf (l ++ m) = timersOf l ++ timersOf m := List.filterMap_append

@[simp] theorem timersOf_add (timer : Timer) (l : List TimerTask) :
    timersOf (.add timer :: l) = timer :: timersOf l := rfl

@[simp] theorem timersOf_remove (pos : ℕ) (timerId : TimerId) (l : List TimerTask) :
    timersOf (.remove pos timerId :: l) = timersOf l := rfl

@[simp] theorem timersOf_functor (pos : ℕ) (l : List TimerTask) :
    timersOf (.functor pos :: l) = timersOf l := rfl

@[simp] theorem mem_timersOf {timer : Timer} {l : List TimerTask} :
    timer ∈ timersOf l ↔ .add timer ∈ l := by
  rw [timersOf, List.mem_filterMap]
  constructor
  · rintro ⟨task, htask, hnew⟩
    cases task with
    | add t => cases hnew; exact htask
    | remove pos timerId => cases hnew
    | functor pos => cases hnew
  · exact fun h => ⟨_, h, rfl⟩

/-! ## The abstract machine -/

/-- Where the timers are, the tasks that wait and those queued so far. -/
structure TimerView where
  created : List Timer
  calls : List Timer
  tasks : List TimerTask
  stored : List Timer
  queued : List TimerTask
  trace : List TimerEffect

/-- The task is not that of a timer, and has the position. -/
def TimerTask.IsAt (task : TimerTask) (pos : ℕ) : Prop :=
  task = .functor pos ∨ ∃ timerId, task = .remove pos timerId

namespace TimerView

/-- What a step does to the timers. -/
inductive Moves (v : TimerView) : TimerView → Prop where
  | quiet : Moves v v
  | create (timer : Timer) (fresh : timer.serial = v.created.length) :
    Moves v { v with created := v.created ++ [timer], calls := v.calls ++ [timer] }
  | add (timer : Timer) (called : timer ∈ v.calls) :
    Moves v { v with
      calls := v.calls.erase timer
      tasks := v.tasks ++ [.add timer]
      queued := v.queued ++ [.add timer] }
  | enqueue (task : TimerTask) (fresh : task.IsAt v.queued.length) :
    Moves v { v with tasks := v.tasks ++ [task], queued := v.queued ++ [task] }
  | call (timer : Timer) (stored : timer ∈ v.stored) :
    Moves v { v with trace := v.trace ++ [.called timer] }
  | store (timer : Timer) (tasks : List TimerTask) (first : v.tasks = .add timer :: tasks)
      (free : ∀ t ∈ v.stored, t.newId ≠ timer.newId) :
    Moves v { v with
      tasks := tasks
      stored := v.stored ++ [timer]
      trace := v.trace ++ [.channelCreated timer] }
  | clash (timer : Timer) (tasks : List TimerTask) (first : v.tasks = .add timer :: tasks)
      (taken : ∃ t ∈ v.stored, t.newId = timer.newId) :
    Moves v { v with
      tasks := tasks
      trace := v.trace ++
        [.channelCreated timer, .channelReleased timer, .descriptorReleased timer] }
  | erase (pos : ℕ) (timer : Timer) (tasks : List TimerTask)
      (first : v.tasks = .remove pos timer.newId :: tasks) (found : timer ∈ v.stored) :
    Moves v { v with
      tasks := tasks
      stored := v.stored.erase timer
      trace := v.trace ++
        [.found pos timer, .channelReleased timer, .descriptorReleased timer, .removed pos] }
  | miss (pos : ℕ) (timerId : TimerId) (tasks : List TimerTask)
      (first : v.tasks = .remove pos timerId :: tasks)
      (absent : ∀ t ∈ v.stored, t.newId ≠ timerId) :
    Moves v { v with tasks := tasks, trace := v.trace ++ [.removed pos] }
  /-- The first tasks are destroyed, or the first is called and is none of a timer. -/
  | drop (dropped tasks : List TimerTask) (first : v.tasks = dropped ++ tasks) :
    Moves v { v with
      tasks := tasks
      trace := v.trace ++ (timersOf dropped).map .descriptorReleased }
  /-- The channel of the first timer is made and released, and the first tasks are destroyed. -/
  | fail (timer : Timer) (dropped tasks : List TimerTask)
      (first : v.tasks = .add timer :: dropped ++ tasks) :
    Moves v { v with
      tasks := tasks
      trace := v.trace ++ [.channelCreated timer, .channelReleased timer] ++
        (timersOf (.add timer :: dropped)).map .descriptorReleased }
  | destroy (calls : v.calls = []) :
    Moves v { v with
      tasks := []
      stored := []
      trace := v.trace ++ (v.stored.map .channelReleased ++ v.stored.map .descriptorReleased ++
        (timersOf v.tasks).map .descriptorReleased) }

end TimerView

namespace TimerSystem

/-- The timers of a system. -/
def view (s : TimerSystem) : TimerView :=
  ⟨s.created, s.calls, s.tasks, s.mTimerMap, s.queued, s.trace⟩

open TimerView (Moves)

variable {s s' : TimerSystem}

theorem view_setPc {pc : TimerPc} (h : pc.batch = s.pc.batch) :
    { s with pc := pc }.view = s.view := by
  simp only [view, TimerSystem.tasks, h]

theorem moves_setPc {pc : TimerPc} (h : pc.batch = s.pc.batch) :
    Moves s.view { s with pc := pc }.view := by
  rw [view_setPc h]
  exact .quiet

theorem moves_createTimer {mIsRepeating : Bool} {now : TimerId}
    (h : s.createTimer mIsRepeating now = some s') : Moves s.view s'.view := by
  simp only [createTimer] at h
  split at h <;> cases h
  exact .create _ rfl

theorem moves_queueInLoop {task : TimerTask} (h : task.IsAt s.queued.length) :
    Moves s.view (s.queueInLoop task).view := by
  have hmove := Moves.enqueue (v := s.view) task h
  rwa [show s.view.tasks ++ [task] = (s.queueInLoop task).view.tasks from List.append_assoc _ _ _]
    at hmove

theorem moves_runAdd {timer : Timer} {tasks : List TimerTask} {result : AddResult}
    (hpc : s.pc = .running (.add timer :: tasks)) :
    Moves s.view (s.runAdd timer tasks result).view := by
  have hfirst : s.view.tasks = .add timer :: (tasks ++ s.mPendingTasks) := by
    simp only [view, TimerSystem.tasks, hpc, TimerPc.batch, List.cons_append]
  cases result with
  | stored =>
    simp only [runAdd, emplace]
    split
    · next htaken =>
      have hmove := Moves.clash timer _ hfirst htaken
      simpa only [view, effects, TimerSystem.tasks, TimerPc.batch, List.append_assoc,
        List.cons_append, List.nil_append] using hmove
    · next hfree =>
      exact Moves.store timer _ hfirst fun t ht hid => hfree ⟨t, ht, hid⟩
  | fatal =>
    have hsame : (s.runAdd timer tasks .fatal).view = s.view := by
      simp only [runAdd, view, TimerSystem.tasks, hpc, TimerPc.batch]
    rw [hsame]
    exact .quiet
  | createFailed => exact Moves.drop (.add timer :: tasks) _ hfirst
  | enableReadFailed => exact Moves.fail timer tasks _ hfirst

theorem moves_runRemove {pos : ℕ} {timerId : TimerId} {tasks : List TimerTask}
    (hpc : s.pc = .running (.remove pos timerId :: tasks)) :
    Moves s.view (s.runRemove pos timerId tasks).view := by
  have hfirst : s.view.tasks = .remove pos timerId :: (tasks ++ s.mPendingTasks) := by
    simp only [view, TimerSystem.tasks, hpc, TimerPc.batch, List.cons_append]
  simp only [runRemove]
  split
  · next habsent =>
    refine Moves.miss pos timerId _ hfirst fun t ht => ?_
    simpa using List.find?_eq_none.mp habsent t ht
  · next timer hfound =>
    obtain rfl : timer.newId = timerId := by simpa using List.find?_some hfound
    exact Moves.erase pos timer _ hfirst (List.mem_of_find?_eq_some hfound)

/-- The first tasks of the batch are destroyed with it. -/
theorem moves_unwind {tasks : List TimerTask} (hpc : s.pc.batch = tasks) :
    Moves s.view (s.unwind tasks).view :=
  Moves.drop tasks s.mPendingTasks (by rw [← hpc]; rfl)

theorem moves_handleEvent {timer : Timer} {mRevent : EventMask}
    {active : List (Timer × EventMask)} (hbatch : s.pc.batch = []) :
    Moves s.view (s.handleEvent timer mRevent active).view := by
  simp only [handleEvent]
  split
  · next hreads =>
    have hview : (s.readCallback timer active).view =
        { s.view with trace := s.view.trace ++ [.called timer] } := by
      simp only [readCallback]
      split <;> exact view_setPc hbatch.symm
    rw [hview]
    exact .call timer hreads.1
  · exact moves_setPc hbatch.symm

theorem moves_callbackReturn {timer : Timer} {active : List (Timer × EventMask)}
    (hbatch : s.pc.batch = []) : Moves s.view (s.callbackReturn timer active).view := by
  simp only [callbackReturn]
  split
  · exact moves_setPc hbatch.symm
  · have hview : { (s.handleRead timer).removeTimer timer.newId with
        pc := .dispatching active }.view = (s.removeTimer timer.newId).view :=
      view_setPc hbatch.symm
    rw [hview]
    exact moves_queueInLoop (.inr ⟨_, rfl⟩)

theorem moves_next {result : AddResult} (h : s.loopStep (.next result) = some s') :
    Moves s.view s'.view := by
  simp only [loopStep] at h
  split at h <;> cases h
  · next hpc =>
    refine moves_setPc ?_
    rw [hpc]
    split <;> rfl
  · next hpc => exact moves_runAdd hpc
  · next hpc => exact moves_runRemove hpc
  · next pos tasks hpc =>
    have hmove := Moves.drop (v := s.view) [.functor pos] (tasks ++ s.mPendingTasks)
      (by simp only [view, TimerSystem.tasks, hpc, TimerPc.batch, List.cons_append,
        List.nil_append])
    simpa only [timersOf_functor, timersOf_nil, List.map_nil, List.append_nil, view,
      TimerSystem.tasks, TimerPc.batch] using hmove

theorem moves_loopStep {i : TimerStep} (h : s.loopStep i = some s') : Moves s.view s'.view := by
  cases i with
  | startLoop | callbackThrow | handlerThrow | taskReturn =>
    -- the program point before and the one after hold the same tasks
    simp only [loopStep] at h
    split at h <;> cases h
    next hpc => exact moves_setPc (by rw [hpc]; rfl)
  | poll active =>
    simp only [loopStep] at h
    split at h
    · next hpc =>
      split at h <;> cases h
      exact moves_setPc (by rw [hpc]; rfl)
    · cases h
  | swap =>
    simp only [loopStep] at h
    split at h <;> cases h
    next hpc =>
    have hview : { s with pc := .running s.mPendingTasks, mPendingTasks := [] }.view = s.view := by
      simp only [view, TimerSystem.tasks, hpc, TimerPc.batch, List.append_nil, List.nil_append]
    rw [hview]
    exact .quiet
  | dispatch =>
    simp only [loopStep] at h
    split at h <;> cases h
    next hpc => exact moves_handleEvent (by rw [hpc]; rfl)
  | callbackReturn =>
    simp only [loopStep] at h
    split at h <;> cases h
    next hpc => exact moves_callbackReturn (by rw [hpc]; rfl)
  | next result => exact moves_next h
  | taskThrow =>
    simp only [loopStep] at h
    split at h <;> cases h
    next hpc => exact moves_unwind (by rw [hpc]; rfl)
  | destroy =>
    simp only [loopStep] at h
    split at h
    · next hpc =>
      split at h <;> cases h
      next hcalls =>
      have hmove := Moves.destroy (v := s.view) hcalls
      simpa only [view, TimerSystem.tasks, TimerSystem.destroy, effects, hpc, TimerPc.batch,
        List.nil_append, List.append_nil] using hmove
    · cases h
  | addOneshotTimer | addRepeatingTimer | queueTimer | removeTimer | queueInLoop | expire |
    quitLoop =>
    cases h

/-- **The simulation**: a step of the system is a move of its timers. -/
theorem moves_of_step {i : TimerStep} (h : s.step i = some s') : Moves s.view s'.view := by
  cases i with
  | addOneshotTimer now | addRepeatingTimer now => exact moves_createTimer h
  | queueTimer timer =>
    simp only [step, queueTimer] at h
    split at h <;> cases h
    next hcall =>
    have hmove := Moves.add (v := s.view) timer hcall.2
    simpa only [view, TimerSystem.tasks, TimerSystem.queueInLoop, List.append_assoc] using hmove
  | removeTimer timerId =>
    simp only [step] at h
    split at h <;> cases h
    exact moves_queueInLoop (.inr ⟨timerId, rfl⟩)
  | queueInLoop =>
    simp only [step] at h
    split at h <;> cases h
    exact moves_queueInLoop (.inl rfl)
  | expire timer | quitLoop =>
    simp only [step] at h
    split at h <;> cases h
    exact .quiet
  | startLoop | poll | dispatch | callbackReturn | callbackThrow | handlerThrow | swap | next |
    taskReturn | taskThrow | destroy =>
    simp only [step] at h
    exact moves_loopStep h

end TimerSystem

/-! ## Conservation -/

section

variable {t : Timer} {l : List Timer}

@[simp] theorem count_map_descriptorReleased :
    (l.map TimerEffect.descriptorReleased).count (.descriptorReleased t) = l.count t :=
  List.count_map_of_injective _ _ (fun _ _ h => TimerEffect.descriptorReleased.inj h) _

@[simp] theorem count_map_channelReleased :
    (l.map TimerEffect.channelReleased).count (.channelReleased t) = l.count t :=
  List.count_map_of_injective _ _ (fun _ _ h => TimerEffect.channelReleased.inj h) _

theorem count_map_of_ne {f : Timer → TimerEffect} {e : TimerEffect} (h : ∀ u, f u ≠ e) :
    (l.map f).count e = 0 :=
  List.count_eq_zero.mpr fun hmem => by
    obtain ⟨u, -, hu⟩ := List.mem_map.mp hmem
    exact h u hu

@[simp] theorem count_map_descriptorReleased_created :
    (l.map TimerEffect.descriptorReleased).count (.channelCreated t) = 0 :=
  count_map_of_ne (by simp)

@[simp] theorem count_map_descriptorReleased_released :
    (l.map TimerEffect.descriptorReleased).count (.channelReleased t) = 0 :=
  count_map_of_ne (by simp)

@[simp] theorem count_map_channelReleased_created :
    (l.map TimerEffect.channelReleased).count (.channelCreated t) = 0 :=
  count_map_of_ne (by simp)

@[simp] theorem count_map_channelReleased_descriptor :
    (l.map TimerEffect.channelReleased).count (.descriptorReleased t) = 0 :=
  count_map_of_ne (by simp)

end

/-- An element that is taken out of a list. -/
theorem count_erase_add {l : List Timer} {timer : Timer} (h : timer ∈ l) (t : Timer) :
    (l.erase timer).count t + [timer].count t = l.count t := by
  rw [← List.count_append]
  exact ((List.perm_append_singleton timer (l.erase timer)).trans
    (List.perm_cons_erase h).symm).count_eq t

namespace TimerView

/-- A timer that was created is in a call, in a task, stored, or its descriptor is released, and
its channel is there as long as it is stored. -/
structure Conserved (v : TimerView) : Prop where
  serials : ∀ t ∈ v.created, t.serial < v.created.length
  created_nodup : v.created.Nodup
  descriptor : ∀ t, v.calls.count t + (timersOf v.tasks).count t + v.stored.count t +
    v.trace.count (.descriptorReleased t) = v.created.count t
  channel : ∀ t, v.stored.count t + v.trace.count (.channelReleased t) =
    v.trace.count (.channelCreated t)
  unopened : ∀ t, v.calls.count t + (timersOf v.tasks).count t +
    v.trace.count (.channelCreated t) ≤ v.created.count t
  added : ∀ t, .add t ∈ v.queued → t ∈ v.created ∧ t ∉ v.calls

variable {v v' : TimerView}

theorem Conserved.fresh (h : v.Conserved) {timer : Timer}
    (hfresh : timer.serial = v.created.length) : timer ∉ v.created :=
  fun hmem => absurd (h.serials timer hmem) (by omega)

/-- A timer that is somewhere is there once, and its descriptor is open. -/
theorem Conserved.count_le (h : v.Conserved) (t : Timer) :
    v.calls.count t + (timersOf v.tasks).count t + v.stored.count t +
      v.trace.count (.descriptorReleased t) ≤ 1 := by
  rw [h.descriptor t]
  exact List.nodup_iff_count_le_one.mp h.created_nodup t

/-- The timers that leave the tasks or the store are stored or released, and their channels are
made and released. -/
theorem Conserved.balance (h : v.Conserved) {tasks : List TimerTask} {stored : List Timer}
    {es : List TimerEffect}
    (hdescriptor : ∀ t, (timersOf tasks).count t + stored.count t +
      es.count (.descriptorReleased t) = (timersOf v.tasks).count t + v.stored.count t)
    (hchannel : ∀ t, stored.count t + es.count (.channelReleased t) =
      v.stored.count t + es.count (.channelCreated t))
    (hopened : ∀ t, (timersOf tasks).count t + es.count (.channelCreated t) ≤
      (timersOf v.tasks).count t) :
    { v with tasks, stored, trace := v.trace ++ es }.Conserved where
  serials := h.serials
  created_nodup := h.created_nodup
  descriptor t := by
    have hold := h.descriptor t
    have hnew := hdescriptor t
    simp only [List.count_append]
    omega
  channel t := by
    have hold := h.channel t
    have hnew := hchannel t
    simp only [List.count_append]
    omega
  unopened t := by
    have hold := h.unopened t
    have hnew := hopened t
    simp only [List.count_append]
    omega
  added := h.added

theorem Conserved.move (h : v.Conserved) (hm : v.Moves v') : v'.Conserved := by
  cases hm with
  | quiet => exact h
  | create timer fresh =>
    have hnot := h.fresh fresh
    refine ⟨?_, ?_, fun t => ?_, h.channel, fun t => ?_, fun t ht => ?_⟩
    · intro t ht
      simp only [List.mem_append, List.mem_singleton, List.length_append, List.length_singleton]
        at ht ⊢
      rcases ht with ht | rfl
      · exact Nat.lt_succ_of_lt (h.serials t ht)
      · omega
    · exact List.nodup_append.mpr ⟨h.created_nodup, List.nodup_singleton _,
        fun a ha b hb => by rintro rfl; exact hnot (List.mem_singleton.mp hb ▸ ha)⟩
    · have := h.descriptor t
      simp only [List.count_append]
      omega
    · have := h.unopened t
      simp only [List.count_append]
      omega
    · obtain ⟨hcreated, hcalls⟩ := h.added t ht
      refine ⟨List.mem_append_left _ hcreated, fun hmem => ?_⟩
      rcases List.mem_append.mp hmem with hmem | hmem
      · exact hcalls hmem
      · exact hnot (List.mem_singleton.mp hmem ▸ hcreated)
  | add timer called =>
    refine ⟨h.serials, h.created_nodup, fun t => ?_, h.channel, fun t => ?_, fun t ht => ?_⟩
    · have := h.descriptor t
      have := count_erase_add called t
      simp only [timersOf_append, timersOf_add, timersOf_nil, List.count_append]
      omega
    · have := h.unopened t
      have := count_erase_add called t
      simp only [timersOf_append, timersOf_add, timersOf_nil, List.count_append]
      omega
    · rcases List.mem_append.mp ht with ht | ht
      · obtain ⟨hcreated, hcalls⟩ := h.added t ht
        exact ⟨hcreated, fun hmem => hcalls (List.mem_of_mem_erase hmem)⟩
      · -- the timer was in one call, and that call has queued it
        obtain rfl : t = timer := TimerTask.add.inj (List.mem_singleton.mp ht)
        have hone := h.count_le t
        have hpos := List.count_pos_iff.mpr called
        have herase := count_erase_add called t
        rw [List.count_singleton_self] at herase
        have hcreated : 0 < v.created.count t := by
          have := h.descriptor t
          omega
        have hcalls : (v.calls.erase t).count t = 0 := by omega
        exact ⟨List.count_pos_iff.mp hcreated, List.count_eq_zero.mp hcalls⟩
  | enqueue task fresh =>
    have hnone : timersOf (v.tasks ++ [task]) = timersOf v.tasks := by
      rcases fresh with rfl | ⟨timerId, rfl⟩ <;> simp
    refine ⟨h.serials, h.created_nodup, fun t => ?_, h.channel, fun t => ?_, fun t ht => ?_⟩
    · rw [hnone]
      exact h.descriptor t
    · rw [hnone]
      exact h.unopened t
    · refine h.added t ((List.mem_append.mp ht).resolve_right fun hmem => ?_)
      rcases fresh with rfl | ⟨timerId, rfl⟩ <;> simp at hmem
  | call timer stored => exact h.balance (by simp) (by simp) (by simp)
  | store timer tasks first free =>
    refine h.balance (fun t => ?_) (fun t => ?_) fun t => ?_
    · simp [first, List.count_cons]
      omega
    · simp [List.count_cons]
    · simp [first, List.count_cons]
  | clash timer tasks first taken =>
    refine h.balance (fun t => ?_) (fun t => ?_) fun t => ?_
    · simp [first, List.count_cons]
      omega
    · simp [List.count_cons]
    · simp [first, List.count_cons]
  | erase pos timer tasks first found =>
    refine h.balance (fun t => ?_) (fun t => ?_) fun t => ?_
    · have herase := count_erase_add found t
      simp [first, List.count_cons] at herase ⊢
      omega
    · have herase := count_erase_add found t
      simp [List.count_cons] at herase ⊢
      omega
    · simp [first]
  | miss pos timerId tasks first absent =>
    exact h.balance (by simp [first]) (by simp) (by simp [first])
  | drop dropped tasks first =>
    refine h.balance (fun t => ?_) (fun t => ?_) fun t => ?_
    · simp [first]
      omega
    · simp
    · simp [first]
  | fail timer dropped tasks first =>
    rw [List.append_assoc]
    refine h.balance (fun t => ?_) (fun t => ?_) fun t => ?_
    · simp [first, List.count_cons]
      omega
    · simp [List.count_cons]
    · simp [first, List.count_cons]
  | destroy calls =>
    refine h.balance (fun t => ?_) (fun t => ?_) fun t => ?_
    · simp
      omega
    · simp
    · simp

theorem Conserved.open_of_stored (h : v.Conserved) {t : Timer} (ht : t ∈ v.stored) :
    .descriptorReleased t ∉ v.trace := by
  have := h.count_le t
  have := List.count_pos_iff.mpr ht
  exact List.count_eq_zero.mp (by omega)

theorem Conserved.open_of_task (h : v.Conserved) {t : Timer} (ht : .add t ∈ v.tasks) :
    .descriptorReleased t ∉ v.trace := by
  have := h.count_le t
  have := List.count_pos_iff.mpr (mem_timersOf.mpr ht)
  exact List.count_eq_zero.mp (by omega)

/-! ### Channels first -/

/-- Nothing happens to the channel of a timer behind the release of its descriptor. -/
def ChannelFirst (es : List TimerEffect) : Prop :=
  ∀ t, ¬ Precedes es (.descriptorReleased t) (.channelCreated t) ∧
    ¬ Precedes es (.descriptorReleased t) (.channelReleased t)

/-- The effects concern the channel of the timer. -/
def Touches (es : List TimerEffect) (t : Timer) : Prop :=
  .channelCreated t ∈ es ∨ .channelReleased t ∈ es

theorem channelFirst_of_not_touches {es : List TimerEffect} (h : ∀ t, ¬ Touches es t) :
    ChannelFirst es :=
  fun t => ⟨fun hp => h t (.inl hp.right_mem), fun hp => h t (.inr hp.right_mem)⟩

theorem ChannelFirst.append {l m : List TimerEffect} (hl : ChannelFirst l) (hm : ChannelFirst m)
    (hlm : ∀ t, Touches m t → .descriptorReleased t ∉ l) : ChannelFirst (l ++ m) := by
  intro t
  simp only [Trace.precedes_append_iff]
  refine ⟨?_, ?_⟩
  · rintro (h | ⟨hd, hc⟩ | h)
    · exact (hl t).1 h
    · exact hlm t (.inl hc) hd
    · exact (hm t).1 h
  · rintro (h | ⟨hd, hc⟩ | h)
    · exact (hl t).2 h
    · exact hlm t (.inr hc) hd
    · exact (hm t).2 h

theorem not_touches_descriptors {l : List Timer} {t : Timer} :
    ¬ Touches (l.map .descriptorReleased) t := by
  simp [Touches]

theorem channelFirst_descriptors {l : List Timer} :
    ChannelFirst (l.map .descriptorReleased) :=
  channelFirst_of_not_touches fun _ => not_touches_descriptors

theorem ChannelFirst.move (h : ChannelFirst v.trace) (hc : v.Conserved) (hm : v.Moves v') :
    ChannelFirst v'.trace := by
  cases hm with
  | quiet | create _ _ | add _ _ | enqueue _ _ => exact h
  | call timer stored =>
    have hnot : ∀ t, ¬ Touches [TimerEffect.called timer] t := by simp [Touches]
    exact h.append (channelFirst_of_not_touches hnot) fun t ht => absurd ht (hnot t)
  -- the descriptor of a timer that is stored next is still open
  | store timer tasks first free =>
    refine h.append (fun t => by simp [Trace.precedes_cons_iff]) fun t ht => ?_
    obtain rfl : t = timer := by simpa [Touches] using ht
    exact hc.open_of_task (by rw [first]; exact List.mem_cons_self)
  | clash timer tasks first taken =>
    refine h.append (fun t => by simp [Trace.precedes_cons_iff]) fun t ht => ?_
    obtain rfl : t = timer := by simpa [Touches] using ht
    exact hc.open_of_task (by rw [first]; exact List.mem_cons_self)
  -- and so is that of a timer that is stored
  | erase pos timer tasks first found =>
    refine h.append (fun t => by simp [Trace.precedes_cons_iff]) fun t ht => ?_
    obtain rfl : t = timer := by simpa [Touches] using ht
    exact hc.open_of_stored found
  | miss pos timerId tasks first absent =>
    have hnot : ∀ t, ¬ Touches [TimerEffect.removed pos] t := by simp [Touches]
    exact h.append (channelFirst_of_not_touches hnot) fun t ht => absurd ht (hnot t)
  | drop dropped tasks first =>
    exact h.append channelFirst_descriptors fun t ht => absurd ht not_touches_descriptors
  | fail timer dropped tasks first =>
    -- first the channel is made and released, then the descriptors are
    have hmade : ChannelFirst (v.trace ++ [.channelCreated timer, .channelReleased timer]) := by
      refine h.append (fun t => by simp [Trace.precedes_cons_iff]) fun t ht => ?_
      obtain rfl : t = timer := by simpa [Touches] using ht
      exact hc.open_of_task (by rw [first]; exact List.mem_cons_self)
    exact hmade.append channelFirst_descriptors fun t ht => absurd ht not_touches_descriptors
  | destroy calls =>
    -- the channels of the store go before all descriptors
    have hchannels : ChannelFirst (v.stored.map TimerEffect.channelReleased) :=
      fun t => ⟨fun hp => by simpa using hp.left_mem, fun hp => by simpa using hp.left_mem⟩
    have hall := (hchannels.append (channelFirst_descriptors (l := v.stored))
      fun t ht => absurd ht not_touches_descriptors).append
      (channelFirst_descriptors (l := timersOf v.tasks))
      fun t ht => absurd ht not_touches_descriptors
    refine h.append hall fun t ht => ?_
    have hstored : t ∈ v.stored := by simpa [Touches] using ht
    exact hc.open_of_stored hstored

/-! ### In the order of the queue -/

/-- The tasks run in the order in which they were queued, so that a timer is stored before a task
behind its own is called. -/
structure Served (v : TimerView) : Prop where
  queued_nodup : v.queued.Nodup
  positions : ∀ task ∈ v.queued, ∀ pos, task.IsAt pos → v.queued[pos]? = some task
  tasks_sublist : v.tasks.Sublist v.queued
  ahead : ∀ t ∈ v.stored, ∀ task ∈ v.tasks, Precedes v.queued (.add t) task
  stored_added : ∀ t ∈ v.stored, .add t ∈ v.queued
  called_added : ∀ t, .called t ∈ v.trace → .add t ∈ v.queued
  keys : ∀ t ∈ v.stored, ∀ u ∈ v.stored, t.newId = u.newId → t = u
  removed_queued : ∀ pos, .removed pos ∈ v.trace →
    ∃ timerId, .remove pos timerId ∈ v.queued ∧ .remove pos timerId ∉ v.tasks
  found_added : ∀ t pos, .found pos t ∈ v.trace →
    Precedes v.queued (.add t) (.remove pos t.newId) ∧ .removed pos ∈ v.trace
  gone : ∀ t pos, Precedes v.queued (.add t) (.remove pos t.newId) → .removed pos ∈ v.trace →
    .add t ∉ v.tasks ∧ t ∉ v.stored
  silent : ∀ t pos, Precedes v.queued (.add t) (.remove pos t.newId) →
    ¬ Precedes v.trace (.removed pos) (.called t)

/-- A removal is known by its position. -/
theorem Served.remove_inj (h : v.Served) {pos : ℕ} {a b : TimerId}
    (ha : .remove pos a ∈ v.queued) (hb : .remove pos b ∈ v.queued) : a = b := by
  have hget := h.positions _ ha pos (.inr ⟨a, rfl⟩)
  rw [h.positions _ hb pos (.inr ⟨b, rfl⟩)] at hget
  cases hget
  rfl

/-- The removal that is called runs when every timer queued before it is stored or gone. -/
theorem Served.not_waits (h : v.Served) {dropped tasks : List TimerTask}
    (hfirst : v.tasks = dropped ++ tasks) {task task' : TimerTask}
    (horder : Precedes v.queued task task') (hdropped : task' ∈ dropped) : task ∉ tasks := by
  intro htask
  have hafter : Precedes v.tasks task' task := by
    rw [hfirst, Trace.precedes_append_iff]
    exact .inr (.inl ⟨hdropped, htask⟩)
  exact (hafter.sublist h.tasks_sublist).asymm h.queued_nodup horder

/-- A task is queued behind the others. -/
theorem Served.grow (h : v.Served) {task : TimerTask} {calls : List Timer}
    (hfresh : task ∉ v.queued) (hpos : ∀ pos, task.IsAt pos → pos = v.queued.length) :
    Served { v with calls, tasks := v.tasks ++ [task], queued := v.queued ++ [task] } := by
  have hold : ∀ {t pos}, Precedes (v.queued ++ [task]) (.add t) (.remove pos t.newId) →
      .removed pos ∈ v.trace → Precedes v.queued (.add t) (.remove pos t.newId) := by
    intro t pos horder hremoved
    rcases Trace.precedes_concat_iff.mp horder with horder | ⟨-, hlast⟩
    · exact horder
    · -- the removal that has run was queued before
      obtain ⟨timerId, hqueued, -⟩ := h.removed_queued pos hremoved
      have hget := h.positions _ hqueued pos (.inr ⟨timerId, rfl⟩)
      rw [hpos pos (hlast ▸ .inr ⟨_, rfl⟩), List.getElem?_eq_none (Nat.le_refl _)] at hget
      cases hget
  constructor
  · exact List.nodup_append.mpr ⟨h.queued_nodup, List.nodup_singleton _,
      fun a ha b hb => by rintro rfl; exact hfresh (List.mem_singleton.mp hb ▸ ha)⟩
  · intro other hother pos hat
    rcases List.mem_append.mp hother with hother | hother
    · have hget := h.positions other hother pos hat
      have hlt : pos < v.queued.length := (List.getElem?_eq_some_iff.mp hget).1
      change (v.queued ++ [task])[pos]? = _
      rw [List.getElem?_append_left hlt, hget]
    · obtain rfl := List.mem_singleton.mp hother
      rw [hpos pos hat]
      exact List.getElem?_concat_length
  · exact List.Sublist.append h.tasks_sublist (List.Sublist.refl _)
  · intro t ht other hother
    rcases List.mem_append.mp hother with hother | hother
    · exact Trace.precedes_concat_iff.mpr (.inl (h.ahead t ht other hother))
    · exact Trace.precedes_concat_iff.mpr
        (.inr ⟨h.stored_added t ht, List.mem_singleton.mp hother⟩)
  · exact fun t ht => List.mem_append_left _ (h.stored_added t ht)
  · exact fun t ht => List.mem_append_left _ (h.called_added t ht)
  · exact h.keys
  · intro pos hremoved
    obtain ⟨timerId, hqueued, hdone⟩ := h.removed_queued pos hremoved
    refine ⟨timerId, List.mem_append_left _ hqueued, fun hmem => ?_⟩
    rcases List.mem_append.mp hmem with hmem | hmem
    · exact hdone hmem
    · exact hfresh (List.mem_singleton.mp hmem ▸ hqueued)
  · intro t pos hfound
    obtain ⟨horder, hremoved⟩ := h.found_added t pos hfound
    exact ⟨Trace.precedes_concat_iff.mpr (.inl horder), hremoved⟩
  · intro t pos horder hremoved
    have hbefore := hold horder hremoved
    obtain ⟨htasks, hstored⟩ := h.gone t pos hbefore hremoved
    refine ⟨fun hmem => ?_, hstored⟩
    rcases List.mem_append.mp hmem with hmem | hmem
    · exact htasks hmem
    · exact hfresh (List.mem_singleton.mp hmem ▸ hbefore.left_mem)
  · exact fun t pos horder hsilent =>
      h.silent t pos (hold horder hsilent.left_mem) hsilent

/-- The first tasks are called or destroyed: they store the timers they hold, or release what is
stored. -/
theorem Served.shrink (h : v.Served) (dropped : List TimerTask) {tasks : List TimerTask}
    {stored : List Timer} {es : List TimerEffect} (hfirst : v.tasks = dropped ++ tasks)
    (hstored : ∀ t ∈ stored, t ∈ v.stored ∨ .add t ∈ dropped)
    (hkeys : ∀ t ∈ stored, ∀ u ∈ stored, t.newId = u.newId → t = u)
    (hcalled : ∀ t, .called t ∉ es)
    (hremoved : ∀ pos, .removed pos ∈ es →
      ∃ timerId, .remove pos timerId ∈ dropped ∧ ∀ t ∈ stored, t.newId ≠ timerId)
    (hfound : ∀ t pos, .found pos t ∈ es →
      t ∈ v.stored ∧ .remove pos t.newId ∈ v.tasks ∧ .removed pos ∈ es) :
    Served { v with tasks, stored, trace := v.trace ++ es } := by
  have htasks : ∀ {task}, task ∈ tasks → task ∈ v.tasks := fun hmem => by
    rw [hfirst]
    exact List.mem_append_right _ hmem
  have hdropped : ∀ {task}, task ∈ dropped → task ∈ v.tasks := fun hmem => by
    rw [hfirst]
    exact List.mem_append_left _ hmem
  constructor
  · exact h.queued_nodup
  · exact h.positions
  · refine List.Sublist.trans ?_ h.tasks_sublist
    rw [hfirst]
    exact List.sublist_append_right _ _
  · intro t ht task htask
    rcases hstored t ht with ht | ht
    · exact h.ahead t ht task (htasks htask)
    · -- the timer was stored by a task in front of this one
      have horder : Precedes v.tasks (.add t) task := by
        rw [hfirst, Trace.precedes_append_iff]
        exact .inr (.inl ⟨ht, htask⟩)
      exact horder.sublist h.tasks_sublist
  · intro t ht
    rcases hstored t ht with ht | ht
    · exact h.stored_added t ht
    · exact h.tasks_sublist.subset (hdropped ht)
  · intro t ht
    exact h.called_added t ((List.mem_append.mp ht).resolve_right (hcalled t))
  · exact hkeys
  · intro pos hmem
    rcases List.mem_append.mp hmem with hmem | hmem
    · obtain ⟨timerId, hqueued, hdone⟩ := h.removed_queued pos hmem
      exact ⟨timerId, hqueued, fun hmem => hdone (htasks hmem)⟩
    · obtain ⟨timerId, hmem, -⟩ := hremoved pos hmem
      refine ⟨timerId, h.tasks_sublist.subset (hdropped hmem), fun hmem' => ?_⟩
      have hnodup := h.tasks_sublist.nodup h.queued_nodup
      rw [hfirst] at hnodup
      exact (List.nodup_append.mp hnodup).2.2 _ hmem _ hmem' rfl
  · intro t pos hmem
    rcases List.mem_append.mp hmem with hmem | hmem
    · obtain ⟨horder, hremoved⟩ := h.found_added t pos hmem
      exact ⟨horder, List.mem_append_left _ hremoved⟩
    · obtain ⟨ht, htask, hremoved⟩ := hfound t pos hmem
      exact ⟨h.ahead t ht _ htask, List.mem_append_right _ hremoved⟩
  · intro t pos horder hmem
    rcases List.mem_append.mp hmem with hmem | hmem
    · obtain ⟨hnot, hgone⟩ := h.gone t pos horder hmem
      refine ⟨fun ht => hnot (htasks ht), fun ht => ?_⟩
      rcases hstored t ht with ht | ht
      · exact hgone ht
      · exact hnot (hdropped ht)
    · obtain ⟨timerId, hmem, habsent⟩ := hremoved pos hmem
      have hid := h.remove_inj horder.right_mem (h.tasks_sublist.subset (hdropped hmem))
      exact ⟨h.not_waits hfirst horder (hid ▸ hmem), fun ht => habsent t ht hid⟩
  · intro t pos horder hsilent
    rcases Trace.precedes_append_iff.mp hsilent with hsilent | ⟨-, hmem⟩ | hsilent
    · exact h.silent t pos horder hsilent
    · exact hcalled t hmem
    · exact hcalled t hsilent.right_mem

/-- A stored timer is called. -/
theorem Served.call (h : v.Served) {timer : Timer} (hstored : timer ∈ v.stored) :
    Served { v with trace := v.trace ++ [.called timer] } := by
  have hold : ∀ {e}, e ∈ v.trace ++ [TimerEffect.called timer] → e ≠ .called timer →
      e ∈ v.trace := by
    intro e he hne
    exact (List.mem_append.mp he).resolve_right fun hmem => hne (List.mem_singleton.mp hmem)
  refine ⟨h.queued_nodup, h.positions, h.tasks_sublist, h.ahead, h.stored_added, ?_, h.keys, ?_, ?_,
    ?_, ?_⟩
  · intro t ht
    rcases List.mem_append.mp ht with ht | ht
    · exact h.called_added t ht
    · obtain rfl : t = timer := TimerEffect.called.inj (List.mem_singleton.mp ht)
      exact h.stored_added t hstored
  · exact fun pos hmem => h.removed_queued pos (hold hmem (by simp))
  · intro t pos hmem
    obtain ⟨horder, hremoved⟩ := h.found_added t pos (hold hmem (by simp))
    exact ⟨horder, List.mem_append_left _ hremoved⟩
  · exact fun t pos horder hmem => h.gone t pos horder (hold hmem (by simp))
  · intro t pos horder hsilent
    rcases Trace.precedes_concat_iff.mp hsilent with hsilent | ⟨hremoved, hlast⟩
    · exact h.silent t pos horder hsilent
    · obtain rfl := TimerEffect.called.inj hlast
      exact (h.gone t pos horder hremoved).2 hstored

theorem Served.move (h : v.Served) (hc : v.Conserved) (hm : v.Moves v') : v'.Served := by
  cases hm with
  | quiet => exact h
  | create timer fresh => exact { h with }
  | add timer called =>
    refine h.grow (fun hmem => (hc.added timer hmem).2 called) fun pos hat => ?_
    rcases hat with hat | ⟨_, hat⟩ <;> cases hat
  | enqueue task fresh =>
    refine h.grow (fun hmem => ?_) fun pos hat => ?_
    · have hget := h.positions task hmem _ fresh
      rw [List.getElem?_eq_none (Nat.le_refl _)] at hget
      cases hget
    · rcases fresh with rfl | ⟨_, rfl⟩ <;> rcases hat with hat | ⟨_, hat⟩ <;> cases hat <;> rfl
  | call timer stored => exact h.call stored
  | store timer tasks first free =>
    refine h.shrink [.add timer] first ?_ ?_ (by simp) (by simp) (by simp)
    · intro t ht
      simpa using ht
    · intro t ht u hu hid
      rcases List.mem_append.mp ht with ht | ht <;> rcases List.mem_append.mp hu with hu | hu
      · exact h.keys t ht u hu hid
      · exact absurd (List.mem_singleton.mp hu ▸ hid) (free t ht)
      · exact absurd (List.mem_singleton.mp ht ▸ hid.symm) (free u hu)
      · rw [List.mem_singleton.mp ht, List.mem_singleton.mp hu]
  | clash timer tasks first taken =>
    exact h.shrink [.add timer] first (fun t ht => .inl ht) h.keys (by simp) (by simp)
      (by simp)
  | erase pos timer tasks first found =>
    have hmem : ∀ {t}, t ∈ v.stored.erase timer → t ∈ v.stored := List.mem_of_mem_erase
    refine h.shrink [.remove pos timer.newId] first (fun t ht => .inl (hmem ht))
      (fun t ht u hu => h.keys t (hmem ht) u (hmem hu)) (by simp) ?_ ?_
    · intro pos' hpos
      obtain rfl : pos' = pos := by simpa using hpos
      refine ⟨timer.newId, List.mem_singleton_self _, fun t ht hid => ?_⟩
      -- the timer itself is stored only once
      obtain rfl := h.keys t (hmem ht) timer found hid
      have := hc.count_le t
      have := count_erase_add found t
      have := List.count_pos_iff.mpr ht
      rw [List.count_singleton_self] at *
      omega
    · intro t pos' hpos
      obtain ⟨rfl, rfl⟩ : pos' = pos ∧ t = timer := by simpa using hpos
      exact ⟨found, by rw [first]; exact List.mem_cons_self, by simp⟩
  | miss pos timerId tasks first absent =>
    refine h.shrink [.remove pos timerId] first (fun t ht => .inl ht) h.keys (by simp)
      ?_ (by simp)
    intro pos' hpos
    obtain rfl : pos' = pos := by simpa using hpos
    exact ⟨timerId, List.mem_singleton_self _, absent⟩
  | drop dropped tasks first =>
    exact h.shrink dropped first (fun t ht => .inl ht) h.keys (by simp) (by simp) (by simp)
  | fail timer dropped tasks first =>
    rw [List.append_assoc]
    exact h.shrink _ first (fun t ht => .inl ht) h.keys (by simp) (by simp) (by simp)
  | destroy calls =>
    exact h.shrink _ (List.append_nil _).symm (fun t ht => absurd ht List.not_mem_nil)
      (fun t ht => absurd ht List.not_mem_nil) (by simp) (by simp) (by simp)

/-- What the moves keep. -/
structure Sound (v : TimerView) : Prop where
  conserved : v.Conserved
  channelFirst : ChannelFirst v.trace
  served : v.Served

theorem Sound.move (h : v.Sound) (hm : v.Moves v') : v'.Sound where
  conserved := h.conserved.move hm
  channelFirst := h.channelFirst.move h.conserved hm
  served := h.served.move h.conserved hm

end TimerView

/-! ## Runs -/

/-- The expirations of a one-shot timer that have not been read. -/
def TimerFd.tokens (fd : TimerFd) : ℕ := fd.armed.toNat + fd.readable.toNat

namespace TimerSystem

open Function (update)

variable {s s' : TimerSystem}

theorem create_sound (clock : TimerId) : (create clock).view.Sound where
  conserved := by constructor <;> simp [view, create, tasks, TimerPc.batch]
  channelFirst := TimerView.channelFirst_of_not_touches (by simp [TimerView.Touches, view, create])
  served := by constructor <;> simp [view, create, tasks, TimerPc.batch]

theorem step_sound {i : TimerStep} (h : s.view.Sound) (hstep : s.step i = some s') :
    s'.view.Sound :=
  h.move (moves_of_step hstep)

/-- The timer is in an add call, in a task or stored. -/
def Holds (s : TimerSystem) (t : Timer) : Prop :=
  t ∈ s.calls ∨ .add t ∈ s.tasks ∨ t ∈ s.mTimerMap

/-! ### One-shot timers -/

/-- The callback of a one-shot timer is called for its expiration, which is read when the callback
has returned. -/
structure Spent (s : TimerSystem) : Prop where
  tokens : ∀ t, t.mIsRepeating = false → (∀ active, s.pc ≠ .calling t active) →
    s.trace.count (.called t) + (s.fds t).tokens ≤ 1
  calling : ∀ t active, s.pc = .calling t active → t ∈ s.created ∧ t ∉ active.map Prod.fst ∧
    (t.mIsRepeating = false → s.trace.count (.called t) = 1 ∧ s.fds t = ⟨false, true⟩)
  active_nodup : (s.pc.active.map Prod.fst).Nodup
  reported : ∀ e ∈ s.pc.active, e.1 ∈ s.created
  readable : ∀ e ∈ s.pc.active, Channel.Reads e.2 → (s.fds e.1).readable = true

theorem create_spent (clock : TimerId) : (create clock).Spent where
  tokens := by simp [create, TimerFd.tokens]
  calling := by simp [create]
  active_nodup := by simp [create, TimerPc.active]
  reported := by simp [create, TimerPc.active]
  readable := by simp [create, TimerPc.active]

/-- No timer is called, and none is left to be dispatched. -/
structure Quiet (s s' : TimerSystem) : Prop where
  fds : s'.fds = s.fds
  active : s'.pc.active = []
  calling : ∀ t active, s'.pc ≠ .calling t active
  called : ∀ t, s'.trace.count (.called t) = s.trace.count (.called t)

theorem Spent.quiet (h : s.Spent) (hpc : ∀ t active, s.pc ≠ .calling t active)
    (hq : s.Quiet s') : s'.Spent where
  tokens := fun t ht _ => by
    rw [hq.called, hq.fds]
    exact h.tokens t ht (hpc t)
  calling := fun t active hcalling => absurd hcalling (hq.calling t active)
  active_nodup := by
    rw [hq.active]
    exact List.nodup_nil
  reported := by
    rw [hq.active]
    exact fun _ he => absurd he List.not_mem_nil
  readable := by
    rw [hq.active]
    exact fun _ he => absurd he List.not_mem_nil

theorem quiet_unwind (s : TimerSystem) (tasks : List TimerTask) : s.Quiet (s.unwind tasks) := by
  constructor <;> simp [unwind, effects, TimerPc.active, count_map_of_ne]

theorem quiet_runAdd (s : TimerSystem) (timer : Timer) (tasks : List TimerTask)
    (result : AddResult) : s.Quiet (s.runAdd timer tasks result) := by
  cases result with
  | stored =>
    simp only [runAdd, emplace]
    split <;> constructor <;> simp [effects, TimerPc.active]
  | fatal => constructor <;> simp [runAdd, TimerPc.active]
  | createFailed => exact quiet_unwind s _
  | enableReadFailed =>
    constructor <;> simp [runAdd, unwind, effects, TimerPc.active, count_map_of_ne]

theorem quiet_runRemove (s : TimerSystem) (pos : ℕ) (timerId : TimerId) (tasks : List TimerTask) :
    s.Quiet (s.runRemove pos timerId tasks) := by
  simp only [runRemove]
  split <;> constructor <;> simp [effects, TimerPc.active]

/-- The steps of the loop outside its dispatch. -/
theorem quiet_loopStep {i : TimerStep} (h : s.loopStep i = some s')
    (hi : ∀ active, i ≠ .poll active) (hdispatch : i ≠ .dispatch)
    (hreturn : i ≠ .callbackReturn) (hthrow : i ≠ .callbackThrow) :
    (∀ t active, s.pc ≠ .calling t active) ∧ s.Quiet s' := by
  cases i with
  | poll active => exact absurd rfl (hi active)
  | dispatch => exact absurd rfl hdispatch
  | callbackReturn => exact absurd rfl hreturn
  | callbackThrow => exact absurd rfl hthrow
  | startLoop | handlerThrow | swap | taskReturn =>
    simp only [loopStep] at h
    split at h <;> cases h
    next hpc =>
    refine ⟨by simp [hpc], ?_⟩
    constructor <;> simp [TimerPc.active]
  -- a functor may stop the loop, the tasks of timers store and erase
  | next result =>
    simp only [loopStep] at h
    split at h <;> cases h
    · next hpc =>
      refine ⟨by simp [hpc], rfl, ?_, ?_, fun _ => rfl⟩
      · change TimerPc.active (if _ then _ else _) = []
        split <;> rfl
      · intro t active
        change (if _ then TimerPc.stopped else _) ≠ _
        split <;> simp
    · next hpc => exact ⟨by simp [hpc], quiet_runAdd s _ _ result⟩
    · next hpc => exact ⟨by simp [hpc], quiet_runRemove s _ _ _⟩
    · next hpc =>
      refine ⟨by simp [hpc], ?_⟩
      constructor <;> simp [TimerPc.active]
  | taskThrow =>
    simp only [loopStep] at h
    split at h <;> cases h
    next hpc => exact ⟨by simp [hpc], quiet_unwind s _⟩
  -- all timers are released, none is called
  | destroy =>
    simp only [loopStep] at h
    split at h
    · next hpc =>
      split at h <;> cases h
      refine ⟨by simp [hpc], ?_⟩
      constructor <;> simp [destroy, effects, TimerPc.active, count_map_of_ne]
    · cases h
  | addOneshotTimer | addRepeatingTimer | queueTimer | removeTimer | queueInLoop | expire |
    quitLoop =>
    cases h

theorem Spent.poll (h : s.Spent) (hs : s.view.Sound) {active : List (Timer × EventMask)}
    (hpc : s.pc = .polling) (hreports : s.Reports active) :
    Spent { s with pc := .dispatching active } where
  tokens := fun t ht _ => h.tokens t ht (by simp [hpc])
  calling := by simp
  active_nodup := hreports.1
  reported := fun e he =>
    (hs.conserved.added _ (hs.served.stored_added _ (hreports.2 e he).1)).1
  readable := fun e he => (hreports.2 e he).2

/-- A channel that does not call its timer. -/
theorem Spent.skip (h : s.Spent) {e : Timer × EventMask} {active : List (Timer × EventMask)}
    (hpc : s.pc = .dispatching (e :: active)) : Spent { s with pc := .dispatching active } := by
  have hactive : s.pc.active = e :: active := by rw [hpc]; rfl
  have hmem : ∀ {e'}, e' ∈ active → e' ∈ s.pc.active := fun he => by
    rw [hactive]
    exact List.mem_cons_of_mem _ he
  have hnodup := h.active_nodup
  rw [hactive] at hnodup
  exact {
    tokens := fun t ht _ => h.tokens t ht (by simp [hpc])
    calling := by simp
    active_nodup := hnodup.of_cons
    reported := fun e' he => h.reported e' (hmem he)
    readable := fun e' he => h.readable e' (hmem he) }

section

variable (s : TimerSystem) (timer : Timer) (active : List (Timer × EventMask))

@[simp] theorem readCallback_pc : (s.readCallback timer active).pc = .calling timer active := rfl

@[simp] theorem readCallback_created : (s.readCallback timer active).created = s.created := by
  simp only [readCallback]
  split <;> rfl

@[simp] theorem readCallback_trace :
    (s.readCallback timer active).trace = s.trace ++ [.called timer] := by
  simp only [readCallback]
  split <;> rfl

theorem readCallback_fds {t : Timer} (h : t = timer → timer.mIsRepeating = false) :
    (s.readCallback timer active).fds t = s.fds t := by
  simp only [readCallback]
  split
  · next hrepeating =>
    have hne : t ≠ timer := fun ht => by simp [h ht] at hrepeating
    exact Function.update_of_ne hne _ _
  · rfl

@[simp] theorem callbackReturn_pc : (s.callbackReturn timer active).pc = .dispatching active := rfl

@[simp] theorem callbackReturn_created : (s.callbackReturn timer active).created = s.created := by
  simp only [callbackReturn]
  split <;> rfl

@[simp] theorem callbackReturn_trace : (s.callbackReturn timer active).trace = s.trace := by
  simp only [callbackReturn]
  split <;> rfl

theorem callbackReturn_fds {t : Timer} (h : t ≠ timer) :
    (s.callbackReturn timer active).fds t = s.fds t := by
  simp only [callbackReturn]
  split
  · rfl
  · exact Function.update_of_ne h _ _

theorem callbackReturn_fds_self (h : timer.mIsRepeating = false) :
    (s.callbackReturn timer active).fds timer = (s.fds timer).handleRead := by
  simp [callbackReturn, h, handleRead, removeTimer, queueInLoop]

end

/-- The callback is called for an expiration. -/
theorem Spent.readCallback (h : s.Spent) {timer : Timer} {mRevent : EventMask}
    {active : List (Timer × EventMask)} (hpc : s.pc = .dispatching ((timer, mRevent) :: active))
    (hreads : Channel.Reads mRevent) : (s.readCallback timer active).Spent := by
  have hactive : s.pc.active = (timer, mRevent) :: active := by rw [hpc]; rfl
  have hmem : ∀ {e'}, e' ∈ active → e' ∈ s.pc.active := fun he => by
    rw [hactive]
    exact List.mem_cons_of_mem _ he
  have hfirst : (timer, mRevent) ∈ s.pc.active := by
    rw [hactive]
    exact List.mem_cons_self
  have hnodup := h.active_nodup
  rw [hactive, List.map_cons, List.nodup_cons] at hnodup
  have hother : ∀ e ∈ active, e.1 ≠ timer := by
    intro e he heq
    exact hnodup.1 (List.mem_map.mpr ⟨e, he, heq⟩)
  constructor
  · intro t ht hnot
    have hne : t ≠ timer := by
      rintro rfl
      exact hnot active rfl
    rw [readCallback_fds _ _ _ fun heq => absurd heq hne]
    simpa [hne.symm] using h.tokens t ht (by simp [hpc])
  · intro t active' hcalling
    obtain ⟨rfl, rfl⟩ := TimerPc.calling.inj hcalling
    refine ⟨by simpa using h.reported _ hfirst, hnodup.1, fun ht => ?_⟩
    -- its only expiration is the one it is called for
    have htokens := h.tokens timer ht (by simp [hpc])
    have hreadable : (s.fds timer).readable = true := h.readable _ hfirst hreads
    rw [readCallback_fds _ _ _ fun _ => ht]
    cases hfd : s.fds timer with
    | mk armed readable =>
      rw [hfd] at hreadable htokens
      cases armed <;> cases readable <;> simp [TimerFd.tokens] at hreadable htokens ⊢
      exact htokens
  · exact hnodup.2
  · exact fun e he => by simpa using h.reported e (hmem he)
  · intro e he hreads'
    rw [readCallback_fds _ _ _ fun heq => absurd heq (hother e he)]
    exact h.readable e (hmem he) hreads'

/-- The expiration is read when the callback has returned. -/
theorem Spent.callbackReturn (h : s.Spent) {timer : Timer} {active : List (Timer × EventMask)}
    (hpc : s.pc = .calling timer active) : (s.callbackReturn timer active).Spent := by
  obtain ⟨-, hnot, hspent⟩ := h.calling timer active hpc
  have hactive : s.pc.active = active := by rw [hpc]; rfl
  constructor
  · intro t ht _
    rw [callbackReturn_trace]
    by_cases heq : t = timer
    · subst heq
      obtain ⟨hcalled, hfd⟩ := hspent ht
      rw [callbackReturn_fds_self _ _ _ ht, hcalled, hfd]
      rfl
    · rw [callbackReturn_fds _ _ _ heq]
      refine h.tokens t ht fun active' hcalling => heq ?_
      rw [hpc] at hcalling
      exact (TimerPc.calling.inj hcalling).1.symm
  · simp
  · exact hactive ▸ h.active_nodup
  · intro e he
    rw [callbackReturn_created]
    exact h.reported e (hactive.symm ▸ he)
  · intro e he hreads
    have hne : e.1 ≠ timer := fun heq => hnot (heq ▸ List.mem_map_of_mem (f := Prod.fst) he)
    rw [callbackReturn_fds _ _ _ hne]
    exact h.readable e (hactive.symm ▸ he) hreads

/-- A call that adds no timer leaves the loop and the timerfds as they are. -/
theorem Spent.congr (h : s.Spent) (hpc : s'.pc = s.pc) (hfds : s'.fds = s.fds)
    (htrace : s'.trace = s.trace) (hcreated : s'.created = s.created) : s'.Spent where
  tokens := by
    rw [hpc, hfds, htrace]
    exact h.tokens
  calling := by
    rw [hpc, hfds, htrace, hcreated]
    exact h.calling
  active_nodup := by
    rw [hpc]
    exact h.active_nodup
  reported := by
    rw [hpc, hcreated]
    exact h.reported
  readable := by
    rw [hpc, hfds]
    exact h.readable

theorem Spent.createTimer (h : s.Spent) (hs : s.view.Sound) {mIsRepeating : Bool} {now : TimerId}
    (hstep : s.createTimer mIsRepeating now = some s') : s'.Spent := by
  simp only [TimerSystem.createTimer] at hstep
  split at hstep <;> cases hstep
  set newTimer : Timer := ⟨s.created.length, mIsRepeating, now⟩
  have hfresh : newTimer ∉ s.created := hs.conserved.fresh rfl
  have hne : ∀ {t}, t ∈ s.created → t ≠ newTimer := by
    rintro t ht rfl
    exact hfresh ht
  have hfds : ∀ {t}, t ≠ newTimer → update s.fds newTimer TimerFd.set t = s.fds t :=
    fun ht => Function.update_of_ne ht _ _
  constructor
  · intro t ht hnot
    by_cases heq : t = newTimer
    · -- it was never called
      have hcount : s.trace.count (.called t) = 0 := List.count_eq_zero.mpr fun hcalled =>
        hne (hs.conserved.added t (hs.served.called_added t hcalled)).1 heq
      change s.trace.count (.called t) + TimerFd.tokens (update s.fds newTimer _ t) ≤ 1
      rw [hcount, heq, Function.update_self]
      rfl
    · change s.trace.count (.called t) + TimerFd.tokens (update s.fds newTimer _ t) ≤ 1
      rw [hfds heq]
      exact h.tokens t ht hnot
  · intro t active hcalling
    obtain ⟨hcreated, hnot, hspent⟩ := h.calling t active hcalling
    refine ⟨List.mem_append_left _ hcreated, hnot, fun ht => ?_⟩
    change _ ∧ update s.fds newTimer _ t = _
    rw [hfds (hne hcreated)]
    exact hspent ht
  · exact h.active_nodup
  · exact fun e he => List.mem_append_left _ (h.reported e he)
  · intro e he hreads
    change (update s.fds newTimer _ e.1).readable = true
    rw [hfds (hne (h.reported e he))]
    exact h.readable e he hreads

theorem Spent.expire (h : s.Spent) {timer : Timer} (harmed : (s.fds timer).armed = true) :
    Spent { s with fds := update s.fds timer (TimerFd.expire timer.mIsRepeating) } := by
  constructor
  · intro t ht hnot
    have htokens := h.tokens t ht hnot
    by_cases heq : t = timer
    · subst heq
      simp only [Function.update_self, TimerFd.tokens, TimerFd.expire, harmed, ht] at htokens ⊢
      simp at htokens ⊢
      omega
    · simpa only [Function.update_of_ne heq] using htokens
  · intro t active hcalling
    obtain ⟨hcreated, hnot, hspent⟩ := h.calling t active hcalling
    refine ⟨hcreated, hnot, fun ht => ?_⟩
    obtain ⟨hcalled, hfd⟩ := hspent ht
    have hne : t ≠ timer := by
      rintro rfl
      simp [hfd] at harmed
    exact ⟨hcalled, by simpa only [Function.update_of_ne hne] using hfd⟩
  · exact h.active_nodup
  · exact h.reported
  · intro e he hreads
    by_cases heq : e.1 = timer
    · simp [heq, TimerFd.expire]
    · simpa only [Function.update_of_ne heq] using h.readable e he hreads

theorem step_spent {i : TimerStep} (h : s.Spent) (hs : s.view.Sound) (hi : i ≠ .callbackThrow)
    (hstep : s.step i = some s') : s'.Spent := by
  cases i with
  | addOneshotTimer now | addRepeatingTimer now => exact h.createTimer hs hstep
  -- a task is queued: no descriptor and no callback is touched
  | queueTimer timer =>
    simp only [step, queueTimer] at hstep
    split at hstep <;> cases hstep
    exact h.congr rfl rfl rfl rfl
  | removeTimer timerId | queueInLoop | quitLoop =>
    simp only [step] at hstep
    split at hstep <;> cases hstep
    exact h.congr rfl rfl rfl rfl
  | expire timer =>
    simp only [step] at hstep
    split at hstep <;> cases hstep
    next harmed => exact h.expire harmed
  -- the reports are those of descriptors that are readable
  | poll active =>
    simp only [step, loopStep] at hstep
    split at hstep
    · next hpc =>
      split at hstep <;> cases hstep
      next hreports => exact h.poll hs hpc hreports
    · cases hstep
  | dispatch =>
    simp only [step, loopStep] at hstep
    split at hstep <;> cases hstep
    next hpc =>
    simp only [handleEvent]
    split
    · next hreads => exact h.readCallback hpc hreads.2
    · exact h.skip hpc
  | callbackReturn =>
    simp only [step, loopStep] at hstep
    split at hstep <;> cases hstep
    next hpc => exact h.callbackReturn hpc
  | callbackThrow => exact absurd rfl hi
  -- no timer is dispatched
  | startLoop | handlerThrow | swap | next | taskReturn | taskThrow | destroy =>
    simp only [step] at hstep
    obtain ⟨hpc, hquiet⟩ := quiet_loopStep hstep (by simp) (by simp) (by simp) (by simp)
    exact h.quiet hpc hquiet

/-! ### The lifecycle -/

/-- Nothing is left of a loop that is destroyed. -/
def Cleared (s : TimerSystem) : Prop := s.pc = .destroyed → ∀ t, ¬ s.Holds t

theorem not_alive_of_destroyed (h : s.pc = .destroyed) : ¬ s.Alive := by
  simp [Alive, h]

/-- Only the destructor destroys the loop. -/
theorem loopStep_pc_ne {i : TimerStep} (h : s.loopStep i = some s') (hi : i ≠ .destroy) :
    s'.pc ≠ .destroyed := by
  cases i with
  | destroy => exact absurd rfl hi
  | startLoop | callbackReturn | callbackThrow | handlerThrow | swap | taskReturn | taskThrow =>
    simp only [loopStep] at h
    split at h <;> cases h
    simp [unwind]
  | poll active =>
    simp only [loopStep] at h
    split at h
    · split at h <;> cases h
      simp
    · cases h
  | dispatch =>
    simp only [loopStep] at h
    split at h <;> cases h
    simp only [handleEvent]
    split <;> simp
  -- a functor returns or exits, and a task of a timer returns or throws
  | next result =>
    simp only [loopStep] at h
    split at h <;> cases h
    · change (if _ then TimerPc.stopped else _) ≠ _
      split <;> simp
    · cases result <;> simp [runAdd, unwind]
    · simp only [runRemove]
      split <;> simp
    · simp
  | addOneshotTimer | addRepeatingTimer | queueTimer | removeTimer | queueInLoop | expire |
    quitLoop =>
    cases h

theorem step_cleared {i : TimerStep} (h : s.Cleared) (hstep : s.step i = some s') :
    s'.Cleared := by
  by_cases hpc : s.pc = .destroyed
  · -- only a timerfd can change
    have hdead := not_alive_of_destroyed hpc
    cases i with
    | expire timer =>
      simp only [step] at hstep
      split at hstep <;> cases hstep
      exact h
    | addOneshotTimer | addRepeatingTimer | queueTimer | removeTimer | queueInLoop | quitLoop =>
      simp [step, addOneshotTimer, addRepeatingTimer, createTimer, queueTimer, hdead] at hstep
    | startLoop | poll | dispatch | callbackReturn | callbackThrow | handlerThrow | swap | next |
      taskReturn | taskThrow | destroy =>
      simp [step, loopStep, hpc] at hstep
  · cases i with
    | destroy =>
      simp only [step, loopStep] at hstep
      split at hstep
      · next hpc' =>
        split at hstep <;> cases hstep
        next hcalls =>
        rintro - t (ht | ht | ht)
        · exact absurd (hcalls ▸ ht) List.not_mem_nil
        · exact absurd ht List.not_mem_nil
        · exact absurd ht List.not_mem_nil
      · cases hstep
    | addOneshotTimer now | addRepeatingTimer now =>
      simp only [step, addOneshotTimer, addRepeatingTimer, createTimer] at hstep
      split at hstep <;> cases hstep
      exact fun hpc' => absurd hpc' hpc
    | queueTimer | removeTimer | queueInLoop | expire | quitLoop =>
      simp only [step, queueTimer] at hstep
      split at hstep <;> cases hstep
      exact fun hpc' => absurd hpc' hpc
    | startLoop | poll | dispatch | callbackReturn | callbackThrow | handlerThrow | swap | next |
      taskReturn | taskThrow =>
      simp only [step] at hstep
      exact fun hpc' => absurd hpc' (loopStep_pc_ne hstep (by simp))

/-- What becomes of the timers. The ids need not be distinct. -/
structure Lifecycle (s : TimerSystem) : Prop where
  /-- The callback of a one-shot timer runs at most once. -/
  once : ∀ t, t.mIsRepeating = false → s.trace.count (.called t) ≤ 1
  /-- The callback does not run behind a removal that was called with the id returned before. -/
  silenced : ∀ t pos, Precedes s.queued (.add t) (.remove pos t.newId) →
    ¬ Precedes s.trace (.removed pos) (.called t)
  /-- Such a removal leaves nothing of the timer. -/
  removed : ∀ t pos, Precedes s.queued (.add t) (.remove pos t.newId) →
    .removed pos ∈ s.trace → ¬ s.Holds t
  /-- Nothing is released of a timer that is somewhere. -/
  held : ∀ t, s.Holds t → .channelReleased t ∉ s.trace ∧ .descriptorReleased t ∉ s.trace
  /-- The descriptor of another timer was released once, and so was its channel if it had one. -/
  released : ∀ t ∈ s.created, ¬ s.Holds t → s.trace.count (.descriptorReleased t) = 1 ∧
    s.trace.count (.channelReleased t) = s.trace.count (.channelCreated t) ∧
    s.trace.count (.channelCreated t) ≤ 1
  /-- The channel goes first. -/
  ordered : ∀ t, ¬ Precedes s.trace (.descriptorReleased t) (.channelReleased t) ∧
    ¬ Precedes s.trace (.descriptorReleased t) (.channelCreated t)
  /-- All of them are released with the loop. -/
  destroyed : s.pc = .destroyed → ∀ t, ¬ s.Holds t

theorem lifecycle_of_sound (hs : s.view.Sound) (hspent : s.Spent) (hcleared : s.Cleared) :
    s.Lifecycle := by
  -- held is: in a call, in a task or in the store
  have hheld : ∀ t, s.Holds t ↔
      0 < s.calls.count t + (timersOf s.tasks).count t + s.mTimerMap.count t := by
    intro t
    rw [Holds, ← List.count_pos_iff, ← mem_timersOf, ← List.count_pos_iff, ← List.count_pos_iff]
    omega
  constructor
  · intro t ht
    -- a one-shot timer has one call to spend, also while it is called
    by_cases hcalling : ∃ active, s.pc = .calling t active
    · obtain ⟨active, hpc⟩ := hcalling
      exact ((hspent.calling t active hpc).2.2 ht).1.le
    · have := hspent.tokens t ht (not_exists.mp hcalling)
      omega
  · -- no call behind the removal
    exact hs.served.silent
  · -- nor is the timer held then
    rintro t pos horder hremoved (ht | ht | ht)
    · exact (hs.conserved.added t horder.left_mem).2 ht
    · exact (hs.served.gone t pos horder hremoved).1 ht
    · exact (hs.served.gone t pos horder hremoved).2 ht
  · intro t ht
    -- a timer that is held is open
    have hpos := (hheld t).mp ht
    have hone := hs.conserved.count_le t
    have hchannel := hs.conserved.channel t
    have hunopened := hs.conserved.unopened t
    have hdescriptor := hs.conserved.descriptor t
    simp only [view] at hone hchannel hunopened hdescriptor
    exact ⟨List.count_eq_zero.mp (by omega), List.count_eq_zero.mp (by omega)⟩
  · intro t ht hnot
    -- and one that is not held has been released once
    have hzero : ¬ 0 < _ := fun hpos => hnot ((hheld t).mpr hpos)
    have hcreated : s.created.count t = 1 :=
      List.count_eq_one_of_mem hs.conserved.created_nodup ht
    have hchannel := hs.conserved.channel t
    have hunopened := hs.conserved.unopened t
    have hdescriptor := hs.conserved.descriptor t
    simp only [view] at hchannel hunopened hdescriptor
    omega
  · exact fun t => ⟨(hs.channelFirst t).2, (hs.channelFirst t).1⟩
  · exact hcleared

/-- **The lifecycle of timers**, in every run in which no callback of a timer throws. -/
theorem lifecycle_of_run {clock : TimerId} {is : List TimerStep}
    (hrun : Transition.run step (create clock) is = some s) (hthrow : .callbackThrow ∉ is) :
    s.Lifecycle := by
  have hinv : s.view.Sound ∧ s.Spent ∧ s.Cleared := by
    refine Transition.run_invariant_of (P := (· ≠ .callbackThrow))
      (I := fun s => s.view.Sound ∧ s.Spent ∧ s.Cleared) ?_ ?_ ?_ hrun
    · rintro s i s' ⟨hs, hspent, hcleared⟩ hi hstep
      exact ⟨step_sound hs hstep, step_spent hspent hs hi hstep, step_cleared hcleared hstep⟩
    · exact ⟨create_sound clock, create_spent clock, fun hpc => by cases hpc⟩
    · rintro i hi rfl
      exact hthrow hi
  exact lifecycle_of_sound hinv.1 hinv.2.1 hinv.2.2

/-- A one-shot timer that is called, and removes itself. -/
theorem lifecycle_oneshot :
    ∃ s : TimerSystem, s.trace = [.channelCreated ⟨0, false, 7⟩, .called ⟨0, false, 7⟩,
      .found 1 ⟨0, false, 7⟩, .channelReleased ⟨0, false, 7⟩, .descriptorReleased ⟨0, false, 7⟩,
      .removed 1] ∧ s.Lifecycle := by
  have hrun : ∃ s, Transition.run step (create 1) [.addOneshotTimer 7,
      .queueTimer ⟨0, false, 7⟩, .startLoop, .next .stored, .poll [], .swap, .next .stored,
      .next .stored, .expire ⟨0, false, 7⟩, .poll [(⟨0, false, 7⟩, EPOLLIN)], .dispatch,
      .callbackReturn, .swap, .next .stored] = some s ∧
        s.trace = [.channelCreated ⟨0, false, 7⟩, .called ⟨0, false, 7⟩, .found 1 ⟨0, false, 7⟩,
          .channelReleased ⟨0, false, 7⟩, .descriptorReleased ⟨0, false, 7⟩, .removed 1] :=
    ⟨_, rfl, rfl⟩
  obtain ⟨s, hrun, htrace⟩ := hrun
  exact ⟨s, htrace, lifecycle_of_run hrun (by simp)⟩

end TimerSystem

end SimpleTcp
