import Mathlib.Logic.Function.Basic
import SimpleTcp.Library.Fifo
import SimpleTcp.Library.Transition
import SimpleTcp.Net.EventLoop

/-!
# The cycle of an event loop

A loop polls, dispatches the channels that were reported and runs the tasks that wait, while any
thread may queue a task. `queueInLoop` appends to `mPendingTasks` and writes to the eventfd under
`mMutex`; `doPendingTasks` swaps the vector out under `mMutex` and runs it without; `poll` and the
read of the eventfd take no lock. Each of these is a step of its own, so that the threads
interleave between any two of them.

The callbacks of channels and the tasks are code of the user: while one runs, the thread of the loop
may queue tasks like any other. An exception that leaves `startLoop` ends the thread of the loop.

## Main definitions

* `LoopCycle`: the loop, the threads inside `queueInLoop`, and what was queued and executed so far
* `CycleStep`, `LoopCycle.step`: the steps
* `LoopCycle.queue`: the FIFO a state stands for
* `LoopCycle.ExactlyOnce`: the tasks run once each, in the order in which they were queued
* `LoopCycle.WillWake`: the eventfd is readable, or is about to be written

## Main results

* `queue_step`: a step pushes a task, pops one, or leaves the queue as it is
* `exactlyOnce_of_run`: tasks run exactly once and in order, unless one throws
* `willWake_polling`: the loop does not sleep on a task
-/

namespace SimpleTcp

/-- Where a thread is in `queueInLoop`. -/
inductive CallerPc (α : Type) where
  | outside
  /-- `mMutex` is locked, and the task comes next. -/
  | locked (task : α)
  /-- The task is in `mPendingTasks`, and `wakeup()` comes next. -/
  | emplaced
  /-- The eventfd is written, and `mMutex` is released next. -/
  | woken

/-- A channel that `poll` has reported: the wake-up channel, or one of the user. -/
inductive ActiveChannel where
  | wakeup
  | user
  deriving DecidableEq, Repr

/-- Where the thread of the loop is. -/
inductive LoopPc (α : Type) where
  /-- Before `startLoop`, or after it has returned. -/
  | stopped
  /-- `mpPoller->poll()` comes next. -/
  | polling
  /-- The channels that are left of those reported. -/
  | dispatching (active : List ActiveChannel)
  /-- In the callback of a channel. -/
  | handling (active : List ActiveChannel)
  /-- In `doPendingTasks`, before the lock. -/
  | swapping
  /-- In `doPendingTasks`, with the rest of the batch, or at the test of `mIsExit` behind it. -/
  | running (tasks : List α)
  /-- In a task. -/
  | inTask (tasks : List α)
  /-- An exception has left `startLoop`. -/
  | unwound

/-- The tasks of the batch that have not been called. -/
def LoopPc.batch {α : Type} : LoopPc α → List α
  | .running tasks | .inTask tasks => tasks
  | _ => []

/-- Code of the user runs in the thread of the loop. -/
def LoopPc.isUser {α : Type} : LoopPc α → Bool
  | .stopped | .handling _ | .inTask _ | .unwound => true
  | _ => false

/-- The thread of the loop polls before it takes the next batch. -/
def LoopPc.isAhead {α : Type} : LoopPc α → Bool
  | .stopped | .polling | .running _ | .inTask _ => true
  | _ => false

def CallerPc.isOutside {α : Type} : CallerPc α → Bool
  | .outside => true
  | _ => false

/-- `queued` are the tasks in the order in which they were appended under `mMutex`, `executed` those
called so far, and `swapped` those that were queued when the last batch was taken out. -/
structure LoopCycle (α : Type) where
  thread : ThreadId
  pc : LoopPc α
  callers : ThreadId → CallerPc α
  mMutex : Option ThreadId
  mPendingTasks : List α
  /-- The counter of the eventfd. -/
  counter : Nat
  mIsExit : Bool
  queued : List α
  executed : List α
  swapped : List α

/-- A step of the thread of the loop. -/
inductive LoopStep where
  | startLoop
  /-- `epoll_wait` reports the channels, none when the time is out. -/
  | poll (active : List ActiveChannel)
  /-- The next channel, or the end of the dispatch. -/
  | dispatch
  | handlerReturn
  | handlerThrow
  /-- `std::swap(pendingTasks, mPendingTasks)`, under the lock. -/
  | swap
  /-- The next task, or the end of `doPendingTasks` and the test of `mIsExit`. -/
  | next
  | taskReturn
  | taskThrow
  deriving DecidableEq, Repr

/-- A step of the loop, or of a thread in `queueInLoop` or `quitLoop`. -/
inductive CycleStep (α : Type) where
  | loop (i : LoopStep)
  | lock (t : ThreadId) (task : α)
  | emplaceBack (t : ThreadId)
  | wakeup (t : ThreadId)
  | unlock (t : ThreadId)
  /-- A thread without a loop also writes to the eventfd. -/
  | quitLoop (isInLoopThread : Bool)

namespace LoopCycle

open Function (update)

variable {α : Type}

/-- `EventLoop::EventLoop`, on the thread. -/
def create (thread : ThreadId) : LoopCycle α where
  thread := thread
  pc := .stopped
  callers := fun _ => .outside
  mMutex := none
  mPendingTasks := []
  counter := 0
  mIsExit := true
  queued := []
  executed := []
  swapped := []

/-- A thread may call `queueInLoop`: the thread of the loop only from code of the user. -/
def MayCall (s : LoopCycle α) (t : ThreadId) : Prop :=
  (s.callers t).isOutside = true ∧ (t = s.thread → s.pc.isUser = true)

instance (s : LoopCycle α) (t : ThreadId) : Decidable (s.MayCall t) :=
  inferInstanceAs (Decidable (_ ∧ _))

/-- What `epoll_wait` may report, level-triggered: the wake-up channel only when the eventfd is
readable, and something when it is. -/
def Reports (s : LoopCycle α) (active : List ActiveChannel) : Prop :=
  active.count .wakeup ≤ 1 ∧ (.wakeup ∈ active → 0 < s.counter) ∧ (active = [] → s.counter = 0)

instance (s : LoopCycle α) (active : List ActiveChannel) : Decidable (s.Reports active) :=
  inferInstanceAs (Decidable (_ ∧ _ ∧ _))

/-- A step of `startLoop` and `doPendingTasks`. The read of an eventfd whose counter is 0 fails,
and its exception leaves `startLoop`. -/
def loopStep (s : LoopCycle α) : LoopStep → Option (LoopCycle α)
  | .startLoop =>
    match s.pc with
    -- the test of `mIsExit` comes next, as it does after a batch
    | .stopped => some { s with pc := .running [], mIsExit := false }
    | _ => none
  | .poll active =>
    match s.pc with
    | .polling => if s.Reports active then some { s with pc := .dispatching active } else none
    | _ => none
  | .dispatch =>
    match s.pc with
    -- every channel is handled, and `doPendingTasks` is next
    | .dispatching [] => some { s with pc := .swapping }
    | .dispatching (.wakeup :: active) =>
      -- a read takes the whole counter
      if s.counter = 0 then some { s with pc := .unwound }
      else some { s with pc := .dispatching active, counter := 0 }
    | .dispatching (.user :: active) => some { s with pc := .handling active }
    | _ => none
  | .handlerReturn =>
    match s.pc with
    | .handling active => some { s with pc := .dispatching active }
    | _ => none
  | .handlerThrow =>
    match s.pc with
    | .handling _ => some { s with pc := .unwound }
    | _ => none
  | .swap =>
    match s.pc with
    | .swapping =>
      if s.mMutex = none then
        -- what is queued from here on waits for the next turn of the loop
        some { s with pc := .running s.mPendingTasks, mPendingTasks := [], swapped := s.queued }
      else none
    | _ => none
  | .next =>
    match s.pc with
    | .running (task :: tasks) =>
      some { s with pc := .inTask tasks, executed := s.executed ++ [task] }
    | .running [] => some { s with pc := if s.mIsExit then .stopped else .polling }
    | _ => none
  | .taskReturn =>
    match s.pc with
    | .inTask tasks => some { s with pc := .running tasks }
    | _ => none
  | .taskThrow =>
    match s.pc with
    | .inTask _ => some { s with pc := .unwound }
    | _ => none

/-- The task that a step of the loop calls. -/
def called (s : LoopCycle α) : LoopStep → Option α
  | .next =>
    match s.pc with
    | .running (task :: _) => some task
    | _ => none
  | _ => none

/-- The thread of the loop goes on when it is not inside `queueInLoop`. -/
def step (s : LoopCycle α) : CycleStep α → Option (LoopCycle α)
  | .loop i => if (s.callers s.thread).isOutside then s.loopStep i else none
  | .lock t task =>
    if s.mMutex = none ∧ s.MayCall t then
      some { s with mMutex := some t, callers := update s.callers t (.locked task) }
    else none
  | .emplaceBack t =>
    match s.callers t with
    | .locked task =>
      some { s with
        callers := update s.callers t .emplaced
        mPendingTasks := s.mPendingTasks ++ [task]
        queued := s.queued ++ [task] }
    | _ => none
  | .wakeup t =>
    match s.callers t with
    | .emplaced => some { s with callers := update s.callers t .woken, counter := s.counter + 1 }
    | _ => none
  | .unlock t =>
    match s.callers t with
    | .woken => some { s with callers := update s.callers t .outside, mMutex := none }
    | _ => none
  | .quitLoop isInLoopThread =>
    some { s with
      mIsExit := true
      counter := if isInLoopThread then s.counter else s.counter + 1 }

/-! ## The tasks of a loop as a queue -/

/-- The queue a state stands for: the tasks called, and those that wait. -/
def queue (s : LoopCycle α) : Fifo.Queue α := ⟨s.executed, s.pc.batch ++ s.mPendingTasks⟩

/-- What a step of the loop does to its tasks. -/
inductive Moves (s s' : LoopCycle α) : Prop where
  | quiet (executed : s'.executed = s.executed) (batch : s'.pc.batch = s.pc.batch)
      (pending : s'.mPendingTasks = s.mPendingTasks) (swapped : s'.swapped = s.swapped)
  /-- The waiting tasks become the batch. -/
  | swap (free : s.mMutex = none) (executed : s'.executed = s.executed) (empty : s.pc.batch = [])
      (batch : s'.pc.batch = s.mPendingTasks) (pending : s'.mPendingTasks = [])
      (swapped : s'.swapped = s.queued)
  /-- The first task of the batch is called. -/
  | call (task : α) (executed : s'.executed = s.executed ++ [task])
      (batch : s.pc.batch = task :: s'.pc.batch) (pending : s'.mPendingTasks = s.mPendingTasks)
      (swapped : s'.swapped = s.swapped)

variable {s s' : LoopCycle α} {t : ThreadId}

theorem loopStep_frame {i : LoopStep} (h : s.loopStep i = some s') :
    s'.thread = s.thread ∧ s'.callers = s.callers ∧ s'.mMutex = s.mMutex ∧
      s'.queued = s.queued := by
  cases i
  all_goals
    simp only [loopStep] at h
    repeat' split at h
    all_goals cases h
    all_goals exact ⟨rfl, rfl, rfl, rfl⟩

theorem loopStep_of_step {i : LoopStep} (h : s.step (.loop i) = some s') :
    s.loopStep i = some s' := by
  simp only [step] at h
  split at h
  · exact h
  · cases h

theorem loopStep_executed {i : LoopStep} (h : s.loopStep i = some s') :
    s'.executed = s.executed ++ (s.called i).toList := by
  cases i with
  | next =>
    simp only [loopStep] at h
    split at h <;> cases h
    · next hpc => simp only [called, hpc, Option.toList_some]
    · next hpc => simp only [called, hpc, Option.toList_none, List.append_nil]
  | startLoop | poll | dispatch | handlerReturn | handlerThrow | swap | taskReturn | taskThrow =>
    simp only [loopStep] at h
    repeat' split at h
    all_goals cases h
    all_goals exact (List.append_nil _).symm

/-- A step of the loop calls the next task, takes the next batch, or leaves the tasks alone. -/
theorem loopStep_moves {i : LoopStep} (h : s.loopStep i = some s') (hi : i ≠ .taskThrow) :
    s.Moves s' := by
  cases i with
  | startLoop | poll | dispatch | handlerReturn | handlerThrow | taskReturn =>
    -- the program point before and the one after hold the same tasks
    simp only [loopStep] at h
    repeat' split at h
    all_goals cases h
    all_goals exact .quiet rfl (by rw [‹s.pc = _›]; rfl) rfl rfl
  | swap =>
    simp only [loopStep] at h
    split at h
    · next hpc =>
      split at h
      · next hfree =>
        cases h
        exact .swap hfree rfl (by rw [hpc]; rfl) rfl rfl rfl
      · cases h
    · cases h
  | next =>
    simp only [loopStep] at h
    split at h
    · next task tasks hpc =>
      cases h
      exact .call task rfl (by rw [hpc]; rfl) rfl rfl
    · next hpc =>
      cases h
      refine .quiet rfl ?_ rfl rfl
      rw [hpc]
      change LoopPc.batch (if s.mIsExit then .stopped else .polling) = []
      split <;> rfl
    · cases h
  | taskThrow => exact absurd rfl hi

/-- A step of the loop pops the queue, or leaves it as it is: a batch is still waiting. -/
theorem Moves.queue (hm : s.Moves s') : s'.queue = s.queue ∨ s'.queue = s.queue.pop 1 := by
  cases hm with
  | quiet executed batch pending _ =>
    left
    rw [LoopCycle.queue, LoopCycle.queue, executed, batch, pending]
  | swap _ executed empty batch pending _ =>
    left
    rw [LoopCycle.queue, LoopCycle.queue, executed, batch, pending, empty, List.append_nil,
      List.nil_append]
  | call task executed batch pending _ =>
    right
    rw [LoopCycle.queue, LoopCycle.queue, executed, batch, pending]
    rfl

/-- **A step as one of the queue**: it pushes the task that it records as queued, it pops one, or it
leaves the queue as it is. -/
theorem queue_step {i : CycleStep α} (hi : i ≠ .loop .taskThrow) (h : s.step i = some s') :
    (s'.queued = s.queued ∧ (s'.queue = s.queue ∨ s'.queue = s.queue.pop 1)) ∨
      ∃ task, s'.queued = s.queued ++ [task] ∧ s'.queue = s.queue.push [task] := by
  cases i with
  | loop i =>
    have hloop := loopStep_of_step h
    obtain ⟨-, -, -, hqueued⟩ := loopStep_frame hloop
    exact .inl ⟨hqueued, (loopStep_moves hloop fun hthrow => hi (hthrow ▸ rfl)).queue⟩
  | emplaceBack t =>
    simp only [step] at h
    split at h <;> cases h
    next task _ =>
    refine .inr ⟨task, rfl, ?_⟩
    change Fifo.Queue.mk s.executed (s.pc.batch ++ (s.mPendingTasks ++ [task])) = _
    rw [← List.append_assoc]
    rfl
  | lock t task | wakeup t | unlock t =>
    simp only [step] at h
    split at h <;> cases h
    exact .inl ⟨rfl, .inl rfl⟩
  | quitLoop isInLoopThread =>
    cases h
    exact .inl ⟨rfl, .inl rfl⟩

/-! ## Exactly once -/

/-- What the steps keep while no task throws. -/
structure Ordered (s : LoopCycle α) : Prop where
  all_eq : s.queue.all = s.queued
  swapped_eq : s.executed ++ s.pc.batch = s.swapped

/-- Each task is called once, in the order in which the tasks were queued. -/
structure ExactlyOnce (s : LoopCycle α) : Prop where
  /-- The tasks called are the first of those queued. -/
  executed_prefix : s.executed <+: s.queued
  /-- A task that was queued has been called, is in the batch or waits, and is there once. -/
  conserved : s.executed ++ s.pc.batch ++ s.mPendingTasks = s.queued
  /-- Only tasks that were queued before the batch was taken out have been called. -/
  batched : s.executed <+: s.swapped ∧ s.swapped <+: s.queued
  /-- They have all been called when `doPendingTasks` is done. -/
  returned : s.pc.batch = [] → s.executed = s.swapped

theorem create_ordered (thread : ThreadId) : (create thread : LoopCycle α).Ordered := ⟨rfl, rfl⟩

theorem Ordered.exactlyOnce (h : s.Ordered) : s.ExactlyOnce := by
  have hall : s.executed ++ (s.pc.batch ++ s.mPendingTasks) = s.queued := h.all_eq
  constructor
  · exact ⟨_, hall⟩
  · rw [List.append_assoc, hall]
  · refine ⟨⟨_, h.swapped_eq⟩, s.mPendingTasks, ?_⟩
    rw [← h.swapped_eq, List.append_assoc, hall]
  · intro hbatch
    rw [← h.swapped_eq, hbatch, List.append_nil]

/-- The tasks called and the batch are those of the last swap. -/
theorem Moves.swapped_eq (hm : s.Moves s') (h : s.Ordered) :
    s'.executed ++ s'.pc.batch = s'.swapped := by
  cases hm with
  | quiet executed batch _ swapped => rw [executed, batch, swapped, h.swapped_eq]
  | swap _ executed empty batch _ swapped =>
    have hall : s.executed ++ (s.pc.batch ++ s.mPendingTasks) = s.queued := h.all_eq
    rw [executed, batch, swapped, ← hall, empty, List.nil_append]
  | call task executed batch _ swapped =>
    rw [executed, swapped, ← h.swapped_eq, batch, List.append_assoc, List.singleton_append]

theorem step_swapped_eq {i : CycleStep α} (h : s.Ordered) (hi : i ≠ .loop .taskThrow)
    (hstep : s.step i = some s') : s'.executed ++ s'.pc.batch = s'.swapped := by
  cases i with
  | loop i =>
    have hmoves := loopStep_moves (loopStep_of_step hstep) fun hthrow => hi (hthrow ▸ rfl)
    exact hmoves.swapped_eq h
  | lock t task | emplaceBack t | wakeup t | unlock t =>
    simp only [step] at hstep
    split at hstep <;> cases hstep
    exact h.swapped_eq
  | quitLoop isInLoopThread =>
    cases hstep
    exact h.swapped_eq

theorem step_ordered {i : CycleStep α} (h : s.Ordered) (hi : i ≠ .loop .taskThrow)
    (hstep : s.step i = some s') : s'.Ordered := by
  refine ⟨?_, step_swapped_eq h hi hstep⟩
  rcases queue_step hi hstep with ⟨hqueued, hq | hq⟩ | ⟨task, hqueued, hq⟩
  · rw [hq, hqueued, h.all_eq]
  · rw [hq, hqueued, Fifo.Queue.all_pop, h.all_eq]
  · rw [hq, hqueued, Fifo.Queue.all_push, h.all_eq]

/-- Until the next swap, the batch stays the one that was taken out. -/
theorem step_swapped {i : CycleStep α} (hi : i ≠ .loop .swap) (hstep : s.step i = some s') :
    s'.swapped = s.swapped := by
  cases i with
  | loop i =>
    have hloop := loopStep_of_step hstep
    cases i with
    | swap => exact absurd rfl hi
    | startLoop | poll | dispatch | handlerReturn | handlerThrow | next | taskReturn | taskThrow =>
      simp only [loopStep] at hloop
      repeat' split at hloop
      all_goals cases hloop
      all_goals rfl
  | lock t task | emplaceBack t | wakeup t | unlock t =>
    simp only [step] at hstep
    split at hstep <;> cases hstep
    rfl
  | quitLoop isInLoopThread =>
    cases hstep
    rfl

theorem loopStep_unwound {i : LoopStep} (hpc : s.pc = .unwound) : s.loopStep i = none := by
  cases i <;> simp only [loopStep, hpc]

theorem step_executed_of_unwound {i : CycleStep α} (hpc : s.pc = .unwound)
    (hstep : s.step i = some s') :
    s'.pc = .unwound ∧ s'.executed = s.executed ∧ s.queued <+: s'.queued := by
  cases i with
  | loop i =>
    simp only [step, loopStep_unwound hpc, ite_self] at hstep
    cases hstep
  | emplaceBack t =>
    simp only [step] at hstep
    split at hstep <;> cases hstep
    exact ⟨hpc, rfl, List.prefix_append _ _⟩
  | lock t task | wakeup t | unlock t =>
    simp only [step] at hstep
    split at hstep <;> cases hstep
    exact ⟨hpc, rfl, List.prefix_refl _⟩
  | quitLoop isInLoopThread =>
    cases hstep
    exact ⟨hpc, rfl, List.prefix_refl _⟩

/-- A task that throws takes the rest of its batch with it. -/
theorem loopStep_taskThrow (h : s.loopStep .taskThrow = some s') :
    s'.pc = .unwound ∧ s'.executed = s.executed ∧ s'.queued = s.queued := by
  simp only [loopStep] at h
  split at h <;> cases h
  exact ⟨rfl, rfl, rfl⟩

/-- The tasks are in order, or one of them has thrown and no other is called. -/
def Tidy (s : LoopCycle α) : Prop := s.Ordered ∨ s.pc = .unwound ∧ s.executed <+: s.queued

theorem Tidy.executed_prefix (h : s.Tidy) : s.executed <+: s.queued := by
  rcases h with h | ⟨-, hprefix⟩
  · exact h.exactlyOnce.executed_prefix
  · exact hprefix

/-- The tasks called stay the first of those queued, also when a task throws. -/
theorem step_tidy {i : CycleStep α} (h : s.Tidy) (hstep : s.step i = some s') : s'.Tidy := by
  rcases h with h | ⟨hpc, hprefix⟩
  · by_cases hi : i = .loop .taskThrow
    · subst hi
      obtain ⟨hpc, hexecuted, hqueued⟩ := loopStep_taskThrow (loopStep_of_step hstep)
      refine .inr ⟨hpc, ?_⟩
      rw [hexecuted, hqueued]
      exact h.exactlyOnce.executed_prefix
    · exact .inl (step_ordered h hi hstep)
  · -- the loop calls nothing any more, and what waits stays queued
    obtain ⟨hpc', hexecuted, hqueued⟩ := step_executed_of_unwound hpc hstep
    refine .inr ⟨hpc', ?_⟩
    rw [hexecuted]
    exact hprefix.trans hqueued

section Runs

variable {thread : ThreadId} {is js : List (CycleStep α)}

theorem run_ordered (h : s.Ordered) (his : .loop .taskThrow ∉ is)
    (hrun : Transition.run step s is = some s') : s'.Ordered := by
  refine Transition.run_invariant_of (P := (· ≠ .loop .taskThrow)) ?_ h ?_ hrun
  · intro s i s' hs hi hstep
    exact step_ordered hs hi hstep
  · intro i hi hthrow
    exact his (hthrow ▸ hi)

/-- **`queueInLoop` is an exactly-once FIFO**: while no task throws, each task is called once, in
the order in which the tasks were queued, and until the next swap only tasks that are already queued
are called. -/
theorem exactlyOnce_of_run (hrun : Transition.run step (create thread) is = some s)
    (hthrow : .loop .taskThrow ∉ is) :
    s.ExactlyOnce ∧
      ∀ js s', Transition.run step s js = some s' → .loop .taskThrow ∉ js → .loop .swap ∉ js →
        s'.executed <+: s.queued := by
  have hs := run_ordered (create_ordered thread) hthrow hrun
  refine ⟨hs.exactlyOnce, fun js s' hjs hthrow' hswap => ?_⟩
  have hsame : s'.swapped = s.swapped := by
    refine Transition.run_invariant_of (P := (· ≠ .loop .swap))
      (I := fun s' => s'.swapped = s.swapped) ?_ rfl ?_ hjs
    · intro s₁ i s₂ h₁ hi hstep
      rw [step_swapped hi hstep, h₁]
    · intro i hi hswap'
      exact hswap (hswap' ▸ hi)
  have hbatched := (run_ordered hs hthrow' hjs).exactlyOnce.batched.1
  rw [hsame] at hbatched
  exact hbatched.trans hs.exactlyOnce.batched.2

/-- Two tasks, the second queued by the first from the thread of the loop. -/
theorem exactlyOnce_nested :
    ∃ s : LoopCycle Nat, s.executed = [7] ∧ s.mPendingTasks = [8] ∧ s.ExactlyOnce := by
  have hrun : ∃ s, Transition.run step (create 0) [.lock 1 7, .emplaceBack 1, .wakeup 1, .unlock 1,
      .loop .startLoop, .loop .next, .loop (.poll [.wakeup]), .loop .dispatch, .loop .dispatch,
      .loop .swap, .loop .next, .lock 0 8, .emplaceBack 0] = some s ∧ s.executed = [7] ∧
        s.mPendingTasks = [8] :=
    ⟨_, rfl, rfl, rfl⟩
  obtain ⟨s, hrun, hexecuted, hpending⟩ := hrun
  exact ⟨s, hexecuted, hpending, (exactlyOnce_of_run hrun (by simp)).1⟩

end Runs

/-! ## Waking up -/

/-- The eventfd is readable, so that `poll` does not time out; or a thread that holds `mMutex` has
queued its task and writes to the eventfd in its next step. -/
def WillWake (s : LoopCycle α) : Prop :=
  (0 < s.counter ∧ s.step (.loop (.poll [])) = none) ∨
    ∃ t s', s.mMutex = some t ∧ s.step (.wakeup t) = some s' ∧ 0 < s'.counter

/-- The eventfd is readable, or a thread is about to write it. -/
def Signalled (s : LoopCycle α) : Prop := 0 < s.counter ∨ ∃ t, (s.callers t) = .emplaced

/-- What the steps keep. Between the read of the eventfd and the swap a task may wait without a
signal; the swap takes it. -/
structure Awake (s : LoopCycle α) : Prop where
  holder : ∀ t, (s.callers t).isOutside = false → s.mMutex = some t
  signalled : s.pc.isAhead = true → s.mPendingTasks ≠ [] → s.Signalled

theorem create_awake (thread : ThreadId) : (create thread : LoopCycle α).Awake where
  holder := fun _ h => by cases h
  signalled := fun _ h => absurd rfl h

theorem loopStep_awake {i : LoopStep} (h : s.Awake) (hstep : s.loopStep i = some s') :
    s'.Awake := by
  obtain ⟨-, hcallers, hmutex, -⟩ := loopStep_frame hstep
  refine ⟨fun t ht => ?_, ?_⟩
  · rw [hcallers] at ht
    rw [hmutex, h.holder t ht]
  cases i with
  | swap =>
    simp only [loopStep] at hstep
    split at hstep
    · split at hstep <;> cases hstep
      intro _ hpending
      exact absurd rfl hpending
    · cases hstep
  | startLoop | next | taskReturn =>
    -- the loop stays ahead of its poll, and neither the tasks nor the counter change
    simp only [loopStep] at hstep
    repeat' split at hstep
    all_goals cases hstep
    all_goals
      intro _ hpending
      exact h.signalled (by rw [‹s.pc = _›]; rfl) hpending
  | poll | dispatch | handlerReturn | handlerThrow | taskThrow =>
    simp only [loopStep] at hstep
    repeat' split at hstep
    all_goals cases hstep
    all_goals
      intro hahead
      cases hahead

/-- A thread inside `queueInLoop` after another has moved is that other or was inside before. -/
theorem Awake.holder_update (h : s.Awake) {pc : CallerPc α} {u : ThreadId}
    (hu : (update s.callers t pc u).isOutside = false) : u = t ∨ s.mMutex = some u := by
  by_cases hut : u = t
  · exact .inl hut
  · rw [Function.update_of_ne hut] at hu
    exact .inr (h.holder u hu)

/-- A thread inside `queueInLoop` is there alone. -/
theorem Awake.alone (h : s.Awake) (ht : (s.callers t).isOutside = false) {u : ThreadId}
    (hu : s.mMutex = some u) : u = t := by
  rw [h.holder t ht] at hu
  exact (Option.some.inj hu).symm

theorem Awake.holder_of_inside (h : s.Awake) (ht : (s.callers t).isOutside = false)
    {pc : CallerPc α} {u : ThreadId} (hu : (update s.callers t pc u).isOutside = false) :
    s.mMutex = some u := by
  rcases h.holder_update hu with hut | hheld
  · exact hut ▸ h.holder t ht
  · exact hheld

/-- Only the thread that holds `mMutex` may be about to write the eventfd. -/
theorem Awake.counter_pos (h : s.Awake) (hs : s.Signalled)
    (hnot : ∀ u, s.mMutex = some u → s.callers u ≠ .emplaced) : 0 < s.counter := by
  rcases hs with hc | ⟨u, hu⟩
  · exact hc
  · exact absurd hu (hnot u (h.holder u (by rw [hu]; rfl)))

theorem step_awake {i : CycleStep α} (h : s.Awake) (hstep : s.step i = some s') : s'.Awake := by
  cases i with
  | loop i => exact loopStep_awake h (loopStep_of_step hstep)
  | lock t task =>
    simp only [step] at hstep
    split at hstep
    · next hfree =>
      cases hstep
      constructor
      · intro u hu
        rcases h.holder_update hu with hut | hheld
        · exact hut ▸ rfl
        · rw [hfree.1] at hheld
          cases hheld
      · -- nobody held the mutex, so the signal is in the counter
        intro hahead hpending
        apply Or.inl
        apply h.counter_pos (h.signalled hahead hpending)
        intro u hu
        rw [hfree.1] at hu
        cases hu
    · cases hstep
  | emplaceBack t =>
    simp only [step] at hstep
    split at hstep <;> cases hstep
    next task ht =>
    refine ⟨fun u hu => ?_, fun _ _ => .inr ⟨t, Function.update_self t _ _⟩⟩
    exact h.holder_of_inside (by rw [ht]; rfl) hu
  | wakeup t =>
    simp only [step] at hstep
    split at hstep <;> cases hstep
    next ht =>
    refine ⟨fun u hu => ?_, fun _ _ => .inl (Nat.succ_pos _)⟩
    exact h.holder_of_inside (by rw [ht]; rfl) hu
  | unlock t =>
    simp only [step] at hstep
    split at hstep <;> cases hstep
    next ht =>
    have hinside : (s.callers t).isOutside = false := by rw [ht]; rfl
    constructor
    · intro u hu
      have hut : u = t := h.alone hinside (h.holder_of_inside hinside hu)
      subst hut
      have hout : (update s.callers u CallerPc.outside u).isOutside = false := hu
      rw [Function.update_self] at hout
      cases hout
    · -- the thread that releases the mutex has written the eventfd before
      intro hahead hpending
      apply Or.inl
      apply h.counter_pos (h.signalled hahead hpending)
      intro u hu
      rw [h.alone hinside hu, ht]
      simp
  | quitLoop isInLoopThread =>
    cases hstep
    refine ⟨h.holder, fun hahead hpending => ?_⟩
    rcases h.signalled hahead hpending with hc | hwrites
    · left
      show 0 < if isInLoopThread then s.counter else s.counter + 1
      split <;> omega
    · exact .inr hwrites

theorem Awake.willWake (h : s.Awake) (hahead : s.pc.isAhead = true)
    (hpending : s.mPendingTasks ≠ []) : s.WillWake := by
  rcases h.signalled hahead hpending with hc | ⟨t, ht⟩
  · refine .inl ⟨hc, ?_⟩
    have hnot : ¬ s.Reports [] := fun hr => by
      have := hr.2.2 rfl
      omega
    simp only [step, loopStep, if_neg hnot]
    repeat' split
    all_goals rfl
  · have hwrite : s.step (.wakeup t) =
        some { s with callers := update s.callers t .woken, counter := s.counter + 1 } := by
      simp only [step, ht]
    exact .inr ⟨t, _, h.holder t (by rw [ht]; rfl), hwrite, Nat.succ_pos _⟩

/-- **No wakeup is lost**: when the loop enters `poll` with a task waiting, it is woken. -/
theorem willWake_polling {thread : ThreadId} {is : List (CycleStep α)}
    (hrun : Transition.run step (create thread) is = some s) (hpc : s.pc = .polling)
    (hpending : s.mPendingTasks ≠ []) : s.WillWake := by
  have hawake : s.Awake :=
    Transition.run_invariant (fun _ _ _ h hstep => step_awake h hstep) (create_awake thread) hrun
  exact hawake.willWake (by rw [hpc]; rfl) hpending

/-- A task that is queued between the read of the eventfd and the end of the batch. -/
theorem willWake_polling_late :
    ∃ s : LoopCycle Nat, s.pc = .polling ∧ s.mPendingTasks = [7] ∧ s.WillWake := by
  have hrun : ∃ s, Transition.run step (create 0) [.loop .startLoop, .loop .next, .loop (.poll []),
      .loop .dispatch, .loop .swap, .lock 1 7, .emplaceBack 1, .wakeup 1, .unlock 1, .loop .next] =
        some s ∧ s.pc = .polling ∧ s.mPendingTasks = [7] :=
    ⟨_, rfl, rfl, rfl⟩
  obtain ⟨s, hrun, hpc, hpending⟩ := hrun
  exact ⟨s, hpc, hpending, willWake_polling hrun hpc (by simp [hpending])⟩

/-- The loop enters `poll` between the `emplace_back` of another thread and its write. -/
theorem not_readable_polling :
    ¬ ∀ (thread : ThreadId) (is : List (CycleStep Nat)) (s : LoopCycle Nat),
        Transition.run step (create thread) is = some s → s.pc = .polling →
          s.mPendingTasks ≠ [] → 0 < s.counter := by
  intro h
  have hzero := h 0 [.loop .startLoop, .lock 1 7, .emplaceBack 1, .loop .next] _ rfl rfl
    (List.cons_ne_nil 7 [])
  exact absurd hzero (Nat.lt_irrefl 0)

end LoopCycle

end SimpleTcp
