import SimpleTcp.Tcp.References

/-!
# Tasks that outlive their connection

A task of `send`, `sendString` or `shutdownConnection` captures `this` and nothing else. It waits
for the batch after the one that is called, and a connection that goes before is called when it is
gone: the close task of a server may hold the last reference that is left when a thread has sent and
released its copy. As long as no step gives up the last references to a connection of which such a
task waits, every task finds its connection.

## Main definitions

* `Fresh`: every task that was called has found its connection
* `SparesTasks`: the step gives up the last references to no connection of which a task waits
* `TasksAlive`: every connection of which a task waits is there
* `Quiet`, `TaskMove`: what a step does to the tasks

## Main results

* `always_fresh`: steps that spare the tasks call no task of a connection that is gone
* `not_fresh_sentAfterClose`: a connection that goes before a task of `send`
-/

namespace SimpleTcp

namespace LoopObjects

open Transition (Along Always always_of_along)
open Function (update)

variable {s s' : LoopObjects} {c : ℕ}

/-- Every task that was called has found its connection. -/
def Fresh (s : LoopObjects) : Prop := ∀ entry ∈ s.trace, entry.2 = true

/-- The step gives up the last references to the connection. -/
def Drops (s : LoopObjects) (i : LifeStep) (c : ℕ) : Prop :=
  0 < s.refs c ∧ s.refs c ≤ s.givesUp i c

/-- The step does not give up the last references to a connection of which a task waits. -/
def SparesTasks (s : LoopObjects) (i : LifeStep) : Prop :=
  ∀ task ∈ s.tasks, ∀ c ∈ task.captured, ¬ s.Drops i c

instance (s : LoopObjects) : Decidable s.Fresh :=
  inferInstanceAs (Decidable (∀ entry ∈ s.trace, entry.2 = true))

instance (s : LoopObjects) (i : LifeStep) (c : ℕ) : Decidable (s.Drops i c) :=
  inferInstanceAs (Decidable (0 < s.refs c ∧ s.refs c ≤ s.givesUp i c))

instance (s : LoopObjects) (i : LifeStep) : Decidable (s.SparesTasks i) :=
  inferInstanceAs (Decidable (∀ task ∈ s.tasks, ∀ c ∈ task.captured, ¬ s.Drops i c))

/-- Every connection of which a task waits is there. -/
def TasksAlive (s : LoopObjects) : Prop := ∀ task ∈ s.tasks, ∀ c ∈ task.captured, 0 < s.refs c

/-! ## Tasks -/

theorem tasks_queueInLoop (task : LifeTask) : (s.queueInLoop task).tasks = s.tasks ++ [task] := by
  simp only [tasks, queueInLoop_pc, queueInLoop_mPendingTasks, List.append_assoc]

/-- No task that captures a connection is queued, and none is called. -/
structure Quiet (s s' : LoopObjects) : Prop where
  tasks : ∀ task ∈ s'.tasks, task.captured ≠ none → task ∈ s.tasks
  trace : s'.trace = s.trace

namespace Quiet

theorem of_eq (hpc : s'.pc.tasks = s.pc.tasks) (hpending : s'.mPendingTasks = s.mPendingTasks)
    (htrace : s'.trace = s.trace) : Quiet s s' := by
  refine ⟨fun task htask _ => ?_, htrace⟩
  rwa [LoopObjects.tasks, hpc, hpending] at htask

theorem refl : Quiet s s := .of_eq rfl rfl rfl

theorem trans {s₁ : LoopObjects} (h : Quiet s s₁) (h₁ : Quiet s₁ s') : Quiet s s' :=
  ⟨fun task htask hc => h.tasks task (h₁.tasks task htask hc) hc, h₁.trace.trans h.trace⟩

/-- A task that captures no connection is queued. -/
theorem queueInLoop {task : LifeTask} (h : task.captured = none) :
    Quiet s (s.queueInLoop task) := by
  refine ⟨fun task' htask' hcaptured => ?_, rfl⟩
  rw [tasks_queueInLoop, List.mem_append, List.mem_singleton] at htask'
  exact htask'.resolve_right fun heq => hcaptured (heq ▸ h)

theorem removeChannel (ref : ChannelRef) : Quiet s (s.removeChannel ref) :=
  .of_eq (by simp) (by simp) (by simp)

theorem resetConnection (k : ℕ) (client : ClientLife) :
    Quiet s (s.resetConnection k client) :=
  .of_eq (by simp) (by simp) (by simp)

theorem setClient (k : ℕ) (client : Option ClientLife) : Quiet s (s.setClient k client) :=
  .of_eq rfl rfl rfl

theorem startTimer {j : ℕ} {cb : TimerCallback} (h : s.startTimer j cb = some s') :
    Quiet s s' := by
  obtain ⟨-, rfl⟩ := startTimer_eq_some.mp h
  have hset : Quiet s { s with timers := update s.timers j (some cb) } := .of_eq rfl rfl rfl
  refine hset.trans (queueInLoop ?_)
  rfl

theorem doConnecting {k : ℕ} {client : ClientLife} {io : ConnectOutcome}
    (h : s.doConnecting k client io = some s') : Quiet s s' := by
  have hset := fun mConnSocket => (removeChannel (s := s) (.connect k)).trans
    (setClient k (some ⟨.connecting, mConnSocket, client.mConnection⟩))
  unfold LoopObjects.doConnecting at h
  cases io with
  | retry j mConnSocket => exact (hset mConnSocket).trans (startTimer h)
  | inProgress => exact (Option.some.inj h) ▸ (hset true).trans (.of_eq rfl rfl rfl)
  | connected =>
    obtain rfl := Option.some.inj h
    refine (hset true).trans (queueInLoop ?_)
    rfl

theorem doConnected {k : ℕ} {client : ClientLife} (h : s.doConnected k client c = some s') :
    Quiet s s' := by
  unfold LoopObjects.doConnected at h
  split_ifs at h
  obtain rfl := Option.some.inj h
  have hcreate : Quiet s ((s.removeChannel (.connect k)).createTcpConnection c (.client k) true) :=
    (removeChannel (.connect k)).trans (.of_eq rfl rfl rfl)
  exact (hcreate.trans (resetConnection k client)).trans (setClient k _)

theorem doDisconnected {k j : ℕ} {client : ClientLife}
    (h : s.doDisconnected k client j = some s') : Quiet s s' := by
  unfold LoopObjects.doDisconnected at h
  split at h
  next c _ =>
    split_ifs at h
    have hreset := (removeChannel (s := s) (.conn c)).trans (resetConnection k client)
    exact (hreset.trans (setClient k _)).trans (startTimer h)
  next => cases h

theorem transStateInLoop {k : ℕ} {newState : ClientState} {io : ObjectIo}
    (h : s.transStateInLoop k newState io = some s') : Quiet s s' := by
  cases enters_of_transStateInLoop h with
  | stays hclient hstays => exact refl
  | connecting hclient hstate hdo => exact doConnecting hdo
  | connected hclient hstate hdo => exact doConnected hdo
  | disconnect hclient hstate hdo => exact doDisconnected hdo
  | forceDisconnected hclient hstate => exact (setClient k _).trans (queueInLoop rfl)

theorem handleEvent {ref : ChannelRef} {active rest : List ChannelRef} {io : ObjectIo}
    {event : ChannelEvent} (hpc : s.pc = .dispatching rest)
    (h : s.handleEvent ref active io event = some s') : Quiet s s' := by
  have hcall : ∀ ref guard, Quiet s (s.setPc (.handling ref guard active)) :=
    fun ref guard => .of_eq (by rw [hpc]; rfl) rfl rfl
  cases handles_of_handleEvent h with
  | pass hpass => exact refl
  | retryLater hstart => exact startTimer hstart
  | accept hfresh => exact (hcall _ _).trans (.of_eq rfl rfl rfl)
  | connected => exact queueInLoop rfl
  | call => exact hcall _ _
  | timeout hcb => exact hcall _ _
  | retry hcb hretry => exact (transStateInLoop hretry).trans (queueInLoop rfl)

theorem handleClose {conn : ConnLife} (h : s.handleClose c conn = some s') : Quiet s s' := by
  have hset : Quiet s (s.setConn c { conn with disConnected := true }) := .of_eq rfl rfl rfl
  obtain ⟨task, rfl, k, ⟨-, rfl⟩ | ⟨-, rfl⟩⟩ := handleClose_cases h
  · exact hset.trans (queueInLoop rfl)
  · exact hset.trans (queueInLoop rfl)

theorem handlerReturn {ref : ChannelRef} {guard : Option ℕ} {active : List ChannelRef}
    (hpc : s.pc = .handling ref guard active)
    (h : s.handlerReturn ref guard active = some s') : Quiet s s' := by
  have hreturn : Quiet s (s.setPc (.dispatching active)) := .of_eq (by rw [hpc]; rfl) rfl rfl
  cases returns_of_handlerReturn h with
  | accepted hconn => exact hreturn.trans (.of_eq rfl rfl rfl)
  | called => exact hreturn.trans (.of_eq (by simp) (by simp) (by simp))
  | oneshot hcb => exact hreturn.trans (queueInLoop rfl)
  | timeout hcb => exact hreturn

theorem destroyServer (k : ℕ) : Quiet s (s.destroyServer k) := by
  unfold LoopObjects.destroyServer
  split_ifs <;> exact .of_eq rfl rfl rfl

end Quiet

/-- What a step does to the tasks that capture a connection: nothing, or it queues one whose
connection is there, or it calls one. -/
inductive TaskMove (s s' : LoopObjects) : Prop
  | quiet (h : Quiet s s')
  | queue (c : ℕ) (hpos : 0 < s'.refs c)
      (htasks : ∀ task ∈ s'.tasks, task ∈ s.tasks ∨ task.captured = some c)
      (htrace : s'.trace = s.trace)
  | call (task : LifeTask) (c : ℕ) (hc : task.captured = some c) (htask : task ∈ s.tasks)
      (htasks : ∀ task' ∈ s'.tasks, task' ∈ s.tasks)
      (htrace : s'.trace = s.trace ++ [(task, decide (0 < s.refs c))])

namespace TaskMove

/-- A task of a connection that is there is queued, after a step that queues none. -/
theorem queueInLoop {s₁ : LoopObjects} {task : LifeTask} (htasks : ∀ t ∈ s₁.tasks, t ∈ s.tasks)
    (htrace : s₁.trace = s.trace) (hc : task.captured = some c) (hpos : 0 < s₁.refs c) :
    TaskMove s (s₁.queueInLoop task) := by
  refine .queue c (hpos.trans_le (refs_queueInLoop task)) (fun task' htask' => ?_) htrace
  rw [tasks_queueInLoop, List.mem_append, List.mem_singleton] at htask'
  exact htask'.imp (htasks task') fun heq => by rw [heq, hc]

/-- The next task runs, after the step to it. -/
theorem runTask (ho : s.Owned) {called tasks : List LifeTask} {task : LifeTask} {io : ObjectIo}
    (hpc : s.pc = .running called (task :: tasks))
    (h : (s.setPc (.running (called ++ [task]) tasks)).runTask io task = some s') :
    TaskMove s s' := by
  -- the step to the task queues nothing, and gives up no reference
  have hsub : ∀ task' ∈ (s.setPc (.running (called ++ [task]) tasks)).tasks, task' ∈ s.tasks := by
    intro task' htask'
    simp only [LoopObjects.tasks, setPc_pc, setPc_mPendingTasks, hpc, LifePc.tasks,
      List.cons_append] at htask' ⊢
    exact List.mem_cons_of_mem task htask'
  have htask : task ∈ s.tasks := by
    simp only [LoopObjects.tasks, hpc, LifePc.tasks, List.cons_append, List.mem_cons, true_or]
  have hquiet : Quiet s (s.setPc (.running (called ++ [task]) tasks)) :=
    ⟨fun task' htask' _ => hsub task' htask', rfl⟩
  have hrefs : ∀ c, (s.setPc (.running (called ++ [task]) tasks)).refs c = s.refs c := by
    intro c
    refine refs_congr rfl ?_
    simp [guards, LoopObjects.tasks, hpc, LifePc.guard, LifePc.called, LifePc.tasks]
  cases task with
  -- these call the connection they were queued for
  | send c =>
    obtain rfl := Option.some.inj h
    exact .call _ c rfl htask hsub (by rw [called_trace, setPc_trace, hrefs])
  | shutdown c =>
    obtain rfl := Option.some.inj h
    exact .call _ c rfl htask hsub (by rw [called_trace, setPc_trace, hrefs])
  -- this one removes the channel of its connection
  | destroyConnection k c =>
    simp only [LoopObjects.runTask] at h
    split_ifs at h
    obtain rfl := Option.some.inj h
    have hremove := hquiet.trans (.removeChannel (.conn c))
    exact .quiet (hremove.trans (.of_eq (by simp) (by simp) (by simp)))
  | transState k newState => exact .quiet (hquiet.trans (.transStateInLoop h))
  -- the client holds its connection, so that the task it queues is not stale
  | shutdownConnection k =>
    simp only [LoopObjects.runTask] at h
    split at h
    next c hclient =>
      obtain rfl := Option.some.inj h
      have hpos : 0 < s.refs c := ho.refs_pos hclient rfl
      exact queueInLoop hsub rfl rfl (hrefs c ▸ hpos)
    next => cases h
  | addTimer j => exact (Option.some.inj h) ▸ .quiet (hquiet.trans (.of_eq rfl rfl rfl))
  | removeTimer j => exact (Option.some.inj h) ▸ .quiet (hquiet.trans (.removeChannel _))
  | functor => exact (Option.some.inj h) ▸ .quiet hquiet

theorem step (ho : s.Owned) {i : LifeStep} (h : s.step i = some s') : TaskMove s s' := by
  cases takes_of_step h with
  | send hconn hcopies =>
    refine queueInLoop (fun _ => id) rfl rfl ?_
    rw [refs_of_conn hconn]
    omega
  | shutdownConnection hrefs => exact queueInLoop (fun _ => id) rfl rfl hrefs
  | copy | releaseOutside | createServer | createClient => exact .quiet (.of_eq rfl rfl rfl)
  | releaseInLoop hconn hcopies huser =>
    exact .quiet (.of_eq (by simp) (by simp) (by simp))
  | queueInLoop => exact .quiet (.queueInLoop rfl)
  | addTimer hstart => exact .quiet (.startTimer hstart)
  | removeTimer => exact .quiet (.queueInLoop rfl)
  | destroyServer huser hreg => exact .quiet (.destroyServer _)
  | @destroyClient k client huser hclient =>
    have hreset := (Quiet.removeChannel (s := s) (.connect k)).trans (.resetConnection k client)
    exact .quiet (hreset.trans (.setClient k none))
  | connect huser htrans => exact .quiet (.transStateInLoop htrans)
  | disconnect hclient hconnection => exact .quiet (.queueInLoop rfl)
  | disconnectNone hclient hconnection => exact .quiet .refl
  | destroyLoop hpc | startLoop hpc => exact .quiet (.of_eq (by rw [hpc]; rfl) rfl rfl)
  | poll hpc hnodup hreg => exact .quiet (.of_eq (by rw [hpc]; rfl) rfl rfl)
  | @dispatch ref active event io s' hpc hreg hhandle =>
    have hpass : Quiet s (s.setPc (.dispatching active)) := .of_eq (by rw [hpc]; rfl) rfl rfl
    exact .quiet (hpass.trans (.handleEvent rfl hhandle))
  | passOver hpc hreg => exact .quiet (.of_eq (by rw [hpc]; rfl) rfl rfl)
  | handleClose hpc hconn hopen hclose => exact .quiet (.handleClose hclose)
  | handlerReturn hpc hreturn => exact .quiet (.handlerReturn hpc hreturn)
  | swap hpc =>
    refine .quiet ⟨fun task htask _ => ?_, rfl⟩
    simpa [LoopObjects.tasks, hpc, LifePc.tasks] using htask
  | next hpc htask => exact runTask ho hpc htask
  | @finish called mIsExit hpc =>
    refine .quiet (.of_eq ?_ rfl rfl)
    rw [hpc, setPc_pc]
    cases mIsExit <;> rfl

end TaskMove

/-! ## Runs -/

/-- A step that spares the tasks keeps their connections. -/
theorem tasksAlive_step (ho : s.Owned) (ha : s.TasksAlive) {i : LifeStep} (hs : s.SparesTasks i)
    (h : s.step i = some s') : s'.TasksAlive := by
  have hold : ∀ task ∈ s.tasks, ∀ c ∈ task.captured, 0 < s'.refs c := by
    intro task htask c hc
    refine refs_pos_step h (Nat.lt_of_not_le fun hle => ?_)
    exact hs task htask c hc ⟨ha task htask c hc, hle⟩
  intro task htask c hc
  cases TaskMove.step ho h with
  | quiet hquiet => exact hold task (hquiet.tasks task htask (by rw [hc]; simp)) c hc
  | queue c' hpos htasks htrace =>
    obtain hmem | hc' := htasks task htask
    · exact hold task hmem c hc
    · obtain rfl : c' = c := Option.some.inj (hc'.symm.trans hc)
      exact hpos
  | call task' c' hc' htask' htasks htrace => exact hold task (htasks task htask) c hc

theorem fresh_step (ho : s.Owned) (ha : s.TasksAlive) (hf : s.Fresh) {i : LifeStep}
    (h : s.step i = some s') : s'.Fresh := by
  unfold Fresh
  cases TaskMove.step ho h with
  | quiet hquiet => exact hquiet.trace ▸ hf
  | queue c hpos htasks htrace => exact htrace ▸ hf
  | call task c hc htask htasks htrace =>
    rw [htrace]
    intro entry hentry
    obtain hentry | hentry := List.mem_append.mp hentry
    · exact hf entry hentry
    · rw [List.mem_singleton.mp hentry]
      exact decide_eq_true (ha task htask c hc)

/-- **As long as no step gives up the last references to a connection of which a task waits, every
task that is called finds its connection.** -/
theorem always_fresh (is : List LifeStep)
    (h : Along step SparesTasks create is) : Always step Fresh create is := by
  refine always_of_along (I := fun s => s.Owned ∧ s.TasksAlive ∧ s.Fresh) (fun s hs => hs.2.2) ?_
    ⟨owned_create, ?_, ?_⟩ h
  · rintro s i s' ⟨ho, ha, hf⟩ hspares hstep
    exact ⟨owned_step ho hstep, tasksAlive_step ho ha hspares hstep, fresh_step ho ha hf hstep⟩
  · intro task htask
    simp [create, tasks, LifePc.tasks] at htask
  · intro entry hentry
    simp [create] at hentry

/-- A server accepts a connection, and the user copies it. -/
def accepted : List LifeStep :=
  [.createServer 0, .startLoop, .poll [.listen 0], .dispatch .ready ⟨0, 0, .inProgress⟩, .copy 0,
    .handlerReturn, .swap, .finish false, .poll [.conn 0], .dispatch .ready ⟨0, 0, .inProgress⟩]

/-- A thread sends before the close task is called, and its task is in the same batch. -/
def sentBeforeClose : List LifeStep :=
  accepted ++ [.send 0, .release 0 false, .handleClose, .handlerReturn, .swap,
    .next ⟨0, 0, .inProgress⟩, .next ⟨0, 0, .inProgress⟩, .finish false]

theorem always_fresh_sentBeforeClose :
    Always step Fresh create sentBeforeClose ∧
      (Transition.run step create sentBeforeClose).map (·.trace) = some [(.send 0, true)] :=
  ⟨always_fresh sentBeforeClose (by decide), by decide⟩

/-- A thread sends and releases its copy when the close task was called: the batch that is destroyed
then holds the last reference. -/
def sentAfterClose : List LifeStep :=
  accepted ++ [.handleClose, .handlerReturn, .swap, .next ⟨0, 0, .inProgress⟩, .send 0,
    .release 0 false, .finish false, .poll [], .swap, .next ⟨0, 0, .inProgress⟩]

/-- The task of `send` is called when the connection is gone. -/
theorem not_fresh_sentAfterClose :
    ¬ ∀ is s', Transition.run step create is = some s' → s'.Fresh := by
  intro h
  have htrace : (Transition.run step create sentAfterClose).map (·.trace) =
      some [(.send 0, false)] := by
    decide
  obtain ⟨s', hrun, hs'⟩ := Option.map_eq_some_iff.mp htrace
  have hfound := h sentAfterClose s' hrun (.send 0, false) (by rw [hs']; exact List.mem_cons_self)
  exact Bool.false_ne_true hfound

end LoopObjects

end SimpleTcp