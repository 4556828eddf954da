import SimpleTcp.Tcp.Turns

/-!
# References to a connection

A step gives up at most the references that it is known to give up: a copy that is released, the
guard of a handler that returns, the guards of a batch that is destroyed, and that of a server or a
client that is destroyed or changes its state. A client keeps the connection it points to.

## Main definitions

* `givesUp`: the references that a step gives up
* `Owned`: the connection of a client is kept by it

## Main results

* `refs_le_step`: a step gives up no other references
* `owned_step`: every step keeps `Owned`
-/

namespace SimpleTcp

namespace LoopObjects

open Function (update)

variable {s s' : LoopObjects} {c : ℕ}

/-! ## What the operations leave alone -/

section Fields

variable (s : LoopObjects) (ref : ChannelRef) (keeper : ConnKeeper) (k c : ℕ) (client : ClientLife)

@[simp] theorem removeChannel_pc : (s.removeChannel ref).pc = s.pc := by
  unfold removeChannel; split_ifs <;> rfl

@[simp] theorem removeChannel_mPendingTasks :
    (s.removeChannel ref).mPendingTasks = s.mPendingTasks := by
  unfold removeChannel; split_ifs <;> rfl

@[simp] theorem removeChannel_conns : (s.removeChannel ref).conns = s.conns := by
  unfold removeChannel; split_ifs <;> rfl

@[simp] theorem removeChannel_clients : (s.removeChannel ref).clients = s.clients := by
  unfold removeChannel; split_ifs <;> rfl

@[simp] theorem removeChannel_trace : (s.removeChannel ref).trace = s.trace := by
  unfold removeChannel; split_ifs <;> rfl

@[simp] theorem reap_pc : (s.reap c).pc = s.pc := by unfold reap; split_ifs <;> simp

@[simp] theorem reap_mPendingTasks : (s.reap c).mPendingTasks = s.mPendingTasks := by
  unfold reap; split_ifs <;> simp

@[simp] theorem reap_conns : (s.reap c).conns = s.conns := by unfold reap; split_ifs <;> simp

@[simp] theorem reap_clients : (s.reap c).clients = s.clients := by unfold reap; split_ifs <;> simp

@[simp] theorem reap_trace : (s.reap c).trace = s.trace := by unfold reap; split_ifs <;> simp

@[simp] theorem unkeep_pc : (s.unkeep keeper c).pc = s.pc := by
  unfold unkeep; split <;> [split_ifs; skip] <;> rfl

@[simp] theorem unkeep_mPendingTasks : (s.unkeep keeper c).mPendingTasks = s.mPendingTasks := by
  unfold unkeep; split <;> [split_ifs; skip] <;> rfl

@[simp] theorem unkeep_registered : (s.unkeep keeper c).registered = s.registered := by
  unfold unkeep; split <;> [split_ifs; skip] <;> rfl

@[simp] theorem unkeep_clients : (s.unkeep keeper c).clients = s.clients := by
  unfold unkeep; split <;> [split_ifs; skip] <;> rfl

@[simp] theorem unkeep_trace : (s.unkeep keeper c).trace = s.trace := by
  unfold unkeep; split <;> [split_ifs; skip] <;> rfl

@[simp] theorem resetConnection_pc : (s.resetConnection k client).pc = s.pc := by
  unfold resetConnection; split <;> simp

@[simp] theorem resetConnection_mPendingTasks :
    (s.resetConnection k client).mPendingTasks = s.mPendingTasks := by
  unfold resetConnection; split <;> simp

@[simp] theorem resetConnection_clients : (s.resetConnection k client).clients = s.clients := by
  unfold resetConnection; split <;> simp

@[simp] theorem resetConnection_trace : (s.resetConnection k client).trace = s.trace := by
  unfold resetConnection; split <;> simp

theorem resetConnection_conns : (s.resetConnection k client).conns =
    client.mConnection.elim s.conns fun c => (s.unkeep (.client k) c).conns := by
  unfold resetConnection; cases client.mConnection <;> simp

end Fields

/-! ## Counting -/

theorem refs_of_conn {conn : ConnLife} (h : s.conns c = some conn) :
    s.refs c = conn.kept.toNat + conn.copies + s.guards c := by
  rw [refs, h]

/-- The references depend on the connection and on the guards. -/
theorem refs_congr (hconns : s'.conns c = s.conns c) (hguards : s'.guards c = s.guards c) :
    s'.refs c = s.refs c := by
  rw [refs, refs, hconns, hguards]

theorem refs_mono (hconns : s'.conns c = s.conns c) (hguards : s.guards c ≤ s'.guards c) :
    s.refs c ≤ s'.refs c := by
  rw [refs, refs, hconns]
  split <;> omega

theorem guards_congr (hpc : s'.pc = s.pc) (htasks : s'.mPendingTasks = s.mPendingTasks) :
    s'.guards c = s.guards c := by
  rw [guards, guards, tasks, tasks, hpc, htasks]

theorem guards_queueInLoop (task : LifeTask) :
    (s.queueInLoop task).guards c = s.guards c + if task.guard = some c then 1 else 0 := by
  simp only [guards, tasks, queueInLoop_pc, queueInLoop_mPendingTasks, List.countP_append,
    List.countP_singleton, decide_eq_true_eq]
  omega

theorem refs_removeChannel (ref : ChannelRef) : (s.removeChannel ref).refs c = s.refs c :=
  refs_congr (by simp) (guards_congr (by simp) (by simp))

theorem refs_reap (c' : ℕ) : (s.reap c').refs c = s.refs c :=
  refs_congr (by simp) (guards_congr (by simp) (by simp))

theorem refs_register (ref : ChannelRef) : (s.register ref).refs c = s.refs c := rfl

theorem refs_setClient (k : ℕ) (client : Option ClientLife) :
    (s.setClient k client).refs c = s.refs c := rfl

theorem refs_queueInLoop (task : LifeTask) : s.refs c ≤ (s.queueInLoop task).refs c :=
  refs_mono rfl (by rw [guards_queueInLoop]; omega)

theorem refs_startTimer {j : ℕ} {cb : TimerCallback} (h : s.startTimer j cb = some s') :
    s.refs c ≤ s'.refs c := by
  obtain ⟨-, rfl⟩ := startTimer_eq_some.mp h
  exact refs_queueInLoop (s := { s with timers := update s.timers j (some cb) }) _

/-- Where no handler returns, the thread goes on with the references of the batch. -/
theorem refs_setPc {pc : LifePc} (hguard : s.pc.guard = none)
    (hbatch : pc.called ++ pc.tasks = s.pc.called ++ s.pc.tasks) :
    s.refs c ≤ (s.setPc pc).refs c := by
  refine refs_mono rfl ?_
  simp only [guards, tasks, setPc_pc, setPc_mPendingTasks, ← List.append_assoc, hbatch, hguard]
  simp

theorem refs_setConn_of_ne {c' : ℕ} {conn : ConnLife} (h : c ≠ c') :
    (s.setConn c' conn).refs c = s.refs c :=
  refs_congr (by simp [h]) rfl

theorem refs_setConn_self {conn : ConnLife} :
    (s.setConn c conn).refs c = conn.kept.toNat + conn.copies + s.guards c :=
  refs_of_conn (s := s.setConn c conn) (by simp)

/-- A connection that is changed has as many references if it does not lose one of its own. -/
theorem refs_setConn {c' : ℕ} {old conn : ConnLife} (hold : s.conns c' = some old)
    (h : old.kept.toNat + old.copies ≤ conn.kept.toNat + conn.copies) :
    s.refs c ≤ (s.setConn c' conn).refs c := by
  by_cases hc : c = c'
  · subst hc
    rw [refs_of_conn hold, refs_setConn_self]
    omega
  · exact (refs_setConn_of_ne hc).ge

theorem refs_createTcpConnection {c' : ℕ} {keeper : ConnKeeper} {kept : Bool}
    (h : s.conns c' = none) : s.refs c ≤ (s.createTcpConnection c' keeper kept).refs c := by
  rw [createTcpConnection, refs_register]
  by_cases hc : c = c'
  · subst hc
    rw [refs, h]
    exact Nat.zero_le _
  · exact (refs_setConn_of_ne hc).ge

/-- The reference that the server or the client holds to the connection. -/
def keptBy (s : LoopObjects) (keeper : ConnKeeper) (c : ℕ) : ℕ :=
  match s.conns c with
  | some conn => if conn.keeper = keeper then conn.kept.toNat else 0
  | none => 0

theorem keptBy_le_one (keeper : ConnKeeper) : s.keptBy keeper c ≤ 1 := by
  unfold keptBy
  split
  · split_ifs
    · exact Bool.toNat_le _
    · exact Nat.zero_le 1
  · exact Nat.zero_le 1

theorem refs_unkeep_self (keeper : ConnKeeper) :
    s.refs c = (s.unkeep keeper c).refs c + s.keptBy keeper c := by
  cases hconn : s.conns c with
  | none => simp only [unkeep, keptBy, hconn, Nat.add_zero]
  | some conn =>
    simp only [unkeep, keptBy, hconn]
    split_ifs with hkeeper
    · rw [refs_of_conn hconn, refs_setConn_self]
      simp only [Bool.toNat_false]
      omega
    · rfl

theorem refs_unkeep_of_ne (keeper : ConnKeeper) {c' : ℕ} (h : c ≠ c') :
    (s.unkeep keeper c').refs c = s.refs c := by
  unfold unkeep
  split
  · split_ifs
    · exact refs_setConn_of_ne h
    · rfl
  · rfl

theorem refs_unkeep (keeper : ConnKeeper) (c' : ℕ) :
    s.refs c ≤ (s.unkeep keeper c').refs c + if c' = c then s.keptBy keeper c else 0 := by
  split_ifs with hc
  · subst hc
    exact (refs_unkeep_self keeper).le
  · exact (refs_unkeep_of_ne keeper (Ne.symm hc)).ge

theorem refs_resetConnection (k : ℕ) (client : ClientLife) :
    s.refs c ≤ (s.resetConnection k client).refs c + [client.mConnection].count (some c) := by
  unfold resetConnection
  cases client.mConnection with
  | none => exact Nat.le_add_right _ _
  | some c' =>
    have hle := refs_unkeep (s := s) (c := c) (.client k) c'
    have hone := keptBy_le_one (s := s) (c := c) (.client k)
    simp only [refs_reap, List.count_singleton, beq_iff_eq, Option.some.injEq]
    split_ifs at hle ⊢ <;> omega

/-! ## What a step gives up -/

/-- The reference of the client that a change of its state gives up. -/
def resets (s : LoopObjects) (k : ℕ) (newState : ClientState) (c : ℕ) : ℕ :=
  match s.clients k with
  | some (some client) =>
    if newState = .disconnect ∧ client.mState = .connected ∨
        newState = .connected ∧ client.mState = .connecting then
      [client.mConnection].count (some c)
    else 0
  | _ => 0

theorem resets_connecting (k : ℕ) : s.resets k .connecting c = 0 := by
  unfold resets
  split <;> simp

/-- The reference that a task gives up. -/
def taskGivesUp (s : LoopObjects) (c : ℕ) : LifeTask → ℕ
  | .transState k newState => s.resets k newState c
  | .destroyConnection k c' => if c' = c then s.keptBy (.server k) c else 0
  | .send _ | .shutdown _ | .shutdownConnection _ | .addTimer _ | .removeTimer _ | .functor => 0

/-- The references to the connection that a step gives up. -/
def givesUp (s : LoopObjects) (i : LifeStep) (c : ℕ) : ℕ :=
  match i with
  | .release c' _ => if c' = c then 1 else 0
  | .destroyServer k => s.keptBy (.server k) c
  | .destroyClient k =>
    match s.clients k with
    | some (some client) => [client.mConnection].count (some c)
    | _ => 0
  | .handlerReturn =>
    match s.pc with
    | .handling (.conn _) guard _ => [guard].count (some c)
    | _ => 0
  | .next _ =>
    match s.pc with
    | .running _ (task :: _) => s.taskGivesUp c task
    | _ => 0
  | .finish _ => s.pc.called.countP fun task => task.guard = some c
  | _ => 0

/-! ## Steps give up no more -/

theorem refs_doConnecting {k : ℕ} {client : ClientLife} {io : ConnectOutcome}
    (h : s.doConnecting k client io = some s') : s.refs c ≤ s'.refs c := by
  unfold doConnecting at h
  cases io with
  | retry j mConnSocket =>
    have hle := refs_startTimer (c := c) h
    rwa [refs_setClient, refs_removeChannel] at hle
  | inProgress =>
    obtain rfl := Option.some.inj h
    rw [refs_register, refs_setClient, refs_removeChannel]
  | connected =>
    obtain rfl := Option.some.inj h
    refine le_trans (le_of_eq ?_) (refs_queueInLoop _)
    rw [refs_setClient, refs_removeChannel]

theorem refs_doConnected {k : ℕ} {client : ClientLife} {c' : ℕ}
    (h : s.doConnected k client c' = some s') :
    s.refs c ≤ s'.refs c + [client.mConnection].count (some c) := by
  unfold doConnected at h
  split_ifs at h with hc
  obtain rfl := Option.some.inj h
  rw [refs_setClient]
  refine le_trans ?_ (refs_resetConnection k client)
  refine le_trans ?_ (refs_createTcpConnection ?_)
  · rw [refs_removeChannel]
  · rw [removeChannel_conns]
    exact hc.2

theorem refs_doDisconnected {k j : ℕ} {client : ClientLife}
    (h : s.doDisconnected k client j = some s') :
    s.refs c ≤ s'.refs c + [client.mConnection].count (some c) := by
  unfold doDisconnected at h
  split at h
  · split_ifs at h
    refine le_trans ?_ (Nat.add_le_add_right (refs_startTimer h) _)
    rw [refs_setClient]
    refine le_trans ?_ (refs_resetConnection k client)
    rw [refs_removeChannel]
  · cases h

theorem refs_transStateInLoop {k : ℕ} {newState : ClientState} {io : ObjectIo}
    (h : s.transStateInLoop k newState io = some s') :
    s.refs c ≤ s'.refs c + s.resets k newState c := by
  cases enters_of_transStateInLoop h with
  | stays hclient hstays => exact Nat.le_add_right _ _
  | connecting hclient hstate hdo => exact Nat.le_add_right_of_le (refs_doConnecting hdo)
  | connected hclient hstate hdo => simpa [resets, hclient, hstate] using refs_doConnected hdo
  | disconnect hclient hstate hdo =>
    simpa [resets, hclient, hstate] using refs_doDisconnected hdo
  | forceDisconnected hclient hstate =>
    exact Nat.le_add_right_of_le ((refs_setClient k _).ge.trans (refs_queueInLoop _))

theorem refs_handleEvent {ref : ChannelRef} {active rest : List ChannelRef} {io : ObjectIo}
    {event : ChannelEvent} (hpc : s.pc = .dispatching rest)
    (h : s.handleEvent ref active io event = some s') : s.refs c ≤ s'.refs c := by
  have hguard : s.pc.guard = none := by rw [hpc, LifePc.guard]
  have hbatch : s.pc.called ++ s.pc.tasks = [] := by simp [hpc, LifePc.called, LifePc.tasks]
  cases handles_of_handleEvent h with
  | pass hpass => exact le_rfl
  | retryLater hstart => exact refs_startTimer hstart
  | accept hfresh => exact (refs_createTcpConnection hfresh).trans (refs_setPc hguard hbatch.symm)
  | connected => exact refs_queueInLoop _
  | call => exact refs_setPc hguard hbatch.symm
  | timeout hcb => exact refs_setPc hguard hbatch.symm
  | retry hcb hretry =>
    have hle := refs_transStateInLoop (c := c) hretry
    rw [resets_connecting] at hle
    exact hle.trans (refs_queueInLoop _)

theorem refs_handleClose {c' : ℕ} {conn : ConnLife} (hconn : s.conns c' = some conn)
    (h : s.handleClose c' conn = some s') : s.refs c ≤ s'.refs c := by
  obtain ⟨task, rfl, -⟩ := handleClose_cases h
  have hle : s.refs c ≤ (s.setConn c' { conn with disConnected := true }).refs c :=
    refs_setConn hconn le_rfl
  exact hle.trans (refs_queueInLoop _)

/-- The guard of a handler that returns is given up. -/
theorem guards_setPc_dispatching {ref : ChannelRef} {guard : Option ℕ} {active : List ChannelRef}
    (hpc : s.pc = .handling ref guard active) :
    s.guards c = (s.setPc (.dispatching active)).guards c + [guard].count (some c) := by
  simp only [guards, tasks, setPc_pc, setPc_mPendingTasks, hpc, LifePc.guard, LifePc.called,
    LifePc.tasks, List.count_singleton, beq_iff_eq, reduceCtorEq, if_false]
  omega

theorem refs_setPc_dispatching {ref : ChannelRef} {guard : Option ℕ} {active : List ChannelRef}
    (hpc : s.pc = .handling ref guard active) :
    s.refs c ≤ (s.setPc (.dispatching active)).refs c + [guard].count (some c) := by
  have hguards := guards_setPc_dispatching (c := c) hpc
  unfold refs
  simp only [setPc_conns]
  split <;> omega

theorem refs_handlerReturn {ref : ChannelRef} {guard : Option ℕ} {active : List ChannelRef}
    (hpc : s.pc = .handling ref guard active)
    (h : s.handlerReturn ref guard active = some s')
    (hlt : s.givesUp .handlerReturn c < s.refs c) : 0 < s'.refs c := by
  have hle := refs_setPc_dispatching (c := c) hpc
  simp only [givesUp, hpc] at hlt
  cases returns_of_handlerReturn h with
  | @accepted k c' conn hconn =>
    by_cases hc : c = c'
    · -- the server has a reference now
      subst hc
      rw [refs_setConn_self, Bool.toNat_true]
      omega
    · rw [refs_setConn_of_ne hc]
      have hzero : [some c'].count (some c) = 0 := by simp [Ne.symm hc]
      omega
  | called =>
    rw [refs_reap]
    dsimp only at hlt
    omega
  | oneshot hcb =>
    have hpos : 0 < (s.setPc (.dispatching active)).refs c := hlt.trans_le hle
    exact hpos.trans_le (refs_queueInLoop _)
  | timeout hcb => exact hlt.trans_le hle

theorem refs_runTask {task : LifeTask} {io : ObjectIo} (h : s.runTask io task = some s') :
    s.refs c ≤ s'.refs c + s.taskGivesUp c task := by
  cases task with
  | send c' => exact (Option.some.inj h) ▸ le_rfl
  | shutdown c' => exact (Option.some.inj h) ▸ le_rfl
  | destroyConnection k c' =>
    simp only [runTask] at h
    split_ifs at h
    obtain rfl := Option.some.inj h
    have hle := refs_unkeep (s := s.removeChannel (.conn c')) (c := c) (.server k) c'
    rw [refs_removeChannel] at hle
    simpa only [taskGivesUp, keptBy, removeChannel_conns] using hle
  | transState k newState => exact refs_transStateInLoop h
  | shutdownConnection k =>
    simp only [runTask] at h
    split at h
    · exact (Option.some.inj h) ▸ refs_queueInLoop _
    · cases h
  | addTimer j => exact (Option.some.inj h) ▸ (refs_register _).ge
  | removeTimer j => exact (Option.some.inj h) ▸ (refs_removeChannel _).ge
  | functor => exact (Option.some.inj h) ▸ le_rfl

theorem refs_clearConnections (k : ℕ) :
    s.refs c = (s.clearConnections k).refs c + s.keptBy (.server k) c := by
  have hguards : (s.clearConnections k).guards c = s.guards c := guards_congr rfl rfl
  cases hconn : s.conns c with
  | none => simp [refs, keptBy, clearConnections, hconn]
  | some conn =>
    have hconn' : (s.clearConnections k).conns c =
        some (if conn.keeper = .server k then { conn with kept := false } else conn) := by
      simp [clearConnections, hconn]
    rw [refs_of_conn hconn, refs_of_conn hconn', hguards, keptBy, hconn]
    dsimp only
    split_ifs
    · simp only [Bool.toNat_false]
      omega
    · rfl

theorem refs_destroyServer (k : ℕ) :
    s.refs c ≤ (s.destroyServer k).refs c + s.keptBy (.server k) c := by
  unfold destroyServer
  split_ifs
  · exact Nat.le_add_right _ _
  · exact (refs_clearConnections k).le

theorem refs_release {c' : ℕ} {conn : ConnLife} (hconn : s.conns c' = some conn) :
    s.refs c ≤ (s.setConn c' { conn with copies := conn.copies - 1 }).refs c +
      if c' = c then 1 else 0 := by
  split_ifs with hc
  · subst hc
    rw [refs_of_conn hconn, refs_setConn_self]
    dsimp only
    omega
  · exact (refs_setConn_of_ne (Ne.symm hc)).ge

/-- The guards of the batch are given up. -/
theorem refs_finish {called : List LifeTask} {pc : LifePc} (hpc : s.pc = .running called [])
    (hguard : pc.guard = none) (hcalled : pc.called = []) (htasks : pc.tasks = []) :
    s.refs c ≤ (s.setPc pc).refs c + called.countP fun task => task.guard = some c := by
  unfold refs
  simp only [setPc_conns]
  split
  · simp only [guards, tasks, setPc_pc, setPc_mPendingTasks, hguard, hcalled, htasks, hpc]
    simp only [LifePc.guard, LifePc.called, LifePc.tasks, List.nil_append, List.countP_append]
    omega
  · exact Nat.zero_le _

/-- A step gives up no other references. Only a handler that returns may exchange one. -/
theorem refs_le_step {i : LifeStep} (hi : i ≠ .handlerReturn) (h : s.step i = some s') :
    s.refs c ≤ s'.refs c + s.givesUp i c := by
  cases takes_of_step h with
  | send hconn hcopies => exact refs_queueInLoop _
  | shutdownConnection hrefs => exact refs_queueInLoop _
  | copy hconn hrefs => exact refs_setConn hconn (by dsimp only; omega)
  -- the object may go, but not what else refers to it
  | releaseInLoop hconn hcopies huser =>
    rw [refs_reap]
    exact refs_release hconn
  | releaseOutside hconn hcopies hshared => exact refs_release hconn
  | queueInLoop => exact refs_queueInLoop _
  | addTimer hstart => exact refs_startTimer hstart
  | removeTimer => exact refs_queueInLoop _
  | createServer huser hfresh => exact le_rfl
  | createClient huser hfresh => exact le_rfl
  | destroyServer huser hreg => exact refs_destroyServer _
  -- the client gives up its own reference only
  | @destroyClient k client huser hclient =>
    rw [destroyClient, refs_setClient, givesUp, hclient]
    refine le_trans ?_ (refs_resetConnection k client)
    rw [refs_removeChannel]
  | connect huser htrans =>
    have hle := refs_transStateInLoop (c := c) htrans
    rwa [resets_connecting] at hle
  | disconnect hclient hconnection => exact refs_queueInLoop _
  | disconnectNone hclient hconnection => exact le_rfl
  -- the loop is outside: it holds no guard and no task that is called
  | destroyLoop hpc =>
    refine refs_mono rfl ?_
    simp [guards, tasks, destroyLoop, hpc, LifePc.guard, LifePc.called, LifePc.tasks]
  | startLoop hpc => exact refs_setPc (by rw [hpc, LifePc.guard]) (by rw [hpc]; rfl)
  | poll hpc hnodup hreg => exact refs_setPc (by rw [hpc, LifePc.guard]) (by rw [hpc]; rfl)
  -- the guard is taken before the handler runs
  | @dispatch ref active event io s' hpc hreg hhandle =>
    have hle : s.refs c ≤ (s.setPc (.dispatching active)).refs c :=
      refs_setPc (by rw [hpc, LifePc.guard]) (by simp [hpc, LifePc.called, LifePc.tasks])
    exact hle.trans (refs_handleEvent rfl hhandle)
  | passOver hpc hreg =>
    exact refs_setPc (by rw [hpc, LifePc.guard]) (by simp [hpc, LifePc.called, LifePc.tasks])
  | handleClose hpc hconn hopen hclose => exact refs_handleClose hconn hclose
  | handlerReturn hpc hreturn => exact absurd rfl hi
  | swap hpc =>
    refine refs_mono rfl ?_
    simp [guards, tasks, hpc, LifePc.guard, LifePc.called, LifePc.tasks]
  -- the task stays among the called ones until the batch ends
  | @next called tasks task io s' hpc htask =>
    have hle : s.refs c ≤ (s.setPc (.running (called ++ [task]) tasks)).refs c :=
      refs_setPc (by rw [hpc, LifePc.guard]) (by simp [hpc, LifePc.called, LifePc.tasks])
    simp only [givesUp, hpc]
    exact hle.trans (refs_runTask htask)
  -- now the functors of the batch are destroyed
  | @finish called mIsExit hpc =>
    simp only [givesUp, hpc, LifePc.called]
    cases mIsExit
    · exact refs_finish hpc rfl rfl rfl
    · exact refs_finish hpc rfl rfl rfl

/-- **A connection with more references than the step gives up has references after it.** -/
theorem refs_pos_step {i : LifeStep} (h : s.step i = some s') (hlt : s.givesUp i c < s.refs c) :
    0 < s'.refs c := by
  by_cases hi : i = .handlerReturn
  · subst hi
    cases takes_of_step h with
    | handlerReturn hpc hreturn => exact refs_handlerReturn hpc hreturn hlt
  · have hle := refs_le_step (c := c) hi h
    omega

/-! ## Connections of clients -/

/-- The connection of a client is kept by it. -/
def Owned (s : LoopObjects) : Prop :=
  ∀ k client c, s.clients k = some (some client) → client.mConnection = some c →
    ∃ conn, s.conns c = some conn ∧ conn.kept = true ∧ conn.keeper = .client k

theorem Owned.refs_pos (ho : s.Owned) {k : ℕ} {client : ClientLife}
    (hclient : s.clients k = some (some client)) (hc : client.mConnection = some c) :
    0 < s.refs c := by
  obtain ⟨conn, hconn, hkept, -⟩ := ho k client c hclient hc
  rw [refs_of_conn hconn, hkept, Bool.toNat_true]
  omega

theorem owned_create : create.Owned := by
  intro k client c hclient
  cases hclient

/-- Every connection that a client keeps is still kept by it. -/
def KeepsConns (s s' : LoopObjects) : Prop :=
  ∀ k c conn, s.conns c = some conn → conn.kept = true → conn.keeper = .client k →
    ∃ conn', s'.conns c = some conn' ∧ conn'.kept = true ∧ conn'.keeper = .client k

theorem KeepsConns.of_eq (h : s'.conns = s.conns) : KeepsConns s s' :=
  fun _ _ conn hconn hkept hkeeper => ⟨conn, h ▸ hconn, hkept, hkeeper⟩

theorem KeepsConns.setConn {old conn : ConnLife} (hold : s.conns c = some old)
    (hkept : old.kept = true → conn.kept = true) (hkeeper : conn.keeper = old.keeper) :
    KeepsConns s (s.setConn c conn) := by
  intro k c' conn' hconn' hkept' hkeeper'
  by_cases hc : c' = c
  · subst hc
    obtain rfl : old = conn' := Option.some.inj (hold.symm.trans hconn')
    exact ⟨conn, by simp, hkept hkept', hkeeper.trans hkeeper'⟩
  · exact ⟨conn', by simp [hc, hconn'], hkept', hkeeper'⟩

theorem KeepsConns.create {keeper : ConnKeeper} {kept : Bool} (h : s.conns c = none) :
    KeepsConns s (s.createTcpConnection c keeper kept) := by
  intro k c' conn hconn hkept hkeeper
  have hc : c' ≠ c := by
    rintro rfl
    cases h.symm.trans hconn
  exact ⟨conn, by simp [createTcpConnection, hc, hconn], hkept, hkeeper⟩

theorem KeepsConns.unkeep_server (k : ℕ) : KeepsConns s (s.unkeep (.server k) c) := by
  intro k' c' conn hconn hkept hkeeper
  refine ⟨conn, ?_, hkept, hkeeper⟩
  unfold unkeep
  split
  next conn' hconn' =>
    split_ifs with hserver
    · have hc : c' ≠ c := by
        rintro rfl
        obtain rfl : conn = conn' := Option.some.inj (hconn.symm.trans hconn')
        cases hkeeper.symm.trans hserver
      simp [hc, hconn]
    · exact hconn
  next => exact hconn

theorem KeepsConns.clearConnections (k : ℕ) : KeepsConns s (s.clearConnections k) := by
  intro k' c' conn hconn hkept hkeeper
  refine ⟨conn, ?_, hkept, hkeeper⟩
  simp [LoopObjects.clearConnections, hconn, hkeeper]

theorem Owned.mono (ho : s.Owned) (hclients : s'.clients = s.clients)
    (hconns : KeepsConns s s') : s'.Owned := by
  intro k client c hclient hc
  rw [hclients] at hclient
  obtain ⟨conn, hconn, hkept, hkeeper⟩ := ho k client c hclient hc
  exact hconns k c conn hconn hkept hkeeper

/-- A client changes, and its connection does not. -/
theorem Owned.setClient (ho : s.Owned) {k : ℕ} {client client' : ClientLife}
    (hclient : s.clients k = some (some client)) (h : client'.mConnection = client.mConnection) :
    (s.setClient k (some client')).Owned := by
  intro k' client'' c hclient'' hc
  by_cases hk : k' = k
  · subst hk
    obtain rfl : client' = client'' := by simpa using hclient''
    exact ho k' client c hclient (h ▸ hc)
  · exact ho k' client'' c (by simpa [hk] using hclient'') hc

/-- A client changes from its connection to another one that it keeps, or to none. -/
theorem Owned.reset (ho : s.Owned) {k : ℕ} {client : ClientLife} {client' : Option ClientLife}
    (hnew : ∀ client'' c, client' = some client'' → client''.mConnection = some c →
      client.mConnection ≠ some c ∧
        ∃ conn, s.conns c = some conn ∧ conn.kept = true ∧ conn.keeper = .client k) :
    ((s.resetConnection k client).setClient k client').Owned := by
  -- the connections that are kept for other reasons than `client` are not changed
  have hconns : ∀ k' c conn, s.conns c = some conn → conn.keeper = .client k' →
      k' ≠ k ∨ client.mConnection ≠ some c →
      (s.resetConnection k client).conns c = some conn := by
    intro k' c conn hconn hkeeper hne
    rw [resetConnection_conns]
    cases hold : client.mConnection with
    | none => exact hconn
    | some old =>
      change (s.unkeep (.client k) old).conns c = some conn
      unfold unkeep
      split
      next conn' hconn' =>
        split_ifs with hclient
        · have hc : c ≠ old := by
            rintro rfl
            obtain rfl : conn = conn' := Option.some.inj (hconn.symm.trans hconn')
            obtain rfl : k' = k := by simpa using hkeeper.symm.trans hclient
            exact hne.elim (fun h => h rfl) (fun h => h hold)
          simp [hc, hconn]
        · exact hconn
      next => exact hconn
  intro k' client'' c hclient'' hc
  by_cases hk : k' = k
  · subst hk
    obtain rfl : client' = some client'' := by simpa using hclient''
    obtain ⟨hne, conn, hconn, hkept, hkeeper⟩ := hnew client'' c rfl hc
    exact ⟨conn, hconns k' c conn hconn hkeeper (.inr hne), hkept, hkeeper⟩
  · have hclient : s.clients k' = some (some client'') := by simpa [hk] using hclient''
    obtain ⟨conn, hconn, hkept, hkeeper⟩ := ho k' client'' c hclient hc
    exact ⟨conn, hconns k' c conn hconn hkeeper (.inl hk), hkept, hkeeper⟩

theorem Owned.startTimer (ho : s.Owned) {j : ℕ} {cb : TimerCallback}
    (h : s.startTimer j cb = some s') : s'.Owned := by
  obtain ⟨-, rfl⟩ := startTimer_eq_some.mp h
  exact ho

theorem Owned.removeChannel (ho : s.Owned) (ref : ChannelRef) : (s.removeChannel ref).Owned :=
  ho.mono (by simp) (.of_eq (by simp))

theorem Owned.doConnecting (ho : s.Owned) {k : ℕ} {client : ClientLife} {io : ConnectOutcome}
    (hclient : s.clients k = some (some client)) (h : s.doConnecting k client io = some s') :
    s'.Owned := by
  have hset : ∀ mConnSocket, ((s.removeChannel (.connect k)).setClient k
      (some ⟨.connecting, mConnSocket, client.mConnection⟩)).Owned := by
    intro mConnSocket
    have hclient' : (s.removeChannel (.connect k)).clients k = some (some client) := by
      rw [removeChannel_clients, hclient]
    exact (ho.removeChannel _).setClient hclient' rfl
  unfold LoopObjects.doConnecting at h
  cases io with
  | retry j mConnSocket => exact (hset mConnSocket).startTimer h
  | inProgress => exact (Option.some.inj h) ▸ hset true
  | connected => exact (Option.some.inj h) ▸ hset true

theorem Owned.doConnected (ho : s.Owned) {k : ℕ} {client : ClientLife}
    (hclient : s.clients k = some (some client)) (h : s.doConnected k client c = some s') :
    s'.Owned := by
  unfold LoopObjects.doConnected at h
  split_ifs at h with hc
  obtain rfl := Option.some.inj h
  have hfresh : (s.removeChannel (.connect k)).conns c = none := by
    rw [removeChannel_conns]
    exact hc.2
  have ho' : ((s.removeChannel (.connect k)).createTcpConnection c (.client k) true).Owned :=
    (ho.removeChannel _).mono rfl (.create hfresh)
  refine ho'.reset fun client'' c' hclient'' hc' => ?_
  obtain rfl := Option.some.inj hclient''
  obtain rfl : c = c' := Option.some.inj hc'
  constructor
  · intro hold
    obtain ⟨conn, hconn, -⟩ := ho k client c hclient hold
    cases hc.2.symm.trans hconn
  · exact ⟨⟨false, .client k, true, 0⟩, by simp [createTcpConnection], rfl, rfl⟩

theorem Owned.doDisconnected (ho : s.Owned) {k j : ℕ} {client : ClientLife}
    (h : s.doDisconnected k client j = some s') : s'.Owned := by
  unfold LoopObjects.doDisconnected at h
  split at h
  · split_ifs at h
    refine Owned.startTimer ((ho.removeChannel _).reset fun client'' c' hclient'' hc' => ?_) h
    obtain rfl := Option.some.inj hclient''
    cases hc'
  · cases h

theorem Owned.transStateInLoop (ho : s.Owned) {k : ℕ} {newState : ClientState} {io : ObjectIo}
    (h : s.transStateInLoop k newState io = some s') : s'.Owned := by
  cases enters_of_transStateInLoop h with
  | stays hclient hstays => exact ho
  | connecting hclient hstate hdo => exact ho.doConnecting hclient hdo
  | connected hclient hstate hdo => exact ho.doConnected hclient hdo
  | disconnect hclient hstate hdo => exact ho.doDisconnected hdo
  | forceDisconnected hclient hstate => exact ho.setClient hclient rfl

theorem Owned.handleEvent (ho : s.Owned) {ref : ChannelRef} {active : List ChannelRef}
    {io : ObjectIo} {event : ChannelEvent}
    (h : s.handleEvent ref active io event = some s') : s'.Owned := by
  cases handles_of_handleEvent h with
  | pass hpass => exact ho
  | retryLater hstart => exact ho.startTimer hstart
  | accept hfresh => exact ho.mono rfl (.create hfresh)
  | connected => exact ho
  | call => exact ho
  | timeout hcb => exact ho
  | retry hcb hretry =>
    have ho₁ := ho.transStateInLoop hretry
    exact ho₁

theorem Owned.handleClose (ho : s.Owned) {conn : ConnLife} (hconn : s.conns c = some conn)
    (h : s.handleClose c conn = some s') : s'.Owned := by
  obtain ⟨task, rfl, -⟩ := handleClose_cases h
  have ho' : (s.setConn c { conn with disConnected := true }).Owned :=
    ho.mono rfl (.setConn hconn id rfl)
  exact ho'

theorem Owned.handlerReturn (ho : s.Owned) {ref : ChannelRef} {guard : Option ℕ}
    {active : List ChannelRef} (h : s.handlerReturn ref guard active = some s') : s'.Owned := by
  have ho' : (s.setPc (.dispatching active)).Owned := ho
  cases returns_of_handlerReturn h with
  | accepted hconn =>
    exact ho.mono rfl (.setConn (s := s.setPc (.dispatching active)) hconn (fun _ => rfl) rfl)
  | called => exact ho'.mono (by simp) (.of_eq (by simp))
  | oneshot hcb => exact ho'
  | timeout hcb => exact ho'

theorem Owned.runTask (ho : s.Owned) {task : LifeTask} {io : ObjectIo}
    (h : s.runTask io task = some s') : s'.Owned := by
  cases task with
  | send c' => exact (Option.some.inj h) ▸ ho
  | shutdown c' => exact (Option.some.inj h) ▸ ho
  | destroyConnection k c' =>
    simp only [LoopObjects.runTask] at h
    split_ifs at h
    obtain rfl := Option.some.inj h
    exact (ho.removeChannel _).mono (by simp) (.unkeep_server k)
  | transState k newState => exact ho.transStateInLoop h
  | shutdownConnection k =>
    simp only [LoopObjects.runTask] at h
    split at h
    · exact (Option.some.inj h) ▸ ho
    · cases h
  | addTimer j => exact (Option.some.inj h) ▸ ho
  | removeTimer j => exact (Option.some.inj h) ▸ ho.removeChannel _
  | functor => exact (Option.some.inj h) ▸ ho

theorem Owned.destroyServer (ho : s.Owned) (k : ℕ) : (s.destroyServer k).Owned := by
  unfold LoopObjects.destroyServer
  split_ifs
  · exact ho
  · refine ho.mono rfl ?_
    exact KeepsConns.clearConnections k

/-- **Every step keeps the connections of clients.** -/
theorem owned_step {i : LifeStep} (ho : s.Owned) (h : s.step i = some s') : s'.Owned := by
  cases takes_of_step h with
  | send hconn hcopies => exact ho
  | shutdownConnection hrefs => exact ho
  | copy hconn hrefs => exact ho.mono rfl (.setConn hconn id rfl)
  | @releaseInLoop c conn hconn hcopies huser =>
    have ho' : (s.setConn c { conn with copies := conn.copies - 1 }).Owned :=
      ho.mono rfl (.setConn hconn id rfl)
    exact ho'.mono (by simp) (.of_eq (by simp))
  | releaseOutside hconn hcopies hshared => exact ho.mono rfl (.setConn hconn id rfl)
  | queueInLoop => exact ho
  | addTimer hstart => exact ho.startTimer hstart
  | removeTimer => exact ho
  | createServer huser hfresh => exact ho
  -- a new client has no connection
  | @createClient k huser hfresh =>
    intro k' client c hclient hc
    by_cases hk' : k' = k
    · subst hk'
      obtain rfl : (⟨.disconnect, false, none⟩ : ClientLife) = client := by simpa using hclient
      cases hc
    · exact ho k' client c (by simpa [hk'] using hclient) hc
  | destroyServer huser hreg => exact ho.destroyServer _
  -- and one that is destroyed has none left
  | destroyClient huser hclient =>
    exact (ho.removeChannel _).reset fun client'' c hclient'' => by cases hclient''
  | connect huser htrans => exact ho.transStateInLoop htrans
  | disconnect hclient hconnection => exact ho
  | disconnectNone hclient hconnection => exact ho
  | destroyLoop hpc => exact ho
  | startLoop hpc => exact ho
  | poll hpc hnodup hreg => exact ho
  | @dispatch ref active event io s' hpc hreg hhandle =>
    have ho' : (s.setPc (.dispatching active)).Owned := ho
    exact ho'.handleEvent hhandle
  | passOver hpc hreg => exact ho
  | handleClose hpc hconn hopen hclose => exact ho.handleClose hconn hclose
  | handlerReturn hpc hreturn => exact ho.handlerReturn hreturn
  | swap hpc => exact ho
  | @next called tasks task io s' hpc htask =>
    have ho' : (s.setPc (.running (called ++ [task]) tasks)).Owned := ho
    exact ho'.runTask htask
  | finish hpc => exact ho

end LoopObjects

end SimpleTcp
