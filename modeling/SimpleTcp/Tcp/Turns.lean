import SimpleTcp.Tcp.Lifetime

/-!
# The steps of a loop, case by case

What a step finds and what it leaves, said once for each step. The properties of runs are proved
case by case from here.

## Main definitions

* `LoopObjects.Takes`: a step, with what it finds and what it leaves
* `LoopObjects.Handles`, `LoopObjects.Returns`: a channel in its turn, and the return of its
  callbacks
* `LoopObjects.Enters`: a change of the state of a client

## Main results

* `takes_of_step`: the cases of a step
* `handles_of_handleEvent`, `returns_of_handlerReturn`, `enters_of_transStateInLoop`: those of its
  parts
-/

namespace SimpleTcp

/-- The client does not make the change of state. -/
def ClientLife.Stays (client : ClientLife) : ClientState → Prop
  | .disconnect => client.mState ≠ .connected
  | .connecting => client.mState = .connected
  | .connected => client.mState ≠ .connecting
  | .forceDisconnected => client.mState = .disconnect ∨ client.mState = .forceDisconnected

namespace LoopObjects

open Function (update)

variable {s s' : LoopObjects} {c : ℕ}

theorem startTimer_eq_some {j : ℕ} {cb : TimerCallback} :
    s.startTimer j cb = some s' ↔ s.timers j = none ∧
      s' = { s with timers := update s.timers j (some cb) }.queueInLoop (.addTimer j) := by
  unfold startTimer
  split_ifs with h <;> simp [h, eq_comm]

/-! ## Parts of steps -/

/-- A change of the state of a client. -/
inductive Enters (s : LoopObjects) (k : ℕ) (io : ObjectIo) : ClientState → LoopObjects → Prop
  | stays {client : ClientLife} {newState : ClientState}
      (hclient : s.clients k = some (some client)) (hstays : client.Stays newState) :
      Enters s k io newState s
  | connecting {client : ClientLife} {s' : LoopObjects}
      (hclient : s.clients k = some (some client)) (hstate : client.mState ≠ .connected)
      (hdo : s.doConnecting k client io.connect = some s') : Enters s k io .connecting s'
  | connected {client : ClientLife} {s' : LoopObjects}
      (hclient : s.clients k = some (some client)) (hstate : client.mState = .connecting)
      (hdo : s.doConnected k client io.conn = some s') : Enters s k io .connected s'
  | disconnect {client : ClientLife} {s' : LoopObjects}
      (hclient : s.clients k = some (some client)) (hstate : client.mState = .connected)
      (hdo : s.doDisconnected k client io.timer = some s') : Enters s k io .disconnect s'
  | forceDisconnected {client : ClientLife} (hclient : s.clients k = some (some client))
      (hstate : client.mState ≠ .disconnect ∧ client.mState ≠ .forceDisconnected) :
      Enters s k io .forceDisconnected
        ((s.setClient k (some { client with mState := .forceDisconnected })).queueInLoop
          (.shutdownConnection k))

theorem enters_of_transStateInLoop {k : ℕ} {newState : ClientState} {io : ObjectIo}
    (h : s.transStateInLoop k newState io = some s') : s.Enters k io newState s' := by
  unfold transStateInLoop at h
  split at h
  next client hclient =>
    cases newState with
    | disconnect =>
      dsimp only at h
      split_ifs at h with hstate
      · exact .disconnect hclient hstate h
      · exact (Option.some.inj h) ▸ .stays hclient hstate
    | connecting =>
      dsimp only at h
      split_ifs at h with hstate
      · exact (Option.some.inj h) ▸ .stays hclient hstate
      · exact .connecting hclient hstate h
    | connected =>
      dsimp only at h
      split_ifs at h with hstate
      · exact .connected hclient hstate h
      · exact (Option.some.inj h) ▸ .stays hclient hstate
    | forceDisconnected =>
      dsimp only at h
      split_ifs at h with hstate
      · exact (Option.some.inj h) ▸ .stays hclient hstate
      · exact (Option.some.inj h) ▸ .forceDisconnected hclient (not_or.mp hstate)
  next => cases h

/-- A channel in its turn, with its event. -/
inductive Handles (s : LoopObjects) (active : List ChannelRef) (io : ObjectIo) :
    ChannelRef → ChannelEvent → LoopObjects → Prop
  | pass {ref : ChannelRef} {event : ChannelEvent} (hpass : event = .ready → ref = .wakeup) :
      Handles s active io ref event s
  | retryLater {k : ℕ} {s' : LoopObjects}
      (hstart : s.startTimer io.timer (.retry k) = some s') :
      Handles s active io (.connect k) .error s'
  | accept {k : ℕ} (hfresh : s.conns io.conn = none) :
      Handles s active io (.listen k) .ready
        ((s.createTcpConnection io.conn (.server k) false).setPc
          (.handling (.listen k) (some io.conn) active))
  | connected {k : ℕ} :
      Handles s active io (.connect k) .ready (s.queueInLoop (.transState k .connected))
  | call {c : ℕ} :
      Handles s active io (.conn c) .ready (s.setPc (.handling (.conn c) (some c) active))
  | timeout {j : ℕ} {mIsRepeating : Bool} (hcb : s.timers j = some (.user mIsRepeating)) :
      Handles s active io (.timer j) .ready (s.setPc (.handling (.timer j) none active))
  | retry {j k : ℕ} {s₁ : LoopObjects} (hcb : s.timers j = some (.retry k))
      (hretry : s.transStateInLoop k .connecting io = some s₁) :
      Handles s active io (.timer j) .ready (s₁.queueInLoop (.removeTimer j))

theorem handles_of_handleEvent {ref : ChannelRef} {active : List ChannelRef} {io : ObjectIo}
    {event : ChannelEvent} (h : s.handleEvent ref active io event = some s') :
    s.Handles active io ref event s' := by
  cases event with
  | none => exact (Option.some.inj h) ▸ .pass fun hready => by cases hready
  | error =>
    cases ref with
    | connect k => exact .retryLater h
    | wakeup | listen _ | conn _ | timer _ =>
      exact (Option.some.inj h) ▸ .pass fun hready => by cases hready
  | ready =>
    cases ref with
    | wakeup => exact (Option.some.inj h) ▸ .pass fun _ => rfl
    | listen k =>
      simp only [handleEvent] at h
      split_ifs at h with hfresh
      exact (Option.some.inj h) ▸ .accept hfresh
    | connect k => exact (Option.some.inj h) ▸ .connected
    | conn c => exact (Option.some.inj h) ▸ .call
    | timer j =>
      simp only [handleEvent] at h
      split at h
      next k hcb =>
        obtain ⟨s₁, h₁, rfl⟩ := Option.map_eq_some_iff.mp h
        exact .retry hcb h₁
      next hcb => exact (Option.some.inj h) ▸ .timeout hcb
      next => cases h

/-- The callbacks of a channel return. -/
inductive Returns (s : LoopObjects) (active : List ChannelRef) :
    ChannelRef → Option ℕ → LoopObjects → Prop
  | accepted {k c : ℕ} {conn : ConnLife} (hconn : s.conns c = some conn) :
      Returns s active (.listen k) (some c)
        ((s.setPc (.dispatching active)).setConn c { conn with kept := true })
  | called {c' c : ℕ} :
      Returns s active (.conn c') (some c) ((s.setPc (.dispatching active)).reap c)
  | oneshot {j : ℕ} (hcb : s.timers j = some (.user false)) :
      Returns s active (.timer j) none
        ((s.setPc (.dispatching active)).queueInLoop (.removeTimer j))
  | timeout {j : ℕ} (hcb : s.timers j ≠ some (.user false)) :
      Returns s active (.timer j) none (s.setPc (.dispatching active))

theorem returns_of_handlerReturn {ref : ChannelRef} {guard : Option ℕ} {active : List ChannelRef}
    (h : s.handlerReturn ref guard active = some s') : s.Returns active ref guard s' := by
  unfold handlerReturn at h
  dsimp only at h
  split at h
  · obtain ⟨conn, hconn, rfl⟩ := Option.map_eq_some_iff.mp h
    exact .accepted hconn
  · exact (Option.some.inj h) ▸ .called
  · split_ifs at h with hcb
    · exact (Option.some.inj h) ▸ .oneshot hcb
    · exact (Option.some.inj h) ▸ .timeout hcb
  · cases h

/-- The close callback of a server queues its close task, and that of a client a change of state. -/
theorem handleClose_cases {conn : ConnLife} (h : s.handleClose c conn = some s') :
    ∃ task, s' = (s.setConn c { conn with disConnected := true }).queueInLoop task ∧
      (∃ k, conn.keeper = .server k ∧ task = .destroyConnection k c ∨
        conn.keeper = .client k ∧ task = .transState k .disconnect) := by
  unfold handleClose at h
  dsimp only at h
  split at h
  next k hkeeper => exact ⟨_, (Option.some.inj h).symm, k, .inl ⟨hkeeper, rfl⟩⟩
  next k hkeeper =>
    split at h
    · exact ⟨_, (Option.some.inj h).symm, k, .inr ⟨hkeeper, rfl⟩⟩
    · cases h

/-! ## Steps -/

/-- A step, with what it finds. -/
inductive Takes (s : LoopObjects) : LifeStep → LoopObjects → Prop
  | send {c : ℕ} {conn : ConnLife} (hconn : s.conns c = some conn) (hcopies : 0 < conn.copies) :
      Takes s (.send c) (s.queueInLoop (.send c))
  | shutdownConnection {c : ℕ} (hrefs : 0 < s.refs c) :
      Takes s (.shutdownConnection c) (s.queueInLoop (.shutdown c))
  | copy {c : ℕ} {conn : ConnLife} (hconn : s.conns c = some conn) (hrefs : 0 < s.refs c) :
      Takes s (.copy c) (s.setConn c { conn with copies := conn.copies + 1 })
  | releaseInLoop {c : ℕ} {conn : ConnLife} (hconn : s.conns c = some conn)
      (hcopies : conn.copies ≠ 0) (huser : s.pc.isUser) :
      Takes s (.release c true) ((s.setConn c { conn with copies := conn.copies - 1 }).reap c)
  | releaseOutside {c : ℕ} {conn : ConnLife} (hconn : s.conns c = some conn)
      (hcopies : conn.copies ≠ 0)
      (hshared : 0 < (s.setConn c { conn with copies := conn.copies - 1 }).refs c ∨
        s.registered (.conn c) = false) :
      Takes s (.release c false) (s.setConn c { conn with copies := conn.copies - 1 })
  | queueInLoop : Takes s .queueInLoop (s.queueInLoop .functor)
  | addTimer {j : ℕ} {mIsRepeating : Bool} {s' : LoopObjects}
      (hstart : s.startTimer j (.user mIsRepeating) = some s') :
      Takes s (.addTimer j mIsRepeating) s'
  | removeTimer {j : ℕ} : Takes s (.removeTimer j) (s.queueInLoop (.removeTimer j))
  | createServer {k : ℕ} (huser : s.pc.isUser) (hfresh : s.servers k = false) :
      Takes s (.createServer k)
        ({ s with servers := update s.servers k true }.register (.listen k))
  | createClient {k : ℕ} (huser : s.pc.isUser) (hfresh : s.clients k = none) :
      Takes s (.createClient k) (s.setClient k (some ⟨.disconnect, false, none⟩))
  | destroyServer {k : ℕ} (huser : s.pc.isUser) (hreg : s.registered (.listen k) = true) :
      Takes s (.destroyServer k) (s.destroyServer k)
  | destroyClient {k : ℕ} {client : ClientLife} (huser : s.pc.isUser)
      (hclient : s.clients k = some (some client)) :
      Takes s (.destroyClient k) (s.destroyClient k client)
  | connect {k : ℕ} {io : ObjectIo} {s' : LoopObjects} (huser : s.pc.isUser)
      (htrans : s.transStateInLoop k .connecting io = some s') : Takes s (.connect k io) s'
  | disconnect {k : ℕ} {client : ClientLife} (hclient : s.clients k = some (some client))
      (hconnection : client.mConnection ≠ none) :
      Takes s (.disconnect k) (s.queueInLoop (.transState k .forceDisconnected))
  | disconnectNone {k : ℕ} {client : ClientLife} (hclient : s.clients k = some (some client))
      (hconnection : client.mConnection = none) : Takes s (.disconnect k) s
  | destroyLoop (hpc : s.pc = .outside) : Takes s .destroyLoop s.destroyLoop
  | startLoop (hpc : s.pc = .outside) : Takes s .startLoop (s.setPc .polling)
  | poll {active : List ChannelRef} (hpc : s.pc = .polling) (hnodup : active.Nodup)
      (hreg : ∀ ref ∈ active, s.registered ref = true) :
      Takes s (.poll active) (s.setPc (.dispatching active))
  | dispatch {ref : ChannelRef} {active : List ChannelRef} {event : ChannelEvent} {io : ObjectIo}
      {s' : LoopObjects} (hpc : s.pc = .dispatching (ref :: active))
      (hreg : s.registered ref = true)
      (hhandle : (s.setPc (.dispatching active)).handleEvent ref active io event = some s') :
      Takes s (.dispatch event io) s'
  | passOver {ref : ChannelRef} {active : List ChannelRef} {event : ChannelEvent} {io : ObjectIo}
      (hpc : s.pc = .dispatching (ref :: active)) (hreg : s.registered ref ≠ true) :
      Takes s (.dispatch event io) (s.setPc (.dispatching active))
  | handleClose {c : ℕ} {guard : Option ℕ} {active : List ChannelRef} {conn : ConnLife}
      {s' : LoopObjects} (hpc : s.pc = .handling (.conn c) guard active)
      (hconn : s.conns c = some conn) (hopen : conn.disConnected = false)
      (hclose : s.handleClose c conn = some s') : Takes s .handleClose s'
  | handlerReturn {ref : ChannelRef} {guard : Option ℕ} {active : List ChannelRef}
      {s' : LoopObjects} (hpc : s.pc = .handling ref guard active)
      (hreturn : s.handlerReturn ref guard active = some s') : Takes s .handlerReturn s'
  | swap (hpc : s.pc = .dispatching []) :
      Takes s .swap { s with pc := .running [] s.mPendingTasks, mPendingTasks := [] }
  | next {called tasks : List LifeTask} {task : LifeTask} {io : ObjectIo} {s' : LoopObjects}
      (hpc : s.pc = .running called (task :: tasks))
      (htask : (s.setPc (.running (called ++ [task]) tasks)).runTask io task = some s') :
      Takes s (.next io) s'
  | finish {called : List LifeTask} {mIsExit : Bool} (hpc : s.pc = .running called []) :
      Takes s (.finish mIsExit) (s.setPc (if mIsExit then .outside else .polling))

/-- **The cases of a step.** -/
theorem takes_of_step {i : LifeStep} (h : s.step i = some s') : s.Takes i s' := by
  -- a destroyed loop takes no step
  unfold step at h
  split_ifs at h
  cases i with
  | send c =>
    simp only [stepLive] at h
    split_ifs at h with hcopies
    obtain ⟨conn, hconn, hpos⟩ := (Option.any_eq_true _ _).mp hcopies
    exact (Option.some.inj h) ▸ .send hconn (of_decide_eq_true hpos)
  | shutdownConnection c =>
    simp only [stepLive] at h
    split_ifs at h with hrefs
    exact (Option.some.inj h) ▸ .shutdownConnection hrefs
  | copy c =>
    simp only [stepLive] at h
    split at h
    next conn hconn =>
      split_ifs at h with hrefs
      exact (Option.some.inj h) ▸ .copy hconn hrefs
    next => cases h
  -- in the loop the copy may be the last reference, outside it only of one without a channel
  | release c inLoop =>
    simp only [stepLive, release] at h
    split at h
    next conn hconn =>
      split_ifs at h with hcopies hinLoop huser hshared
      · subst hinLoop
        exact (Option.some.inj h) ▸ .releaseInLoop hconn hcopies huser
      · obtain rfl := Bool.eq_false_iff.mpr hinLoop
        exact (Option.some.inj h) ▸ .releaseOutside hconn hcopies hshared
    next => cases h
  | queueInLoop => exact (Option.some.inj h) ▸ .queueInLoop
  | addTimer j mIsRepeating => exact .addTimer h
  | removeTimer j => exact (Option.some.inj h) ▸ .removeTimer
  | createServer k =>
    simp only [stepLive] at h
    split_ifs at h with hk
    exact (Option.some.inj h) ▸ .createServer hk.1 hk.2
  | createClient k =>
    simp only [stepLive] at h
    split_ifs at h with hk
    exact (Option.some.inj h) ▸ .createClient hk.1 hk.2
  | destroyServer k =>
    simp only [stepLive] at h
    split_ifs at h with hk
    exact (Option.some.inj h) ▸ .destroyServer hk.1 hk.2
  | destroyClient k =>
    simp only [stepLive] at h
    split at h
    next client hclient =>
      split_ifs at h with huser
      exact (Option.some.inj h) ▸ .destroyClient huser hclient
    next => cases h
  | connect k io =>
    simp only [stepLive] at h
    split_ifs at h with huser
    exact .connect huser h
  -- without a connection nothing is queued
  | disconnect k =>
    simp only [stepLive] at h
    split at h
    next client hclient =>
      split_ifs at h with hconnection
      · exact (Option.some.inj h) ▸ .disconnect hclient hconnection
      · exact (Option.some.inj h) ▸ .disconnectNone hclient (not_not.mp hconnection)
    next => cases h
  | destroyLoop =>
    simp only [stepLive] at h
    split_ifs at h with hpc
    exact (Option.some.inj h) ▸ .destroyLoop hpc
  | startLoop =>
    simp only [stepLive] at h
    split_ifs at h with hpc
    exact (Option.some.inj h) ▸ .startLoop hpc
  | poll active =>
    simp only [stepLive] at h
    split_ifs at h with hpoll
    exact (Option.some.inj h) ▸ .poll hpoll.1 hpoll.2.1 hpoll.2.2
  -- a channel that has been removed since `epoll_wait` is passed over
  | dispatch event io =>
    simp only [stepLive] at h
    split at h
    next ref active hpc =>
      split_ifs at h with hreg
      · exact .dispatch hpc hreg h
      · exact (Option.some.inj h) ▸ .passOver hpc hreg
    next => cases h
  -- only the channel of a connection has one, and it runs once
  | handleClose =>
    simp only [stepLive] at h
    split at h
    next hpc =>
      split at h
      next conn hconn =>
        split_ifs at h with hopen
        exact .handleClose hpc hconn (Bool.eq_false_iff.mpr hopen) h
      next => cases h
    next => cases h
  | handlerReturn =>
    simp only [stepLive] at h
    split at h
    next hpc => exact .handlerReturn hpc h
    next => cases h
  | swap =>
    simp only [stepLive] at h
    split at h
    next hpc => exact (Option.some.inj h) ▸ .swap hpc
    next => cases h
  | next io =>
    simp only [stepLive] at h
    split at h
    next hpc => exact .next hpc h
    next => cases h
  | finish mIsExit =>
    simp only [stepLive] at h
    split at h
    next hpc => exact (Option.some.inj h) ▸ .finish hpc
    next => cases h

end LoopObjects

end SimpleTcp
