import SimpleTcp.Library.Positions
import SimpleTcp.Tcp.Server
import SimpleTcp.Tcp.Teardown

/-!
# The connection set of a server with a pool of loops

A server whose pool has threads accepts a connection in one thread, and another thread serves it as
soon as `establishConnect` has made it readable; only then does the accepting thread insert it in
`mConnectionSet`. The task of the close callback destroys the connection and then erases it. Without
threads in the pool, one loop does all of this, one step at a time.

A server is run here at the grain at which its threads interleave: accepting is three steps, and the
task of the close callback is two.

## Main definitions

* `Session.Counted`: a session has at most one close task, and none when it is destroyed
* `Session.early`: an event that the loop of a new connection handles before `establishConnect`
* `Accepting`, `PooledServer`, `PooledServer.step`: the server and the steps of its threads
* `PooledServer.AllRun`, `PooledServer.Exact`: every task has run, and the set holds the connections
  that are established and not destroyed
* `PooledServer.InsertedFirst`: a connection is not erased while its insertion is still to come
* `PooledServer.Stale`: a destroyed connection stays in the set, or is about to be inserted

## Main results

* `Session.same_or_destroys`: a session destroys its connection in the close task, and only there
* `PooledServer.moves_of_ok`: what a completed step does
* `PooledServer.inv_step`, `PooledServer.stale_step`: the invariant, and the step that makes the set
  stale
* `PooledServer.exact_iff`: the runs after which the set is exact
* `PooledServer.exact_of_no_threads`: without threads in the pool it always is
-/

namespace SimpleTcp

open TcpConnection Machine Positions

/-! ### The close task of a session -/

namespace Session

/-- The close tasks of the session. -/
def closeTasks (t : Session) : Nat :=
  t.ctx.mPendingTasks.count .close + (t.batch.getD []).count .close

/-- The connection is not destroyed. -/
def Alive (t : Session) : Prop := t.ctx.conn.mpChannel ≠ none

/-- The connection is established and not destroyed. -/
def Live (t : Session) : Prop := t.established = true ∧ t.Alive

/-- The connection is destroyed. -/
def Gone (t : Session) : Prop := t.established = true ∧ ¬ t.Alive

/-- A session has one close task from `handleClose` until it is destroyed, and else none. -/
structure Counted (t : Session) : Prop where
  fresh : t.established = false →
    t.closeTasks = 0 ∧ t.ctx.conn.mState = .disConnected ∧ t.Alive
  once : t.established = true → t.Alive → t.closeTasks + t.ctx.conn.toClose = 1
  gone : t.established = true → ¬ t.Alive → t.closeTasks + t.ctx.conn.toClose = 0

theorem created_counted : created.Counted :=
  ⟨fun _ => ⟨rfl, rfl, by simp [Alive, created, TcpConnection.create]⟩,
    fun h => absurd h Bool.false_ne_true, fun h => absurd h Bool.false_ne_true⟩

variable {t t' : Session}

/-- A step that leaves the close tasks and the channel as they are. -/
structure Same (t t' : Session) : Prop where
  established : t'.established = t.established
  alive : t'.Alive ↔ t.Alive
  closes : t'.closeTasks + t'.ctx.conn.toClose = t.closeTasks + t.ctx.conn.toClose
  fresh : t.established = false → t.ctx.conn.mState = .disConnected →
    t'.ctx.conn.mState = .disConnected

theorem Same.counted (h : Same t t') (hc : t.Counted) : t'.Counted := by
  refine ⟨fun hest => ?_, fun hest hal => ?_, fun hest hal => ?_⟩
  · rw [h.established] at hest
    obtain ⟨hzero, hst, hal⟩ := hc.fresh hest
    have hst' := h.fresh hest hst
    have hcloses := h.closes
    rw [hzero, toClose, toClose, if_pos hst, if_pos hst'] at hcloses
    exact ⟨hcloses, hst', h.alive.mpr hal⟩
  · rw [h.closes]
    exact hc.once (h.established ▸ hest) (h.alive.mp hal)
  · rw [h.closes]
    exact hc.gone (h.established ▸ hest) fun hal' => hal (h.alive.mpr hal')

theorem Same.live (h : Same t t') : t'.Live ↔ t.Live := by
  rw [Live, h.established, h.alive, Live]

theorem Same.gone (h : Same t t') : t'.Gone ↔ t.Gone := by
  rw [Gone, h.established, h.alive, Gone]

theorem Same.refl (t : Session) : Same t t := ⟨rfl, Iff.rfl, rfl, fun _ => id⟩

theorem run_onCtx_eq_ok {x : ConnM Unit} (h : (onCtx x).run t = .ok () t') :
    t' = { t with ctx := final (x.run t.ctx) } := by
  change onCtx x t = _ at h
  unfold onCtx at h
  cases hx : x.run t.ctx with
  | ok u c =>
    rw [hx] at h
    cases h
    rfl
  | error e c =>
    rw [hx] at h
    cases h

/-- A program that closes the connection once, if at all, and not before it is established. -/
theorem same_of_closesOnce {x : ConnM Unit} (hx : ClosesOnce x)
    (hfresh : t.established = false → t.ctx.conn.mState = .disConnected →
      (final (x.run t.ctx)).conn.mState = .disConnected)
    (h : (onCtx x).run t = .ok () t') : Same t t' := by
  obtain rfl := run_onCtx_eq_ok h
  have hcl : (final (x.run t.ctx)).closes = t.ctx.closes := hx _ t.ctx rfl
  simp only [Ctx.closes, Prod.mk.injEq] at hcl
  refine ⟨rfl, ?_, ?_, hfresh⟩
  · simp only [Alive, ne_eq, ← Option.not_isSome_iff_eq_none]
    rw [hcl.2]
  · simp only [closeTasks]
    omega

theorem same_of_still {x : ConnM Unit} (hx : Still x) (h : (onCtx x).run t = .ok () t') :
    Same t t' := by
  refine same_of_closesOnce hx.closesOnce (fun _ hst => ?_) h
  have hopen : (final (x.run t.ctx)).openness = t.ctx.openness := hx _ t.ctx rfl
  exact (congrArg Prod.fst hopen).trans hst

theorem still_queueInLoop {u : ConnTask} (hu : u ≠ .close) : Still (queueInLoop u) :=
  still_modify fun s => by simp [Ctx.openness, hu]

/-- The session has destroyed its connection. -/
structure Destroys (t t' : Session) : Prop where
  established : t.established = true
  alive : t.Alive
  established' : t'.established = true
  gone : ¬ t'.Alive
  closes : t'.closeTasks + t'.ctx.conn.toClose = 0

theorem Destroys.counted (h : Destroys t t') : t'.Counted := by
  refine ⟨fun hest => ?_, fun _ hal => absurd hal h.gone, fun _ _ => h.closes⟩
  rw [h.established'] at hest
  cases hest

/-- A close task is there only while the connection is closed and not destroyed. -/
theorem destroys_close (hc : t.Counted) {us : List ConnTask} (hb : t.batch = some (.close :: us))
    {io : TaskIo} (hrun : (step (.task io)).run t = .ok () t') : Destroys t t' := by
  have hpos : t.closeTasks = t.ctx.mPendingTasks.count .close + (us.count .close + 1) := by
    rw [closeTasks, hb, Option.getD_some, List.count_cons_self]
  have hest : t.established = true := by
    by_contra hest
    have hzero := (hc.fresh (by simpa using hest)).1
    omega
  have hal : t.Alive := by
    by_contra hal
    have hzero := hc.gone hest hal
    omega
  have hone := hc.once hest hal
  have hst : t.ctx.conn.mState = .disConnected := by
    by_contra hst
    rw [toClose, if_neg hst] at hone
    omega
  -- The one close task of the session is the one that runs, so none is left behind it.
  rw [run_task_cons hb] at hrun
  obtain rfl := run_onCtx_eq_ok hrun
  have hfinal : final ((runConnTask io .close).run t.ctx) = t.ctx.destroyed := by
    rw [runConnTask, run_destroyConnection hst]
    rfl
  refine ⟨hest, hal, hest, ?_, ?_⟩
  · simp [Alive, hfinal, Ctx.destroyed]
  · simp only [closeTasks, hfinal, Option.getD_some]
    change _ + t.ctx.conn.toClose = 0
    change t.ctx.mPendingTasks.count .close + us.count .close + t.ctx.conn.toClose = 0
    omega

theorem same_event {mRevent : EventMask} {io : EventIo}
    (hrun : (step (.event mRevent io)).run t = .ok () t') : Same t t' := by
  by_cases hcan : t.CanDispatch
  · rw [run_event hcan] at hrun
    have hsame := same_of_closesOnce (t := { t with dispatched := true })
      (closesOnce_handleEvent mRevent io) (fun hest => ?_) hrun
    · exact ⟨hsame.established, hsame.alive, hsame.closes, hsame.fresh⟩
    · -- only an established connection is dispatched
      have hest' : t.established = false := hest
      rw [hcan.1] at hest'
      cases hest'
  · rw [run_event_of_not_canDispatch hcan] at hrun
    cases hrun
    exact Same.refl t

theorem same_task {io : TaskIo} (hnot : ¬ TcpServer.RunsClose t (.task io))
    (hrun : (step (.task io)).run t = .ok () t') : Same t t' := by
  rcases t.batch_cases with hb | ⟨u, us, hb⟩
  · rw [run_task_of_empty hb] at hrun
    cases hrun
    exact Same.refl t
  · have hu : u ≠ .close := by
      rintro rfl
      exact hnot (by simp [TcpServer.RunsClose, hb])
    rw [run_task_cons hb] at hrun
    have hsame := same_of_closesOnce (t := { t with batch := some us })
      (closesOnce_runConnTask io hu) (fun _ hst => ?_) hrun
    · refine ⟨hsame.established, hsame.alive, hsame.closes.trans ?_, hsame.fresh⟩
      simp [closeTasks, hb, hu]
    · rw [run_connTask_of_disConnected hst hu]
      exact hst

theorem same_doPendingTasks (hrun : (step .doPendingTasks).run t = .ok () t') : Same t t' := by
  rcases doPendingTasks_cases hrun with rfl | ⟨hb, rfl⟩
  · exact Same.refl _
  · exact ⟨rfl, Iff.rfl, by simp [closeTasks, hb], fun _ => id⟩

theorem same_poll (hrun : (step .poll).run t = .ok () t') : Same t t' := by
  rcases poll_cases hrun with rfl | ⟨hb, rfl⟩
  · exact Same.refl _
  · exact ⟨rfl, Iff.rfl, by simp [closeTasks, hb], fun _ => id⟩

/-- **The close task destroys the connection**, and no other step closes it for good. -/
theorem same_or_destroys (hc : t.Counted) {i : SessionEvent} (hi : ∀ cs, i ≠ .establish cs)
    (hrun : (step i).run t = .ok () t') :
    ¬ TcpServer.RunsClose t i ∧ Same t t' ∨ TcpServer.RunsClose t i ∧ Destroys t t' := by
  cases i with
  | establish cs => exact absurd rfl (hi cs)
  | event mRevent io => exact .inl ⟨id, same_event hrun⟩
  | calls cs => exact .inl ⟨id, same_of_still (still_runCalls cs) hrun⟩
  | queueSend data => exact .inl ⟨id, same_of_still (still_queueInLoop (by simp)) hrun⟩
  | queueShutdown => exact .inl ⟨id, same_of_still (still_queueInLoop (by simp)) hrun⟩
  | doPendingTasks => exact .inl ⟨id, same_doPendingTasks hrun⟩
  | task io =>
    by_cases hclose : TcpServer.RunsClose t (.task io)
    · refine .inr ⟨hclose, ?_⟩
      unfold TcpServer.RunsClose at hclose
      split at hclose
      · rename_i hb
        exact destroys_close hc hb hrun
      · exact hclose.elim
    · exact .inl ⟨hclose, same_task hclose hrun⟩
  | poll => exact .inl ⟨id, same_poll hrun⟩

/-- The event of the channel, when the loop handles it before `establishConnect` has run. -/
def early (mRevent : EventMask) (io : EventIo) : EStateM Stop Session Unit := do
  let s ← get
  if s.established = false ∧ s.dispatched = false ∧ s.batch = none then
    modify fun s => { s with dispatched := true }
    onCtx (handleEvent mRevent io)

/-- The handlers of a connection that is not connected leave its state, also where they stop. -/
theorem keeps_disConnected_handleEvent (mRevent : EventMask) (io : EventIo) :
    Keeps (fun c : Ctx => c.conn.mState = .disConnected) (handleEvent mRevent io) := by
  have hread : Keeps (fun c : Ctx => c.conn.mState = .disConnected) (handleRead io.read) := by
    intro c hc
    rw [run_handleRead_of_disConnected hc]
    exact hc
  have hwrite : Keeps (fun c : Ctx => c.conn.mState = .disConnected) (handleWrite io.write) := by
    intro c hc
    rw [run_handleWrite_of_not_connected (by simp [hc])]
    exact hc
  rcases Channel.closes_or_errors_or_ready mRevent with hclose | herror | hready
  · intro c hc
    rw [handleEvent, Channel.handleEvent_of_closes _ _ _ _ hclose,
      run_handleClose_of_disConnected hc]
    exact hc
  · intro c hc
    rw [handleEvent, Channel.handleEvent_of_errors _ _ _ _ herror]
    exact hc
  · rw [handleEvent, Channel.handleEvent_of_ready _ _ _ _ hready]
    have htail : Keeps (fun c : Ctx => c.conn.mState = .disConnected)
        (if mRevent.Meets EPOLLOUT then handleWrite io.write else pure ()) :=
      Keeps.ite (fun _ => hwrite) fun _ => Keeps.pure _
    exact Keeps.ite (fun _ => hread.bind fun _ => htail) fun _ => htail

theorem same_early {mRevent : EventMask} {io : EventIo}
    (hrun : (early mRevent io).run t = .ok () t') : Same t t' := by
  by_cases hcan : t.established = false ∧ t.dispatched = false ∧ t.batch = none
  · have hstep : (early mRevent io).run t =
        (onCtx (handleEvent mRevent io)).run { t with dispatched := true } := by
      simp [early, EStateM.run_bind, EStateM.run_get, hcan]
    rw [hstep] at hrun
    have hsame := same_of_closesOnce (t := { t with dispatched := true })
      (closesOnce_handleEvent mRevent io)
      (fun _ hst => keeps_disConnected_handleEvent mRevent io t.ctx hst) hrun
    exact ⟨hsame.established, hsame.alive, hsame.closes, hsame.fresh⟩
  · have hsame : t = t' := by
      simpa [early, EStateM.run_bind, EStateM.run_get, hcan] using hrun
    exact hsame ▸ Same.refl t

/-- A new connection, when `establishConnect` has returned. -/
theorem counted_establish (hc : t.Counted) (hnew : t.established = false) {cs : List UserCall}
    (hrun : (step (.establish cs)).run t = .ok () t') :
    t'.Counted ∧ t'.established = true ∧ t'.Alive := by
  obtain ⟨hzero, -, hal⟩ := hc.fresh hnew
  obtain ⟨ch, hch⟩ := Option.ne_none_iff_exists'.mp hal
  have hstep : (step (.establish cs)).run t =
      (onCtx (establishConnect cs)).run { t with established := true } := by
    simp [step, EStateM.run_bind, EStateM.run_get, hnew]
  rw [hstep] at hrun
  obtain rfl := run_onCtx_eq_ok hrun
  have hopen : (final ((establishConnect cs).run t.ctx)).openness =
      (t.ctx.established ch).openness := by
    rw [run_establishConnect hch]
    exact still_runCalls cs _ _ rfl
  simp only [Ctx.openness, Ctx.established, Prod.mk.injEq] at hopen
  obtain ⟨hst, hcount, hsome⟩ := hopen
  have halive : (final ((establishConnect cs).run t.ctx)).conn.mpChannel ≠ none := by
    rw [← Option.isSome_iff_ne_none, hsome]
    rfl
  refine ⟨⟨fun hest => (Bool.false_ne_true hest.symm).elim, fun _ _ => ?_, fun _ hal' => ?_⟩, rfl,
    halive⟩
  · simp only [closeTasks] at hzero ⊢
    rw [hcount, toClose, hst, if_neg (by simp)]
    omega
  · exact absurd halive hal'

end Session

/-! ### A server with a pool of loops -/

/-- Where the accepting thread is in `createNewConnectionInSubLoop`. -/
inductive Accepting where
  | idle
  | created (pos : Nat)
  | established (pos : Nat)
  deriving DecidableEq, Repr

/-- `erasing` holds the positions whose close task has destroyed the connection and has still to
erase it from `mConnectionSet`. -/
structure PooledServer where
  maxThreadNum : Nat
  server : TcpServer
  accepting : Accepting
  erasing : List Nat

inductive PooledEvent where
  /-- The listen socket is readable, and `accept4` gives the result. -/
  | accept (res : AcceptResult)
  /-- The accepting thread runs `establishConnect`. -/
  | establish (onConnection : List UserCall)
  /-- The accepting thread inserts the new connection. -/
  | insert
  /-- The loop of a new connection handles its event before `establishConnect` has run. -/
  | early (pos : Nat) (mRevent : EventMask) (io : EventIo)
  /-- A step of the connection at the position. -/
  | conn (pos : Nat) (i : SessionEvent)
  /-- The close task of the connection at the position erases it. -/
  | erase (pos : Nat)

namespace PooledServer

def start (maxThreadNum : Nat) (mIpProtocol : IpProtocol) : PooledServer :=
  ⟨maxThreadNum, TcpServer.start mIpProtocol, .idle, []⟩

/-- A step of another thread than that of the loop, or of a callback of another connection. -/
def Foreign : SessionEvent → Prop
  | .calls _ | .queueSend _ | .queueShutdown => True
  | _ => False

instance : ∀ i, Decidable (Foreign i)
  | .calls _ | .queueSend _ | .queueShutdown => inferInstanceAs (Decidable True)
  | .establish _ | .event _ _ | .doPendingTasks | .task _ | .poll =>
    inferInstanceAs (Decidable False)

/-- The step is `establishConnect`, which only the accepting thread runs. -/
def Establishes : SessionEvent → Prop
  | .establish _ => True
  | _ => False

instance : ∀ i, Decidable (Establishes i)
  | .establish _ => inferInstanceAs (Decidable True)
  | .queueSend _ | .queueShutdown | .event _ _ | .calls _ | .doPendingTasks | .task _ | .poll =>
    inferInstanceAs (Decidable False)

/-- The thread that accepts is free; without threads in the pool it also runs the close tasks. -/
def MayAccept (s : PooledServer) : Prop :=
  s.accepting = .idle ∧ (s.maxThreadNum = 0 → s.erasing = [])

/-- The loop of the connection can take the step; without threads in the pool it is the loop that
accepts. -/
def MayRun (s : PooledServer) (i : SessionEvent) : Prop :=
  ¬ Establishes i ∧ (s.maxThreadNum = 0 → Foreign i ∨ s.accepting = .idle ∧ s.erasing = [])

instance (s : PooledServer) : Decidable s.MayAccept := inferInstanceAs (Decidable (_ ∧ _))

instance (s : PooledServer) (i : SessionEvent) : Decidable (s.MayRun i) :=
  inferInstanceAs (Decidable (_ ∧ _))

/-- `Socket::accept`, on the listen socket. -/
def accept (res : AcceptResult) : EStateM Stop PooledServer Unit := fun s =>
  match (TcpServer.accept s.server.mIpProtocol res).run s.server with
  | .ok _ _ => .ok () s
  | .error e _ => .error e s

/-- A step of the session at the position. -/
def onSession (pos : Nat) (x : EStateM Stop Session Unit) : EStateM Stop PooledServer Unit :=
  fun s =>
    match s.server.sessions[pos]? with
    | some t =>
      match x.run t with
      | .ok _ t' => .ok () { s with server.sessions := s.server.sessions.set pos t' }
      | .error e t' => .error e { s with server.sessions := s.server.sessions.set pos t' }
    | none => .ok () s

/-- A step that its thread is not ready for does nothing. -/
def step : PooledEvent → EStateM Stop PooledServer Unit
  | .accept res => do
    if (← get).MayAccept then
      accept res
      -- at the limit the new connection is dropped, and its socket closed
      if (← get).server.mConnectionSet.length ≠ TcpServer.MAX_CONNECTION_NUMS then
        modify fun s => { s with
          server.sessions := s.server.sessions ++ [Session.created]
          accepting := .created s.server.sessions.length }
  | .establish onConnection => do
    match (← get).accepting with
    | .created pos =>
      onSession pos (Session.step (.establish onConnection))
      modify fun s => { s with accepting := .established pos }
    | _ => pure ()
  | .insert => modify fun s =>
    match s.accepting with
    | .established pos => { s with
        server.mConnectionSet := s.server.mConnectionSet ++ [pos]
        accepting := .idle }
    | _ => s
  | .early pos mRevent io => do
    if (← get).maxThreadNum ≠ 0 then onSession pos (Session.early mRevent io)
  | .conn pos i => do
    let s ← get
    if s.MayRun i then
      onSession pos (Session.step i)
      -- the close task goes on to erase the connection, in a step of its own
      if ∃ t ∈ s.server.sessions[pos]?, TcpServer.RunsClose t i then
        modify fun s => { s with erasing := s.erasing ++ [pos] }
  | .erase pos => modify fun s =>
    if pos ∈ s.erasing then { s with
      server.mConnectionSet := s.server.mConnectionSet.erase pos
      erasing := s.erasing.erase pos }
    else s

/-- The accepting thread is not accepting, and every queued task has run. -/
structure AllRun (s : PooledServer) : Prop where
  accepting : s.accepting = .idle
  erasing : s.erasing = []
  tasks : ∀ t ∈ s.server.sessions, t.ctx.mPendingTasks = [] ∧ t.batch.getD [] = []

instance (s : PooledServer) : Decidable s.AllRun :=
  decidable_of_iff (s.accepting = .idle ∧ s.erasing = [] ∧
      ∀ t ∈ s.server.sessions, t.ctx.mPendingTasks = [] ∧ t.batch.getD [] = [])
    ⟨fun ⟨h, h', h''⟩ => ⟨h, h', h''⟩, fun h => ⟨h.accepting, h.erasing, h.tasks⟩⟩

/-- `mConnectionSet` holds each connection that is established and not destroyed, once, and no other
one. -/
def Exact (s : PooledServer) : Prop :=
  s.server.mConnectionSet.Nodup ∧
    ∀ pos, pos ∈ s.server.mConnectionSet ↔ At s.server.sessions pos Session.Live

/-- When a close task erases its connection, the accepting thread is not about to insert it. -/
def InsertedFirst (s : PooledServer) : PooledEvent → Prop
  | .erase pos => pos ∈ s.erasing → s.accepting ≠ .established pos
  | _ => True

instance (s : PooledServer) : ∀ i, Decidable (s.InsertedFirst i)
  | .erase _ => inferInstanceAs (Decidable (_ → _))
  | .accept _ | .establish _ | .insert | .early _ _ _ | .conn _ _ =>
    inferInstanceAs (Decidable True)

variable {s s' : PooledServer}

/-! ### What a completed step does -/

/-- What a completed step does when its thread is ready for it. -/
inductive Moves (s : PooledServer) : PooledEvent → PooledServer → Prop
  | none {i : PooledEvent} : (∀ pos, i = .erase pos → pos ∉ s.erasing) → Moves s i s
  | accepted {res : AcceptResult} : s.MayAccept → Moves s (.accept res) { s with
    server.sessions := s.server.sessions ++ [Session.created]
    accepting := .created s.server.sessions.length }
  | established {pos : Nat} {t t' : Session} {onConnection : List UserCall} :
    s.accepting = .created pos → s.server.sessions[pos]? = some t →
    (Session.step (.establish onConnection)).run t = .ok () t' →
    Moves s (.establish onConnection) { s with
      server.sessions := s.server.sessions.set pos t'
      accepting := .established pos }
  | inserted {pos : Nat} : s.accepting = .established pos → Moves s .insert { s with
    server.mConnectionSet := s.server.mConnectionSet ++ [pos]
    accepting := .idle }
  | early {pos : Nat} {mRevent : EventMask} {io : EventIo} {t t' : Session} :
    s.server.sessions[pos]? = some t → (Session.early mRevent io).run t = .ok () t' →
    Moves s (.early pos mRevent io) { s with server.sessions := s.server.sessions.set pos t' }
  | conn {pos : Nat} {i : SessionEvent} {t t' : Session} : s.MayRun i →
    s.server.sessions[pos]? = some t → (Session.step i).run t = .ok () t' →
    Moves s (.conn pos i) { s with
      server.sessions := s.server.sessions.set pos t'
      erasing := if TcpServer.RunsClose t i then s.erasing ++ [pos] else s.erasing }
  | erased {pos : Nat} : pos ∈ s.erasing → Moves s (.erase pos) { s with
    server.mConnectionSet := s.server.mConnectionSet.erase pos
    erasing := s.erasing.erase pos }

theorem moves_accept {res : AcceptResult} (hrun : (step (.accept res)).run s = .ok () s') :
    Moves s (.accept res) s' := by
  by_cases hmay : s.MayAccept
  · have hstep : (step (.accept res)).run s =
        (do
          accept res
          if (← get).server.mConnectionSet.length ≠ TcpServer.MAX_CONNECTION_NUMS then
            modify fun s => { s with
              server.sessions := s.server.sessions ++ [Session.created]
              accepting := .created s.server.sessions.length } :
          EStateM Stop PooledServer Unit).run s := by
      simp [step, EStateM.run_bind, EStateM.run_get, hmay]
    rw [hstep, EStateM.run_bind] at hrun
    -- accepting changes nothing, and may throw
    have haccept : (accept res).run s = .ok () s ∨ ∃ e, (accept res).run s = .error e s := by
      change accept res s = _ ∨ ∃ e, accept res s = _
      unfold accept
      cases (TcpServer.accept s.server.mIpProtocol res).run s.server with
      | ok u srv => exact .inl rfl
      | error e srv => exact .inr ⟨e, rfl⟩
    rcases haccept with haccept | ⟨e, haccept⟩
    · simp only [haccept, EStateM.run_bind, EStateM.run_get] at hrun
      -- a full server closes the socket again
      split at hrun
      · cases hrun
        exact .accepted hmay
      · cases hrun
        exact .none (by simp)
    · simp only [haccept] at hrun
      cases hrun
  · have hsame : s = s' := by simpa [step, EStateM.run_bind, EStateM.run_get, hmay] using hrun
    exact hsame ▸ .none (by simp)

theorem run_onSession_none {pos : Nat} (ht : s.server.sessions[pos]? = none)
    (x : EStateM Stop Session Unit) : (onSession pos x).run s = .ok () s := by
  change onSession pos x s = _
  unfold onSession
  rw [ht]

theorem run_onSession {pos : Nat} {t : Session} (ht : s.server.sessions[pos]? = some t)
    (x : EStateM Stop Session Unit) :
    (onSession pos x).run s =
      match x.run t with
      | .ok _ t' => .ok () { s with server.sessions := s.server.sessions.set pos t' }
      | .error e t' => .error e { s with server.sessions := s.server.sessions.set pos t' } := by
  change onSession pos x s = _
  unfold onSession
  rw [ht]

theorem moves_establish (h : ∀ pos, s.accepting = .created pos →
      At s.server.sessions pos fun t => t.established = false) {cs : List UserCall}
    (hrun : (step (.establish cs)).run s = .ok () s') : Moves s (.establish cs) s' := by
  cases hacc : s.accepting with
  | created pos =>
    obtain ⟨t, ht, -⟩ := h pos hacc
    have hstep : (step (.establish cs)).run s =
        (do
          onSession pos (Session.step (.establish cs))
          modify fun s => { s with accepting := .established pos } :
          EStateM Stop PooledServer Unit).run s := by
      simp [step, EStateM.run_bind, EStateM.run_get, hacc]
    rw [hstep, EStateM.run_bind, run_onSession ht] at hrun
    cases hok : (Session.step (.establish cs)).run t with
    | ok u t' =>
      simp only [hok] at hrun
      cases hrun
      exact .established hacc ht hok
    | error e t' =>
      simp only [hok] at hrun
      cases hrun
  | _ =>
    have hsame : s = s' := by simpa [step, EStateM.run_bind, EStateM.run_get, hacc] using hrun
    exact hsame ▸ .none (by simp)

theorem moves_early {pos : Nat} {mRevent : EventMask} {io : EventIo}
    (hrun : (step (.early pos mRevent io)).run s = .ok () s') :
    Moves s (.early pos mRevent io) s' := by
  by_cases hmax : s.maxThreadNum = 0
  · have hsame : s = s' := by simpa [step, EStateM.run_bind, EStateM.run_get, hmax] using hrun
    exact hsame ▸ .none (by simp)
  · have hstep : (step (.early pos mRevent io)).run s =
        (onSession pos (Session.early mRevent io)).run s := by
      simp [step, EStateM.run_bind, EStateM.run_get, hmax]
    rw [hstep] at hrun
    cases ht : s.server.sessions[pos]? with
    | none =>
      rw [run_onSession_none ht] at hrun
      cases hrun
      exact .none (by simp)
    | some t =>
      rw [run_onSession ht] at hrun
      cases hok : (Session.early mRevent io).run t with
      | ok u t' =>
        rw [hok] at hrun
        cases hrun
        exact .early ht hok
      | error e t' =>
        rw [hok] at hrun
        cases hrun

theorem moves_conn {pos : Nat} {i : SessionEvent}
    (hrun : (step (.conn pos i)).run s = .ok () s') : Moves s (.conn pos i) s' := by
  by_cases hmay : s.MayRun i
  · cases ht : s.server.sessions[pos]? with
    | none =>
      -- there is no such connection
      have hon := run_onSession_none ht (Session.step i)
      have hsame : s = s' := by
        simpa [step, EStateM.run_bind, EStateM.run_get, hmay, hon, ht] using hrun
      exact hsame ▸ .none (by simp)
    | some t =>
      have hon := run_onSession ht (Session.step i)
      cases hok : (Session.step i).run t with
      | ok u t' =>
        rw [hok] at hon
        have hmove := Moves.conn hmay ht hok
        -- a close task queues the erasure
        by_cases hclose : TcpServer.RunsClose t i
        · simp only [step, EStateM.run_bind, EStateM.run_get, hmay, if_true, hon, ht,
            Option.mem_def, Option.some.injEq, exists_eq_left', hclose, EStateM.run_modify] at hrun
          cases hrun
          rwa [if_pos hclose] at hmove
        · simp only [step, EStateM.run_bind, EStateM.run_get, hmay, if_true, hon, ht,
            Option.mem_def, Option.some.injEq, exists_eq_left', hclose, if_false,
            EStateM.run_pure] at hrun
          cases hrun
          rwa [if_neg hclose] at hmove
      | error e t' =>
        rw [hok] at hon
        simp only [step, EStateM.run_bind, EStateM.run_get, hmay, if_true, hon] at hrun
        cases hrun
  · have hsame : s = s' := by simpa [step, EStateM.run_bind, EStateM.run_get, hmay] using hrun
    exact hsame ▸ .none (by simp)

/-- **Every completed step is one of the moves.** -/
theorem moves_of_ok (h : ∀ pos, s.accepting = .created pos →
      At s.server.sessions pos fun t => t.established = false) {i : PooledEvent}
    (hrun : (step i).run s = .ok () s') : Moves s i s' := by
  cases i with
  | accept res => exact moves_accept hrun
  | establish cs => exact moves_establish h hrun
  -- only an established connection is inserted
  | insert =>
    have hstep : (step .insert).run s = .ok () (match s.accepting with
      | .established pos => { s with
          server.mConnectionSet := s.server.mConnectionSet ++ [pos]
          accepting := .idle }
      | _ => s) := rfl
    obtain rfl := (EStateM.Result.ok.inj (hstep.symm.trans hrun)).2
    split
    · exact .inserted ‹_›
    · exact .none (by simp)
  | early pos mRevent io => exact moves_early hrun
  | conn pos i => exact moves_conn hrun
  -- and only one whose erasure was queued is erased
  | erase pos =>
    have hstep : (step (.erase pos)).run s = .ok () (if pos ∈ s.erasing then { s with
        server.mConnectionSet := s.server.mConnectionSet.erase pos
        erasing := s.erasing.erase pos }
      else s) := rfl
    obtain rfl := (EStateM.Result.ok.inj (hstep.symm.trans hrun)).2
    split
    · exact .erased ‹_›
    · rename_i hnot
      refine .none fun pos' heq => ?_
      cases heq
      exact hnot

/-! ### The invariant -/

/-- The invariant of a server with a pool. A connection that is not destroyed is in the set unless
its insertion is still to come; what the set holds of the destroyed ones is another matter
(`Stale`). -/
structure Inv (s : PooledServer) : Prop where
  counted : ∀ t ∈ s.server.sessions, t.Counted
  setNodup : s.server.mConnectionSet.Nodup
  erasingNodup : s.erasing.Nodup
  member : ∀ pos ∈ s.server.mConnectionSet, s.accepting ≠ .established pos ∧
    At s.server.sessions pos fun t => t.established = true
  erasing : ∀ pos ∈ s.erasing, At s.server.sessions pos Session.Gone
  created : ∀ pos, s.accepting = .created pos →
    At s.server.sessions pos fun t => t.established = false
  established : ∀ pos, s.accepting = .established pos →
    At s.server.sessions pos fun t => t.established = true
  live : ∀ pos, At s.server.sessions pos Session.Live → s.accepting ≠ .established pos →
    pos ∈ s.server.mConnectionSet
  oneLoop : s.maxThreadNum = 0 → s.accepting = .idle ∨ s.erasing = []

/-- A destroyed connection that no close task erases any more is in the set, or about to be. -/
structure StaleAt (s : PooledServer) (pos : Nat) : Prop where
  gone : At s.server.sessions pos Session.Gone
  erased : pos ∉ s.erasing
  member : s.accepting = .established pos ∨ pos ∈ s.server.mConnectionSet

def Stale (s : PooledServer) : Prop := ∃ pos, s.StaleAt pos

theorem exact_iff_not_stale (h : Inv s) (hrun : s.AllRun) : s.Exact ↔ ¬ s.Stale := by
  have hnot : ∀ pos, s.accepting ≠ .established pos := by simp [hrun.accepting]
  constructor
  · rintro ⟨-, hexact⟩ ⟨pos, hstale⟩
    have hset : pos ∈ s.server.mConnectionSet := hstale.member.resolve_left (hnot pos)
    obtain ⟨t, ht, -, hal⟩ := (hexact pos).mp hset
    exact ((at_iff_of_get ht).mp hstale.gone).2 hal
  · refine fun hstale => ⟨h.setNodup, fun pos => ⟨fun hset => ?_, fun hlive => ?_⟩⟩
    · obtain ⟨-, t, ht, hest⟩ := h.member pos hset
      refine ⟨t, ht, hest, ?_⟩
      by_contra hal
      exact hstale ⟨pos, ⟨t, ht, hest, hal⟩, by simp [hrun.erasing], .inr hset⟩
    · exact h.live pos hlive (hnot pos)

theorem inv_start (maxThreadNum : Nat) (mIpProtocol : IpProtocol) :
    Inv (start maxThreadNum mIpProtocol) := by
  constructor <;> simp [start, TcpServer.start, At]

theorem not_stale_start (maxThreadNum : Nat) (mIpProtocol : IpProtocol) :
    ¬ (start maxThreadNum mIpProtocol).Stale := by
  rintro ⟨pos, ⟨t, ht, -⟩, -⟩
  simp [start, TcpServer.start] at ht

/-! ### Accepting -/

theorem inv_accepted (h : Inv s) (hmay : s.MayAccept) :
    Inv { s with
      server.sessions := s.server.sessions ++ [Session.created]
      accepting := .created s.server.sessions.length } where
  counted := by
    intro t ht
    rcases List.mem_append.mp ht with hold | hnew
    · exact h.counted t hold
    · rw [List.mem_singleton.mp hnew]
      exact Session.created_counted
  setNodup := h.setNodup
  erasingNodup := h.erasingNodup
  member q hq := ⟨by simp, at_concat_iff.mpr (.inl (h.member q hq).2)⟩
  erasing q hq := at_concat_iff.mpr (.inl (h.erasing q hq))
  created := by
    rintro q hq
    cases hq
    exact at_concat_iff.mpr (.inr ⟨rfl, rfl⟩)
  established := by
    rintro q hq
    cases hq
  live := by
    rintro q hlive -
    rcases at_concat_iff.mp hlive with hold | ⟨-, hnew⟩
    · exact h.live q hold (by simp [hmay.1])
    · exact absurd hnew.1 Bool.false_ne_true
  oneLoop hmax := .inr (hmay.2 hmax)

theorem stale_accepted (hmay : s.MayAccept) :
    Stale { s with
      server.sessions := s.server.sessions ++ [Session.created]
      accepting := .created s.server.sessions.length } ↔ s.Stale := by
  refine exists_congr fun q => ⟨?_, ?_⟩
  · rintro ⟨hgone, herase, hmem⟩
    rcases at_concat_iff.mp hgone with hold | ⟨-, hnew⟩
    · exact ⟨hold, herase, .inr (hmem.resolve_left (by simp))⟩
    · exact absurd hnew.1 Bool.false_ne_true
  · rintro ⟨hgone, herase, hmem⟩
    exact ⟨at_concat_iff.mpr (.inl hgone), herase,
      .inr (hmem.resolve_left (by simp [hmay.1]))⟩

section

variable {pos : Nat} {t t' : Session}

theorem counted_set (h : Inv s) (ht' : t'.Counted) :
    ∀ u ∈ s.server.sessions.set pos t', u.Counted := by
  intro u hu
  rcases List.mem_or_eq_of_mem_set hu with hold | rfl
  · exact h.counted u hold
  · exact ht'

/-! ### Establishing and inserting -/

/-- A connection that was established before is not the new one. -/
theorem ne_of_established (ht : s.server.sessions[pos]? = some t) (hnew : t.established = false)
    {p : Session → Prop} (hp : ∀ u, p u → u.established = true) {q : Nat}
    (hq : At s.server.sessions q p) : q ≠ pos := by
  rintro rfl
  have hest := hp t ((at_iff_of_get ht).mp hq)
  rw [hnew] at hest
  cases hest

theorem inv_established (h : Inv s) (hacc : s.accepting = .created pos)
    (ht : s.server.sessions[pos]? = some t) {cs : List UserCall}
    (hrun : (Session.step (.establish cs)).run t = .ok () t') :
    Inv { s with
      server.sessions := s.server.sessions.set pos t'
      accepting := .established pos } := by
  -- it was only created, and the other clauses are about established ones
  have hnew : t.established = false := (at_iff_of_get ht).mp (h.created pos hacc)
  obtain ⟨hc, hest, hal⟩ :=
    Session.counted_establish (h.counted t (List.mem_of_getElem? ht)) hnew hrun
  constructor
  case counted => exact counted_set h hc
  case setNodup => exact h.setNodup
  case erasingNodup => exact h.erasingNodup
  case member =>
    intro q hq
    obtain ⟨-, hat⟩ := h.member q hq
    have hne : q ≠ pos := ne_of_established ht hnew (fun _ => id) hat
    exact ⟨fun heq => hne (Accepting.established.inj heq).symm, (at_set_of_ne hne).mpr hat⟩
  case erasing =>
    intro q hq
    have hat := h.erasing q hq
    exact (at_set_of_ne (ne_of_established ht hnew (fun _ => And.left) hat)).mpr hat
  case created =>
    rintro q hq
    cases hq
  case established =>
    rintro q hq
    cases hq
    exact (at_set_iff ht).mpr (.inl ⟨rfl, hest⟩)
  case live =>
    intro q hlive hne
    have hq : q ≠ pos := fun heq => hne (heq ▸ rfl)
    exact h.live q ((at_set_of_ne hq).mp hlive) (by simp [hacc])
  case oneLoop =>
    intro hmax
    exact .inr ((h.oneLoop hmax).resolve_left (by simp [hacc]))

theorem stale_established (h : Inv s) (hacc : s.accepting = .created pos)
    (ht : s.server.sessions[pos]? = some t) {cs : List UserCall}
    (hrun : (Session.step (.establish cs)).run t = .ok () t') :
    Stale { s with
      server.sessions := s.server.sessions.set pos t'
      accepting := .established pos } ↔ s.Stale := by
  have hnew : t.established = false := (at_iff_of_get ht).mp (h.created pos hacc)
  obtain ⟨-, -, hal⟩ := Session.counted_establish (h.counted t (List.mem_of_getElem? ht)) hnew hrun
  refine exists_congr fun q => ⟨?_, ?_⟩
  · rintro ⟨hgone, herase, hmem⟩
    rcases (at_set_iff ht).mp hgone with ⟨-, hgone'⟩ | ⟨hne, hold⟩
    · exact absurd hal hgone'.2
    · refine ⟨hold, herase, .inr (hmem.resolve_left fun heq => ?_)⟩
      exact hne (Accepting.established.inj heq).symm
  · rintro ⟨hgone, herase, hmem⟩
    have hne : q ≠ pos := ne_of_established ht hnew (fun _ => And.left) hgone
    exact ⟨(at_set_of_ne hne).mpr hgone, herase,
      .inr (hmem.resolve_left (by simp [hacc]))⟩

theorem inv_inserted (h : Inv s) (hacc : s.accepting = .established pos) :
    Inv { s with
      server.mConnectionSet := s.server.mConnectionSet ++ [pos]
      accepting := .idle } where
  counted := h.counted
  setNodup := by
    have hpos : pos ∉ s.server.mConnectionSet := fun hmem => (h.member pos hmem).1 hacc
    rw [← List.concat_eq_append]
    exact h.setNodup.concat hpos
  erasingNodup := h.erasingNodup
  member := by
    intro q hq
    refine ⟨by simp, ?_⟩
    rcases List.mem_append.mp hq with hold | hnew
    · exact (h.member q hold).2
    · rw [List.mem_singleton.mp hnew]
      exact h.established pos hacc
  erasing := h.erasing
  created := by
    rintro q hq
    cases hq
  established := by
    rintro q hq
    cases hq
  live := by
    rintro q hlive -
    -- no connection but this one was still to insert
    by_cases hq : q = pos
    · exact List.mem_append.mpr (.inr (List.mem_singleton.mpr hq))
    · refine List.mem_append.mpr (.inl (h.live q hlive fun heq => hq ?_))
      exact (Accepting.established.inj (hacc.symm.trans heq)).symm
  oneLoop _ := .inl rfl

theorem stale_inserted (hacc : s.accepting = .established pos) :
    Stale { s with
      server.mConnectionSet := s.server.mConnectionSet ++ [pos]
      accepting := .idle } ↔ s.Stale := by
  refine exists_congr fun q => ⟨?_, ?_⟩
  · rintro ⟨hgone, herase, hmem⟩
    refine ⟨hgone, herase, ?_⟩
    rcases List.mem_append.mp (hmem.resolve_left (by simp)) with hold | hnew
    · exact .inr hold
    · rw [List.mem_singleton.mp hnew]
      exact .inl hacc
  · rintro ⟨hgone, herase, heq | hold⟩
    · obtain rfl := Accepting.established.inj (hacc.symm.trans heq)
      exact ⟨hgone, herase, .inr (by simp)⟩
    · exact ⟨hgone, herase, .inr (List.mem_append.mpr (.inl hold))⟩

/-! ### The steps of a connection -/

theorem inv_same (h : Inv s) (ht : s.server.sessions[pos]? = some t) (hsame : Session.Same t t') :
    Inv { s with server.sessions := s.server.sessions.set pos t' } := by
  have hest : t'.established = true ↔ t.established = true := by rw [hsame.established]
  have hnew : t'.established = false ↔ t.established = false := by rw [hsame.established]
  constructor
  case counted => exact counted_set h (hsame.counted (h.counted t (List.mem_of_getElem? ht)))
  case setNodup => exact h.setNodup
  case erasingNodup => exact h.erasingNodup
  case member => exact fun q hq => (h.member q hq).imp_right (at_set_of_iff ht hest).mpr
  case erasing => exact fun q hq => (at_set_of_iff ht hsame.gone).mpr (h.erasing q hq)
  case created => exact fun q hq => (at_set_of_iff ht hnew).mpr (h.created q hq)
  case established => exact fun q hq => (at_set_of_iff ht hest).mpr (h.established q hq)
  case live => exact fun q hlive => h.live q ((at_set_of_iff ht hsame.live).mp hlive)
  case oneLoop => exact h.oneLoop

theorem stale_same (ht : s.server.sessions[pos]? = some t) (hsame : Session.Same t t') :
    Stale { s with server.sessions := s.server.sessions.set pos t' } ↔ s.Stale := by
  refine exists_congr fun q => ⟨?_, ?_⟩
  · rintro ⟨hgone, herase, hmem⟩
    exact ⟨(at_set_of_iff ht hsame.gone).mp hgone, herase, hmem⟩
  · rintro ⟨hgone, herase, hmem⟩
    exact ⟨(at_set_of_iff ht hsame.gone).mpr hgone, herase, hmem⟩

/-- A destroyed connection is not the one that is destroyed now. -/
theorem ne_of_gone (ht : s.server.sessions[pos]? = some t) (hal : t.Alive) {q : Nat}
    (hq : At s.server.sessions q Session.Gone) : q ≠ pos := by
  rintro rfl
  exact ((at_iff_of_get ht).mp hq).2 hal

theorem inv_destroyed (h : Inv s) (ht : s.server.sessions[pos]? = some t)
    (hd : Session.Destroys t t') (hidle : s.maxThreadNum = 0 → s.accepting = .idle) :
    Inv { s with
      server.sessions := s.server.sessions.set pos t'
      erasing := s.erasing ++ [pos] } := by
  -- the connection stays established, and is only destroyed
  have hest : t'.established = true ↔ t.established = true :=
    iff_of_true hd.established' hd.established
  have hnew : t'.established = false ↔ t.established = false := by
    rw [hd.established', hd.established]
  constructor
  case counted => exact counted_set h hd.counted
  case setNodup => exact h.setNodup
  case erasingNodup =>
    -- it was alive, and those that are erased are not
    have hpos : pos ∉ s.erasing := fun hmem => ne_of_gone ht hd.alive (h.erasing pos hmem) rfl
    rw [← List.concat_eq_append]
    exact h.erasingNodup.concat hpos
  case member => exact fun q hq => (h.member q hq).imp_right (at_set_of_iff ht hest).mpr
  case erasing =>
    intro q hq
    rcases List.mem_append.mp hq with hold | hlast
    · have hat := h.erasing q hold
      exact (at_set_of_ne (ne_of_gone ht hd.alive hat)).mpr hat
    · exact (at_set_iff ht).mpr (.inl ⟨List.mem_singleton.mp hlast, hd.established', hd.gone⟩)
  case created => exact fun q hq => (at_set_of_iff ht hnew).mpr (h.created q hq)
  case established => exact fun q hq => (at_set_of_iff ht hest).mpr (h.established q hq)
  case live =>
    intro q hlive
    rcases (at_set_iff ht).mp hlive with ⟨-, hlive'⟩ | ⟨-, hold⟩
    · exact absurd hlive'.2 hd.gone
    · exact h.live q hold
  case oneLoop => exact fun hmax => .inl (hidle hmax)

theorem stale_destroyed (ht : s.server.sessions[pos]? = some t) (hd : Session.Destroys t t') :
    Stale { s with
      server.sessions := s.server.sessions.set pos t'
      erasing := s.erasing ++ [pos] } ↔ s.Stale := by
  refine exists_congr fun q => ⟨?_, ?_⟩
  · rintro ⟨hgone, herase, hmem⟩
    obtain ⟨hnot, hne⟩ := not_or.mp (mt List.mem_append.mpr herase)
    rw [List.mem_singleton] at hne
    exact ⟨(at_set_of_ne hne).mp hgone, hnot, hmem⟩
  · rintro ⟨hgone, herase, hmem⟩
    have hne := ne_of_gone ht hd.alive hgone
    refine ⟨(at_set_of_ne hne).mpr hgone, fun hq => ?_, hmem⟩
    rcases List.mem_append.mp hq with hold | hlast
    · exact herase hold
    · exact hne (List.mem_singleton.mp hlast)

end

/-! ### Erasing -/

theorem inv_erased {pos : Nat} (h : Inv s) (hpos : pos ∈ s.erasing) :
    Inv { s with
      server.mConnectionSet := s.server.mConnectionSet.erase pos
      erasing := s.erasing.erase pos } where
  counted := h.counted
  setNodup := h.setNodup.erase pos
  erasingNodup := h.erasingNodup.erase pos
  member q hq := h.member q (List.mem_of_mem_erase hq)
  erasing q hq := h.erasing q (List.mem_of_mem_erase hq)
  created := h.created
  established := h.established
  live := by
    intro q hlive hne
    -- the connection that is erased is destroyed
    have hq : q ≠ pos := by
      rintro rfl
      obtain ⟨t, ht, -, hal⟩ := hlive
      exact ne_of_gone ht hal (h.erasing q hpos) rfl
    exact (List.mem_erase_of_ne hq).mpr (h.live q hlive hne)
  oneLoop hmax := .inl ((h.oneLoop hmax).resolve_right (List.ne_nil_of_mem hpos))

/-- **The defect**: the connection is erased before it is inserted. -/
theorem stale_erased {pos : Nat} (h : Inv s) (hpos : pos ∈ s.erasing) :
    Stale { s with
      server.mConnectionSet := s.server.mConnectionSet.erase pos
      erasing := s.erasing.erase pos } ↔ s.Stale ∨ s.accepting = .established pos := by
  constructor
  · rintro ⟨q, hgone, herase, hmem⟩
    by_cases hq : q = pos
    · -- the set holds it no more: the accepting thread is about to insert it
      subst hq
      exact .inr (hmem.resolve_right h.setNodup.not_mem_erase)
    · refine .inl ⟨q, hgone, fun hmem' => herase ((List.mem_erase_of_ne hq).mpr hmem'), ?_⟩
      exact hmem.imp_right List.mem_of_mem_erase
  · rintro (⟨q, hgone, herase, hmem⟩ | hacc)
    · have hq : q ≠ pos := by
        rintro rfl
        exact herase hpos
      refine ⟨q, hgone, fun hmem' => herase (List.mem_of_mem_erase hmem'), ?_⟩
      exact hmem.imp_right (List.mem_erase_of_ne hq).mpr
    · -- its one close task is over, and the insertion is still to come
      exact ⟨pos, h.erasing pos hpos, h.erasingNodup.not_mem_erase, .inl hacc⟩

/-! ### Steps and runs -/

/-- Without threads in the pool, the loop that runs a close task is not accepting. -/
theorem idle_of_runsClose {i : SessionEvent} {t : Session} (hmay : s.MayRun i)
    (hclose : TcpServer.RunsClose t i) (hmax : s.maxThreadNum = 0) : s.accepting = .idle := by
  cases i with
  | task io => exact ((hmay.2 hmax).resolve_left id).1
  | _ => exact hclose.elim

theorem ne_establish {i : SessionEvent} (hmay : s.MayRun i) (cs : List UserCall) :
    i ≠ .establish cs := by
  rintro rfl
  exact hmay.1 trivial

theorem inv_step {i : PooledEvent} (h : Inv s) (hrun : (step i).run s = .ok () s') : Inv s' := by
  cases moves_of_ok h.created hrun with
  | none => exact h
  | accepted hmay => exact inv_accepted h hmay
  | established hacc ht hok => exact inv_established h hacc ht hok
  | inserted hacc => exact inv_inserted h hacc
  | early ht hok => exact inv_same h ht (Session.same_early hok)
  | conn hmay ht hok =>
    have hc := h.counted _ (List.mem_of_getElem? ht)
    rcases Session.same_or_destroys hc (ne_establish hmay) hok with ⟨hnot, hsame⟩ | ⟨hclose, hd⟩
    · rw [if_neg hnot]
      exact inv_same h ht hsame
    · rw [if_pos hclose]
      exact inv_destroyed h ht hd (idle_of_runsClose hmay hclose)
  | erased hpos => exact inv_erased h hpos

/-- **A step makes the set stale** exactly when it erases a connection that is still to be inserted,
and no step mends it. -/
theorem stale_step {i : PooledEvent} (h : Inv s) (hrun : (step i).run s = .ok () s') :
    s'.Stale ↔ s.Stale ∨ ¬ s.InsertedFirst i := by
  cases moves_of_ok h.created hrun with
  | none hnot =>
    have hfirst : s.InsertedFirst i := by
      cases i with
      | erase pos => exact fun hpos => absurd hpos (hnot pos rfl)
      | _ => trivial
    simp [hfirst]
  | accepted hmay => simp [stale_accepted hmay, InsertedFirst]
  | established hacc ht hok => simp [stale_established h hacc ht hok, InsertedFirst]
  | inserted hacc => simp [stale_inserted hacc, InsertedFirst]
  | early ht hok => simp [stale_same ht (Session.same_early hok), InsertedFirst]
  | conn hmay ht hok =>
    have hc := h.counted _ (List.mem_of_getElem? ht)
    rcases Session.same_or_destroys hc (ne_establish hmay) hok with ⟨hnot, hsame⟩ | ⟨hclose, hd⟩
    · rw [if_neg hnot, stale_same ht hsame]
      simp [InsertedFirst]
    · rw [if_pos hclose, stale_destroyed ht hd]
      simp [InsertedFirst]
  | erased hpos =>
    rw [stale_erased h hpos]
    simp [InsertedFirst, hpos]

theorem inv_run {is : List PooledEvent} (h : Inv s) (hrun : (exec step is).run s = .ok () s') :
    Inv s' :=
  (Along.of_forall (P := fun _ _ => True) (fun _ _ => trivial) s is).invariant
    (fun _ _ _ hs _ => inv_step hs) h hrun

/-- A destroyed connection that is left in the set stays there: its slot is used up. -/
theorem stale_run {is : List PooledEvent} (h : Inv s) (hstale : s.Stale)
    (hrun : (exec step is).run s = .ok () s') : s'.Stale :=
  persists_of_run (fun _ _ _ => inv_step) (fun _ _ _ hs hb hi => (stale_step hs hi).mpr (.inl hb))
    h hstale hrun

/-- A run leaves no destroyed connection in the set exactly when each one was inserted before its
close task erased it. -/
theorem not_stale_iff {maxThreadNum : Nat} {mIpProtocol : IpProtocol} {is : List PooledEvent}
    (hrun : (exec step is).run (start maxThreadNum mIpProtocol) = .ok () s) :
    ¬ s.Stale ↔ Along step InsertedFirst (start maxThreadNum mIpProtocol) is := by
  refine along_iff_of_persistent (fun _ _ _ => inv_step) (fun _ _ _ hs hb hi => ?_)
    (fun _ _ _ hs hb hi => ?_) (inv_start maxThreadNum mIpProtocol)
    (not_stale_start maxThreadNum mIpProtocol) hrun
  · exact (stale_step hs hi).mpr (.inl hb)
  · rw [stale_step hs hi, or_iff_right hb]

/-- **The set is exact** once all tasks have run exactly when each connection was inserted before
its close task erased it. -/
theorem exact_iff {maxThreadNum : Nat} {mIpProtocol : IpProtocol} {is : List PooledEvent}
    (hrun : (exec step is).run (start maxThreadNum mIpProtocol) = .ok () s) (hall : s.AllRun) :
    s.Exact ↔ Along step InsertedFirst (start maxThreadNum mIpProtocol) is := by
  have hinv : Inv s := inv_run (inv_start maxThreadNum mIpProtocol) hrun
  rw [exact_iff_not_stale hinv hall]
  exact not_stale_iff hrun

/-- Two connections are accepted, and the peer of the first one closes: its close task erases it
behind its insertion. -/
def closesInserted : List PooledEvent :=
  [.accept .peer, .establish [], .insert, .accept .peer, .establish [], .insert,
    .conn 0 (.event EPOLLIN ⟨⟨.bytes [], 0, [], []⟩, ⟨.failed 0, 0, []⟩, []⟩),
    .conn 0 .doPendingTasks, .conn 0 (.task ⟨.failed 0, 0, []⟩), .erase 0, .conn 0 .poll]

theorem exact_accepted :
    ∃ s ∈ returned ((exec step closesInserted).run (start 1 .ipv4)),
      s.Exact ∧ s.server.mConnectionSet = [1] := by
  have hrun : ∃ s ∈ returned ((exec step closesInserted).run (start 1 .ipv4)), s.AllRun ∧
      s.server.mConnectionSet = [1] := by decide +kernel
  have hfirst : Along step InsertedFirst (start 1 .ipv4) closesInserted := by decide +kernel
  obtain ⟨s, hs, hall, hset⟩ := hrun
  exact ⟨s, hs, (exact_iff (eq_ok_of_mem_returned hs) hall).mpr hfirst, hset⟩

/-- The peer of a new connection closes at once, and the loop of the connection is done with it
before the accepting thread inserts it. -/
def closesAtOnce : List PooledEvent :=
  [.accept .peer, .establish [],
    .conn 0 (.event EPOLLIN ⟨⟨.bytes [], 0, [], []⟩, ⟨.failed 0, 0, []⟩, []⟩),
    .conn 0 .doPendingTasks, .conn 0 (.task ⟨.failed 0, 0, []⟩), .erase 0, .insert]

theorem not_exact_closesAtOnce : ¬ ∀ (maxThreadNum : Nat) (mIpProtocol : IpProtocol)
    (is : List PooledEvent) (s : PooledServer),
    (exec step is).run (start maxThreadNum mIpProtocol) = .ok () s → s.AllRun → s.Exact := by
  intro hexact
  have hrun : ∃ s ∈ returned ((exec step closesAtOnce).run (start 1 .ipv4)), s.AllRun ∧
      s.server.mConnectionSet = [0] ∧ ∀ t ∈ s.server.sessions, t.ctx.conn.mpChannel = none := by
    decide +kernel
  obtain ⟨s, hs, hall, hset, hgone⟩ := hrun
  obtain ⟨-, hmem⟩ := hexact 1 .ipv4 closesAtOnce s (eq_ok_of_mem_returned hs) hall
  obtain ⟨t, ht, -, hal⟩ := (hmem 0).mp (by simp [hset])
  exact hal (hgone t (List.mem_of_getElem? ht))

/-! ### Without threads in the pool -/

theorem Moves.maxThreadNum {i : PooledEvent} (h : Moves s i s') :
    s'.maxThreadNum = s.maxThreadNum := by
  cases h <;> rfl

theorem insertedFirst_of_no_threads (h : Inv s) (hmax : s.maxThreadNum = 0) (i : PooledEvent) :
    s.InsertedFirst i := by
  cases i with
  | erase pos =>
    intro hpos
    rw [(h.oneLoop hmax).resolve_right (List.ne_nil_of_mem hpos)]
    simp
  | _ => trivial

/-- **Without threads in the pool** the set is exact once all tasks have run. -/
theorem exact_of_no_threads {mIpProtocol : IpProtocol} {is : List PooledEvent}
    (hrun : (exec step is).run (start 0 mIpProtocol) = .ok () s) (hall : s.AllRun) : s.Exact := by
  have hstart := inv_start 0 mIpProtocol
  rw [exact_iff_not_stale (inv_run hstart hrun) hall, not_stale_iff hrun]
  refine Along.of_invariant (P := fun _ _ => True) (I := fun s => Inv s ∧ s.maxThreadNum = 0)
    (fun s i hs _ => insertedFirst_of_no_threads hs.1 hs.2 i) (fun s i s' hs _ hi => ?_)
    ⟨hstart, rfl⟩ (Along.of_forall (fun _ _ => trivial) _ _)
  exact ⟨inv_step hs.1 hi, (moves_of_ok hs.1.created hi).maxThreadNum.trans hs.2⟩

end PooledServer

end SimpleTcp
