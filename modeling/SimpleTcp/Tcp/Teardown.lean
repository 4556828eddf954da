import SimpleTcp.Tcp.Client

/-!
# Closed connections of a client

A connection that is closed queues one task in the loop of its client, which asks the client to
leave the connected state; only a client that is in that state destroys its connection then. Every
channel of a closed connection is thus either registered with the task still to come, or gone,
provided that no such task comes when the client has left the connected state, or has another
connection.

## Main definitions

* `Still`, `ClosesOnce`: programs of a connection that do not close it, or queue one task if they do
* `TcpClient.TornDown`: no channel of a closed connection outlives the task of its close callback
* `TcpClient.InvBut`, `TcpClient.Inv`: each registered channel has its task to come
* `TcpClient.TasksKeep`: what the functions of a client keep of its connections and its queue
* `TcpClient.ClosesInStep`: the steps whose close task finds the client connected

## Main results

* `closesOnce_handleEvent`, `closesOnce_runConnTask`: handlers and tasks close a connection once
* `TcpClient.step_inv`: a step that closes in step keeps the invariant
* `TcpClient.tornDown_iff`: the runs in which every closed connection is torn down
-/

namespace SimpleTcp

open TcpConnection Machine

/-! ### Programs that close a connection once -/

/-- What calls leave alone: the state, the close tasks and whether there is a channel. -/
def Ctx.openness (s : Ctx) : ConnState × Nat × Bool :=
  (s.conn.mState, s.mPendingTasks.count .close, s.conn.mpChannel.isSome)

/-- The close task that a connection has still to queue. -/
def TcpConnection.toClose (conn : TcpConnection) : Nat :=
  if conn.mState = .disConnected then 0 else 1

/-- The close tasks, counting the one still to queue, and whether there is a channel. -/
def Ctx.closes (s : Ctx) : Nat × Bool :=
  (s.mPendingTasks.count .close + s.conn.toClose, s.conn.mpChannel.isSome)

theorem closes_eq {s s' : Ctx} (h : s.openness = s'.openness) : s.closes = s'.closes := by
  simp only [Ctx.openness, Prod.mk.injEq] at h
  simp only [Ctx.closes, toClose, h]

section

variable {α : Type}

/-- The program neither closes nor opens the connection. -/
def Still (x : ConnM α) : Prop := ∀ v, Keeps (fun s => s.openness = v) x

/-- The program queues one close task if it closes the connection, and none otherwise. -/
def ClosesOnce (x : ConnM α) : Prop := ∀ v, Keeps (fun s => s.closes = v) x

variable {x : ConnM α}

theorem Still.keeps (h : Still x) {I : Ctx → Prop}
    (hI : ∀ s s', s.openness = s'.openness → I s → I s') : Keeps I x :=
  fun s hs => hI s _ (h _ s rfl).symm hs

theorem Still.closesOnce (h : Still x) : ClosesOnce x :=
  fun _ => h.keeps fun _ _ heq hs => (closes_eq heq).symm.trans hs

end

theorem still_modify {f : Ctx → Ctx} (h : ∀ s, (f s).openness = s.openness) :
    Still (modify f : ConnM PUnit) := fun _ => .modify fun s hs => (h s).trans hs

theorem still_effect (e : Effect) : Still (effect e) := still_modify fun _ => rfl

theorem still_call {α : Type} (r : Except Stop α) : Still (call r) := by
  intro v
  cases r with
  | ok a => exact .pure a
  | error e => exact .throw e

theorem still_assertTrue (c : Prop) [Decidable c] : Still (assertTrue c : ConnM Unit) :=
  fun _ => .ite (fun _ => .pure _) fun _ => .throw _

theorem openness_writeOff (s : Ctx) : s.writeOff.openness = s.openness := by
  rcases s.writeOff_cases with ⟨hsame, -⟩ | ⟨ch, hch, -, hsame⟩
  · rw [hsame]
  · rw [hsame]
    simp [Ctx.openness, hch]

theorem still_disableWrite : Still disableWrite := by
  intro v s hs
  cases hch : s.conn.mpChannel with
  | some ch =>
    rw [run_disableWrite hch]
    exact (openness_writeOff s).trans hs
  | none => simp [disableWrite, channel, EStateM.run_bind, EStateM.run_get, hch, final, hs]

/-- The calls of a user neither close nor open a connection. -/
theorem callsKeep_openness (v : ConnState × Nat × Bool) : CallsKeep fun s => s.openness = v where
  append _ _ _ _ h := h
  channel c ch ch' hch h := by
    rw [← h]
    simp [Ctx.openness, hch]
  extract _ _ _ _ _ h := h
  shutdown c h := by
    rw [← h]
    simp [Ctx.openness]

theorem still_sendInLoop (data : Bytes) {x : ConnM Unit} (hx : Still x) :
    Still (sendInLoop data x) := fun v => (callsKeep_openness v).sendInLoop data (hx v)

theorem still_runCalls (cs : List UserCall) : Still (runCalls cs) := fun v =>
  (callsKeep_openness v).runCalls cs

theorem closesOnce_handleClose (cs : List UserCall) : ClosesOnce (handleClose cs) := by
  intro v s hs
  by_cases hst : s.conn.mState = .disConnected
  · rw [run_handleClose_of_disConnected hst]
    exact hs
  · have hrun : (handleClose cs).run s = (runCalls cs).run s.closing := by
      have hass := (open_iff s.conn.mState).mpr hst
      simp [handleClose, EStateM.run_bind, EStateM.run_get, assertTrue_pos hass, Ctx.closing]
    rw [hrun]
    refine (still_runCalls cs).closesOnce v s.closing ?_
    rw [← hs]
    simp [Ctx.closes, toClose, Ctx.closing, hst]

theorem closesOnce_handleRead (io : ReadIo) : ClosesOnce (handleRead io) := by
  intro v
  refine .bind ((still_effect _).closesOnce v) fun _ => .bind .get fun s => ?_
  refine .bind ((still_assertTrue _).closesOnce v) fun _ => .tryCatch ?_ fun e => ?_
  · refine .bind .get fun s => .bind ((still_call _).closesOnce v) fun b => ?_
    exact .bind (.modify fun _ h => h) fun _ => (still_runCalls _).closesOnce v
  · split
    · exact .ite (fun _ => closesOnce_handleClose _ v) fun _ => (still_effect _).closesOnce v
    · exact .throw _

theorem still_writeSendBuffer (res : WriteResult) (soError : Errno) :
    Still (writeSendBuffer res soError) := by
  intro v
  refine .bind .get fun s => .bind (still_call _ v) fun r => ?_
  exact .bind (.modify fun _ h => h) fun _ => still_effect _ v

theorem still_handleWrite (io : WriteIo) : Still (handleWrite io) := by
  intro v
  have hend : Keeps (fun s => s.openness = v) (do
      if (← get).conn.mSendBuffer.size = 0 then
        runCalls io.onWriteComplete
        disableWrite : ConnM Unit) :=
    .bind .get fun s => .ite (fun _ => .bind (still_runCalls _ v) fun _ => still_disableWrite v)
      fun _ => .pure _
  refine .bind (still_effect _ v) fun _ => .bind .get fun s => ?_
  refine .bind (still_assertTrue _ v) fun _ => .bind .get fun s => ?_
  exact .ite (fun _ => .bind (still_writeSendBuffer _ _ v) fun _ => hend) fun _ => hend

theorem closesOnce_handleEvent (mRevent : EventMask) (io : EventIo) :
    ClosesOnce (Session.handleEvent mRevent io) := by
  intro v
  have hwrite : Keeps (fun s => s.closes = v) (do
      if mRevent.Meets EPOLLOUT then handleWrite io.write) :=
    .ite (fun _ => (still_handleWrite _).closesOnce v) fun _ => .pure _
  refine .ite (fun _ => closesOnce_handleClose _ v) fun _ => .ite ?_ fun _ => ?_
  · exact fun _ => (still_effect _).closesOnce v
  · exact .ite (fun _ => .bind (closesOnce_handleRead _ v) fun _ => hwrite) fun _ => hwrite

/-- An open connection that is shut down stays open. -/
theorem keeps_open_shutdownInLoop (res : WriteResult) (soError : Errno) (v : Nat × Bool) :
    Keeps (fun s : Ctx => s.closes = v ∧ s.conn.mState ≠ .disConnected)
      (shutdownInLoop res soError) := by
  let I : Ctx → Prop := fun s => s.closes = v ∧ s.conn.mState ≠ .disConnected
  have hI : ∀ s s', s.openness = s'.openness → I s → I s' := by
    intro s s' h hs
    have hst : s.conn.mState = s'.conn.mState := congrArg Prod.fst h
    exact ⟨(closes_eq h) ▸ hs.1, hst ▸ hs.2⟩
  have hend : Keeps I (do
      setState .halfClosed
      disableWrite
      effect .shutWr) := by
    refine .bind (fun s hs => ⟨?_, by simp [final]⟩) fun _ => ?_
    · rw [← hs.1]
      simp [final, Ctx.closes, toClose, hs.2]
    · exact .bind (still_disableWrite.keeps hI) fun _ => (still_effect _).keeps hI
  refine .tryCatch (.bind .get fun s => .ite (fun _ => ?_) fun _ => .pure _) fun e =>
    .ite (fun _ => .pure _) fun _ => .throw _
  exact .bind .get fun s => .ite
    (fun _ => .bind ((still_writeSendBuffer _ _).keeps hI) fun _ => hend) fun _ => hend

theorem closesOnce_shutdownInLoop (res : WriteResult) (soError : Errno) :
    ClosesOnce (shutdownInLoop res soError) := by
  intro v s hs
  by_cases hst : s.conn.mState = .disConnected
  · simpa [shutdownInLoop, EStateM.run_bind, EStateM.run_get, hst, final] using hs
  · exact (keeps_open_shutdownInLoop res soError v s ⟨hs, hst⟩).1

theorem closesOnce_runConnTask (io : TaskIo) {t : ConnTask} (ht : t ≠ .close) :
    ClosesOnce (runConnTask io t) := by
  cases t with
  | send data => exact (still_sendInLoop data (still_runCalls _)).closesOnce
  | shutdown => exact closesOnce_shutdownInLoop _ _
  | close => exact absurd rfl ht

/-! ### The invariant of a client -/

namespace TcpClient

variable {s : TcpClient} {but : Nat → Prop}

/-- After the task of its close callback, no channel of a closed connection is registered. -/
def TornDown (s : TcpClient) : Prop :=
  ∀ pos conn, s.conns[pos]? = some (some conn) → conn.mState = .disConnected →
    conn.mpChannel ≠ none → .conn pos .close ∈ s.mPendingTasks

/-- The close tasks of the connection at the position. -/
def closeTasks (s : TcpClient) (pos : Nat) : Nat := s.mPendingTasks.count (.conn pos .close)

/-- Each registered channel, but those at the positions `but`, has one close task, queued or still
to queue. -/
structure InvBut (but : Nat → Prop) (s : TcpClient) : Prop where
  once : ∀ pos conn, ¬ but pos → s.conns[pos]? = some (some conn) → conn.mpChannel ≠ none →
    s.closeTasks pos + conn.toClose = 1
  fresh : ∀ pos, s.conns.length ≤ pos → s.closeTasks pos = 0

abbrev Inv : TcpClient → Prop := InvBut fun _ => False

theorem InvBut.tornDown (h : s.Inv) : s.TornDown := by
  intro pos conn hconn hst hch
  have honce := h.once pos conn id hconn hch
  rw [toClose, if_pos hst] at honce
  exact List.count_pos_iff.mp (show 0 < s.closeTasks pos by omega)

/-- A program of a connection after which the client has its close tasks in order. -/
def Settles (x : ConnM Unit) : Prop :=
  ∀ conn, let c := final (x.run ⟨conn, [], []⟩)
    c.conn.mpChannel ≠ none →
      conn.mpChannel ≠ none ∧ c.mPendingTasks.count .close + c.conn.toClose = conn.toClose

theorem settles_of_closesOnce {x : ConnM Unit} (h : ClosesOnce x) : Settles x := by
  intro conn c hch
  have hcl : c.closes = Ctx.closes ⟨conn, [], []⟩ := h _ ⟨conn, [], []⟩ rfl
  simp only [Ctx.closes, Prod.mk.injEq, List.count_nil, Nat.zero_add] at hcl
  refine ⟨fun hnone => hch ?_, hcl.1⟩
  simpa [hnone] using hcl.2

theorem final_destroyConnection (conn : TcpConnection) :
    (final (destroyConnection.run ⟨conn, [], []⟩)).conn =
        (if conn.mState = .disConnected then { conn with mpChannel := none } else conn) ∧
      (final (destroyConnection.run ⟨conn, [], []⟩)).mPendingTasks = [] := by
  by_cases hst : conn.mState = .disConnected
  · rw [run_destroyConnection hst, if_pos hst]
    exact ⟨rfl, rfl⟩
  · rw [run_destroyConnection_of_open hst, if_neg hst]
    exact ⟨rfl, rfl⟩

theorem settles_destroyConnection : Settles destroyConnection := by
  intro conn c hch
  obtain ⟨hconn, htasks⟩ := final_destroyConnection conn
  by_cases hst : conn.mState = .disConnected
  · rw [if_pos hst] at hconn
    exact absurd (congrArg TcpConnection.mpChannel hconn) hch
  · rw [if_neg hst] at hconn
    refine ⟨hconn ▸ hch, ?_⟩
    rw [show c.conn = conn from hconn, show c.mPendingTasks = [] from htasks]
    simp

theorem count_map_conn (ts : List ConnTask) (pos q : Nat) :
    (ts.map (ClientTask.conn pos)).count (.conn q .close) =
      if q = pos then ts.count .close else 0 := by
  induction ts with
  | nil => simp
  | cons t ts ih =>
    rw [List.map_cons, List.count_cons, ih, List.count_cons]
    by_cases hq : q = pos
    · simp [hq]
    · simp [hq, Ne.symm hq]

theorem closeTasks_after (s : TcpClient) (pos : Nat) (c : Ctx) (q : Nat) :
    (s.after pos c).closeTasks q =
      s.closeTasks q + if q = pos then c.mPendingTasks.count .close else 0 := by
  simp only [closeTasks, after, List.count_append, count_map_conn]

theorem final_onConn {pos : Nat} {conn : TcpConnection} (hconn : s.conns[pos]? = some (some conn))
    (x : ConnM Unit) :
    final ((onConn pos x).run s) = s.after pos (final (x.run ⟨conn, [], []⟩)) := by
  change final (onConn pos x s) = _
  unfold onConn
  rw [hconn]
  cases hrun : x.run ⟨conn, [], []⟩ with
  | ok u c => simp only [hrun, final]
  | error e c => simp only [hrun, final]

theorem final_onConn_of_not_alive {pos : Nat} (h : ¬ s.Alive pos) (x : ConnM Unit) :
    final ((onConn pos x).run s) = s := by
  change final (onConn pos x s) = _
  unfold onConn
  split
  · exact absurd ⟨_, ‹_›⟩ h
  · rfl

theorem keeps_onConn (pos : Nat) {x : ConnM Unit} (hx : Settles x) :
    Keeps (InvBut but) (onConn pos x) := by
  intro s hs
  by_cases halive : s.Alive pos
  · obtain ⟨conn, hconn⟩ := halive
    rw [final_onConn hconn]
    have hlt : pos < s.conns.length := (List.getElem?_eq_some_iff.mp hconn).1
    constructor
    · intro q conn' hbut hq hch
      rw [closeTasks_after]
      by_cases hpos : q = pos
      · subst hpos
        have hsame : some (final (x.run ⟨conn, [], []⟩)).conn = some conn' := by
          simpa [after, hlt] using hq
        obtain rfl := Option.some.inj hsame
        -- what `x` queues and what it leaves to queue add up to what was left before
        obtain ⟨hch', hcount⟩ := hx conn hch
        have honce := hs.once q conn hbut hconn hch'
        rw [if_pos rfl]
        omega
      · have hq' : s.conns[q]? = some (some conn') := by
          simpa [after, List.getElem?_set_ne (Ne.symm hpos)] using hq
        rw [if_neg hpos, Nat.add_zero]
        exact hs.once q conn' hbut hq' hch
    · intro q hq
      have hle : s.conns.length ≤ q := by simpa [after] using hq
      rw [closeTasks_after, hs.fresh q hle, if_neg (by omega)]
  · rw [final_onConn_of_not_alive halive]
    exact hs

/-! ### Programs of a client -/

/-- What the functions of a client keep of its connections and its queue: a task that is queued, a
connection that is established and one that is destroyed. -/
structure TasksKeep (I : TcpClient → Prop) : Prop where
  fields : ∀ s s', s'.conns = s.conns → s'.mPendingTasks = s.mPendingTasks → I s → I s'
  queue : ∀ s t, (∀ pos, t ≠ .conn pos .close) → I s →
    I { s with mPendingTasks := s.mPendingTasks ++ [t] }
  establish : ∀ s onConnection, I s →
    I (after { s with conns := s.conns ++ [some TcpConnection.create] } s.conns.length
      (final ((establishConnect onConnection).run ⟨TcpConnection.create, [], []⟩)))
  destroy : ∀ pos, Keeps I (onConn pos destroyConnection)

section

variable {I : TcpClient → Prop}

theorem TasksKeep.modify (hI : TasksKeep I) {f : TcpClient → TcpClient}
    (hconns : ∀ s, (f s).conns = s.conns) (htasks : ∀ s, (f s).mPendingTasks = s.mPendingTasks) :
    Keeps I (modify f : ClientM PUnit) := .modify fun s => hI.fields s _ (hconns s) (htasks s)

theorem TasksKeep.queueInLoop (hI : TasksKeep I) {t : ClientTask}
    (ht : ∀ pos, t ≠ .conn pos .close) : Keeps I (queueInLoop t) := .modify fun s => hI.queue s t ht

theorem keeps_assertTrue (c : Prop) [Decidable c] : Keeps I (assertTrue c : ClientM Unit) :=
  .ite (fun _ => .pure _) fun _ => .throw _

theorem keeps_connection : Keeps I connection := by
  refine .bind .get fun s => ?_
  cases s.mConnection with
  | some pos => exact .pure pos
  | none => exact .throw _

theorem TasksKeep.retry (hI : TasksKeep I) (errno : Errno) : Keeps I (retry errno) :=
  .bind .get fun _ => .ite
    (fun _ => .bind (hI.queueInLoop (by simp)) fun _ => hI.modify (fun _ => rfl) fun _ => rfl)
    fun _ => .throw _

theorem TasksKeep.resetConnChannel (hI : TasksKeep I) (mIsLoopingNow : Bool) :
    Keeps I (resetConnChannel mIsLoopingNow) :=
  .bind .get fun _ => .bind (keeps_assertTrue _) fun _ => hI.modify (fun _ => rfl) fun _ => rfl

theorem TasksKeep.doConnecting (hI : TasksKeep I) (mIsLoopingNow : Bool) (io : TransIo) :
    Keeps I (doConnecting mIsLoopingNow io) := by
  refine .bind (hI.resetConnChannel _) fun _ => ?_
  refine .bind (hI.modify (fun _ => rfl) fun _ => rfl) fun _ => ?_
  cases io.connect with
  | noSocket errno => exact .throw _
  | failed => exact hI.retry _
  | socket errCode =>
    refine .bind (hI.modify (fun _ => rfl) fun _ => rfl) fun _ => .ite (fun _ => ?_) fun _ => ?_
    · exact hI.modify (fun _ => rfl) fun _ => rfl
    · exact .ite (fun _ => hI.queueInLoop (by simp)) fun _ => hI.retry _

theorem TasksKeep.doConnected (hI : TasksKeep I) (io : TransIo) : Keeps I (doConnected io) := by
  refine .bind .get fun _ => .bind (keeps_assertTrue _) fun _ => ?_
  refine .bind (keeps_assertTrue _) fun _ => .bind (hI.resetConnChannel _) fun _ => ?_
  refine .get_bind fun s hs => ?_
  simp only [EStateM.run_bind, EStateM.run_modify]
  rw [final_onConn List.getElem?_concat_length]
  refine hI.fields (after { s with conns := s.conns ++ [some TcpConnection.create] } s.conns.length
    (final ((establishConnect io.onConnection).run ⟨TcpConnection.create, [], []⟩))) _ rfl rfl ?_
  exact hI.establish s io.onConnection hs

theorem TasksKeep.doDisconnected (hI : TasksKeep I) (io : TransIo) :
    Keeps I (doDisconnected io) := by
  refine .bind .get fun _ => .bind (keeps_assertTrue _) fun _ => ?_
  refine .bind keeps_connection fun pos => .bind (hI.destroy pos) fun _ => ?_
  exact .bind (hI.modify (fun _ => rfl) fun _ => rfl) fun _ => hI.retry _

theorem TasksKeep.transStateInLoop (hI : TasksKeep I) (mIsLoopingNow : Bool) (io : TransIo)
    (newState : ClientState) : Keeps I (transStateInLoop mIsLoopingNow io newState) := by
  have hset : ∀ {y : ClientM Unit}, Keeps I y → Keeps I (do setState newState; y) :=
    fun hy => .bind (hI.modify (fun _ => rfl) fun _ => rfl) fun _ => hy
  refine .bind .get fun s => ?_
  cases newState with
  | disconnect => exact .ite (fun _ => hset (hI.doDisconnected io)) fun _ => .pure _
  | connecting => exact .ite (fun _ => hset (hI.doConnecting _ io)) fun _ => .pure _
  | connected => exact .ite (fun _ => hset (hI.doConnected io)) fun _ => .pure _
  | forceDisconnected => exact .ite (fun _ => hset (hI.queueInLoop (by simp))) fun _ => .pure _

theorem TasksKeep.handleConnEvent (hI : TasksKeep I) (mRevent : EventMask) (errno : Errno) :
    Keeps I (handleConnEvent mRevent errno) := by
  have hwrite : Keeps I (do
      if mRevent.Meets EPOLLOUT then TcpClient.queueInLoop (.transState .connected)) :=
    .ite (fun _ => hI.queueInLoop (by simp)) fun _ => .pure _
  refine .ite (fun _ => .pure _) fun _ => .ite (fun _ => hI.retry _) fun _ => ?_
  exact .ite (fun _ => .bind (.pure _) fun _ => hwrite) fun _ => hwrite

theorem TasksKeep.runTask (hI : TasksKeep I) {io : TransIo} {taskIo : TaskIo}
    (htask : ∀ pos task, task ≠ .close → Keeps I (onConn pos (runConnTask taskIo task)))
    (t : ClientTask) : Keeps I (runTask io taskIo t) := by
  cases t with
  | transState newState => exact hI.transStateInLoop _ io newState
  | shutdownConnection => exact .bind keeps_connection fun _ => hI.queueInLoop (by simp)
  | addTimer delay => exact hI.modify (fun _ => rfl) fun _ => rfl
  | conn pos task =>
    cases task with
    | close => exact hI.transStateInLoop false io .disconnect
    | send data => exact htask pos _ (by simp)
    | shutdown => exact htask pos _ (by simp)

end

/-- A new connection has its close task still to queue when `establishConnect` ends. -/
theorem final_establishConnect (cs : List UserCall) :
    (final ((establishConnect cs).run ⟨TcpConnection.create, [], []⟩)).openness =
      (.connected, 0, true) := by
  have hch : TcpConnection.create.mpChannel = some Channel.create := rfl
  rw [run_establishConnect hch]
  exact still_runCalls cs _ _ rfl

theorem invBut_establish (hs : InvBut but s) (cs : List UserCall) :
    InvBut but (after { s with conns := s.conns ++ [some TcpConnection.create] } s.conns.length
      (final ((establishConnect cs).run ⟨TcpConnection.create, [], []⟩))) := by
  have hopen := final_establishConnect cs
  generalize final ((establishConnect cs).run ⟨TcpConnection.create, [], []⟩) = c at hopen ⊢
  simp only [Ctx.openness, Prod.mk.injEq] at hopen
  obtain ⟨hst, hcount, -⟩ := hopen
  constructor
  · intro q conn hbut hq hch
    rw [closeTasks_after, hcount, ite_self, Nat.add_zero]
    change s.closeTasks q + _ = 1
    -- the new connection has no close task, and the others have theirs
    by_cases hlen : q = s.conns.length
    · subst hlen
      have hsame : c.conn = conn := by simpa [after] using hq
      rw [hs.fresh _ le_rfl, ← hsame, toClose, hst]
      rfl
    · have hlt : q < s.conns.length := by
        have hlt := (List.getElem?_eq_some_iff.mp hq).1
        simp only [after, List.length_set, List.length_append, List.length_singleton] at hlt
        omega
      have hq' : s.conns[q]? = some (some conn) := by
        simpa [after, List.getElem?_set_ne (Ne.symm hlen), List.getElem?_append_left hlt] using hq
      exact hs.once q conn hbut hq' hch
  · -- behind it there is no connection yet
    intro q hq
    rw [closeTasks_after, hcount, ite_self, Nat.add_zero]
    refine hs.fresh q ?_
    simp only [after, List.length_set, List.length_append, List.length_singleton] at hq
    omega

theorem tasksKeep_invBut : TasksKeep (InvBut but) where
  fields s s' hconns htasks h := by
    have hsame : ∀ pos, s'.closeTasks pos = s.closeTasks pos := fun pos => by
      rw [closeTasks, closeTasks, htasks]
    refine ⟨fun pos conn hbut hconn hch => ?_, fun pos hpos => ?_⟩
    · rw [hsame]
      exact h.once pos conn hbut (hconns ▸ hconn) hch
    · rw [hsame]
      exact h.fresh pos (hconns ▸ hpos)
  queue s t ht h := by
    have hsame : ∀ pos, closeTasks { s with mPendingTasks := s.mPendingTasks ++ [t] } pos =
        s.closeTasks pos := by
      intro pos
      simp [closeTasks, ht pos]
    exact ⟨fun pos conn hbut hconn hch => (hsame pos).symm ▸ h.once pos conn hbut hconn hch,
      fun pos hpos => (hsame pos).trans (h.fresh pos hpos)⟩
  establish s cs h := invBut_establish h cs
  destroy pos := keeps_onConn pos settles_destroyConnection

theorem keeps_runConnTask (taskIo : TaskIo) (pos : Nat) {task : ConnTask} (ht : task ≠ .close) :
    Keeps (InvBut but) (onConn pos (runConnTask taskIo task)) :=
  keeps_onConn pos (settles_of_closesOnce (closesOnce_runConnTask taskIo ht))

/-! ### Steps -/

/-- When the task of a close callback comes and the channel of its connection is registered, the
client is connected through this connection. -/
def ClosesInStep (s : TcpClient) : ClientEvent → Prop
  | .task _ _ => ∀ pos ts, s.mPendingTasks = .conn pos .close :: ts → s.Registered pos →
      s.mState = .connected ∧ s.mConnection = some pos
  | _ => True

/-- The next task leaves the queue; its position is left out if it is a close task. -/
theorem inv_popped (h : s.Inv) {t : ClientTask} {ts : List ClientTask}
    (hts : s.mPendingTasks = t :: ts) :
    InvBut (fun pos => t = .conn pos .close) { s with mPendingTasks := ts } := by
  have hcount : ∀ pos, t ≠ .conn pos .close →
      closeTasks { s with mPendingTasks := ts } pos = s.closeTasks pos := by
    intro pos ht
    rw [closeTasks, closeTasks, hts, List.count_cons_of_ne ht]
  constructor
  · intro pos conn ht hconn hch
    rw [hcount pos ht]
    exact h.once pos conn id hconn hch
  · intro pos hpos
    have hfresh := h.fresh pos hpos
    rw [closeTasks, hts, List.count_eq_zero] at hfresh
    exact List.count_eq_zero.mpr fun hmem => hfresh (List.mem_cons_of_mem _ hmem)

/-- A position whose channel is not registered need not be left out. -/
theorem InvBut.inv (h : InvBut but s) (hbut : ∀ pos, but pos → ¬ s.Registered pos) : s.Inv :=
  ⟨fun pos conn _ hconn hch => h.once pos conn (fun hb => hbut pos hb ⟨conn, hconn, hch⟩) hconn hch,
    h.fresh⟩

/-- The client is connected through the connection at the position, and leaves it. -/
structure Leaves (s : TcpClient) (pos : Nat) (s' : TcpClient) : Prop where
  tasks : ∀ q, s'.closeTasks q = s.closeTasks q
  others : ∀ q, q ≠ pos → s'.conns[q]? = s.conns[q]?
  destroyed : ∀ conn, s.conns[pos]? = some (some conn) → conn.mState = .disConnected →
    s'.conns[pos]? = some (some { conn with mpChannel := none })

theorem leaves_onConn (s : TcpClient) (pos : Nat) :
    Leaves s pos (final ((onConn pos destroyConnection).run s)) := by
  by_cases halive : s.Alive pos
  · obtain ⟨conn, hconn⟩ := halive
    have hlt : pos < s.conns.length := (List.getElem?_eq_some_iff.mp hconn).1
    obtain ⟨hc, htasks⟩ := final_destroyConnection conn
    rw [final_onConn hconn]
    constructor
    · intro q
      rw [closeTasks_after, htasks]
      simp
    · intro q hq
      simp [after, List.getElem?_set_ne (Ne.symm hq)]
    · intro conn' hconn' hst
      obtain rfl : conn = conn' := by simpa [hconn] using hconn'
      simp [after, hlt, hc, hst]
  · rw [final_onConn_of_not_alive halive]
    exact ⟨fun _ => rfl, fun _ _ => rfl, fun conn hconn => absurd ⟨conn, hconn⟩ halive⟩

theorem run_doDisconnected {pos : Nat} (hc : s.mConnection = some pos) (io : TransIo) :
    (doDisconnected io).run s =
      match (onConn pos destroyConnection).run s with
      | .ok _ s' => .ok () { s' with
          mConnection := none
          mConnRetryDelay := TCP_INIT_RETRY_TIMEOUT * 2
          mPendingTasks := s'.mPendingTasks ++
            [.addTimer (TCP_INIT_RETRY_TIMEOUT + s'.mConnRandomDelay)] }
      | .error e s' => .error e s' := by
  have hass : (assertTrue (s.mConnection ≠ none) : ClientM Unit) = pure () :=
    assertTrue_pos (by simp [hc])
  have hconn : connection.run s = .ok pos s := by
    simp [connection, EStateM.run_bind, EStateM.run_get, hc]
  simp only [doDisconnected, EStateM.run_bind, EStateM.run_get, hass, EStateM.run_pure, hconn]
  cases (onConn pos destroyConnection).run s <;> rfl

theorem leaves_disconnect {pos : Nat} (hst : s.mState = .connected)
    (hc : s.mConnection = some pos) (io : TransIo) :
    Leaves s pos (final ((transStateInLoop false io .disconnect).run s)) := by
  let s₀ : TcpClient := { s with mState := .disconnect }
  have hrun : (transStateInLoop false io .disconnect).run s = (doDisconnected io).run s₀ := by
    simp [transStateInLoop, EStateM.run_bind, EStateM.run_get, hst, setState, s₀]
  have hleaves := leaves_onConn s₀ pos
  rw [hrun, run_doDisconnected (s := s₀) hc]
  cases hon : (onConn pos destroyConnection).run s₀ with
  | ok u s' =>
    rw [hon] at hleaves
    refine ⟨fun q => ?_, hleaves.others, hleaves.destroyed⟩
    rw [← show _ = s.closeTasks q from hleaves.tasks q]
    simp [final, closeTasks]
  | error e s' =>
    rw [hon] at hleaves
    exact ⟨hleaves.tasks, hleaves.others, hleaves.destroyed⟩

theorem run_disconnect_of_not_connected (hst : s.mState ≠ .connected) (io : TransIo) :
    (transStateInLoop false io .disconnect).run s = .ok () s := by
  simp [transStateInLoop, EStateM.run_bind, EStateM.run_get, hst]

theorem run_task {t : ClientTask} {ts : List ClientTask} (hts : s.mPendingTasks = t :: ts)
    (io : TransIo) (taskIo : TaskIo) :
    (step (.task io taskIo)).run s = (runTask io taskIo t).run { s with mPendingTasks := ts } := by
  simp [step, EStateM.run_bind, EStateM.run_get, hts]

/-- A registered channel whose close task comes belongs to a closed connection. -/
theorem closed_of_closeTask (h : s.Inv) {pos : Nat} {ts : List ClientTask}
    (hts : s.mPendingTasks = .conn pos .close :: ts) {conn : TcpConnection}
    (hconn : s.conns[pos]? = some (some conn)) (hch : conn.mpChannel ≠ none) :
    conn.mState = .disConnected ∧ closeTasks { s with mPendingTasks := ts } pos = 0 := by
  have honce := h.once pos conn id hconn hch
  have hcount : s.closeTasks pos = closeTasks { s with mPendingTasks := ts } pos + 1 := by
    rw [closeTasks, closeTasks, hts, List.count_cons_self]
  rw [toClose] at honce
  split at honce
  · exact ⟨‹_›, by omega⟩
  · omega

/-- The task of a close callback that comes in step destroys its connection. -/
theorem inv_closeTask (h : s.Inv) {pos : Nat} {ts : List ClientTask}
    (hts : s.mPendingTasks = .conn pos .close :: ts) (io : TransIo)
    (hstep : s.Registered pos → s.mState = .connected ∧ s.mConnection = some pos) :
    (final ((transStateInLoop false io .disconnect).run { s with mPendingTasks := ts })).Inv := by
  have hpopped := inv_popped h hts
  have hkept := tasksKeep_invBut.transStateInLoop false io .disconnect _ hpopped
  by_cases hreg : s.Registered pos
  · -- the change of state destroys this very connection
    obtain ⟨hst, hc⟩ := hstep hreg
    obtain ⟨conn, hconn, hch⟩ := hreg
    have hleaves := leaves_disconnect (s := { s with mPendingTasks := ts }) hst hc io
    have hgone := hleaves.destroyed conn hconn (closed_of_closeTask h hts hconn hch).1
    refine hkept.inv fun q hq => ?_
    obtain ⟨rfl, -⟩ := ClientTask.conn.inj hq
    rintro ⟨conn', hconn', hch'⟩
    rw [hgone] at hconn'
    obtain rfl := Option.some.inj (Option.some.inj hconn')
    exact hch' rfl
  · refine tasksKeep_invBut.transStateInLoop false io .disconnect _ (hpopped.inv fun q hq => ?_)
    obtain ⟨rfl, -⟩ := ClientTask.conn.inj hq
    exact hreg

/-- **A step that closes in step keeps the invariant**, whether it returns or stops. -/
theorem step_inv (h : s.Inv) {i : ClientEvent} (hi : s.ClosesInStep i) :
    (final ((step i).run s)).Inv := by
  cases i with
  | connect mIsLoopingNow io => exact tasksKeep_invBut.transStateInLoop _ io .connecting s h
  | disconnect =>
    refine Keeps.bind .get (fun _ => .ite (fun _ => ?_) fun _ => .pure _) s h
    exact tasksKeep_invBut.queueInLoop (by simp)
  | timer io =>
    refine Keeps.bind .get (fun _ => .ite (fun _ => ?_) fun _ => .pure _) s h
    exact .bind (.modify fun _ h => ⟨h.once, h.fresh⟩) fun _ =>
      tasksKeep_invBut.transStateInLoop true io _
  | connEvent mRevent errno =>
    refine Keeps.bind .get (fun _ => .ite (fun _ => ?_) fun _ => .pure _) s h
    exact tasksKeep_invBut.handleConnEvent mRevent errno
  | event pos mRevent io =>
    refine Keeps.bind .get (fun _ => .ite (fun _ => ?_) fun _ => .pure _) s h
    exact keeps_onConn pos (settles_of_closesOnce (closesOnce_handleEvent mRevent io))
  | calls pos cs =>
    refine Keeps.bind .get (fun _ => .ite (fun _ => ?_) fun _ => .pure _) s h
    exact keeps_onConn pos (settles_of_closesOnce (still_runCalls cs).closesOnce)
  | queue pos task =>
    refine Keeps.bind .get (fun _ => .ite (fun ht => ?_) fun _ => .pure _) s h
    exact tasksKeep_invBut.queueInLoop (by simp [ht.2])
  -- the connection is gone, and no other has changed
  | release pos =>
    refine Keeps.bind .get (fun _ => .ite (fun _ => .modify fun s h => ?_) fun _ => .pure _) s h
    refine ⟨fun q conn hbut hconn hch => h.once q conn hbut ?_ hch, fun q hq => h.fresh q ?_⟩
    · by_cases hq : q = pos
      · subst hq
        rw [List.getElem?_set_self'] at hconn
        cases hs : s.conns[q]? <;> simp [hs] at hconn
      · rwa [List.getElem?_set_ne (Ne.symm hq)] at hconn
    · simpa using hq
  | task io taskIo =>
    cases hts : s.mPendingTasks with
    | nil => simpa [step, EStateM.run_bind, EStateM.run_get, hts, final] using h
    | cons t ts =>
      rw [run_task hts]
      -- a close task changes the state of the client, and the other tasks leave it
      by_cases ht : ∃ pos, t = .conn pos .close
      · obtain ⟨pos, rfl⟩ := ht
        exact inv_closeTask h hts io (hi pos ts hts)
      · refine tasksKeep_invBut.runTask (fun pos task ht => keeps_runConnTask taskIo pos ht) t _
          ((inv_popped h hts).inv fun pos hpos => ?_)
        exact absurd ⟨pos, hpos⟩ ht

/-- A close task that comes out of step leaves the channel of its connection registered. -/
theorem closesInStep_of_tornDown (h : s.Inv) {i : ClientEvent}
    (hi : (final ((step i).run s)).TornDown) : s.ClosesInStep i := by
  cases i with
  | task io taskIo =>
    rintro pos ts hts ⟨conn, hconn, hch⟩
    by_contra hnot
    obtain ⟨hst, hnone⟩ := closed_of_closeTask h hts hconn hch
    let s₀ : TcpClient := { s with mPendingTasks := ts }
    -- The change of state is refused, or is made for another connection.
    have hsame : let s' := final ((transStateInLoop false io .disconnect).run s₀)
        s'.conns[pos]? = s.conns[pos]? ∧ s'.closeTasks pos = 0 := by
      by_cases hconnected : s.mState = .connected
      · cases hc : s.mConnection with
        | none =>
          -- the assertion of `doDisconnected` fails
          have hrun : (transStateInLoop false io .disconnect).run s₀ =
              .error .fatal { s₀ with mState := .disconnect } := by
            simp [transStateInLoop, EStateM.run_bind, EStateM.run_get, s₀, hconnected, setState,
              doDisconnected, hc, assertTrue_neg]
          rw [hrun]
          exact ⟨rfl, hnone⟩
        | some q =>
          have hq : pos ≠ q := fun heq => hnot ⟨hconnected, heq ▸ hc⟩
          have hleaves := leaves_disconnect (s := s₀) hconnected hc io
          exact ⟨hleaves.others pos hq, (hleaves.tasks pos).trans hnone⟩
      · rw [run_disconnect_of_not_connected (s := s₀) hconnected]
        exact ⟨rfl, hnone⟩
    rw [run_task hts] at hi
    have hmem := hi pos conn (hsame.1.trans hconn) hst hch
    exact List.count_eq_zero.mp hsame.2 hmem
  | _ => trivial

theorem create_inv (mConnRandomDelay : Nat) : (create mConnRandomDelay).Inv :=
  ⟨fun pos conn _ hconn => by simp [create] at hconn, fun pos _ => rfl⟩

/-- **Every closed connection is torn down** in the runs whose close tasks find the client
connected through their connection, and in no others. -/
theorem tornDown_iff (mConnRandomDelay : Nat) (is : List ClientEvent) :
    Always step (fun r => (final r).TornDown) (create mConnRandomDelay) is ↔
      Along step ClosesInStep (create mConnRandomDelay) is := by
  refine always_iff_along (I := Inv) (fun s h => h.tornDown) ?_ ?_ ?_ (create_inv mConnRandomDelay)
  · intro s i s' h hi hrun
    have hinv := step_inv h hi
    rwa [hrun] at hinv
  · intro s i e s' h hi hrun
    have hinv := step_inv h hi
    rw [hrun] at hinv
    exact hinv.tornDown
  · intro s i h hi
    exact closesInStep_of_tornDown h hi

/-- The peer closes after `disconnect`: the client is no longer connected when the task of the close
callback comes. -/
theorem not_tornDown_disconnect :
    ¬ ∀ (mConnRandomDelay : Nat) (is : List ClientEvent),
        Always step (fun r => (final r).TornDown) (create mConnRandomDelay) is := by
  intro h
  let io : TransIo := ⟨.socket 0, 0, [], 0⟩
  let task : ClientEvent := .task io ⟨.accepted 0, 0, []⟩
  let is : List ClientEvent := [.connect false io, task, .disconnect, task, task, task,
    .event 0 EPOLLIN ⟨⟨.bytes [], 0, [], []⟩, ⟨.accepted 0, 0, []⟩, []⟩, task]
  have hlast := h 0 is is (List.prefix_refl _)
  have hfinal : ∃ s ∈ returned ((exec step is).run (create 0)), s.mPendingTasks = [] ∧
      ∃ conn ∈ s.conns[0]?.join, conn.mState = .disConnected ∧ conn.mpChannel ≠ none := by
    decide +kernel
  obtain ⟨s, hs, htasks, conn, hconn, hst, hch⟩ := hfinal
  rw [eq_ok_of_mem_returned hs] at hlast
  have hmem := hlast 0 conn (Option.join_eq_some_iff.mp hconn) hst hch
  rw [show (final (.ok () s : EStateM.Result Stop TcpClient Unit)).mPendingTasks = [] from htasks]
    at hmem
  cases hmem

end TcpClient

end SimpleTcp
