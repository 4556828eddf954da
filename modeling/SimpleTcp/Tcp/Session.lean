import SimpleTcp.Tcp.Handlers

/-!
# Sessions

A session is a connection together with what its loop holds of it. The loop polls, hands the event
of the channel to the handlers, at most once for each poll, and then runs the tasks that were
queued until then, before it polls again. Other threads queue tasks at any time, and callbacks of
other connections call at any time. A step that the loop is not ready for does nothing.

## Main definitions

* `Session`, `SessionEvent`, `Session.step`: the session and its steps
* `Stays`: what handlers and tasks do that leave the state of the connection alone
* `WritesConnected`: the events whose write callback finds the connection connected

## Main results

* `handleEvent_outcome`: an event keeps an open connection open or closes it
* `handleEvent_fatal`: the other events fail the assertion of `handleWrite`
-/

namespace SimpleTcp

open TcpConnection

/-- The loop as one of its connections sees it: whether the event of the channel was handled since
the last poll, and the tasks still to run of those that `doPendingTasks` has swapped out. -/
structure Session where
  ctx : Ctx
  established : Bool
  dispatched : Bool
  batch : Option (List ConnTask)
  deriving DecidableEq

/-- What the handlers that an event may reach meet. -/
structure EventIo where
  read : ReadIo
  write : WriteIo
  onConnection : List UserCall

inductive SessionEvent where
  /-- The server has accepted the connection. -/
  | establish (onConnection : List UserCall)
  /-- `epoll_wait` has reported the mask for the channel. -/
  | event (mRevent : EventMask) (io : EventIo)
  /-- A callback of another connection calls. -/
  | calls (cs : List UserCall)
  /-- Another thread sends. -/
  | queueSend (data : Bytes)
  /-- Another thread shuts the connection down. -/
  | queueShutdown
  /-- The events of the poll are handled, and the pending tasks are swapped out. -/
  | doPendingTasks
  /-- The next of the tasks runs. -/
  | task (io : TaskIo)
  /-- The tasks have run, and the loop polls again. -/
  | poll

namespace Session

def created : Session := ⟨⟨TcpConnection.create, [], []⟩, false, false, none⟩

/-- A handler or a task of the connection. -/
def onCtx (x : ConnM Unit) : EStateM Stop Session Unit := fun s =>
  match x.run s.ctx with
  | .ok _ c => .ok () { s with ctx := c }
  | .error e c => .error e { s with ctx := c }

/-- `Channel::handleEvent`, with the callbacks that the constructor of the connection has set. -/
def handleEvent (mRevent : EventMask) (io : EventIo) : ConnM Unit :=
  Channel.handleEvent mRevent (handleClose io.onConnection) handleError (handleRead io.read)
    (handleWrite io.write)

/-- The poll may have reported the channel, and its event is not handled yet. -/
def CanDispatch (s : Session) : Prop :=
  s.established = true ∧ s.dispatched = false ∧ s.batch = none ∧ s.ctx.conn.mpChannel ≠ none

instance (s : Session) : Decidable s.CanDispatch := inferInstanceAs (Decidable (_ ∧ _))

def step : SessionEvent → EStateM Stop Session Unit
  | .establish onConnection => do
    if (← get).established = false then
      modify fun s => { s with established := true }
      onCtx (establishConnect onConnection)
  | .event mRevent io => do
    if (← get).CanDispatch then
      modify fun s => { s with dispatched := true }
      onCtx (handleEvent mRevent io)
  | .calls cs => onCtx (runCalls cs)
  | .queueSend data => onCtx (queueInLoop (.send data))
  | .queueShutdown => onCtx (queueInLoop .shutdown)
  | .doPendingTasks => modify fun s =>
    -- the tasks are swapped out: what they queue waits for the next turn
    match s.batch with
    | none => { s with batch := some s.ctx.mPendingTasks, ctx.mPendingTasks := [] }
    | some _ => s
  | .task io => do
    match (← get).batch with
    | some (t :: ts) =>
      modify fun s => { s with batch := some ts }
      onCtx (runConnTask io t)
    | _ => pure ()
  | .poll => modify fun s =>
    match s.batch with
    -- `epoll_wait` is called once every task of the batch has run
    | some [] => { s with batch := none, dispatched := false }
    | _ => s

end Session

/-! ### Steps that keep a connection open -/

/-- The entry neither assigns the state nor enters `handleClose`. -/
def Effect.Calm : Effect → Prop
  | .state _ | .entered .handleClose => False
  | _ => True

/-- Read interest is on. -/
def Ctx.Reading (s : Ctx) : Prop := ∃ ch, s.conn.mpChannel = some ch ∧ ch.isReading

/-- The connection has stayed in its state. -/
structure Stays (s s' : Ctx) : Prop where
  sound : s'.Sound
  mState : s'.conn.mState = s.conn.mState
  tasks : ∃ n, s'.mPendingTasks = s.mPendingTasks ++ List.replicate n .shutdown
  trace : ∃ es, s'.trace = s.trace ++ es ∧ ∀ e ∈ es, e.Calm
  reading : s.Reading → s'.Reading
  channel : s.conn.mpChannel = none → s'.conn.mpChannel = none

/-- The program keeps the connection in its state, or stops as `E` allows. -/
def StaysOutcome (E : Stop → Prop) (s : Ctx) : EStateM.Result Stop Ctx Unit → Prop
  | .ok _ s' => Stays s s'
  | .error e s' => E e ∧ ∃ es, s'.trace = s.trace ++ es ∧ ∀ e ∈ es, e.Calm

section

variable {E : Stop → Prop} {s s₁ s' : Ctx} {ds : List Bytes}

theorem Stays.refl (h : s.Sound) : Stays s s :=
  ⟨h, rfl, ⟨0, by simp⟩, ⟨[], by simp⟩, id, id⟩

theorem Stays.trans (h : Stays s s₁) (h' : Stays s₁ s') : Stays s s' where
  sound := h'.sound
  mState := h'.mState.trans h.mState
  tasks := by
    obtain ⟨n, hn⟩ := h.tasks
    obtain ⟨k, hk⟩ := h'.tasks
    exact ⟨n + k, by rw [hk, hn, List.append_assoc, List.replicate_append_replicate]⟩
  trace := by
    obtain ⟨es, hes, hcalm⟩ := h.trace
    obtain ⟨es', hes', hcalm'⟩ := h'.trace
    refine ⟨es ++ es', by rw [hes', hes, List.append_assoc], fun e he => ?_⟩
    exact (List.mem_append.mp he).elim (hcalm e) (hcalm' e)
  reading := h'.reading ∘ h.reading
  channel := h'.channel ∘ h.channel

theorem calm_appended (ds : List Bytes) : ∀ e ∈ ds.map Effect.appended, e.Calm := by
  intro e he
  obtain ⟨d, -, rfl⟩ := List.mem_map.mp he
  trivial

theorem Called.stays (hc : Called s s' ds) : Stays s s' where
  sound := hc.sound
  mState := hc.mState
  tasks := hc.tasks
  trace := ⟨_, hc.trace, calm_appended ds⟩
  reading := by
    rintro ⟨ch, hch, hr⟩
    rcases hc.channel with hsame | ⟨ch', hch', hen⟩
    · exact ⟨ch, hsame.trans hch, hr⟩
    · obtain rfl : ch = ch' := Option.some.inj (hch.symm.trans hch')
      exact ⟨_, hen, ch.isReading_enableWrite hr⟩
  channel := by
    intro hnone
    rcases hc.channel with hsame | ⟨ch, hch, -⟩
    · exact hsame.trans hnone
    · rw [hnone] at hch
      cases hch

theorem Stays.note (h : s.Sound) {es : List Effect} (hes : ∀ e ∈ es, e.Calm) :
    Stays s (s.note es) := ⟨h.note es, rfl, ⟨0, by simp [Ctx.note]⟩, ⟨es, rfl, hes⟩, id, id⟩

theorem Stays.received (h : s.Sound) {b : TcpBuffer} (hb : b.HasRoom) :
    Stays s { s with conn.mRecvBuffer := b } :=
  ⟨h.received hb, rfl, ⟨0, by simp⟩, ⟨[], by simp⟩, id, id⟩

theorem Stays.wrote (h : s.Sound) (taken : Bytes) {b : TcpBuffer} (hb : b.Valid) :
    Stays s (s.wrote taken b) :=
  ⟨h.wrote taken hb, rfl, ⟨0, by simp [Ctx.wrote]⟩, ⟨[.written taken], rfl, fun e he => by
    obtain rfl := List.mem_singleton.mp he
    trivial⟩, id, id⟩

theorem Stays.writeOff (h : s.Sound) : Stays s s.writeOff := by
  have hsound := h.writeOff
  rcases s.writeOff_cases with ⟨hsame, -⟩ | ⟨ch, hch, -, hsame⟩
  · rw [hsame]
    exact .refl h
  · rw [hsame] at hsound ⊢
    refine ⟨hsound, rfl, ⟨0, by simp⟩, ⟨[.writeDisabled], rfl, fun e he => ?_⟩, ?_, ?_⟩
    · obtain rfl := List.mem_singleton.mp he
      trivial
    · rintro ⟨ch', hch', hr⟩
      obtain rfl : ch = ch' := Option.some.inj (hch.symm.trans hch')
      exact ⟨_, rfl, ch.isReading_disableWrite hr⟩
    · intro hnone
      rw [hch] at hnone
      cases hnone

theorem StaysOutcome.of_stays (h : Stays s s₁) {r : EStateM.Result Stop Ctx Unit}
    (hr : StaysOutcome E s₁ r) : StaysOutcome E s r := by
  cases r with
  | ok u s' => exact h.trans hr
  | error e s' =>
    obtain ⟨he, es', hes', hcalm'⟩ := hr
    obtain ⟨es, hes, hcalm⟩ := h.trace
    refine ⟨he, es ++ es', by rw [hes', hes, List.append_assoc], fun e he => ?_⟩
    exact (List.mem_append.mp he).elim (hcalm e) (hcalm' e)

theorem StaysOutcome.bind {x y : ConnM Unit} (hx : StaysOutcome E s (x.run s))
    (hy : ∀ s', Stays s s' → StaysOutcome E s' (y.run s')) :
    StaysOutcome E s ((do x; y).run s) := by
  rw [EStateM.run_bind]
  cases hrun : x.run s with
  | ok u s₁ =>
    rw [hrun] at hx
    exact .of_stays hx (hy s₁ hx)
  | error e s₁ =>
    rw [hrun] at hx
    exact hx

theorem CallOutcome.stays {sends : TcpBuffer → Except Stop TcpBuffer}
    {r : EStateM.Result Stop Ctx Unit} (h : CallOutcome sends s r)
    (hE : ∀ e, TcpBuffer.GrowStop e → E e) : StaysOutcome E s r := by
  cases r with
  | ok u s' =>
    obtain ⟨⟨ds, hc⟩, -⟩ := h
    exact hc.stays
  | error e s' =>
    obtain ⟨⟨-, ds, htr⟩, he, -⟩ := h
    exact ⟨hE e he, _, htr, calm_appended ds⟩

theorem runCalls_stays (h : s.Sound) (cs : List UserCall) :
    StaysOutcome TcpBuffer.GrowStop s ((runCalls cs).run s) :=
  (runCalls_outcome cs h).stays fun _ => id

/-- A read that does not close the connection. -/
theorem handleRead_stays (h : s.Sound) (hopen : s.conn.mState ≠ .disConnected) {io : ReadIo}
    (hio : ¬ io.Closes) : StaysOutcome TcpBuffer.GrowStop s ((handleRead io).run s) := by
  have hentered : Stays s (s.note [.entered .handleRead]) :=
    .note h fun e he => by
      obtain rfl := List.mem_singleton.mp he
      trivial
  rcases handleRead_cases h hopen io with
    ⟨hcl, -⟩ | ⟨-, -, hr⟩ | ⟨-, -, hr⟩ | ⟨-, b, hb, -, hr⟩
  · exact absurd hcl hio
  · rw [hr]
    refine .note h fun e he => ?_
    rcases List.mem_pair.mp he with rfl | rfl <;> trivial
  · rw [hr]
    exact ⟨.inr (.inr rfl), hentered.trace⟩
  · rw [hr]
    have hrecv := hentered.trans (.received hentered.sound hb)
    exact .of_stays hrecv (runCalls_stays hrecv.sound _)

/-- A write on a connected connection stops only in its callback, or when it throws. -/
theorem handleWrite_stays (h : s.Sound) (hconn : s.conn.mState = .connected) (io : WriteIo) :
    StaysOutcome (fun e => TcpBuffer.GrowStop e ∨ e = .networkException io.soError ∧
      s.conn.mSendBuffer.readable ≠ [] ∧ io.res.Nothing) s ((handleWrite io).run s) := by
  have hentered : Stays s (s.note [.entered .handleWrite]) :=
    .note h fun e he => by
      obtain rfl := List.mem_singleton.mp he
      trivial
  have hcomplete : ∀ s₁, Stays s s₁ → StaysOutcome (fun e => TcpBuffer.GrowStop e ∨
      e = .networkException io.soError ∧ s.conn.mSendBuffer.readable ≠ [] ∧ io.res.Nothing) s₁
        ((writeComplete io.onWriteComplete).run s₁) := by
    intro s₁ h₁
    rcases writeComplete_cases h₁.sound (h₁.mState.trans hconn) io.onWriteComplete with
      ⟨ds, s₂, hc, -, hr⟩ | ⟨e, s₂, ⟨-, ds, htr⟩, he, -, hr⟩ <;> rw [hr]
    · exact hc.stays.trans (.writeOff hc.sound)
    · exact ⟨.inl he, _, htr, calm_appended ds⟩
  rcases handleWrite_cases h hconn io with ⟨-, hr⟩ | ⟨hne, hn, hr⟩ |
    ⟨room, b, -, -, -, hv, -, -, -, hr⟩ | ⟨room, b, -, -, -, hv, -, -, -, hr⟩ <;> rw [hr]
  · exact .of_stays hentered (hcomplete _ hentered)
  · exact ⟨.inr ⟨rfl, hne, hn⟩, hentered.trace⟩
  · exact hentered.trans (.wrote hentered.sound _ hv)
  · have hwrote := hentered.trans (.wrote hentered.sound s.conn.mSendBuffer.readable hv)
    exact .of_stays hwrote (hcomplete _ hwrote)

/-! ### Events -/

/-- The connection has stayed open, or `handleClose` was the last handler. -/
def EventOutcome (E : Stop → Prop) (s : Ctx) : EStateM.Result Stop Ctx Unit → Prop
  | .ok _ s' => Stays s s' ∨ ∃ s₁, Stays s s₁ ∧ Called s₁.closing s' []
  | .error e s' => E e ∧ ∃ es, s'.trace = s.trace ++ es ∧ ∀ e ∈ es, e.Calm

theorem StaysOutcome.event {r : EStateM.Result Stop Ctx Unit} (h : StaysOutcome E s r) :
    EventOutcome E s r := by
  cases r with
  | ok u s' => exact .inl h
  | error e s' => exact h

/-- The read handler runs, and stops because the receive buffer would outgrow its container. -/
def ReadStops (s : Ctx) (mRevent : EventMask) (io : ReadIo) : Prop :=
  Channel.Reads mRevent ∧
    s.conn.mRecvBuffer.readFromSocket io.res io.soError = .error .lengthError

theorem readFromSocket_of_nothing (b : TcpBuffer) {res : ReadResult} (hn : res.Nothing)
    (soError : Errno) : b.readFromSocket res soError = .error (.networkException soError) := by
  cases res with
  | failed errno => rfl
  | bytes arrived =>
    obtain rfl : arrived = [] := hn
    simp [TcpBuffer.readFromSocket]

theorem ReadStops.run {mRevent : EventMask} {io : ReadIo} (hstop : ReadStops s mRevent io)
    (h : s.Sound) (hopen : s.conn.mState ≠ .disConnected) :
    (handleRead io).run s = .error .lengthError (s.note [.entered .handleRead]) := by
  have hn : ¬ io.res.Nothing := by
    intro hn
    have hread := hstop.2
    rw [readFromSocket_of_nothing _ hn] at hread
    cases hread
  rcases handleRead_cases h hopen io with
    ⟨hcl, -⟩ | ⟨hn', -⟩ | ⟨-, -, hr⟩ | ⟨-, b, -, hok, -⟩
  · exact absurd hcl.1 hn
  · exact absurd hn' hn
  · exact hr
  · rw [hstop.2] at hok
    cases hok

section

variable {mRevent : EventMask} {io : EventIo}

theorem handleEvent_of_reads_writes (hr : Channel.Reads mRevent) (hw : Channel.Writes mRevent) :
    Session.handleEvent mRevent io = (do
      handleRead io.read
      handleWrite io.write) := by
  rw [Session.handleEvent, Channel.handleEvent_of_ready _ _ _ _ hr.1]
  simp [hr.2, hw.2]

theorem handleEvent_of_reads (hr : Channel.Reads mRevent) (hw : ¬ Channel.Writes mRevent) :
    Session.handleEvent mRevent io = handleRead io.read := by
  rw [Session.handleEvent, Channel.handleEvent_of_ready _ _ _ _ hr.1]
  simp [hr.2, show ¬ mRevent.Meets EPOLLOUT from fun h => hw ⟨hr.1, h⟩]

theorem handleEvent_of_writes (hr : ¬ Channel.Reads mRevent) (hw : Channel.Writes mRevent) :
    Session.handleEvent mRevent io = handleWrite io.write := by
  rw [Session.handleEvent, Channel.handleEvent_of_ready _ _ _ _ hw.1]
  simp [hw.2, show ¬ mRevent.Meets (EPOLLIN ||| EPOLLPRI ||| EPOLLRDHUP) from
    fun h => hr ⟨hw.1, h⟩]

theorem handleEvent_of_none (hready : Channel.Ready mRevent) (hr : ¬ Channel.Reads mRevent)
    (hw : ¬ Channel.Writes mRevent) : Session.handleEvent mRevent io = pure () := by
  rw [Session.handleEvent, Channel.handleEvent_of_ready _ _ _ _ hready]
  simp [show ¬ mRevent.Meets EPOLLOUT from fun h => hw ⟨hready, h⟩,
    show ¬ mRevent.Meets (EPOLLIN ||| EPOLLPRI ||| EPOLLRDHUP) from fun h => hr ⟨hready, h⟩]

/-- A read that closes the connection ends as `handleClose` does. -/
theorem handleRead_closes (h : s.Sound) (hopen : s.conn.mState ≠ .disConnected)
    (hio : io.read.Closes) : ∃ s₁ s', Stays s s₁ ∧ Called s₁.closing s' [] ∧
      (handleRead io.read).run s = .ok () s' := by
  rcases handleRead_cases h hopen io.read with ⟨-, hr⟩ | ⟨-, hne, -⟩ | ⟨hn, -⟩ | ⟨hn, -⟩
  · have hentered : Stays s (s.note [.entered .handleRead]) :=
      .note h fun e he => by
        obtain rfl := List.mem_singleton.mp he
        trivial
    obtain ⟨s', hs', hc⟩ := run_handleClose hentered.sound hopen io.read.onConnection
    exact ⟨_, s', hentered, hc, hr.trans hs'⟩
  · exact absurd hio.2 hne
  · exact absurd hio.1 hn
  · exact absurd hio.1 hn

/-- The events that keep the state machine of the connection: when the write callback runs, the
connection is connected and the read callback does not close it. -/
def WritesConnected (s : Ctx) (mRevent : EventMask) (io : EventIo) : Prop :=
  Channel.Writes mRevent →
    ReadStops s mRevent io.read ∨
      s.conn.mState = .connected ∧ (Channel.Reads mRevent → ¬ io.read.Closes)

/-- How a write callback stops, other than in its write-complete callback. -/
def WriteThrows (mRevent : EventMask) (io : EventIo) (e : Stop) : Prop :=
  Channel.Writes mRevent ∧ e = .networkException io.write.soError ∧ io.write.res.Nothing

theorem handleWrite_event (h : s.Sound) (hconn : s.conn.mState = .connected)
    (hw : Channel.Writes mRevent) :
    StaysOutcome (fun e => TcpBuffer.GrowStop e ∨ WriteThrows mRevent io e) s
      ((handleWrite io.write).run s) := by
  have hstays := handleWrite_stays h hconn io.write
  cases hrun : (handleWrite io.write).run s with
  | ok u s' =>
    rw [hrun] at hstays
    exact hstays
  | error e s' =>
    rw [hrun] at hstays
    exact ⟨hstays.1.imp_right fun ⟨he, _, hn⟩ => ⟨hw, he, hn⟩, hstays.2⟩

/-- **An event** of an open connection keeps it open or closes it, and stops only where a buffer
grows or a write throws. -/
theorem handleEvent_outcome (h : s.Sound) (hopen : s.conn.mState ≠ .disConnected)
    (hio : WritesConnected s mRevent io) :
    EventOutcome (fun e => TcpBuffer.GrowStop e ∨ WriteThrows mRevent io e) s
      ((Session.handleEvent mRevent io).run s) := by
  have himp : ∀ r, StaysOutcome TcpBuffer.GrowStop s r →
      StaysOutcome (fun e => TcpBuffer.GrowStop e ∨ WriteThrows mRevent io e) s r := by
    intro r hr
    cases r with
    | ok u s' => exact hr
    | error e s' => exact ⟨.inl hr.1, hr.2⟩
  rcases Channel.closes_or_errors_or_ready mRevent with hcl | herr | hready
  · rw [Session.handleEvent, Channel.handleEvent_of_closes _ _ _ _ hcl]
    obtain ⟨s', hs', hc⟩ := run_handleClose h hopen io.onConnection
    rw [hs']
    exact .inr ⟨s, .refl h, hc⟩
  · rw [Session.handleEvent, Channel.handleEvent_of_errors _ _ _ _ herr, run_handleError]
    refine .inl (.note h fun e he => ?_)
    obtain rfl := List.mem_singleton.mp he
    trivial
  · by_cases hr : Channel.Reads mRevent
    · by_cases hw : Channel.Writes mRevent
      · rw [handleEvent_of_reads_writes hr hw]
        rcases hio hw with hstop | ⟨hconn, hread⟩
        · rw [EStateM.run_bind, hstop.run h hopen]
          refine ⟨.inl (.inr (.inr rfl)), [.entered .handleRead], rfl, fun e he => ?_⟩
          obtain rfl := List.mem_singleton.mp he
          trivial
        · -- the message callback may send and queue, but the connection stays connected
          refine (StaysOutcome.bind (himp _ (handleRead_stays h hopen (hread hr)))
            fun s' hs' => ?_).event
          exact handleWrite_event hs'.sound (hs'.mState.trans hconn) hw
      · rw [handleEvent_of_reads hr hw]
        by_cases hclose : io.read.Closes
        · obtain ⟨s₁, s', hs₁, hc, hrun⟩ := handleRead_closes h hopen hclose
          rw [hrun]
          exact .inr ⟨s₁, hs₁, hc⟩
        · exact (himp _ (handleRead_stays h hopen hclose)).event
    · by_cases hw : Channel.Writes mRevent
      · rw [handleEvent_of_writes hr hw]
        rcases hio hw with hstop | ⟨hconn, -⟩
        · exact absurd hstop.1 hr
        · exact (handleWrite_event h hconn hw).event
      · rw [handleEvent_of_none hready hr hw]
        exact .inl (.refl h)

/-- **An event that breaks the state machine** fails the assertion of `handleWrite`. -/
theorem handleEvent_fatal (h : s.Sound) (hopen : s.conn.mState ≠ .disConnected)
    (hio : ¬ WritesConnected s mRevent io) :
    ∃ s', (Session.handleEvent mRevent io).run s = .error .fatal s' := by
  obtain ⟨hw, hnot⟩ := not_forall.mp hio
  obtain ⟨hstop, hnot⟩ := not_or.mp hnot
  by_cases hr : Channel.Reads mRevent
  · rw [handleEvent_of_reads_writes hr hw, EStateM.run_bind]
    by_cases hclose : io.read.Closes
    · -- the write handler runs right after `handleClose`
      obtain ⟨s₁, s', -, hc, hrun⟩ := handleRead_closes h hopen hclose
      have hst : s'.conn.mState ≠ .connected := by
        rw [hc.mState]
        simp [Ctx.closing]
      rw [hrun]
      exact ⟨_, run_handleWrite_of_not_connected hst io.write⟩
    · -- a half-closed connection whose channel still has write interest
      have hhalf : s.conn.mState ≠ .connected := fun hconn => hnot ⟨hconn, fun _ => hclose⟩
      have hkeeps : ∃ s', (handleRead io.read).run s = .ok () s' ∧
          s'.conn.mState = s.conn.mState := by
        rcases handleRead_cases h hopen io.read with
          ⟨hcl, -⟩ | ⟨-, -, hr'⟩ | ⟨-, hstop', -⟩ | ⟨-, b, hb, -, hr'⟩
        · exact absurd hcl hclose
        · exact ⟨_, hr', rfl⟩
        · exact absurd ⟨hr, hstop'⟩ hstop
        · obtain ⟨s', hs', hc⟩ := runCalls_of_not_connected
            ((h.note [.entered .handleRead]).received hb) hhalf io.read.onMessage
          exact ⟨s', hr'.trans hs', hc.mState⟩
      obtain ⟨s', hs', hst⟩ := hkeeps
      rw [hs']
      exact ⟨_, run_handleWrite_of_not_connected (hst ▸ hhalf) io.write⟩
  · rw [handleEvent_of_writes hr hw]
    have hhalf : s.conn.mState ≠ .connected := fun hconn => hnot ⟨hconn, fun h' => absurd h' hr⟩
    exact ⟨_, run_handleWrite_of_not_connected hhalf io.write⟩

end

end

end SimpleTcp
