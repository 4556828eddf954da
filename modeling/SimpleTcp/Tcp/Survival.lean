import SimpleTcp.Tcp.Life

/-!
# The steps that a session survives

A step of a session returns when the sends of its callbacks find room in the send buffer, what it
reads finds room in the receive buffer, and a write callback finds a connected connection and either
nothing to write or a kernel that takes some of it. Every other step throws, fails an assertion or
never ends.

## Main definitions

* `CallsFit`: calls whose sends find room
* `ReadFits`, `WriteFits`, `EventFits`: the results that the handlers of an event handle
* `Session.Survives`: the steps that return

## Main results

* `callsFit_iff`, `runCalls_returns_iff`: the calls that return
* `handleEvent_returns_iff`: the events whose handlers return
* `Session.returns_iff`: the steps that return
-/

namespace SimpleTcp

open TcpConnection Machine

/-! ### Calls -/

mutual

/-- A send finds room in the send buffer, and so do those of the high-water-mark callback. -/
def CallFits : UserCall → TcpBuffer → Prop
  | .send data onHighWater, b => b.CanAppend data ∧ ∀ b', b.appendToBuffer data = .ok b' →
      b'.size > TCP_HIGH_WATER_MARK → CallsFit onHighWater b'
  | .extract _, _ => True
  | .shutdownConnection, _ => True

/-- Each call fits the send buffer that the calls before it have left. -/
def CallsFit : List UserCall → TcpBuffer → Prop
  | [], _ => True
  | call :: calls, b => CallFits call b ∧ ∀ b', sendCall call b = .ok b' → CallsFit calls b'

end

mutual

theorem callFits_iff : (c : UserCall) → ∀ {b : TcpBuffer}, b.Valid →
    (CallFits c b ↔ ∃ b', sendCall c b = .ok b')
  | .send data onHighWater, b, hv => by
    simp only [CallFits, sendCall]
    by_cases hd : b.CanAppend data
    · obtain ⟨b₁, hb₁, hv₁, -⟩ := TcpBuffer.appendToBuffer_of_canAppend hv hd
      rw [hb₁, ok_bind]
      by_cases hhigh : b₁.size > TCP_HIGH_WATER_MARK
      · rw [if_pos hhigh, ← callsFit_iff onHighWater hv₁]
        refine ⟨fun h => h.2 b₁ rfl hhigh, fun h => ⟨hd, fun b' hb' _ => ?_⟩⟩
        obtain rfl := Except.ok.inj hb'
        exact h
      · rw [if_neg hhigh]
        refine iff_of_true ⟨hd, fun b' hb' hhigh' => ?_⟩ ⟨b₁, rfl⟩
        obtain rfl := Except.ok.inj hb'
        exact absurd hhigh' hhigh
    · obtain ⟨e, he, -⟩ := TcpBuffer.appendToBuffer_of_not_canAppend hv hd
      rw [he, error_bind]
      exact iff_of_false (fun h => hd h.1) fun ⟨b', hb'⟩ => by cases hb'
  | .extract _, b, _ => by
    simp only [CallFits, sendCall]
    exact iff_of_true trivial ⟨b, rfl⟩
  | .shutdownConnection, b, _ => by
    simp only [CallFits, sendCall]
    exact iff_of_true trivial ⟨b, rfl⟩

/-- Calls fit a buffer exactly when their sends find room one after the other. -/
theorem callsFit_iff : (cs : List UserCall) → ∀ {b : TcpBuffer}, b.Valid →
    (CallsFit cs b ↔ ∃ b', sendCalls cs b = .ok b')
  | [], b, _ => by
    simp only [CallsFit, sendCalls]
    exact iff_of_true trivial ⟨b, rfl⟩
  | c :: cs, b, hv => by
    simp only [CallsFit, sendCalls, callFits_iff c hv]
    cases hc : sendCall c b with
    | ok b₁ =>
      rw [ok_bind, ← callsFit_iff cs (sendCall_extends c hv hc).1]
      refine ⟨fun h => h.2 b₁ rfl, fun h => ⟨⟨b₁, rfl⟩, fun b' hb' => ?_⟩⟩
      obtain rfl := Except.ok.inj hb'
      exact h
    | error e =>
      rw [error_bind]
      exact iff_of_false (fun ⟨⟨b', hb'⟩, _⟩ => by cases hb') fun ⟨b', hb'⟩ => by cases hb'

end

section

variable {s : Ctx} {mRevent : EventMask} {io : EventIo}

/-- Only a connected connection sends. -/
theorem runCalls_returns_iff (h : s.Sound) (cs : List UserCall) :
    (∃ s', (runCalls cs).run s = .ok () s') ↔
      (s.conn.mState = .connected → CallsFit cs s.conn.mSendBuffer) := by
  have hout := runCalls_outcome cs h
  rw [callsFit_iff cs h.send]
  cases hrun : (runCalls cs).run s with
  | ok u s' =>
    rw [hrun] at hout
    exact iff_of_true ⟨s', rfl⟩ fun hconn => ⟨_, hout.2 hconn⟩
  | error e s' =>
    rw [hrun] at hout
    obtain ⟨-, -, hconn, hstop⟩ := hout
    refine iff_of_false error_not_ok fun hfits => ?_
    obtain ⟨b', hb'⟩ := hfits hconn
    rw [hstop] at hb'
    cases hb'

/-! ### Reading -/

/-- What was read finds room, and so do the sends of the message callback. -/
def ReadFits (s : Ctx) (io : ReadIo) : Prop :=
  ¬ io.res.Nothing → s.conn.mRecvBuffer.CanRead io.res ∧
    (s.conn.mState = .connected → CallsFit io.onMessage s.conn.mSendBuffer)

theorem handleRead_returns_iff (h : s.Sound) (hopen : s.conn.mState ≠ .disConnected)
    (io : ReadIo) : (∃ s', (handleRead io).run s = .ok () s') ↔ ReadFits s io := by
  have hentered := h.note [.entered .handleRead]
  rcases handleRead_cases h hopen io with
    ⟨hcl, hr⟩ | ⟨hn, -, hr⟩ | ⟨hn, hlong, hr⟩ | ⟨hn, b, hb, hread, hr⟩
  · -- the connection closes, and then sends nothing
    obtain ⟨s', hs', -⟩ := run_handleClose hentered hopen io.onConnection
    exact iff_of_true ⟨s', hr.trans hs'⟩ fun hn => absurd hcl.1 hn
  · exact iff_of_true ⟨_, hr⟩ fun hn' => absurd hn hn'
  · have hnot := (TcpBuffer.readFromSocket_lengthError_iff h.recv io.res io.soError).mp hlong
    rw [hr]
    exact iff_of_false error_not_ok fun hfits => hnot (hfits hn).1
  · have hcan : s.conn.mRecvBuffer.CanRead io.res := by
      by_contra hnot
      rw [(TcpBuffer.readFromSocket_lengthError_iff h.recv io.res io.soError).mpr hnot] at hread
      cases hread
    rw [hr, runCalls_returns_iff (hentered.received hb)]
    exact ⟨fun hfits _ => ⟨hcan, hfits⟩, fun hfits => (hfits hn).2⟩

/-- A read on a connected connection that does not close it, and the send buffer it leaves. -/
theorem handleRead_connected (h : s.Sound) (hconn : s.conn.mState = .connected) {rio : ReadIo}
    (hio : ¬ rio.Closes) {s₁ : Ctx} (hrun : (handleRead rio).run s = .ok () s₁) :
    s₁.Sound ∧ s₁.conn.mState = .connected ∧
      (rio.res.Nothing ∧ s₁.conn.mSendBuffer = s.conn.mSendBuffer ∨
        ¬ rio.res.Nothing ∧
          sendCalls rio.onMessage s.conn.mSendBuffer = .ok s₁.conn.mSendBuffer) := by
  have hopen : s.conn.mState ≠ .disConnected := by simp [hconn]
  have hstays := handleRead_stays h hopen hio
  rw [hrun] at hstays
  refine ⟨hstays.sound, hstays.mState.trans hconn, ?_⟩
  rcases handleRead_cases h hopen rio with
    ⟨hcl, -⟩ | ⟨hn, -, hr⟩ | ⟨-, -, hr⟩ | ⟨hn, b, hb, -, hr⟩
  · exact absurd hcl hio
  · rw [hrun] at hr
    cases hr
    exact .inl ⟨hn, rfl⟩
  · rw [hrun] at hr
    cases hr
  · have hout := runCalls_outcome rio.onMessage ((h.note [.entered .handleRead]).received hb)
    rw [← hr, hrun] at hout
    exact .inr ⟨hn, hout.2 hconn⟩

/-! ### Writing -/

/-- There is nothing to write, or `write(2)` takes some of it; and where the buffer is empty then,
the sends of the write-complete callback find room. -/
def WriteFits (b : TcpBuffer) (io : WriteIo) : Prop :=
  if b.size = 0 then CallsFit io.onWriteComplete b
  else ¬ io.res.Nothing ∧ ∀ taken b', b.writeToSocket io.res io.soError = .ok (taken, b') →
    b'.size = 0 → CallsFit io.onWriteComplete b'

theorem writeComplete_returns_iff (h : s.Sound) (hconn : s.conn.mState = .connected)
    (calls : List UserCall) :
    (∃ s', (writeComplete calls).run s = .ok () s') ↔ CallsFit calls s.conn.mSendBuffer := by
  rw [callsFit_iff calls h.send]
  rcases writeComplete_cases h hconn calls with
    ⟨ds, s₁, -, hsent, hr⟩ | ⟨e, s₁, -, -, hstop, hr⟩
  · exact iff_of_true ⟨_, hr⟩ ⟨_, hsent⟩
  · rw [hr, hstop]
    exact iff_of_false error_not_ok fun ⟨b', hb'⟩ => by cases hb'

theorem handleWrite_returns_iff (h : s.Sound) (hconn : s.conn.mState = .connected)
    (wio : WriteIo) :
    (∃ s', (handleWrite wio).run s = .ok () s') ↔ WriteFits s.conn.mSendBuffer wio := by
  have hentered := h.note [.entered .handleWrite]
  have hsize := h.send.size_eq_zero_iff
  rw [WriteFits]
  rcases handleWrite_cases h hconn wio with ⟨hr, hrun⟩ | ⟨hne, hn, hrun⟩ |
    ⟨room, b, hne, hres, hroom, hv, hb, hleft, hw, hrun⟩ |
    ⟨room, b, hne, hres, hroom, hv, hb, -, hw, hrun⟩
  · rw [if_pos (hsize.mpr hr), hrun]
    exact writeComplete_returns_iff hentered hconn wio.onWriteComplete
  · rw [if_neg (mt hsize.mp hne), hrun]
    exact iff_of_false error_not_ok fun hfits => hfits.1 hn
  · -- something is left to write, so the callback is not run
    rw [if_neg (mt hsize.mp hne), hrun, hw]
    refine iff_of_true ⟨_, rfl⟩ ⟨by rwa [hres], fun taken b' hb' hzero => ?_⟩
    cases hb'
    exact absurd (hb.symm.trans (hv.size_eq_zero_iff.mp hzero)) hleft
  · rw [if_neg (mt hsize.mp hne), hrun, hw,
      writeComplete_returns_iff (hentered.wrote _ hv) hconn wio.onWriteComplete]
    refine ⟨fun hfits => ⟨by rwa [hres], fun taken b' hb' _ => ?_⟩, fun hfits => ?_⟩
    · cases hb'
      exact hfits
    · exact hfits.2 _ b rfl (hv.size_eq_zero_iff.mpr hb)

/-! ### Events -/

/-- The send buffer that the write callback finds: the message callback may have sent before. -/
def SendBufferAtWrite (s : Ctx) (mRevent : EventMask) (io : EventIo) (b : TcpBuffer) : Prop :=
  (Channel.Reads mRevent ∧ ¬ io.read.res.Nothing ∧
      sendCalls io.read.onMessage s.conn.mSendBuffer = .ok b) ∨
    (¬ (Channel.Reads mRevent ∧ ¬ io.read.res.Nothing) ∧ b = s.conn.mSendBuffer)

/-- When the read callback runs, what it reads and sends finds room; when the write callback runs,
the connection is connected, the read callback does not close it, and the write and the sends behind
it succeed. -/
structure EventFits (s : Ctx) (mRevent : EventMask) (io : EventIo) : Prop where
  read : Channel.Reads mRevent → ReadFits s io.read
  connected : Channel.Writes mRevent → s.conn.mState = .connected
  stays : Channel.Writes mRevent → Channel.Reads mRevent → ¬ io.read.Closes
  write : Channel.Writes mRevent → ∀ b, SendBufferAtWrite s mRevent io b → WriteFits b io.write

theorem eventFits_of_no_callback (hr : ¬ Channel.Reads mRevent) (hw : ¬ Channel.Writes mRevent) :
    EventFits s mRevent io :=
  ⟨fun h => absurd h hr, fun h => absurd h hw, fun h => absurd h hw, fun h => absurd h hw⟩

/-- The read callback and then the write callback. -/
theorem handleEvent_returns_iff_both (h : s.Sound) (hopen : s.conn.mState ≠ .disConnected)
    (hr : Channel.Reads mRevent) (hw : Channel.Writes mRevent) :
    (∃ s', (Session.handleEvent mRevent io).run s = .ok () s') ↔ EventFits s mRevent io := by
  rw [handleEvent_of_reads_writes hr hw, EStateM.run_bind]
  cases hread : (handleRead io.read).run s with
  | error e s₁ =>
    refine iff_of_false error_not_ok fun hfits => ?_
    obtain ⟨s', hs'⟩ := (handleRead_returns_iff h hopen io.read).mpr (hfits.read hr)
    rw [hread] at hs'
    cases hs'
  | ok u s₁ =>
    have hreads := (handleRead_returns_iff h hopen io.read).mp ⟨s₁, hread⟩
    by_cases hstays : s.conn.mState = .connected ∧ ¬ io.read.Closes
    · obtain ⟨hconn, hcl⟩ := hstays
      obtain ⟨h₁, hconn₁, hsend⟩ := handleRead_connected h hconn hcl hread
      -- the write callback finds the one buffer that the read callback has left
      have hat : ∀ b, SendBufferAtWrite s mRevent io b ↔ b = s₁.conn.mSendBuffer := by
        intro b
        rcases hsend with ⟨hn, hsame⟩ | ⟨hn, hsent⟩
        · simp [SendBufferAtWrite, hn, hsame]
        · simp [SendBufferAtWrite, hn, hr, hsent, eq_comm]
      rw [handleWrite_returns_iff h₁ hconn₁ io.write]
      refine ⟨fun hfits => ⟨fun _ => hreads, fun _ => hconn, fun _ _ => hcl, fun _ b hb => ?_⟩,
        fun hfits => hfits.write hw _ ((hat _).mpr rfl)⟩
      rwa [(hat b).mp hb]
    · -- the write callback finds a connection that is not connected
      refine iff_of_false (fun ⟨s', hs'⟩ => ?_) fun hfits =>
        hstays ⟨hfits.connected hw, hfits.stays hw hr⟩
      have hnot : ¬ WritesConnected s mRevent io := by
        intro hwrites
        rcases hwrites hw with hstop | ⟨hconn, hcl⟩
        · rw [hstop.run h hopen] at hread
          cases hread
        · exact hstays ⟨hconn, hcl hr⟩
      obtain ⟨c, hc⟩ := handleEvent_fatal h hopen hnot
      rw [handleEvent_of_reads_writes hr hw, EStateM.run_bind, hread] at hc
      rw [hc] at hs'
      cases hs'

/-- **The events whose handlers return.** -/
theorem handleEvent_returns_iff (h : s.Sound) (hopen : s.conn.mState ≠ .disConnected) :
    (∃ s', (Session.handleEvent mRevent io).run s = .ok () s') ↔ EventFits s mRevent io := by
  rcases Channel.closes_or_errors_or_ready mRevent with hcl | herr | hready
  · have hnot : ¬ Channel.Ready mRevent := fun hready => hready.1 hcl
    obtain ⟨s', hs', -⟩ := run_handleClose h hopen io.onConnection
    rw [Session.handleEvent, Channel.handleEvent_of_closes _ _ _ _ hcl]
    exact iff_of_true ⟨s', hs'⟩
      (eventFits_of_no_callback (fun hr => hnot hr.1) fun hw => hnot hw.1)
  · have hnot : ¬ Channel.Ready mRevent := fun hready => hready.2 herr.2
    rw [Session.handleEvent, Channel.handleEvent_of_errors _ _ _ _ herr]
    exact iff_of_true ⟨_, run_handleError⟩
      (eventFits_of_no_callback (fun hr => hnot hr.1) fun hw => hnot hw.1)
  · by_cases hr : Channel.Reads mRevent
    · by_cases hw : Channel.Writes mRevent
      · exact handleEvent_returns_iff_both h hopen hr hw
      · rw [handleEvent_of_reads hr hw, handleRead_returns_iff h hopen]
        exact ⟨fun hfits => ⟨fun _ => hfits, fun h => absurd h hw, fun h => absurd h hw,
          fun h => absurd h hw⟩, fun hfits => hfits.read hr⟩
    · by_cases hw : Channel.Writes mRevent
      · rw [handleEvent_of_writes hr hw]
        by_cases hconn : s.conn.mState = .connected
        · have hat : ∀ b, SendBufferAtWrite s mRevent io b ↔ b = s.conn.mSendBuffer := by
            simp [SendBufferAtWrite, hr]
          rw [handleWrite_returns_iff h hconn]
          refine ⟨fun hfits => ⟨fun h => absurd h hr, fun _ => hconn, fun _ h => absurd h hr,
            fun _ b hb => ?_⟩, fun hfits => hfits.write hw _ ((hat _).mpr rfl)⟩
          rwa [(hat b).mp hb]
        · rw [run_handleWrite_of_not_connected hconn]
          exact iff_of_false error_not_ok fun hfits => hconn (hfits.connected hw)
      · rw [handleEvent_of_none hready hr hw]
        exact iff_of_true ⟨s, rfl⟩ (eventFits_of_no_callback hr hw)

end

/-! ### Steps of a session -/

namespace Session

variable {s : Session}

/-- The steps that return: what is sent and read finds room, and what is written is taken. -/
def Survives (s : Session) : SessionEvent → Prop
  | .establish cs => s.established = false → CallsFit cs s.ctx.conn.mSendBuffer
  | .event mRevent io => s.CanDispatch → EventFits s.ctx mRevent io
  | .calls cs => s.ctx.conn.mState = .connected → CallsFit cs s.ctx.conn.mSendBuffer
  | .task io => ∀ data ts, s.batch = some (.send data :: ts) → s.ctx.conn.mState = .connected →
      CallFits (.send data io.onHighWater) s.ctx.conn.mSendBuffer
  | .queueSend _ | .queueShutdown | .doPendingTasks | .poll => True

theorem onCtx_returns_iff (x : ConnM Unit) :
    (∃ s', (onCtx x).run s = .ok () s') ↔ ∃ c, x.run s.ctx = .ok () c := by
  cases hrun : x.run s.ctx with
  | ok u c =>
    rw [run_onCtx_ok hrun]
    exact iff_of_true ⟨_, rfl⟩ ⟨c, rfl⟩
  | error e c =>
    rw [run_onCtx_error hrun]
    exact iff_of_false error_not_ok error_not_ok

theorem establish_returns_iff (h : s.Inv) (cs : List UserCall) :
    (∃ s', (step (.establish cs)).run s = .ok () s') ↔ s.Survives (.establish cs) := by
  by_cases hnew : s.established = false
  · have hmode := h.mode
    cases hmode with
    | fresh _ _ hch =>
      obtain ⟨ch, hch⟩ := hch
      have hrun : (step (.establish cs)).run s =
          (onCtx (establishConnect cs)).run { s with established := true } := by
        simp [step, EStateM.run_bind, EStateM.run_get, hnew]
      rw [hrun, onCtx_returns_iff, run_establishConnect hch,
        runCalls_returns_iff (h.sound.established ch)]
      exact ⟨fun hfits _ => hfits rfl, fun hfits _ => hfits hnew⟩
    | opened hs => exact absurd (hs.established.symm.trans hnew) (by decide)
    | closing hest => exact absurd (hest.symm.trans hnew) (by decide)
    | closed hest => exact absurd (hest.symm.trans hnew) (by decide)
  · rw [run_establish_of_established (by simpa using hnew)]
    exact iff_of_true ⟨s, rfl⟩ fun hnew' => absurd hnew' hnew

/-- The task of a send from another thread. -/
theorem send_returns_iff (h : s.ctx.Sound) (data : Bytes) (io : TaskIo) :
    (∃ c, (runConnTask io (.send data)).run s.ctx = .ok () c) ↔
      (s.ctx.conn.mState = .connected →
        CallFits (.send data io.onHighWater) s.ctx.conn.mSendBuffer) := by
  have hone : (runConnTask io (.send data)).run s.ctx =
      (runCall (.send data io.onHighWater)).run s.ctx := by
    rw [runConnTask, runCall]
  have hout := runCall_outcome (.send data io.onHighWater) h
  rw [hone, callFits_iff _ h.send]
  cases hrun : (runCall (.send data io.onHighWater)).run s.ctx with
  | ok u c =>
    rw [hrun] at hout
    exact iff_of_true ⟨c, rfl⟩ fun hconn => ⟨_, hout.2 hconn⟩
  | error e c =>
    rw [hrun] at hout
    obtain ⟨-, -, hconn, hstop⟩ := hout
    refine iff_of_false error_not_ok fun hfits => ?_
    obtain ⟨b', hb'⟩ := hfits hconn
    rw [hstop] at hb'
    cases hb'

theorem task_returns_iff (h : s.Inv) (io : TaskIo) :
    (∃ s', (step (.task io)).run s = .ok () s') ↔ s.Survives (.task io) := by
  rcases s.batch_cases with hb | ⟨t, ts, hb⟩
  · rw [run_task_of_empty hb]
    refine iff_of_true ⟨s, rfl⟩ fun data ts hb' => ?_
    rw [hb'] at hb
    cases hb
  · rw [run_task_cons hb, onCtx_returns_iff]
    cases t with
    | send data =>
      rw [send_returns_iff h.sound]
      refine ⟨fun hfits data' ts' hb' => ?_, fun hfits => hfits data ts hb⟩
      rw [hb] at hb'
      cases hb'
      exact hfits
    | shutdown =>
      -- the exception of its write is caught
      refine iff_of_true ?_ fun data ts' hb' => by simp [hb] at hb'
      rcases shutdownInLoop_cases h.sound io.res io.soError with
        ⟨-, hr⟩ | ⟨-, -, hr⟩ | ⟨-, -, -, hr⟩ | ⟨room, b, -, -, -, -, -, -, hr⟩
      all_goals exact ⟨_, hr⟩
    | close =>
      refine iff_of_true ?_ fun data ts' hb' => by simp [hb] at hb'
      exact ⟨_, run_destroyConnection (closed_of_close h hb).2⟩

/-- **The steps that return.** -/
theorem returns_iff (h : s.Inv) (i : SessionEvent) :
    (∃ s', (step i).run s = .ok () s') ↔ s.Survives i := by
  cases i with
  | establish cs => exact establish_returns_iff h cs
  | event mRevent io =>
    by_cases hcan : s.CanDispatch
    · have hs := open_of_canDispatch h hcan
      rw [run_event hcan, onCtx_returns_iff, handleEvent_returns_iff h.sound hs.mState]
      exact ⟨fun hfits _ => hfits, fun hfits => hfits hcan⟩
    · rw [run_event_of_not_canDispatch hcan]
      exact iff_of_true ⟨s, rfl⟩ fun hcan' => absurd hcan' hcan
  | calls cs => exact (onCtx_returns_iff _).trans (runCalls_returns_iff h.sound cs)
  | task io => exact task_returns_iff h io
  | queueSend _ | queueShutdown | doPendingTasks | poll => exact iff_of_true ⟨_, rfl⟩ trivial

end Session

end SimpleTcp
