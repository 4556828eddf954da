import SimpleTcp.Tcp.Calls

/-!
# The handlers of a connection

Each handler is run once and for all here: for the state it finds and the results it meets, what
it returns or how it stops. The invariants of whole runs use these equations and never unfold a
handler.

## Main definitions

* `Ctx.note`, `Ctx.closing`, `Ctx.writeOff`, `Ctx.shut`: the states the handlers pass through
* `ReadIo.Closes`: the reads after which the connection closes
* `WriteIo.Fails`: the writes that throw

## Main results

* `run_handleClose`, `handleRead_cases`, `handleWrite_cases`, `shutdownInLoop_cases`: the
  handlers and tasks, case by case
-/

namespace SimpleTcp

/-- The trace goes on with `es`. -/
def Ctx.note (s : Ctx) (es : List Effect) : Ctx := { s with trace := s.trace ++ es }

/-- `handleClose` before its connection callback. -/
def Ctx.closing (s : Ctx) : Ctx where
  conn := { s.conn with mState := .disConnected }
  mPendingTasks := s.mPendingTasks ++ [.close]
  trace := s.trace ++ [.entered .handleClose, .state .disConnected]

/-- Write interest is off. -/
def Ctx.writeOff (s : Ctx) : Ctx :=
  match s.conn.mpChannel with
  | some ch =>
    if ch.isWriting then
      { s with conn.mpChannel := some ch.disableWrite, trace := s.trace ++ [.writeDisabled] }
    else s
  | none => s

/-- The send buffer after `write(2)` has taken some of it. -/
def Ctx.wrote (s : Ctx) (taken : Bytes) (b : TcpBuffer) : Ctx :=
  { s with conn.mSendBuffer := b, trace := s.trace ++ [.written taken] }

/-- The end of the shutdown task. -/
def Ctx.shut (s : Ctx) : Ctx :=
  (Ctx.writeOff { s with
    conn.mState := .halfClosed
    trace := s.trace ++ [.state .halfClosed] }).note [.shutWr]

namespace TcpConnection

/-- The read finds nothing and no error on the socket: the connection is closed. -/
def ReadIo.Closes (io : ReadIo) : Prop := io.res.Nothing ∧ io.soError = 0

end TcpConnection

/-- `write(2)` takes nothing: an error, or no room. -/
def WriteResult.Nothing : WriteResult → Prop
  | .accepted room => room = 0
  | .failed _ => True

open TcpConnection

section

variable {s : Ctx}

theorem Ctx.Sound.note (h : s.Sound) (es : List Effect) : (s.note es).Sound :=
  ⟨h.send, h.recv, h.channel⟩

theorem Ctx.Sound.closing (h : s.Sound) : s.closing.Sound :=
  ⟨h.send, h.recv, fun hne => absurd rfl hne⟩

theorem Ctx.Sound.wrote (h : s.Sound) (taken : Bytes) {b : TcpBuffer} (hb : b.Valid) :
    (s.wrote taken b).Sound := ⟨hb, h.recv, h.channel⟩

theorem Ctx.Sound.received (h : s.Sound) {b : TcpBuffer} (hb : b.HasRoom) :
    Ctx.Sound { s with conn.mRecvBuffer := b } := ⟨h.send, hb, h.channel⟩

/-! ### Write interest -/

theorem Ctx.writeOff_of_writing {ch : Channel} (hch : s.conn.mpChannel = some ch)
    (hw : ch.isWriting) : s.writeOff =
      { s with conn.mpChannel := some ch.disableWrite, trace := s.trace ++ [.writeDisabled] } := by
  simp only [writeOff, hch, hw, if_true]

theorem Ctx.writeOff_of_not_writing (hw : ¬ s.Writing) : s.writeOff = s := by
  unfold writeOff
  split
  · rename_i ch hch
    exact if_neg fun h => hw ⟨ch, hch, h⟩
  · rfl

theorem Ctx.writeOff_cases (s : Ctx) : s.writeOff = s ∧ ¬ s.Writing ∨
    ∃ ch, s.conn.mpChannel = some ch ∧ ch.isWriting ∧ s.writeOff =
      { s with conn.mpChannel := some ch.disableWrite, trace := s.trace ++ [.writeDisabled] } := by
  by_cases hw : s.Writing
  · obtain ⟨ch, hch, hon⟩ := hw
    exact .inr ⟨ch, hch, hon, writeOff_of_writing hch hon⟩
  · exact .inl ⟨writeOff_of_not_writing hw, hw⟩

@[simp] theorem Ctx.writeOff_mState (s : Ctx) : s.writeOff.conn.mState = s.conn.mState := by
  rcases s.writeOff_cases with ⟨h, -⟩ | ⟨ch, -, -, h⟩ <;> rw [h]

@[simp] theorem Ctx.writeOff_mSendBuffer (s : Ctx) :
    s.writeOff.conn.mSendBuffer = s.conn.mSendBuffer := by
  rcases s.writeOff_cases with ⟨h, -⟩ | ⟨ch, -, -, h⟩ <;> rw [h]

theorem Ctx.Sound.writeOff (h : s.Sound) : s.writeOff.Sound := by
  rcases s.writeOff_cases with ⟨hs, -⟩ | ⟨ch, -, -, hs⟩
  · rw [hs]
    exact h
  · rw [hs]
    exact ⟨h.send, h.recv, fun _ => ⟨_, rfl⟩⟩

theorem Ctx.Sound.shut (h : s.Sound) (hopen : s.conn.mState ≠ .disConnected) : s.shut.Sound := by
  refine Ctx.Sound.note (Ctx.Sound.writeOff ?_) _
  exact ⟨h.send, h.recv, fun _ => h.channel hopen⟩

theorem run_disableWrite {ch : Channel} (hch : s.conn.mpChannel = some ch) :
    disableWrite.run s = .ok () s.writeOff := by
  rw [disableWrite, EStateM.run_bind, run_channel hch]
  by_cases hw : ch.isWriting
  · rw [Ctx.writeOff_of_writing hch hw]
    simp [hw, EStateM.run_bind]
  · rw [Ctx.writeOff_of_not_writing]
    · simp [hw]
    · rintro ⟨ch', hch', hw'⟩
      obtain rfl : ch = ch' := Option.some.inj (hch.symm.trans hch')
      exact hw hw'

/-! ### Closing -/

theorem open_iff (mState : ConnState) :
    (mState = .connected ∨ mState = .halfClosed) ↔ mState ≠ .disConnected := by
  cases mState <;> simp

/-- Calls on a connection that is not connected send nothing, and return. -/
theorem runCalls_of_not_connected (h : s.Sound) (hst : s.conn.mState ≠ .connected)
    (calls : List UserCall) : ∃ s', (runCalls calls).run s = .ok () s' ∧ Called s s' [] := by
  have hout := runCalls_outcome calls h
  cases hrun : (runCalls calls).run s with
  | ok u s' =>
    rw [hrun] at hout
    obtain ⟨⟨ds, hc⟩, -⟩ := hout
    obtain rfl : ds = [] := by
      by_contra hds
      exact hst (hc.connected hds)
    exact ⟨s', rfl, hc⟩
  | error e s' =>
    rw [hrun] at hout
    exact absurd hout.2.2.1 hst

theorem run_handleClose (h : s.Sound) (hopen : s.conn.mState ≠ .disConnected)
    (calls : List UserCall) :
    ∃ s', (handleClose calls).run s = .ok () s' ∧ Called s.closing s' [] := by
  have hrun : (handleClose calls).run s = (runCalls calls).run s.closing := by
    simp [handleClose, EStateM.run_bind, EStateM.run_get,
      assertTrue_pos ((open_iff s.conn.mState).mpr hopen), Ctx.closing]
  rw [hrun]
  exact runCalls_of_not_connected h.closing (by simp [Ctx.closing]) calls

theorem run_handleClose_of_disConnected (hst : s.conn.mState = .disConnected)
    (calls : List UserCall) :
    (handleClose calls).run s = .error .fatal (s.note [.entered .handleClose]) := by
  simp [handleClose, EStateM.run_bind, EStateM.run_get, hst, assertTrue_neg, Ctx.note]

theorem run_handleError : handleError.run s = .ok () (s.note [.entered .handleError]) := rfl

/-! ### Reading -/

theorem run_handleRead_of_disConnected (hst : s.conn.mState = .disConnected) (io : ReadIo) :
    (handleRead io).run s = .error .fatal (s.note [.entered .handleRead]) := by
  simp [handleRead, EStateM.run_bind, EStateM.run_get, hst, assertTrue_neg, Ctx.note]

/-- **Reading** on an open connection: a read that finds nothing closes or logs an error, and one
that finds something runs the message callback. -/
theorem handleRead_cases (h : s.Sound) (hopen : s.conn.mState ≠ .disConnected) (io : ReadIo) :
    (io.Closes ∧ (handleRead io).run s =
      (handleClose io.onConnection).run (s.note [.entered .handleRead])) ∨
    (io.res.Nothing ∧ io.soError ≠ 0 ∧ (handleRead io).run s =
      .ok () (s.note [.entered .handleRead, .entered .handleError])) ∨
    (¬ io.res.Nothing ∧
      s.conn.mRecvBuffer.readFromSocket io.res io.soError = .error .lengthError ∧
      (handleRead io).run s = .error .lengthError (s.note [.entered .handleRead])) ∨
    (¬ io.res.Nothing ∧ ∃ b, b.HasRoom ∧
      s.conn.mRecvBuffer.readFromSocket io.res io.soError = .ok b ∧
      (handleRead io).run s = (runCalls io.onMessage).run
        { s.note [.entered .handleRead] with conn.mRecvBuffer := b }) := by
  have hass := (open_iff s.conn.mState).mpr hopen
  unfold handleRead
  rw [EStateM.run_bind, run_effect]
  dsimp only
  rw [EStateM.run_bind, EStateM.run_get]
  dsimp only
  rw [assertTrue_pos hass, EStateM.run_bind, EStateM.run_pure]
  dsimp only
  rcases TcpBuffer.readFromSocket_spec h.recv io.res io.soError with
    ⟨hn, hr⟩ | ⟨hn, hr⟩ | ⟨arrived, b, hres, harr, hr, hroom, -⟩
  · -- nothing was read: the pending error tells a closed peer from a failure
    by_cases herr : io.soError = 0
    · refine .inl ⟨⟨hn, herr⟩, ?_⟩
      rw [herr] at hr
      simp [EStateM.run_bind, EStateM.run_get, Ctx.note, hr, herr]
    · refine .inr (.inl ⟨hn, herr, ?_⟩)
      simp [EStateM.run_bind, EStateM.run_get, Ctx.note, hr, herr, handleError]
  · refine .inr (.inr (.inl ⟨hn, hr, ?_⟩))
    simp [EStateM.run_bind, EStateM.run_get, Ctx.note, hr]
  · have hn : ¬ io.res.Nothing := by
      rw [hres]
      exact harr
    refine .inr (.inr (.inr ⟨hn, b, hroom, hr, ?_⟩))
    have hbody : (do
        let b ← call ((← get).conn.mRecvBuffer.readFromSocket io.res io.soError)
        setRecvBuffer b
        runCalls io.onMessage : ConnM Unit).run
          { s with trace := s.trace ++ [.entered .handleRead] } =
          (runCalls io.onMessage).run
            { s.note [.entered .handleRead] with conn.mRecvBuffer := b } := by
      simp [EStateM.run_bind, EStateM.run_get, Ctx.note, hr]
    -- The `catch` of the handler does not see the callback: no call of a user raises a
    -- `networkException`.
    have hout := runCalls_outcome io.onMessage ((h.note [.entered .handleRead]).received hroom)
    rw [Machine.run_tryCatch, hbody]
    cases hrun : (runCalls io.onMessage).run
        { s.note [.entered .handleRead] with conn.mRecvBuffer := b } with
    | ok u s' => rfl
    | error e s' =>
      rw [hrun] at hout
      obtain rfl | rfl | rfl := hout.2.1 <;> rfl

/-! ### Writing -/

/-- Writing the send buffer, when it is not empty: nothing is taken and an exception is thrown, or
the bytes that are taken leave the buffer. -/
theorem flush_cases (h : s.Sound) (res : WriteResult) (soError : Errno) :
    let flush : ConnM Unit := do
      if (← get).conn.mSendBuffer.size ≠ 0 then writeSendBuffer res soError
    let readable := s.conn.mSendBuffer.readable
    (readable = [] ∧ flush.run s = .ok () s) ∨
    (readable ≠ [] ∧ res.Nothing ∧ flush.run s = .error (.networkException soError) s) ∨
    (∃ room b, readable ≠ [] ∧ res = .accepted room ∧ room ≠ 0 ∧ b.Valid ∧
      b.readable = readable.drop room ∧
      s.conn.mSendBuffer.writeToSocket res soError = .ok (readable.take room, b) ∧
      flush.run s = .ok () (s.wrote (readable.take room) b)) := by
  intro flush readable
  by_cases hr : readable = []
  · have hsize : s.conn.mSendBuffer.size = 0 := h.send.size_eq_zero_iff.mpr hr
    exact .inl ⟨hr, by simp [flush, EStateM.run_bind, EStateM.run_get, hsize]⟩
  · have hsize : s.conn.mSendBuffer.size ≠ 0 := fun h0 => hr (h.send.size_eq_zero_iff.mp h0)
    have hflush : flush.run s = (writeSendBuffer res soError).run s := by
      simp [flush, EStateM.run_bind, EStateM.run_get, hsize]
    rw [hflush]
    right
    cases res with
    | failed errno =>
      refine .inl ⟨hr, trivial, ?_⟩
      simp [writeSendBuffer, EStateM.run_bind, TcpBuffer.writeToSocket]
    | accepted room =>
      rcases TcpBuffer.writeToSocket_accepted h.send room soError with
        ⟨htake, hw⟩ | ⟨b, hw, htake, hv, hb⟩
      · -- the kernel has no room
        refine .inl ⟨hr, ?_, ?_⟩
        · rcases List.take_eq_nil_iff.mp htake with h0 | h0
          · exact h0
          · exact absurd h0 hr
        · simp [writeSendBuffer, EStateM.run_bind, EStateM.run_get, hw]
      · -- what is taken leaves the buffer, and is at least one byte
        refine .inr ⟨room, b, hr, rfl, ?_, hv, hb, hw, ?_⟩
        · rintro rfl
          exact htake (List.take_zero)
        · simp [writeSendBuffer, EStateM.run_bind, EStateM.run_get, hw, Ctx.wrote, readable]

theorem run_handleWrite_of_not_connected (hst : s.conn.mState ≠ .connected) (io : WriteIo) :
    (handleWrite io).run s = .error .fatal (s.note [.entered .handleWrite]) := by
  simp [handleWrite, EStateM.run_bind, EStateM.run_get, hst, assertTrue_neg, Ctx.note]

/-- The end of `handleWrite`: the write-complete callback runs and write interest is turned off. -/
def writeComplete (calls : List UserCall) : ConnM Unit := do
  runCalls calls
  disableWrite

/-- **Writing** on a connected connection: the write throws, leaves something to write, or leaves
nothing; then, as when there was nothing, the write-complete callback runs. -/
theorem handleWrite_cases (h : s.Sound) (hconn : s.conn.mState = .connected) (io : WriteIo) :
    let s₀ := s.note [.entered .handleWrite]
    let readable := s.conn.mSendBuffer.readable
    (readable = [] ∧ (handleWrite io).run s = (writeComplete io.onWriteComplete).run s₀) ∨
    (readable ≠ [] ∧ io.res.Nothing ∧
      (handleWrite io).run s = .error (.networkException io.soError) s₀) ∨
    (∃ room b, readable ≠ [] ∧ io.res = .accepted room ∧ room ≠ 0 ∧ b.Valid ∧
      b.readable = readable.drop room ∧ readable.drop room ≠ [] ∧
      s.conn.mSendBuffer.writeToSocket io.res io.soError = .ok (readable.take room, b) ∧
      (handleWrite io).run s = .ok () (s₀.wrote (readable.take room) b)) ∨
    (∃ room b, readable ≠ [] ∧ io.res = .accepted room ∧ room ≠ 0 ∧ b.Valid ∧
      b.readable = [] ∧ readable.drop room = [] ∧
      s.conn.mSendBuffer.writeToSocket io.res io.soError = .ok (readable, b) ∧
      (handleWrite io).run s =
        (writeComplete io.onWriteComplete).run (s₀.wrote readable b)) := by
  intro s₀ readable
  have hs₀ : s₀.Sound := h.note _
  -- The handler is the flush, and then the test of what it has left.
  have hbind : (handleWrite io).run s =
      ((do if (← get).conn.mSendBuffer.size ≠ 0 then writeSendBuffer io.res io.soError) >>=
        fun _ => (do if (← get).conn.mSendBuffer.size = 0 then writeComplete io.onWriteComplete) :
          ConnM Unit).run s₀ := by
    unfold handleWrite
    rw [EStateM.run_bind, run_effect]
    dsimp only
    rw [EStateM.run_bind, EStateM.run_get]
    dsimp only
    rw [assertTrue_pos hconn, EStateM.run_bind, EStateM.run_pure]
    by_cases hsize : s.conn.mSendBuffer.size = 0 <;>
      simp [EStateM.run_bind, EStateM.run_get, hsize, s₀, Ctx.note, writeComplete]
  rcases flush_cases hs₀ io.res io.soError with
    ⟨hr, hrun⟩ | ⟨hr, hn, hrun⟩ | ⟨room, b, hr, hres, hne, hv, hb, hw, hrun⟩
  · have hsize : s₀.conn.mSendBuffer.size = 0 := hs₀.send.size_eq_zero_iff.mpr hr
    refine .inl ⟨hr, ?_⟩
    rw [hbind, EStateM.run_bind, hrun]
    simp [EStateM.run_bind, EStateM.run_get, hsize]
  · refine .inr (.inl ⟨hr, hn, ?_⟩)
    rw [hbind, EStateM.run_bind, hrun]
  · right
    right
    have hsize : (s₀.wrote (s₀.conn.mSendBuffer.readable.take room) b).conn.mSendBuffer.size = 0 ↔
        readable.drop room = [] := hv.size_eq_zero_iff.trans (by rw [hb]; rfl)
    by_cases hdrop : readable.drop room = []
    · right
      have htake : readable.take room = readable :=
        List.take_of_length_le (List.drop_eq_nil_iff.mp hdrop)
      change s.conn.mSendBuffer.writeToSocket io.res io.soError = .ok (readable.take room, b) at hw
      rw [htake] at hw
      refine ⟨room, b, hr, hres, hne, hv, hb.trans hdrop, hdrop, hw, ?_⟩
      rw [hbind, EStateM.run_bind, hrun]
      simp only [EStateM.run_bind, EStateM.run_get, hsize.mpr hdrop, if_true]
      change (writeComplete io.onWriteComplete).run (s₀.wrote (readable.take room) b) = _
      rw [htake]
    · left
      refine ⟨room, b, hr, hres, hne, hv, hb, hdrop, hw, ?_⟩
      rw [hbind, EStateM.run_bind, hrun]
      simp only [EStateM.run_bind, EStateM.run_get, mt hsize.mp hdrop, if_false]
      rfl

/-- The write-complete callback runs, and whatever it has sent, write interest is off after it. -/
theorem writeComplete_cases (h : s.Sound) (hconn : s.conn.mState = .connected)
    (calls : List UserCall) :
    (∃ ds s₁, Called s s₁ ds ∧ sendCalls calls s.conn.mSendBuffer = .ok s₁.conn.mSendBuffer ∧
      (writeComplete calls).run s = .ok () s₁.writeOff) ∨
    (∃ e s₁, CallStopped s s₁ ∧ TcpBuffer.GrowStop e ∧
      sendCalls calls s.conn.mSendBuffer = .error e ∧
      (writeComplete calls).run s = .error e s₁) := by
  have hout := runCalls_outcome calls h
  rw [writeComplete, EStateM.run_bind]
  cases hrun : (runCalls calls).run s with
  | ok u s₁ =>
    rw [hrun] at hout
    obtain ⟨⟨ds, hc⟩, hs⟩ := hout
    have hopen : s₁.conn.mState ≠ .disConnected := by
      rw [hc.mState, hconn]
      decide
    obtain ⟨ch, hch⟩ := hc.sound.channel hopen
    exact .inl ⟨ds, s₁, hc, hs hconn, run_disableWrite hch⟩
  | error e s₁ =>
    rw [hrun] at hout
    obtain ⟨hstop, he, -, hs⟩ := hout
    exact .inr ⟨e, s₁, hstop, he, hs, rfl⟩

/-! ### What the owner and the loop run -/

/-- `establishConnect` before its connection callback. -/
def Ctx.established (s : Ctx) (ch : Channel) : Ctx where
  conn := { s.conn with mState := .connected, mpChannel := some ch.enableRead }
  mPendingTasks := s.mPendingTasks
  trace := s.trace ++ [.state .connected]

theorem run_establishConnect {ch : Channel} (hch : s.conn.mpChannel = some ch)
    (calls : List UserCall) :
    (establishConnect calls).run s = (runCalls calls).run (s.established ch) := by
  simp [establishConnect, EStateM.run_bind, run_enableRead hch, Ctx.established]

theorem Ctx.Sound.established (h : s.Sound) (ch : Channel) : (s.established ch).Sound :=
  ⟨h.send, h.recv, fun _ => ⟨_, rfl⟩⟩

/-- The channel and the socket are gone. -/
def Ctx.destroyed (s : Ctx) : Ctx where
  conn := { s.conn with mpChannel := none }
  mPendingTasks := s.mPendingTasks
  trace := s.trace ++ [.entered .destroyConnection]

theorem run_destroyConnection (hst : s.conn.mState = .disConnected) :
    destroyConnection.run s = .ok () s.destroyed := by
  cases hch : s.conn.mpChannel with
  | some ch =>
    simp [destroyConnection, EStateM.run_bind, EStateM.run_get, hst, hch, assertTrue_pos,
      Ctx.destroyed]
  | none =>
    have hsame : { s.conn with mpChannel := none } = s.conn := by rw [← hch]
    simp [destroyConnection, EStateM.run_bind, EStateM.run_get, hst, hch, assertTrue_pos,
      Ctx.destroyed]
    rw [← hst, hsame]

theorem run_destroyConnection_of_open (hopen : s.conn.mState ≠ .disConnected) :
    destroyConnection.run s = .error .fatal (s.note [.entered .destroyConnection]) := by
  simp [destroyConnection, EStateM.run_bind, EStateM.run_get, hopen, assertTrue_neg, Ctx.note]

/-- A connection that is not open has nothing to send and nothing to shut down. -/
theorem run_connTask_of_disConnected (hst : s.conn.mState = .disConnected) {t : ConnTask}
    (ht : t ≠ .close) (io : TaskIo) : (runConnTask io t).run s = .ok () s := by
  cases t with
  | send data => simp [runConnTask, sendInLoop, EStateM.run_bind, EStateM.run_get, hst]
  | shutdown => simp [runConnTask, shutdownInLoop, EStateM.run_bind, EStateM.run_get, hst]
  | close => exact absurd rfl ht

/-- **The shutdown task**: it leaves a closed connection alone; one whose write throws stays as it
is, and otherwise the connection is half closed, whatever is left in the send buffer. -/
theorem shutdownInLoop_cases (h : s.Sound) (res : WriteResult) (soError : Errno) :
    let readable := s.conn.mSendBuffer.readable
    (s.conn.mState = .disConnected ∧ (shutdownInLoop res soError).run s = .ok () s) ∨
    (s.conn.mState ≠ .disConnected ∧ readable = [] ∧
      (shutdownInLoop res soError).run s = .ok () s.shut) ∨
    (s.conn.mState ≠ .disConnected ∧ readable ≠ [] ∧ res.Nothing ∧
      (shutdownInLoop res soError).run s = .ok () s) ∨
    (∃ room b, s.conn.mState ≠ .disConnected ∧ readable ≠ [] ∧ res = .accepted room ∧ room ≠ 0 ∧
      b.Valid ∧ b.readable = readable.drop room ∧
      (shutdownInLoop res soError).run s =
        .ok () (s.wrote (readable.take room) b).shut) := by
  intro readable
  by_cases hst : s.conn.mState = .disConnected
  · refine .inl ⟨hst, ?_⟩
    simp [shutdownInLoop, EStateM.run_bind, EStateM.run_get, hst]
  right
  -- the channel is there until the connection is closed
  have hdisable : ∀ s₁ : Ctx, s₁.conn.mpChannel = s.conn.mpChannel →
      disableWrite.run { s₁ with
        conn.mState := .halfClosed
        trace := s₁.trace ++ [.state .halfClosed] } = .ok () (Ctx.writeOff { s₁ with
        conn.mState := .halfClosed
        trace := s₁.trace ++ [.state .halfClosed] }) := by
    intro s₁ hsame
    obtain ⟨ch, hch⟩ := h.channel hst
    exact run_disableWrite (hsame.trans hch)
  rcases flush_cases h res soError with
    ⟨hr, -⟩ | ⟨hr, hn, hrun⟩ | ⟨room, b, hr, hres, hne, hv, hb, -, hrun⟩
  · have hsize : s.conn.mSendBuffer.size = 0 := h.send.size_eq_zero_iff.mpr hr
    -- nothing to write
    refine .inl ⟨hst, hr, ?_⟩
    simp [shutdownInLoop, EStateM.run_bind, EStateM.run_get, hst, hsize, hdisable s rfl, Ctx.shut,
      Ctx.note]
  · have hsize : s.conn.mSendBuffer.size ≠ 0 := fun h0 => hr (h.send.size_eq_zero_iff.mp h0)
    -- the exception is caught, and the connection not half closed
    refine .inr (.inl ⟨hst, hr, hn, ?_⟩)
    have hw : (writeSendBuffer res soError).run s = .error (.networkException soError) s := by
      simpa [EStateM.run_bind, EStateM.run_get, hsize] using hrun
    simp [shutdownInLoop, EStateM.run_bind, EStateM.run_get, hst, hsize, hw, Stop.isException]
  · have hsize : s.conn.mSendBuffer.size ≠ 0 := fun h0 => hr (h.send.size_eq_zero_iff.mp h0)
    -- half closed, with what the kernel did not take still in the buffer
    refine .inr (.inr ⟨room, b, hst, hr, hres, hne, hv, hb, ?_⟩)
    have hw : (writeSendBuffer res soError).run s = .ok () (s.wrote (readable.take room) b) := by
      simpa [EStateM.run_bind, EStateM.run_get, hsize] using hrun
    simp [shutdownInLoop, EStateM.run_bind, EStateM.run_get, hst, hsize, hw,
      hdisable (s.wrote (readable.take room) b) rfl, Ctx.shut, Ctx.note]

end

end SimpleTcp
