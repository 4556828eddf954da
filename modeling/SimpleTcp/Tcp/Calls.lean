import SimpleTcp.Library.Machine
import SimpleTcp.Tcp.Connection

/-!
# The calls of a callback

A callback may send, extract and shut down, and its sends may run another callback that does the
same. Whatever it does, it leaves the connection in the same state; it only appends to the send
buffer, turns write interest on and queues shutdowns. It stops only in an append that finds no
room.

## Main definitions

* `Ctx.Sound`: the buffers are valid and an open connection has its channel
* `Called`: how a connection may differ after calls on it
* `sendCalls`: what the calls do to a send buffer, by itself
* `CallsKeep`: what each call of a user keeps

## Main results

* `runCalls_outcome`: the calls keep the connection to `Called`, and do to its send buffer what
  `sendCalls` says
* `CallsKeep.runCalls`: what each call keeps, the calls of a callback keep
* `sendsNothing_iff`: calls leave an empty send buffer empty exactly when they send no bytes
-/

namespace SimpleTcp

namespace Channel

theorem enableWrite_of_isWriting {ch : Channel} (h : ch.isWriting) : ch.enableWrite = ch :=
  if_pos h

end Channel

namespace TcpConnection

/-! ### Running the primitives -/

section

variable (s : Ctx)

@[simp] theorem run_effect (e : Effect) :
    (effect e).run s = .ok () { s with trace := s.trace ++ [e] } := rfl

@[simp] theorem run_queueInLoop (task : ConnTask) :
    (queueInLoop task).run s = .ok () { s with mPendingTasks := s.mPendingTasks ++ [task] } := rfl

@[simp] theorem run_setState (mState : ConnState) :
    (setState mState).run s =
      .ok () { s with conn.mState := mState, trace := s.trace ++ [.state mState] } := rfl

@[simp] theorem run_setSendBuffer (b : TcpBuffer) :
    (setSendBuffer b).run s = .ok () { s with conn.mSendBuffer := b } := rfl

@[simp] theorem run_setRecvBuffer (b : TcpBuffer) :
    (setRecvBuffer b).run s = .ok () { s with conn.mRecvBuffer := b } := rfl

@[simp] theorem run_setChannel (ch : Option Channel) :
    (setChannel ch).run s = .ok () { s with conn.mpChannel := ch } := rfl

@[simp] theorem call_ok {α : Type} (a : α) : call (.ok a) = pure a := rfl

@[simp] theorem call_error {α : Type} (e : Stop) : (call (.error e) : ConnM α) = throw e := rfl

variable {s} {ch : Channel}

theorem run_channel (h : s.conn.mpChannel = some ch) : channel.run s = .ok ch s := by
  simp [channel, EStateM.run_bind, EStateM.run_get, h]

theorem run_enableRead (h : s.conn.mpChannel = some ch) :
    enableRead.run s = .ok () { s with conn.mpChannel := some ch.enableRead } := by
  simp [enableRead, EStateM.run_bind, run_channel h]

theorem run_enableWrite (h : s.conn.mpChannel = some ch) :
    enableWrite.run s = .ok () { s with conn.mpChannel := some ch.enableWrite } := by
  simp [enableWrite, EStateM.run_bind, run_channel h]

end

end TcpConnection

open TcpConnection Machine

/-- The buffers are valid, and a connection that is not closed has its channel. -/
structure Ctx.Sound (s : Ctx) : Prop where
  send : s.conn.mSendBuffer.Valid
  recv : s.conn.mRecvBuffer.HasRoom
  channel : s.conn.mState ≠ .disConnected → ∃ ch, s.conn.mpChannel = some ch

/-- Write interest is on. -/
def Ctx.Writing (s : Ctx) : Prop := ∃ ch, s.conn.mpChannel = some ch ∧ ch.isWriting

/-- After calls that appended `ds`, each to a connected connection. -/
structure Called (s s' : Ctx) (ds : List Bytes) : Prop where
  sound : s'.Sound
  mState : s'.conn.mState = s.conn.mState
  trace : s'.trace = s.trace ++ ds.map .appended
  readable : s'.conn.mSendBuffer.readable = s.conn.mSendBuffer.readable ++ ds.flatten
  channel : s'.conn.mpChannel = s.conn.mpChannel ∨
    ∃ ch, s.conn.mpChannel = some ch ∧ s'.conn.mpChannel = some ch.enableWrite
  tasks : ∃ n, s'.mPendingTasks = s.mPendingTasks ++ List.replicate n .shutdown
  writing : ds ≠ [] → s'.Writing
  connected : ds ≠ [] → s.conn.mState = .connected

/-- Where calls have stopped: they have appended `ds`, and the state is the same. -/
structure CallStopped (s s' : Ctx) : Prop where
  mState : s'.conn.mState = s.conn.mState
  trace : ∃ ds : List Bytes, s'.trace = s.trace ++ ds.map .appended

section

variable {s s₁ s₂ : Ctx} {ds es : List Bytes}

theorem Called.refl (h : s.Sound) : Called s s [] where
  sound := h
  mState := rfl
  trace := (List.append_nil _).symm
  readable := (List.append_nil _).symm
  channel := .inl rfl
  tasks := ⟨0, (List.append_nil _).symm⟩
  writing := fun h => absurd rfl h
  connected := fun h => absurd rfl h

/-- Calls do not turn write interest off. -/
theorem Called.writing_of_writing (h : Called s s₁ ds) (hw : s.Writing) : s₁.Writing := by
  obtain ⟨ch, hch, hon⟩ := hw
  rcases h.channel with hsame | ⟨ch', hch', hen⟩
  · exact ⟨ch, hsame.trans hch, hon⟩
  · exact ⟨_, hen, ch'.isWriting_enableWrite⟩

theorem Called.trans (h : Called s s₁ ds) (h' : Called s₁ s₂ es) : Called s s₂ (ds ++ es) where
  sound := h'.sound
  mState := h'.mState.trans h.mState
  trace := by rw [h'.trace, h.trace, List.map_append, List.append_assoc]
  readable := by rw [h'.readable, h.readable, List.flatten_append, List.append_assoc]
  channel := by
    rcases h'.channel with hsame' | ⟨ch₁, hch₁, hen'⟩
    · rw [hsame']
      exact h.channel
    · -- turning on twice is turning on once
      rcases h.channel with hsame | ⟨ch, hch, hen⟩
      · exact .inr ⟨ch₁, hsame ▸ hch₁, hen'⟩
      · obtain rfl : ch.enableWrite = ch₁ := Option.some.inj (hen ▸ hch₁)
        refine .inr ⟨ch, hch, ?_⟩
        rw [hen', Channel.enableWrite_of_isWriting ch.isWriting_enableWrite]
  tasks := by
    obtain ⟨n, hn⟩ := h.tasks
    obtain ⟨k, hk⟩ := h'.tasks
    exact ⟨n + k, by rw [hk, hn, List.append_assoc, List.replicate_append_replicate]⟩
  writing := by
    intro hne
    by_cases hes : es = []
    · rw [hes, List.append_nil] at hne
      exact h'.writing_of_writing (h.writing hne)
    · exact h'.writing hes
  connected := by
    intro hne
    by_cases hds : ds = []
    · rw [hds, List.nil_append] at hne
      exact h.mState ▸ h'.connected hne
    · exact h.connected hds

theorem Called.trans_stopped (h : Called s s₁ ds) (h' : CallStopped s₁ s₂) : CallStopped s s₂ where
  mState := h'.mState.trans h.mState
  trace := by
    obtain ⟨es, hes⟩ := h'.trace
    exact ⟨ds ++ es, by rw [hes, h.trace, List.map_append, List.append_assoc]⟩

end

/-! ### The send buffer by itself -/

mutual

/-- What a call of the user does to the send buffer of a connected connection. -/
def sendCall : UserCall → TcpBuffer → Except Stop TcpBuffer
  | .send data onHighWater, b => do
    let b ← b.appendToBuffer data
    if b.size > TCP_HIGH_WATER_MARK then sendCalls onHighWater b else pure b
  | .extract _, b => pure b
  | .shutdownConnection, b => pure b

def sendCalls : List UserCall → TcpBuffer → Except Stop TcpBuffer
  | [], b => pure b
  | call :: calls, b => do
    let b ← sendCall call b
    sendCalls calls b

end

/-- How calls that do `sends` to the send buffer end. -/
def CallOutcome (sends : TcpBuffer → Except Stop TcpBuffer) (s : Ctx) :
    EStateM.Result Stop Ctx Unit → Prop
  | .ok _ s' => (∃ ds, Called s s' ds) ∧
      (s.conn.mState = .connected → sends s.conn.mSendBuffer = .ok s'.conn.mSendBuffer)
  | .error e s' => CallStopped s s' ∧ TcpBuffer.GrowStop e ∧ s.conn.mState = .connected ∧
      sends s.conn.mSendBuffer = .error e

section

variable {s : Ctx}

theorem CallOutcome.bind {f g : TcpBuffer → Except Stop TcpBuffer} {x y : ConnM Unit}
    (hx : CallOutcome f s (x.run s))
    (hy : ∀ s', s'.Sound → CallOutcome g s' (y.run s')) :
    CallOutcome (fun b => f b >>= g) s ((do x; y).run s) := by
  rw [EStateM.run_bind]
  cases hrun : x.run s with
  | ok u s₁ =>
    rw [hrun] at hx
    -- the first part returns, and the second goes on with its buffer
    obtain ⟨⟨ds, hc⟩, hf⟩ := hx
    have hy := hy s₁ hc.sound
    change CallOutcome (fun b => f b >>= g) s (y.run s₁)
    cases hrun' : y.run s₁ with
    | ok u s₂ =>
      rw [hrun'] at hy
      obtain ⟨⟨es, hc'⟩, hg⟩ := hy
      refine ⟨⟨_, hc.trans hc'⟩, fun hconn => ?_⟩
      change f s.conn.mSendBuffer >>= g = _
      rw [hf hconn, ok_bind, hg (hc.mState.trans hconn)]
    | error e s₂ =>
      rw [hrun'] at hy
      obtain ⟨hstop, he, hconn, hg⟩ := hy
      have hconn' := hc.mState ▸ hconn
      refine ⟨hc.trans_stopped hstop, he, hconn', ?_⟩
      change f s.conn.mSendBuffer >>= g = _
      rw [hf hconn', ok_bind, hg]
  | error e s₁ =>
    rw [hrun] at hx
    -- the first part stops, and with it the whole
    obtain ⟨hstop, he, hconn, hf⟩ := hx
    refine ⟨hstop, he, hconn, ?_⟩
    change f s.conn.mSendBuffer >>= g = _
    rw [hf, error_bind]

theorem CallOutcome.nothing (h : s.Sound) : CallOutcome pure s (.ok () s) :=
  ⟨⟨[], .refl h⟩, fun _ => rfl⟩

/-- The end of `sendInLoop`: write interest is on. -/
theorem run_enableWrite_of_off {ch : Channel} (hch : s.conn.mpChannel = some ch) :
    (do if ¬ (← channel).isWriting then enableWrite : ConnM Unit).run s =
      .ok () { s with conn.mpChannel := some ch.enableWrite } := by
  rw [EStateM.run_bind, run_channel hch]
  by_cases hw : ch.isWriting
  · have hsame : { s with conn.mpChannel := some ch.enableWrite } = s := by
      rw [Channel.enableWrite_of_isWriting hw, ← hch]
    rw [hsame]
    simp [hw]
  · simp [hw, run_enableWrite hch]

theorem called_enableWrite (h : s.Sound) {ch : Channel} (hch : s.conn.mpChannel = some ch) :
    Called s { s with conn.mpChannel := some ch.enableWrite } [] where
  sound := ⟨h.send, h.recv, fun _ => ⟨_, rfl⟩⟩
  mState := rfl
  trace := (List.append_nil _).symm
  readable := (List.append_nil _).symm
  channel := .inr ⟨ch, hch, rfl⟩
  tasks := ⟨0, (List.append_nil _).symm⟩
  writing := fun h => absurd rfl h
  connected := fun h => absurd rfl h

/-- The state in which `sendInLoop` has appended, but not yet turned write interest on. -/
def appended (s : Ctx) (data : Bytes) (b : TcpBuffer) : Ctx :=
  { s with conn.mSendBuffer := b, trace := s.trace ++ [.appended data] }

theorem Called.of_appended {s₂ : Ctx} {ds : List Bytes} {data : Bytes} {b : TcpBuffer}
    (hconn : s.conn.mState = .connected)
    (hr : b.readable = s.conn.mSendBuffer.readable ++ data) (hc : Called (appended s data b) s₂ ds)
    (hw : s₂.Writing) : Called s s₂ (data :: ds) where
  sound := hc.sound
  mState := hc.mState
  trace := by rw [hc.trace]; simp [appended]
  readable := by rw [hc.readable]; simp [appended, hr]
  channel := hc.channel
  tasks := hc.tasks
  writing := fun _ => hw
  connected := fun _ => hconn

/-- `sendInLoop` ends with write interest on. -/
theorem called_send {s₂ : Ctx} {ds : List Bytes} {data : Bytes} {b : TcpBuffer}
    (hconn : s.conn.mState = .connected)
    (hr : b.readable = s.conn.mSendBuffer.readable ++ data)
    (hc : Called (appended s data b) s₂ ds) :
    ∃ ch, s₂.conn.mpChannel = some ch ∧
      Called s { s₂ with conn.mpChannel := some ch.enableWrite } (data :: ds) := by
  have hopen : s₂.conn.mState = .connected := hc.mState.trans hconn
  obtain ⟨ch, hch⟩ := hc.sound.channel (by simp [hopen])
  have hc' := hc.trans (called_enableWrite hc.sound hch)
  rw [List.append_nil] at hc'
  exact ⟨ch, hch, hc'.of_appended hconn hr ⟨_, rfl, ch.isWriting_enableWrite⟩⟩

theorem sendInLoop_outcome (h : s.Sound) (data : Bytes) {highWater : ConnM Unit}
    {sends : TcpBuffer → Except Stop TcpBuffer}
    (hhw : ∀ s', s'.Sound → CallOutcome sends s' (highWater.run s')) :
    CallOutcome
      (fun b => do
        let b ← b.appendToBuffer data
        if b.size > TCP_HIGH_WATER_MARK then sends b else pure b)
      s ((sendInLoop data highWater).run s) := by
  by_cases hconn : s.conn.mState = .connected
  · by_cases hd : s.conn.mSendBuffer.CanAppend data
    · obtain ⟨b, hb, hv, hr⟩ := TcpBuffer.appendToBuffer_of_canAppend h.send hd
      have hsound : (appended s data b).Sound := ⟨hv, h.recv, h.channel⟩
      have hrun : (sendInLoop data highWater).run s = (do
          if b.size > TCP_HIGH_WATER_MARK then highWater
          if ¬ (← channel).isWriting then enableWrite : ConnM Unit).run (appended s data b) := by
        simp [sendInLoop, EStateM.run_bind, EStateM.run_get, hconn, hb, appended]
      have hsends : (do
          let b ← s.conn.mSendBuffer.appendToBuffer data
          if b.size > TCP_HIGH_WATER_MARK then sends b else pure b) =
            if b.size > TCP_HIGH_WATER_MARK then sends b else pure b := by rw [hb, ok_bind]
      rw [hrun]
      by_cases hhigh : b.size > TCP_HIGH_WATER_MARK
      · -- the high-water-mark callback runs before write interest is turned on
        have hout := hhw _ hsound
        simp only [hhigh, if_true] at hsends ⊢
        rw [EStateM.run_bind]
        cases hrun' : highWater.run (appended s data b) with
        | ok u s₂ =>
          rw [hrun'] at hout
          obtain ⟨⟨ds, hc⟩, hs⟩ := hout
          obtain ⟨ch, hch, hc'⟩ := called_send hconn hr hc
          change CallOutcome _ s (EStateM.run _ s₂)
          rw [run_enableWrite_of_off hch]
          exact ⟨⟨_, hc'⟩, fun _ => hsends.trans (hs hconn)⟩
        | error e s₂ =>
          rw [hrun'] at hout
          obtain ⟨⟨hst, ds, htr⟩, he, -, hs⟩ := hout
          refine ⟨⟨hst, data :: ds, ?_⟩, he, hconn, hsends.trans hs⟩
          rw [htr]
          simp [appended]
      · simp only [hhigh, if_false] at hsends ⊢
        obtain ⟨ch, hch, hc'⟩ := called_send hconn hr (.refl hsound)
        change CallOutcome _ s (EStateM.run _ (appended s data b))
        rw [run_enableWrite_of_off hch]
        exact ⟨⟨_, hc'⟩, fun _ => hsends⟩
    · -- the append stops, and nothing has changed
      obtain ⟨e, he, hstop⟩ := TcpBuffer.appendToBuffer_of_not_canAppend h.send hd
      have hrun : (sendInLoop data highWater).run s = .error e s := by
        simp [sendInLoop, EStateM.run_bind, EStateM.run_get, hconn, he]
      rw [hrun]
      refine ⟨⟨rfl, [], by simp⟩, hstop, hconn, ?_⟩
      change (s.conn.mSendBuffer.appendToBuffer data >>= _) = _
      rw [he, error_bind]
  · have hrun : (sendInLoop data highWater).run s = .ok () s := by
      simp [sendInLoop, EStateM.run_bind, EStateM.run_get, hconn]
    rw [hrun]
    exact ⟨⟨[], .refl h⟩, fun hc => absurd hc hconn⟩

theorem extract_called (h : s.Sound) (size : Nat) :
    ∃ s', (extract size).run s = .ok (s.conn.mRecvBuffer.readable.take size) s' ∧
      Called s s' [] ∧ s'.conn.mSendBuffer = s.conn.mSendBuffer ∧
      s'.conn.mRecvBuffer.readable = s.conn.mRecvBuffer.readable.drop size := by
  obtain ⟨b, hb, -, hr, hroom⟩ := TcpBuffer.extract_spec h.recv.toValid size
  refine ⟨{ s with conn.mRecvBuffer := b }, ?_, ?_, rfl, hr⟩
  · simp [extract, EStateM.run_bind, EStateM.run_get, hb]
  · exact { Called.refl h with
      sound := ⟨h.send, hroom h.recv, h.channel⟩
      writing := fun h => absurd rfl h }

theorem called_shutdownConnection (h : s.Sound) :
    Called s { s with mPendingTasks := s.mPendingTasks ++ [.shutdown] } [] :=
  { Called.refl h with
    sound := ⟨h.send, h.recv, h.channel⟩
    tasks := ⟨1, rfl⟩
    writing := fun h => absurd rfl h }

mutual

theorem runCall_outcome : (c : UserCall) → ∀ {s : Ctx}, s.Sound →
    CallOutcome (sendCall c) s ((runCall c).run s)
  | .send data onHighWater, s, h => by
    simp only [runCall, sendCall]
    exact sendInLoop_outcome h data fun s' hs' => runCalls_outcome onHighWater hs'
  | .extract size, s, h => by
    obtain ⟨s', hs', hc, hsend, -⟩ := extract_called h size
    have hrun : (runCall (.extract size)).run s = .ok () s' := by
      simp [runCall, hs']
    rw [hrun]
    exact ⟨⟨[], hc⟩, fun _ => by simp only [sendCall, hsend]; rfl⟩
  | .shutdownConnection, s, h =>
    ⟨⟨[], called_shutdownConnection h⟩, fun _ => by simp only [sendCall]; rfl⟩

/-- **What the calls of a callback do**: they keep the connection to `Called`, and do to its send
buffer what `sendCalls` says. -/
theorem runCalls_outcome : (cs : List UserCall) → ∀ {s : Ctx}, s.Sound →
    CallOutcome (sendCalls cs) s ((runCalls cs).run s)
  | [], s, h => by
    simp only [runCalls, sendCalls]
    exact .nothing h
  | c :: cs, s, h => by
    simp only [runCalls, sendCalls]
    exact (runCall_outcome c h).bind fun s' hs' => runCalls_outcome cs hs'

end

end

/-! ### What calls keep -/

section Keeps

variable {I : Ctx → Prop}

/-- What the calls of a user keep: an append, a change of the interest of the channel, an extraction
and a shutdown that is queued. -/
structure CallsKeep (I : Ctx → Prop) : Prop where
  append : ∀ c data b, c.conn.mSendBuffer.appendToBuffer data = .ok b → I c → I (appended c data b)
  channel : ∀ c ch ch', c.conn.mpChannel = some ch → I c →
    I { c with conn.mpChannel := some ch' }
  extract : ∀ c size result b, c.conn.mRecvBuffer.extract size = .ok (result, b) → I c →
    I { c with conn.mRecvBuffer := b }
  shutdown : ∀ c, I c → I { c with mPendingTasks := c.mPendingTasks ++ [.shutdown] }

theorem CallsKeep.enableWrite (hI : CallsKeep I) : Keeps I enableWrite := by
  intro c hc
  cases hch : c.conn.mpChannel with
  | some ch =>
    rw [run_enableWrite hch]
    exact hI.channel c ch _ hch hc
  | none =>
    simpa [TcpConnection.enableWrite, TcpConnection.channel, EStateM.run_bind, EStateM.run_get, hch,
      final]

theorem CallsKeep.sendInLoop (hI : CallsKeep I) (data : Bytes) {x : ConnM Unit} (hx : Keeps I x) :
    Keeps I (sendInLoop data x) := by
  have hend : Keeps I (do if ¬ (← TcpConnection.channel).isWriting then
      TcpConnection.enableWrite : ConnM Unit) := by
    refine .bind (.bind .get fun s => ?_) fun ch => .ite (fun _ => hI.enableWrite) fun _ => .pure _
    cases s.conn.mpChannel with
    | some ch => exact .pure ch
    | none => exact .throw _
  have htail : ∀ b : TcpBuffer, Keeps I (do
      if b.size > TCP_HIGH_WATER_MARK then x
      if ¬ (← TcpConnection.channel).isWriting then TcpConnection.enableWrite : ConnM Unit) :=
    fun b => .ite (fun _ => .bind hx fun _ => hend) fun _ => hend
  intro c hc
  by_cases hconn : c.conn.mState = .connected
  · cases hb : c.conn.mSendBuffer.appendToBuffer data with
    | ok b =>
      have hrun : (TcpConnection.sendInLoop data x).run c = (do
          if b.size > TCP_HIGH_WATER_MARK then x
          if ¬ (← TcpConnection.channel).isWriting then TcpConnection.enableWrite : ConnM Unit).run
            (appended c data b) := by
        simp [TcpConnection.sendInLoop, EStateM.run_bind, EStateM.run_get, hconn, hb, appended]
      rw [hrun]
      exact htail b _ (hI.append c data b hb hc)
    | error e =>
      simpa [TcpConnection.sendInLoop, EStateM.run_bind, EStateM.run_get, hconn, hb, final]
  · simpa [TcpConnection.sendInLoop, EStateM.run_bind, EStateM.run_get, hconn, final]

theorem CallsKeep.extractCall (hI : CallsKeep I) (size : Nat) :
    Keeps I (TcpConnection.extract size) := by
  intro c hc
  cases hb : c.conn.mRecvBuffer.extract size with
  | ok r =>
    obtain ⟨result, b⟩ := r
    simpa [TcpConnection.extract, EStateM.run_bind, EStateM.run_get, hb, final] using
      hI.extract c size result b hb hc
  | error e => simpa [TcpConnection.extract, EStateM.run_bind, EStateM.run_get, hb, final]

mutual

theorem CallsKeep.runCall (hI : CallsKeep I) : (c : UserCall) → Keeps I (runCall c)
  | .send data onHighWater => by
    rw [TcpConnection.runCall]
    exact hI.sendInLoop data (hI.runCalls onHighWater)
  | .extract size => by
    rw [TcpConnection.runCall]
    exact .bind (hI.extractCall size) fun _ => .pure _
  | .shutdownConnection => by
    rw [TcpConnection.runCall]
    exact .modify hI.shutdown

/-- **What each call keeps**, the calls of a callback keep. -/
theorem CallsKeep.runCalls (hI : CallsKeep I) : (cs : List UserCall) → Keeps I (runCalls cs)
  | [] => by
    rw [TcpConnection.runCalls]
    exact .pure _
  | c :: cs => by
    rw [TcpConnection.runCalls]
    exact .bind (hI.runCall c) fun _ => hI.runCalls cs

end

end Keeps

/-! ### Calls that send nothing -/

/-- No send of the callback itself has any data. -/
def SendsNothing (calls : List UserCall) : Prop :=
  ∀ data onHighWater, .send data onHighWater ∈ calls → data = []

mutual

theorem sendCall_extends : (c : UserCall) → ∀ {b b' : TcpBuffer}, b.Valid →
    sendCall c b = .ok b' → b'.Valid ∧ b.readable <+: b'.readable
  | .send data onHighWater, b, b', hv, h => by
    simp only [sendCall] at h
    cases ha : b.appendToBuffer data with
    | error e =>
      rw [ha] at h
      cases h
    | ok c =>
      obtain ⟨hc, hr⟩ := TcpBuffer.appendToBuffer_eq_ok hv ha
      have hpre : b.readable <+: c.readable := ⟨data, hr.symm⟩
      rw [ha, ok_bind] at h
      split at h
      · obtain ⟨hv', hpre'⟩ := sendCalls_extends onHighWater hc h
        exact ⟨hv', hpre.trans hpre'⟩
      · cases h
        exact ⟨hc, hpre⟩
  | .extract size, b, b', hv, h => by
    simp only [sendCall] at h
    cases h
    exact ⟨hv, List.prefix_refl _⟩
  | .shutdownConnection, b, b', hv, h => by
    simp only [sendCall] at h
    cases h
    exact ⟨hv, List.prefix_refl _⟩

theorem sendCalls_extends : (cs : List UserCall) → ∀ {b b' : TcpBuffer}, b.Valid →
    sendCalls cs b = .ok b' → b'.Valid ∧ b.readable <+: b'.readable
  | [], b, b', hv, h => by
    simp only [sendCalls] at h
    cases h
    exact ⟨hv, List.prefix_refl _⟩
  | c :: cs, b, b', hv, h => by
    simp only [sendCalls] at h
    cases hc : sendCall c b with
    | error e =>
      rw [hc] at h
      cases h
    | ok b₁ =>
      rw [hc, ok_bind] at h
      obtain ⟨hv₁, hpre⟩ := sendCall_extends c hv hc
      obtain ⟨hv', hpre'⟩ := sendCalls_extends cs hv₁ h
      exact ⟨hv', hpre.trans hpre'⟩

end

/-- A call without data leaves an empty send buffer empty, and returns. -/
theorem sendCall_of_nothing {c : UserCall} (hc : SendsNothing [c]) {b : TcpBuffer} (hv : b.Valid)
    (hr : b.readable = []) : ∃ b', sendCall c b = .ok b' ∧ b'.Valid ∧ b'.readable = [] := by
  cases c with
  | send data onHighWater =>
    obtain rfl : data = [] := hc data onHighWater (List.mem_singleton_self _)
    have hfit : b.CanAppend [] := .inl (Nat.zero_le _)
    obtain ⟨b', hb', hv', hr'⟩ := TcpBuffer.appendToBuffer_of_canAppend hv hfit
    have hempty : b'.readable = [] := by rw [hr', hr, List.append_nil]
    have hsize : b'.size = 0 := hv'.size_eq_zero_iff.mpr hempty
    refine ⟨b', ?_, hv', hempty⟩
    simp only [sendCall, hb', ok_bind, hsize]
    rfl
  | extract size => exact ⟨b, by simp only [sendCall]; rfl, hv, hr⟩
  | shutdownConnection => exact ⟨b, by simp only [sendCall]; rfl, hv, hr⟩

theorem sendCalls_of_nothing {cs : List UserCall} (hcs : SendsNothing cs) {b : TcpBuffer}
    (hv : b.Valid) (hr : b.readable = []) :
    ∃ b', sendCalls cs b = .ok b' ∧ b'.Valid ∧ b'.readable = [] := by
  induction cs generalizing b with
  | nil => exact ⟨b, by simp only [sendCalls]; rfl, hv, hr⟩
  | cons c cs ih =>
    have hc : SendsNothing [c] := fun data onHighWater hmem =>
      hcs data onHighWater (List.mem_cons.mpr (.inl (List.mem_singleton.mp hmem)))
    obtain ⟨b₁, hb₁, hv₁, hr₁⟩ := sendCall_of_nothing hc hv hr
    obtain ⟨b₂, hb₂, hv₂, hr₂⟩ :=
      ih (fun data onHighWater hmem => hcs data onHighWater (List.mem_cons_of_mem _ hmem)) hv₁ hr₁
    exact ⟨b₂, by simp only [sendCalls, hb₁, ok_bind, hb₂], hv₂, hr₂⟩

/-- Calls that return **leave an empty send buffer empty** exactly when they send no bytes. -/
theorem sendsNothing_iff {cs : List UserCall} {b b' : TcpBuffer} (hv : b.Valid)
    (hr : b.readable = []) (h : sendCalls cs b = .ok b') :
    SendsNothing cs ↔ b'.readable = [] := by
  refine ⟨fun hcs => ?_, fun hempty data onHighWater hmem => ?_⟩
  · obtain ⟨b₁, hb₁, -, hr₁⟩ := sendCalls_of_nothing hcs hv hr
    rw [h] at hb₁
    cases hb₁
    exact hr₁
  · -- the calls only append, so that the buffer is empty in between
    induction cs generalizing b with
    | nil => cases hmem
    | cons c cs ih =>
      simp only [sendCalls] at h
      cases hc : sendCall c b with
      | error e =>
        rw [hc] at h
        cases h
      | ok b₁ =>
        rw [hc, ok_bind] at h
        obtain ⟨hv₁, -⟩ := sendCall_extends c hv hc
        obtain ⟨-, hpre⟩ := sendCalls_extends cs hv₁ h
        have hr₁ : b₁.readable = [] := List.prefix_nil.mp (hempty ▸ hpre)
        rcases List.mem_cons.mp hmem with rfl | hmem
        · simp only [sendCall] at hc
          -- what is appended to an empty buffer is all that it has
          cases ha : b.appendToBuffer data with
          | error e =>
            rw [ha] at hc
            cases hc
          | ok b₂ =>
            obtain ⟨hv₂, hr₂⟩ := TcpBuffer.appendToBuffer_eq_ok hv ha
            rw [hr, List.nil_append] at hr₂
            rw [ha, ok_bind] at hc
            split at hc
            · obtain ⟨-, hpre₂⟩ := sendCalls_extends onHighWater hv₂ hc
              exact hr₂ ▸ List.prefix_nil.mp (hr₁ ▸ hpre₂)
            · cases hc
              exact hr₂ ▸ hr₁
        · exact ih hv₁ hr₁ h hmem

end SimpleTcp
