import SimpleTcp.Http.Segments

/-!
# Rejected requests

A packet that the parser rejects is answered by a fixed text, and nothing else is done about it: the
bytes stay in the receive buffer, in front of whatever arrives next. A request behind them is
handled as on a fresh connection only where the connection was to be shut down anyway, or where the
high-water-mark callback of the user has taken the bytes out.

## Main definitions

* `AskedToShutDown`: the connection was shut down, or is about to be
* `HandlesNext`: the next request is handled as on a fresh connection
* `Recovers`: the connection is to be shut down, or the rejected bytes are gone
* `CallbackSettles`: the answer runs a high-water-mark callback that sees to it

## Main results

* `sendInLoop_cases`: what a send that returns has done
* `onMessage_rejected`: what is done about a packet that the parser rejects
* `recovers_iff`: when a connection recovers from a bad request
-/

namespace SimpleTcp

open TcpConnection Machine

/-! ### What a send has done -/

/-- A send that has returned dropped the data, or appended it, ran the high-water-mark callback when
the buffer was over the mark, and turned write interest on. -/
theorem sendInLoop_cases {c c' : Ctx} {data : Bytes} {highWater : ConnM Unit}
    (h : (sendInLoop data highWater).run c = .ok () c') :
    (c.conn.mState ≠ .connected ∧ c' = c) ∨
    ∃ b, c.conn.mState = .connected ∧ c.conn.mSendBuffer.appendToBuffer data = .ok b ∧
      ∃ c₁ ch, c' = { c₁ with conn.mpChannel := some ch } ∧
        (if TCP_HIGH_WATER_MARK < b.size then highWater.run (appended c data b) = .ok () c₁
          else c₁ = appended c data b) := by
  by_cases hconn : c.conn.mState = .connected
  · right
    cases hb : c.conn.mSendBuffer.appendToBuffer data with
    | error e => simp [sendInLoop, EStateM.run_bind, EStateM.run_get, hconn, hb] at h
    | ok b =>
      refine ⟨b, hconn, rfl, ?_⟩
      have hrun : (sendInLoop data highWater).run c = (do
          if b.size > TCP_HIGH_WATER_MARK then highWater
          if ¬ (← channel).isWriting then enableWrite : ConnM Unit).run (appended c data b) := by
        simp [sendInLoop, EStateM.run_bind, EStateM.run_get, hconn, hb, appended]
      rw [hrun] at h
      -- the end of the send: write interest is on
      have hend : ∀ c₁ : Ctx, (do if ¬ (← channel).isWriting then enableWrite : ConnM Unit).run c₁ =
          .ok () c' → ∃ ch, c' = { c₁ with conn.mpChannel := some ch } := by
        intro c₁ hc₁
        cases hch : c₁.conn.mpChannel with
        | some ch =>
          rw [run_enableWrite_of_off hch] at hc₁
          cases hc₁
          exact ⟨_, rfl⟩
        | none => simp [channel, EStateM.run_bind, EStateM.run_get, hch] at hc₁
      by_cases hhigh : b.size > TCP_HIGH_WATER_MARK
      · simp only [hhigh, if_true] at h
        rw [EStateM.run_bind] at h
        cases hw : highWater.run (appended c data b) with
        | ok u c₁ =>
          rw [hw] at h
          obtain ⟨ch, hch⟩ := hend c₁ h
          exact ⟨c₁, ch, hch, by rw [if_pos hhigh]⟩
        | error e c₁ =>
          rw [hw] at h
          cases h
      · simp only [hhigh, if_false] at h
        obtain ⟨ch, hch⟩ := hend _ h
        exact ⟨_, ch, hch, by rw [if_neg hhigh]⟩
  · left
    have hrun : (sendInLoop data highWater).run c = .ok () c := by
      simp [sendInLoop, EStateM.run_bind, EStateM.run_get, hconn]
    rw [hrun] at h
    cases h
    exact ⟨hconn, rfl⟩

/-! ### What recovering is -/

/-- The connection was shut down, or a task waits that shuts it down. -/
def AskedToShutDown (c : Ctx) : Prop := c.conn.mState ≠ .connected ∨ .shutdown ∈ c.mPendingTasks

/-- The connection is to be shut down, or nothing is left in its receive buffer. -/
def Settled (c : Ctx) : Prop := AskedToShutDown c ∨ c.conn.mRecvBuffer.readable = []

instance (c : Ctx) : Decidable (AskedToShutDown c) := inferInstanceAs (Decidable (_ ∨ _))

instance (c : Ctx) : Decidable (Settled c) := inferInstanceAs (Decidable (_ ∨ _))

namespace HttpServer

/-- A request that arrives next, in one piece, is handled as on a fresh connection: it alone is
handed to the handle. -/
def HandlesNext (s : HttpCtx) : Prop :=
  ∀ (handle : RequestHandle) (a : Arrival) (request : HttpRequest), Received s a →
    parseHttpRequest a.segment = .ok request →
      (final ((receive (some handle) a).run s)).handled = s.handled ++ [{ request with
        mRawRequest := a.segment.take (toSize request.mRequestSize) }]

/-- The connection is to be shut down, or the rejected bytes are gone and the next request is
handled as on a fresh connection. -/
def Recovers (s : HttpCtx) : Prop :=
  AskedToShutDown s.ctx ∨ s.ctx.conn.mRecvBuffer.readable = [] ∧ HandlesNext s

/-- The answer takes the send buffer over the mark, and the high-water-mark callback of the user
settles the connection. -/
def CallbackSettles (s : HttpCtx) (onHighWater : List UserCall) : Prop :=
  s.ctx.conn.mState = .connected ∧ ∃ b,
    s.ctx.conn.mSendBuffer.appendToBuffer HTTP_BAD_REQUEST_RESPONSE = .ok b ∧
      TCP_HIGH_WATER_MARK < b.size ∧
        Settled (final ((runCalls onHighWater).run (appended s.ctx HTTP_BAD_REQUEST_RESPONSE b)))

variable {s s' : HttpCtx} {mRequestHandle : Option RequestHandle} {onHighWater : List UserCall}

/-- On a connection without bytes in front of it, a request is handled. -/
theorem handlesNext_of_empty (h : s.ctx.Sound) (hempty : s.ctx.conn.mRecvBuffer.readable = []) :
    HandlesNext s := by
  intro handle a request ha hp
  have hread : (s.arrived a).ctx.conn.mRecvBuffer.readable = a.segment := by
    change a.mRecvBuffer.readable = _
    rw [ha.readable, hempty, List.nil_append]
  rw [← hread] at hp
  have hmsg := onMessage_handled a.onHighWater (sound_arrived ha h) handle hp
  rw [hread] at hmsg
  rw [run_receive]
  exact hmsg

theorem recovers_iff_settled (h : s.ctx.Sound) : Recovers s ↔ Settled s.ctx :=
  or_congr_right (and_iff_left_of_imp (handlesNext_of_empty h))

/-! ### What calls leave settled -/

theorem callsKeep_empty :
    CallsKeep fun c => c.conn.mRecvBuffer.Valid ∧ c.conn.mRecvBuffer.readable = [] where
  append _ _ _ _ h := h
  channel _ _ _ _ h := h
  extract c size result b hb h := by
    -- nothing can be taken out of a buffer that is empty
    obtain ⟨b', hb', hv, hr, -⟩ := TcpBuffer.extract_spec h.1 size
    obtain ⟨-, rfl⟩ := Prod.mk.inj (Except.ok.inj (hb.symm.trans hb'))
    exact ⟨hv, by rw [hr, h.2, List.drop_nil]⟩
  shutdown _ h := h

theorem callsKeep_asked : CallsKeep AskedToShutDown where
  append _ _ _ _ h := h
  channel _ _ _ _ h := h
  extract _ _ _ _ _ h := h
  shutdown _ h := h.imp_right fun hmem => List.mem_append_left _ hmem

/-- A settled connection stays settled. -/
theorem settled_of_runCalls {c c' : Ctx} {cs : List UserCall} (hc : c.Sound) (h : Settled c)
    (hrun : (runCalls cs).run c = .ok () c') : Settled c' := by
  rcases h with hasked | hempty
  · have hkeep := callsKeep_asked.runCalls cs c hasked
    rw [hrun] at hkeep
    exact .inl hkeep
  · have hkeep := callsKeep_empty.runCalls cs c ⟨hc.recv.toValid, hempty⟩
    rw [hrun] at hkeep
    exact .inr hkeep.2

/-! ### The answer -/

/-- **What is done about a packet that the parser rejects**: the answer is sent, and the bytes stay
where they are. -/
theorem onMessage_rejected (h : s.ctx.Sound) {msg : String} {type : RequestErrorType}
    (he : parseHttpRequest s.ctx.conn.mRecvBuffer.readable = .error (.requestError msg type))
    (htype : type ≠ .PartialPacket)
    (hrun : (onMessage mRequestHandle onHighWater).run s = .ok () s') :
    (sendInLoop HTTP_BAD_REQUEST_RESPONSE (runCalls onHighWater)).run s.ctx = .ok () s'.ctx := by
  have hsend : onError onHighWater (.requestError msg type) =
      sendString HTTP_BAD_REQUEST_RESPONSE onHighWater := by
    cases type with
    | PartialPacket => exact absurd rfl htype
    | BadRequest | UnsupportMethod => rfl
  rw [onMessage_of_error h he, hsend, sendString, run_onConnection, runCall] at hrun
  cases hx : (sendInLoop HTTP_BAD_REQUEST_RESPONSE (runCalls onHighWater)).run s.ctx with
  | ok u c =>
    rw [hx] at hrun
    cases hrun
    rfl
  | error e c =>
    rw [hx] at hrun
    cases hrun

/-- **A connection recovers from a bad request** exactly when it was settled before, or when the
high-water-mark callback of the user, called by the answer, settles it. -/
theorem recovers_iff (h : s.ctx.Sound) {msg : String} {type : RequestErrorType}
    (he : parseHttpRequest s.ctx.conn.mRecvBuffer.readable = .error (.requestError msg type))
    (htype : type ≠ .PartialPacket)
    (hrun : (onMessage mRequestHandle onHighWater).run s = .ok () s') :
    Recovers s' ↔ Settled s.ctx ∨ CallbackSettles s onHighWater := by
  have hsend := onMessage_rejected h he htype hrun
  have hout := sendInLoop_outcome h HTTP_BAD_REQUEST_RESPONSE
    fun c hc => runCalls_outcome onHighWater hc
  rw [hsend] at hout
  obtain ⟨⟨ds, hcalled⟩, -⟩ := hout
  rw [recovers_iff_settled hcalled.sound]
  rcases sendInLoop_cases hsend with ⟨hno, heq⟩ | ⟨b, hconn, hb, c₁, ch, heq, hc₁⟩
  · -- a connection that is not connected was shut down before
    rw [heq]
    exact iff_of_true (.inl (.inl hno)) (.inl (.inl (.inl hno)))
  · have hsame : Settled s'.ctx ↔ Settled c₁ := by rw [heq]; rfl
    rw [hsame]
    by_cases hhigh : TCP_HIGH_WATER_MARK < b.size
    · rw [if_pos hhigh] at hc₁
      have hvalid := (TcpBuffer.appendToBuffer_eq_ok h.send hb).1
      have hsound : (appended s.ctx HTTP_BAD_REQUEST_RESPONSE b).Sound :=
        ⟨hvalid, h.recv, h.channel⟩
      constructor
      · exact fun hset => .inr ⟨hconn, b, hb, hhigh, by rwa [hc₁]⟩
      · rintro (hset | ⟨-, b', hb', -, hset⟩)
        · exact settled_of_runCalls hsound hset hc₁
        · obtain rfl := Except.ok.inj (hb.symm.trans hb')
          rwa [hc₁] at hset
    · -- without the callback, nothing but the send buffer has changed
      rw [if_neg hhigh] at hc₁
      rw [hc₁]
      constructor
      · exact fun hset => .inl hset
      · rintro (hset | ⟨-, b', hb', hhigh', -⟩)
        · exact hset
        · obtain rfl := Except.ok.inj (hb.symm.trans hb')
          exact absurd hhigh' hhigh

/-- A request with a method that the parser does not know. -/
def headRequest : Bytes := ascii "HEAD / HTTP/1.1\r\n\r\n"

theorem headRequest_rejected :
    parseHttpRequest (holding headRequest).ctx.conn.mRecvBuffer.readable =
      .error (.requestError "[parseHttpRequest] parse request failed." .BadRequest) := by
  decide +kernel

theorem headRequest_answered :
    ∃ s', (onMessage none []).run (holding headRequest) = .ok () s' ∧ ¬ Settled s'.ctx := by
  have hok : (returned ((onMessage none []).run (holding headRequest))).isSome := by decide +kernel
  have hleft : ¬ Settled (final ((onMessage none []).run (holding headRequest))).ctx := by
    decide +kernel
  cases hrun : (onMessage none []).run (holding headRequest) with
  | ok u s' =>
    rw [hrun] at hleft
    exact ⟨s', rfl, hleft⟩
  | error e s' =>
    rw [hrun] at hok
    cases hok

/-- The answer to the unknown method is one that the theorem is about. -/
theorem recovers_iff_head : ∃ s', (onMessage none []).run (holding headRequest) = .ok () s' ∧
    (Recovers s' ↔
      Settled (holding headRequest).ctx ∨ CallbackSettles (holding headRequest) []) := by
  obtain ⟨s', hrun, -⟩ := headRequest_answered
  exact ⟨s', hrun, recovers_iff (holding_spec (by decide +kernel)).1 headRequest_rejected
    (by decide) hrun⟩

/-- Without a callback, a connection does not recover from a method that is unknown: it stays open,
with the bytes in front of the next request. -/
theorem not_recovers_head : ¬ ∀ (mRequestHandle : Option RequestHandle)
    (onHighWater : List UserCall) (s s' : HttpCtx) (msg : String) (type : RequestErrorType),
    s.ctx.Sound →
    parseHttpRequest s.ctx.conn.mRecvBuffer.readable = .error (.requestError msg type) →
    type ≠ .PartialPacket →
    (onMessage mRequestHandle onHighWater).run s = .ok () s' → Recovers s' := by
  intro h
  obtain ⟨s', hrun, hleft⟩ := headRequest_answered
  rcases h none [] _ s' _ _ (holding_spec (by decide +kernel)).1 headRequest_rejected (by decide)
    hrun with hasked | ⟨hempty, -⟩
  · exact hleft (.inl hasked)
  · exact hleft (.inr hempty)

end HttpServer

end SimpleTcp
