import SimpleTcp.Tcp.Link

/-!
# The echo server

The echo server sends back what it has read, all of it at every message callback. Its client is any
user of a connection. What the client has sent is at any moment what has come back, followed by what
is on its way: in the send buffer of the server, on the wire, and in the send buffer of the client.

The timer that the server starts for each connection, and its output on the console, are left out.

## Main definitions

* `EchoServer.onMessage`: the message callback
* `EchoEvent`, `EchoServer.step`: the steps of both sides
* `Echoed`: where the bytes of the client are

## Main results

* `EchoServer.read_keeps`: a read of the server sends back what it has read
* `EchoServer.echoed_always`: no byte is lost on the way to the server and back
-/

namespace SimpleTcp

open TcpConnection Machine

namespace EchoServer

/-- `extractStringAll` gives all that is in the receive buffer, and `sendString` sends it back. -/
def onMessage (message : Bytes) : List UserCall := [.extract message.length, .send message []]

end EchoServer

inductive EchoEvent where
  /-- A step of the client, with any callbacks. -/
  | client (i : Invocation)
  | read (res : ReadResult) (soError : Errno)
  | write (res : WriteResult) (soError : Errno)
  | error
  | close
  /-- The task that the close callback has queued. -/
  | destroy (io : TaskIo)

/-- What the loop makes the connection of a side do. The message callback of the server finds in the
receive buffer what was there and what was read. -/
def EchoEvent.invocation (server : Ctx) : EchoEvent → Side × Invocation
  | .client i => (.client, i)
  | .read res soError => (.server, .handleRead ⟨res, soError,
      EchoServer.onMessage (server.conn.mRecvBuffer.readable ++ server.conn.mRecvBuffer.stored res),
      []⟩)
  | .write res soError => (.server, .handleWrite ⟨res, soError, []⟩)
  | .error => (.server, .handleError)
  | .close => (.server, .handleClose [])
  | .destroy io => (.server, .task .close io)

/-- What the client has sent is what has come back, what is on the way back, and what is on the way
to the server. -/
def Echoed (l : Link) : Prop :=
  appendedBytes (l.ends .client).ctx.trace =
    (l.ends .client).received ++ l.wire .server ++ (l.ends .server).ctx.conn.mSendBuffer.readable ++
      (l.wire .client ++ (l.ends .client).ctx.conn.mSendBuffer.readable)

namespace EchoServer

def step (e : EchoEvent) : EStateM Stop Link Unit := do
  Link.step (e.invocation ((← get).ends .server).ctx)

section

variable {c k : Ctx} {l l' : Link}

/-- The server has sent back what it has read, and nothing waits in its receive buffer. -/
structure SentBack (c : Ctx) (received : Bytes) : Prop where
  appended : appendedBytes c.trace = received
  readable : c.conn.mRecvBuffer.readable = []
  mState : c.conn.mState = .connected ∨ c.conn.mState = .disConnected

theorem appendedBytes_of_sent {ms : List Bytes} (h : k.sent = c.sent ++ ms) :
    appendedBytes k.trace = appendedBytes c.trace ++ ms.flatten := by
  rw [← k.flatten_sent, ← c.flatten_sent, h, List.flatten_append]

theorem appendedBytes_note (c : Ctx) {es : List Effect} (hes : ∀ e ∈ es, e.Quiet) :
    appendedBytes (c.note es).trace = appendedBytes c.trace := by
  rw [← (c.note es).flatten_sent, ← c.flatten_sent, Ctx.sent_of_quiet es rfl hes]

/-- The message callback takes the message out, and sends it. -/
theorem run_onMessage (h : c.Sound) (hconn : c.conn.mState = .connected)
    (hrun : (runCalls (onMessage c.conn.mRecvBuffer.readable)).run c = .ok () k) :
    appendedBytes k.trace = appendedBytes c.trace ++ c.conn.mRecvBuffer.readable ∧
      k.conn.mRecvBuffer.readable = [] ∧ k.conn.mState = .connected := by
  obtain ⟨c₁, hextract, hcalled, -, hleft⟩ := extract_called h c.conn.mRecvBuffer.readable.length
  have hconn₁ : c₁.conn.mState = .connected := hcalled.mState.trans hconn
  have hsent₁ : c₁.sent = c.sent := by
    rw [Ctx.sent, hcalled.trace, List.map_nil, List.append_nil]
    rfl
  simp only [onMessage, runCalls, runCall, EStateM.run_bind, hextract, EStateM.run_pure] at hrun
  rcases sendInLoop_delivers hcalled.sound hconn₁ c.conn.mRecvBuffer.readable with
    ⟨k', hsend, hk⟩ | ⟨e, hsend, -⟩
  · rw [hsend] at hrun
    cases hrun
    refine ⟨?_, ?_, hk.mState.trans hconn₁⟩
    · rw [appendedBytes_of_sent (hsent₁ ▸ hk.sent), List.flatten_singleton]
    · rw [hk.readable, hleft, List.drop_length]
  · rw [hsend] at hrun
    cases hrun

/-- Closing sends nothing. -/
theorem closed_of_handleClose (h : c.Sound) (hopen : c.conn.mState ≠ .disConnected)
    (hrun : (TcpConnection.handleClose []).run c = .ok () k) :
    appendedBytes k.trace = appendedBytes c.trace ∧ k.conn.mState = .disConnected := by
  obtain ⟨k', hclose, hcalled⟩ := run_handleClose h hopen []
  obtain rfl := (EStateM.Result.ok.inj (hclose.symm.trans hrun)).2
  refine ⟨?_, hcalled.mState⟩
  rw [hcalled.trace, List.map_nil, List.append_nil]
  show appendedBytes (c.trace ++ [.entered .handleClose, .state .disConnected]) = _
  rw [appendedBytes_append]
  exact List.append_nil _

variable {received : Bytes}

/-- A step that neither reads nor sends. -/
theorem SentBack.quiet (h : SentBack c received) (hs : c.Sound) {i : Invocation}
    (hrun : i.run.run c = .ok () k) (hread : Link.arrived c i = [])
    (happended : appendedBytes k.trace = appendedBytes c.trace)
    (hst : k.conn.mState = .connected ∨ k.conn.mState = .disConnected) :
    SentBack k (received ++ Link.arrived c i) where
  appended := by rw [happended, h.appended, hread, List.append_nil]
  readable := by
    have hrecv := Invocation.recv hs hrun
    rw [h.readable, hread] at hrecv
    exact List.suffix_nil.mp hrecv
  mState := hst

/-- **A read** sends back what it has read. -/
theorem SentBack.read (h : SentBack c received) (hs : c.Sound) {res : ReadResult} {soError : Errno}
    (hrun : ((EchoEvent.read res soError).invocation c).2.run.run c = .ok () k) :
    SentBack k (received ++ Link.arrived c ((EchoEvent.read res soError).invocation c).2) := by
  have hentered : appendedBytes (c.note [.entered .handleRead]).trace = appendedBytes c.trace :=
    appendedBytes_note c (by simp [Effect.Quiet])
  have hopen : c.conn.mState ≠ .disConnected := by
    intro hst
    have hfatal := (run_handleRead_of_disConnected hst _).symm.trans hrun
    cases hfatal
  have hconn := h.mState.resolve_right hopen
  rcases handleRead_cases hs hopen ⟨res, soError, onMessage
      (c.conn.mRecvBuffer.readable ++ c.conn.mRecvBuffer.stored res), []⟩ with
    ⟨⟨hn, -⟩, hr⟩ | ⟨hn, -, hr⟩ | ⟨-, -, hr⟩ | ⟨hn, b, hb, hread, hr⟩
  · obtain ⟨happended, hst⟩ := closed_of_handleClose (hs.note [.entered .handleRead]) hopen
      (hr.symm.trans hrun)
    exact h.quiet hs hrun (stored_eq_nil hn) (happended.trans hentered) (.inr hst)
  · obtain rfl : _ = k := (EStateM.Result.ok.inj (hr.symm.trans hrun)).2
    refine h.quiet hs hrun (stored_eq_nil hn) ?_ h.mState
    exact appendedBytes_note c (by simp [Effect.Quiet])
  · have hstop := hr.symm.trans hrun
    cases hstop
  · -- the callback finds what was read, and nothing else
    have hreadable : b.readable =
        c.conn.mRecvBuffer.readable ++ c.conn.mRecvBuffer.stored res := by
      rcases TcpBuffer.readFromSocket_spec hs.recv res soError with
        ⟨hno, -⟩ | ⟨-, hlen⟩ | ⟨arrived, b', hres, -, hok, -, hread'⟩
      · exact absurd hno hn
      · rw [hlen] at hread
        cases hread
      · rw [hok] at hread
        cases hread
        rw [hread', hres, TcpBuffer.stored, hs.recv.writablebytes_eq]
    have hcall := hr.symm.trans hrun
    dsimp only at hcall
    rw [← hreadable] at hcall
    obtain ⟨happended, hempty, hst⟩ :=
      run_onMessage ((hs.note [.entered .handleRead]).received hb) hconn hcall
    refine ⟨?_, hempty, .inl hst⟩
    rw [happended]
    show appendedBytes (c.note [.entered .handleRead]).trace ++ b.readable =
      received ++ c.conn.mRecvBuffer.stored res
    rw [hentered, h.appended, hreadable, h.readable, List.nil_append]

/-- **A step of the server** sends back what it has read. -/
theorem SentBack.step (h : SentBack c received) (hs : c.Sound) {e : EchoEvent}
    (he : (e.invocation c).1 = .server) (hrun : (e.invocation c).2.run.run c = .ok () k) :
    SentBack k (received ++ Link.arrived c (e.invocation c).2) := by
  cases e with
  | client i => cases he
  | read res soError => exact h.read hs hrun
  | write res soError =>
    have hconn : c.conn.mState = .connected := by
      by_contra hst
      have hfatal := (run_handleWrite_of_not_connected hst _).symm.trans hrun
      cases hfatal
    rcases handleWrite_delivers hs hconn res soError with ⟨k', hwrite, hk⟩ | ⟨k', hwrite, -⟩
    · obtain rfl := (EStateM.Result.ok.inj (hwrite.symm.trans hrun)).2
      refine h.quiet hs hrun rfl ?_ (.inl (hk.mState.trans hconn))
      rw [appendedBytes_of_sent hk.sent]
      exact List.append_nil _
    · have hstop := hwrite.symm.trans hrun
      cases hstop
  | error =>
    have hrun' := run_handleError.symm.trans hrun
    obtain rfl : _ = k := (EStateM.Result.ok.inj hrun').2
    exact h.quiet hs hrun rfl (appendedBytes_note c (by simp [Effect.Quiet])) h.mState
  | close =>
    have hopen : c.conn.mState ≠ .disConnected := by
      intro hst
      have hfatal := (run_handleClose_of_disConnected hst []).symm.trans hrun
      cases hfatal
    obtain ⟨happended, hst⟩ := closed_of_handleClose hs hopen hrun
    exact h.quiet hs hrun rfl happended (.inr hst)
  | destroy io =>
    have hst : c.conn.mState = .disConnected := by
      by_contra hopen
      have hfatal := (run_destroyConnection_of_open hopen).symm.trans hrun
      cases hfatal
    obtain rfl : _ = k := (EStateM.Result.ok.inj ((run_destroyConnection hst).symm.trans hrun)).2
    refine h.quiet hs hrun rfl ?_ (.inr hst)
    show appendedBytes (c.trace ++ [.entered .destroyConnection]) = _
    rw [appendedBytes_append]
    exact List.append_nil _

/-! ### Runs -/

/-- What the steps keep. -/
structure Inv (l : Link) : Prop where
  link : l.Inv
  server : SentBack (l.ends .server).ctx (l.ends .server).received

theorem start_inv : Inv Link.start where
  link := Link.start_inv
  server := ⟨rfl, TcpBuffer.readable_fresh, .inl rfl⟩

theorem Inv.echoed (h : Inv l) : Echoed l := by
  have hclient := (h.link.streams .client).all_eq
  have hserver := (h.link.streams .server).all_eq
  rw [h.server.appended] at hserver
  rw [Echoed, hclient]
  show (l.ends .server).received ++ l.wire .client ++ _ = _
  rw [hserver, List.append_assoc]
  rfl

theorem Inv.step {e : EchoEvent} (h : Inv l) (hrun : (step e).run l = .ok () l') : Inv l' := by
  have hlink : (Link.step (e.invocation (l.ends .server).ctx)).run l = .ok () l' := by
    simpa only [EchoServer.step, EStateM.run_bind, EStateM.run_get] using hrun
  refine ⟨h.link.step hlink, ?_⟩
  generalize hi : e.invocation (l.ends .server).ctx = i at hlink
  obtain ⟨a, i⟩ := i
  rcases Link.step_ok hlink with rfl | ⟨-, k, hk, rfl⟩
  · exact h.server
  · dsimp only
    by_cases ha : a = .server
    · subst ha
      rw [Function.update_self]
      have hside : (e.invocation (l.ends .server).ctx).1 = .server := by rw [hi]
      have hstep : (e.invocation (l.ends .server).ctx).2.run.run (l.ends .server).ctx =
          .ok () k := by
        rw [hi]
        exact hk
      have hsent := h.server.step (h.link.sound .server) hside hstep
      rw [hi] at hsent
      exact hsent
    · rw [Function.update_of_ne (Ne.symm ha)]
      exact h.server

/-- **No byte is lost on the way to the server and back**, nor duplicated or put out of order: what
the client has sent is what has come back, followed by what is on its way, in every state of every
run. -/
theorem echoed_always (events : List EchoEvent) :
    Machine.Always step (fun r => ∀ l, r = .ok () l → Echoed l) Link.start events := by
  refine Machine.always_of_invariant (I := Inv) ?_ ?_ ?_ start_inv events
  · intro l h l' hl
    cases hl
    exact h.echoed
  · exact fun l e l' h hrun => h.step hrun
  · intro l e err l' _ _ l'' hl
    cases hl

end

end EchoServer

end SimpleTcp
