import SimpleTcp.Http.Request
import SimpleTcp.Tcp.Calls

/-!
# The HTTP server

`HttpServer::onMessage` parses the receive buffer, takes the request out of it, hands the request to
the handle of the user and sends the response. What the handle and `generateResponse` make of a
request is a parameter. The server calls the connection as any user does, so that what is proved of
connections holds of its own.

## Main definitions

* `HttpCtx`: a connection and the requests that were handled
* `takeRequest`, `onMessage`: the message callback of the server
* `receive`: the arrival of bytes, followed by the callback
* `holding`: a connection that has received some bytes

## Main results

* `received_of_readFromSocket`: what a read appends
* `takeRequest_of_parsed`, `onMessage_handled`: a request that is parsed is taken and handled once
* `onMessage_calls`: the callback makes the calls of a user
-/

namespace SimpleTcp

open TcpConnection Machine

def HTTP_BAD_REQUEST_RESPONSE : Bytes :=
  ascii "HTTP/1.1 400 Bad Request\r\n" ++
  ascii "Content-Type: text/html\r\n" ++
  ascii "<P>Your browser sent a bad request, such as a POST without a Content-Length.\r\n"

/-- `mRequestHandle` and `generateResponse`: the text of the response and its `mIsKeepAlive`, or an
exception. -/
abbrev RequestHandle := HttpRequest → Except HttpStop (Bytes × Bool)

/-- A connection of the server, and the requests that were handed to `mRequestHandle`. -/
structure HttpCtx where
  ctx : Ctx
  handled : List HttpRequest

abbrev HttpM := EStateM HttpStop HttpCtx

namespace HttpServer

/-- A program on the connection. -/
def onConnection {α : Type} (x : ConnM α) : HttpM α := fun s =>
  match x.run s.ctx with
  | .ok a ctx => .ok a { s with ctx }
  | .error e ctx => .error (.stop e) { s with ctx }

/-- The result of a call, whose exception goes to the caller. -/
def result {α : Type} : Except HttpStop α → HttpM α
  | .ok a => pure a
  | .error e => throw e

/-- `parseHttpRequest(conn->readStringAll())` and `conn->extractString(request.mRequestSize)`. -/
def takeRequest : HttpM HttpRequest := do
  let mRecvBuffer := (← get).ctx.conn.mRecvBuffer
  let rawHttpPacket := mRecvBuffer.read mRecvBuffer.size
  let request ← result (parseHttpRequest rawHttpPacket)
  let mRawRequest ← onConnection (extract (toSize request.mRequestSize))
  pure { request with mRawRequest }

/-- Without a handle, the response has no version. -/
def generate (mRequestHandle : Option RequestHandle) (request : HttpRequest) :
    HttpM (Bytes × Bool) := do
  match mRequestHandle with
  | some handle =>
    -- the request counts as handled also when the handle throws
    modify fun s => { s with handled := s.handled ++ [request] }
    result (handle request)
  | none => throw (.responseError "[HttpResponse] please set http version correctly!" .BadVersion)

/-- `onHighWater` are the calls of the high-water-mark callback. -/
def sendString (message : Bytes) (onHighWater : List UserCall) : HttpM Unit :=
  onConnection (runCall (.send message onHighWater))

/-- The response to a request. -/
def respond (mRequestHandle : Option RequestHandle) (onHighWater : List UserCall)
    (request : HttpRequest) : HttpM Unit := do
  let (response, mIsKeepAlive) ← generate mRequestHandle request
  sendString response onHighWater
  if ¬ mIsKeepAlive then onConnection (runCall .shutdownConnection)

/-- What is done about an exception. -/
def onError (onHighWater : List UserCall) : HttpStop → HttpM Unit
  -- the packet stays in the receive buffer until more has arrived
  | .requestError _ .PartialPacket => pure ()
  | .requestError _ _ => sendString HTTP_BAD_REQUEST_RESPONSE onHighWater
  | e => throw e

def onMessage (mRequestHandle : Option RequestHandle) (onHighWater : List UserCall) :
    HttpM Unit :=
  tryCatch (takeRequest >>= respond mRequestHandle onHighWater) (onError onHighWater)

/-- Bytes that arrive, the receive buffer that then has them, and the calls of the high-water-mark
callback. -/
structure Arrival where
  segment : Bytes
  mRecvBuffer : TcpBuffer
  onHighWater : List UserCall

/-- The buffer has the bytes behind those it had. -/
structure Received (s : HttpCtx) (a : Arrival) : Prop where
  hasRoom : a.mRecvBuffer.HasRoom
  readable : a.mRecvBuffer.readable = s.ctx.conn.mRecvBuffer.readable ++ a.segment

/-- The arrival of bytes, and the message callback. -/
def receive (mRequestHandle : Option RequestHandle) (a : Arrival) : HttpM Unit := do
  onConnection (setRecvBuffer a.mRecvBuffer)
  onMessage mRequestHandle a.onHighWater

/-- An established connection whose receive buffer has the bytes. -/
def holding (bytes : Bytes) : HttpCtx where
  ctx :=
    { conn :=
        { mState := .connected
          mpChannel := some Channel.create.enableRead
          mSendBuffer := TcpBuffer.fresh
          mRecvBuffer := ⟨Vec.resize bytes 1024, 0, bytes.length⟩ }
      mPendingTasks := []
      trace := [.state .connected] }
  handled := []

theorem holding_spec {bytes : Bytes} (h : bytes.length < 1024) :
    (holding bytes).ctx.Sound ∧ (holding bytes).ctx.conn.mRecvBuffer.readable = bytes := by
  have hv : TcpBuffer.Valid ⟨Vec.resize bytes 1024, 0, bytes.length⟩ :=
    ⟨Nat.zero_le _, by rw [Vec.length_resize]; exact h.le, by rw [Vec.length_resize]; decide⟩
  have hroom : TcpBuffer.HasRoom ⟨Vec.resize bytes 1024, 0, bytes.length⟩ :=
    ⟨hv, by rw [Vec.length_resize]; exact h⟩
  refine ⟨⟨TcpBuffer.fresh_valid, hroom, fun _ => ⟨_, rfl⟩⟩, ?_⟩
  have hn : (holding bytes).ctx.conn.mRecvBuffer.readablebytes = bytes.length :=
    hv.readablebytes_eq
  rw [TcpBuffer.readable, hn]
  change ((Vec.resize bytes 1024).drop 0).take bytes.length = bytes
  rw [List.drop_zero, Vec.resize, List.take_of_length_le h.le, List.take_left]

/-! ### Running the primitives -/

section

variable {α : Type} {s : HttpCtx}

theorem run_onConnection (x : ConnM α) (s : HttpCtx) :
    (onConnection x).run s = match x.run s.ctx with
      | .ok a ctx => .ok a { s with ctx }
      | .error e ctx => .error (.stop e) { s with ctx } := rfl

@[simp] theorem result_ok (a : α) : result (.ok a) = pure a := rfl

@[simp] theorem result_error (e : HttpStop) : (result (.error e) : HttpM α) = throw e := rfl

theorem read_size {b : TcpBuffer} (h : b.Valid) : b.read b.size = b.readable := by
  rw [h.read_eq, TcpBuffer.size, ← h.length_readable, List.take_length]

/-- A read appends what it takes. -/
theorem received_of_readFromSocket {arrived : Bytes} {soError : Errno} {b : TcpBuffer}
    (h : s.ctx.conn.mRecvBuffer.HasRoom)
    (hread : s.ctx.conn.mRecvBuffer.readFromSocket (.bytes arrived) soError = .ok b)
    (onHighWater : List UserCall) :
    Received s ⟨arrived.take s.ctx.conn.mRecvBuffer.writablebytes, b, onHighWater⟩ := by
  rcases TcpBuffer.readFromSocket_spec h (.bytes arrived) soError with
    ⟨-, herr⟩ | ⟨-, herr⟩ | ⟨arrived', b', he, -, hok, hv, hr⟩
  · rw [herr] at hread
    cases hread
  · rw [herr] at hread
    cases hread
  · cases he
    obtain rfl := Except.ok.inj (hok.symm.trans hread)
    exact ⟨hv, by rw [hr, h.writablebytes_eq]⟩

/-! ### Taking a request -/

/-- A packet that is not parsed stays where it is. -/
theorem takeRequest_of_error (h : s.ctx.Sound) {e : HttpStop}
    (he : parseHttpRequest s.ctx.conn.mRecvBuffer.readable = .error e) :
    takeRequest.run s = .error e s := by
  simp [takeRequest, EStateM.run_bind, EStateM.run_get, read_size h.recv.toValid, he]

/-- **A packet that is parsed** is taken up to the size of the request. -/
theorem takeRequest_of_parsed (h : s.ctx.Sound) {request : HttpRequest}
    (hp : parseHttpRequest s.ctx.conn.mRecvBuffer.readable = .ok request) :
    ∃ s', takeRequest.run s = .ok { request with
        mRawRequest := s.ctx.conn.mRecvBuffer.readable.take (toSize request.mRequestSize) } s' ∧
      (extract (toSize request.mRequestSize)).run s.ctx =
        .ok (s.ctx.conn.mRecvBuffer.readable.take (toSize request.mRequestSize)) s'.ctx ∧
      s'.handled = s.handled ∧ Called s.ctx s'.ctx [] ∧
      s'.ctx.conn.mRecvBuffer.readable =
        s.ctx.conn.mRecvBuffer.readable.drop (toSize request.mRequestSize) := by
  obtain ⟨ctx, hext, hcalled, -, hr⟩ := extract_called h (toSize request.mRequestSize)
  refine ⟨{ s with ctx }, ?_, hext, rfl, hcalled, hr⟩
  simp [takeRequest, EStateM.run_bind, EStateM.run_get, read_size h.recv.toValid, hp,
    run_onConnection, hext]

/-! ### The message callback -/

variable {mRequestHandle : Option RequestHandle} {onHighWater : List UserCall}

/-- What the callback does with a packet that is not parsed. -/
theorem onMessage_of_error (h : s.ctx.Sound) {e : HttpStop}
    (he : parseHttpRequest s.ctx.conn.mRecvBuffer.readable = .error e) :
    (onMessage mRequestHandle onHighWater).run s = (onError onHighWater e).run s := by
  rw [onMessage, run_tryCatch, EStateM.run_bind, takeRequest_of_error h he]

/-- A program on the connection handles no request. -/
theorem keeps_handled_onConnection (handled : List HttpRequest) (x : ConnM α) :
    Keeps (fun s : HttpCtx => s.handled = handled) (onConnection x) := by
  intro s hs
  rw [run_onConnection]
  cases x.run s.ctx <;> exact hs

theorem keeps_handled_onError (handled : List HttpRequest) (e : HttpStop) :
    Keeps (fun s : HttpCtx => s.handled = handled) (onError onHighWater e) := by
  unfold onError
  split
  · exact .pure ()
  · exact keeps_handled_onConnection _ _
  · exact .throw _

/-- A response handles its request once. -/
theorem respond_handled (onHighWater : List UserCall) (handle : RequestHandle)
    (request : HttpRequest) (s : HttpCtx) :
    (final ((respond (some handle) onHighWater request).run s)).handled =
      s.handled ++ [request] := by
  have hrest : Keeps (fun s' : HttpCtx => s'.handled = s.handled ++ [request]) (do
      let (response, mIsKeepAlive) ← result (handle request)
      sendString response onHighWater
      if ¬ mIsKeepAlive then onConnection (runCall .shutdownConnection) : HttpM Unit) := by
    refine .bind ?_ fun reply => .bind (keeps_handled_onConnection _ _) fun _ =>
      .ite (fun _ => keeps_handled_onConnection _ _) fun _ => .pure ()
    cases handle request with
    | ok reply => exact .pure reply
    | error e => exact .throw e
  have hrun : (respond (some handle) onHighWater request).run s = EStateM.run (do
      let (response, mIsKeepAlive) ← result (handle request)
      sendString response onHighWater
      if ¬ mIsKeepAlive then onConnection (runCall .shutdownConnection) : HttpM Unit)
        { s with handled := s.handled ++ [request] } := by
    simp only [respond, generate, bind_assoc, EStateM.run_bind, EStateM.run_modify]
  rw [hrun]
  exact hrest _ rfl

/-- **A request that is parsed is handled once**, whatever becomes of it. -/
theorem onMessage_handled (onHighWater : List UserCall) (h : s.ctx.Sound) (handle : RequestHandle)
    {request : HttpRequest}
    (hp : parseHttpRequest s.ctx.conn.mRecvBuffer.readable = .ok request) :
    (final ((onMessage (some handle) onHighWater).run s)).handled = s.handled ++ [{ request with
      mRawRequest := s.ctx.conn.mRecvBuffer.readable.take (toSize request.mRequestSize) }] := by
  obtain ⟨s', htake, -, hsame, -⟩ := takeRequest_of_parsed h hp
  have hresp := respond_handled onHighWater handle { request with
    mRawRequest := s.ctx.conn.mRecvBuffer.readable.take (toSize request.mRequestSize) } s'
  rw [hsame] at hresp
  rw [onMessage, run_tryCatch, EStateM.run_bind, htake]
  dsimp only
  cases hrun : EStateM.run (respond (some handle) onHighWater { request with
      mRawRequest := s.ctx.conn.mRecvBuffer.readable.take (toSize request.mRequestSize) }) s' with
  | ok u s'' =>
    rw [hrun] at hresp
    exact hresp
  | error e s'' =>
    rw [hrun] at hresp
    exact keeps_handled_onError _ e s'' hresp

/-! ### The calls of the server -/

theorem runCalls_append {calls calls' : List UserCall} {ctx ctx' : Ctx}
    (h : (runCalls calls).run ctx = .ok () ctx') :
    (runCalls (calls ++ calls')).run ctx = (runCalls calls').run ctx' := by
  induction calls generalizing ctx with
  | nil =>
    rw [runCalls] at h
    cases h
    rfl
  | cons call calls ih =>
    rw [runCalls, EStateM.run_bind] at h
    rw [List.cons_append, runCalls, EStateM.run_bind]
    cases hcall : (runCall call).run ctx with
    | ok u ctx₁ =>
      rw [hcall] at h
      exact ih h
    | error e ctx₁ =>
      rw [hcall] at h
      cases h

/-- The program has left the connection as the calls leave it. A stop of the server may be one of
the connection. -/
def DoneBy (calls : List UserCall) (ctx : Ctx) : EStateM.Result HttpStop HttpCtx α → Prop
  | .ok _ s => (runCalls calls).run ctx = .ok () s.ctx
  | .error (.stop _) s => final ((runCalls calls).run ctx) = s.ctx
  | .error _ s => (runCalls calls).run ctx = .ok () s.ctx

/-- The program does to the connection what some calls of a user do. -/
def MakesCalls (x : HttpM α) : Prop :=
  ∀ s : HttpCtx, s.ctx.Sound → ∃ calls, DoneBy calls s.ctx (x.run s)

section

variable {β : Type} {x : HttpM α}

theorem DoneBy.trans {calls calls' : List UserCall} {ctx ctx' : Ctx}
    {r : EStateM.Result HttpStop HttpCtx β} (h : (runCalls calls).run ctx = .ok () ctx')
    (h' : DoneBy calls' ctx' r) : DoneBy (calls ++ calls') ctx r := by
  unfold DoneBy at *
  split at h' <;> rw [runCalls_append h, h']

/-- Calls that have returned keep the connection sound. -/
theorem sound_of_runCalls {calls : List UserCall} {ctx ctx' : Ctx} (h : ctx.Sound)
    (hrun : (runCalls calls).run ctx = .ok () ctx') : ctx'.Sound := by
  have hout := runCalls_outcome calls h
  rw [hrun] at hout
  obtain ⟨⟨ds, hcalled⟩, -⟩ := hout
  exact hcalled.sound

theorem doneBy_nil_ok (a : α) (s : HttpCtx) : DoneBy [] s.ctx (.ok a s) := by
  rw [DoneBy, runCalls]
  rfl

theorem doneBy_nil_error (e : HttpStop) (s : HttpCtx) :
    DoneBy [] s.ctx (.error e s : EStateM.Result HttpStop HttpCtx α) := by
  unfold DoneBy
  split <;> simp_all [runCalls, final]

theorem MakesCalls.pure (a : α) : MakesCalls (pure a : HttpM α) := fun s _ =>
  ⟨[], doneBy_nil_ok a s⟩

theorem MakesCalls.throw (e : HttpStop) : MakesCalls (throw e : HttpM α) := fun s _ =>
  ⟨[], doneBy_nil_error e s⟩

theorem MakesCalls.bind {y : α → HttpM β} (hx : MakesCalls x) (hy : ∀ a, MakesCalls (y a)) :
    MakesCalls (x >>= y) := by
  intro s hs
  obtain ⟨calls, hcalls⟩ := hx s hs
  rw [EStateM.run_bind]
  cases hrun : x.run s with
  | ok a s' =>
    rw [hrun] at hcalls
    obtain ⟨calls', hcalls'⟩ := hy a s' (sound_of_runCalls hs hcalls)
    exact ⟨calls ++ calls', hcalls'.trans hcalls⟩
  | error e s' =>
    rw [hrun] at hcalls
    refine ⟨calls, ?_⟩
    cases e <;> exact hcalls

/-- The handler goes on after the exceptions of the server, and passes the others on. -/
theorem MakesCalls.tryCatch {handler : HttpStop → HttpM α} (hx : MakesCalls x)
    (hh : ∀ e, MakesCalls (handler e))
    (hstop : ∀ e, handler (.stop e) = MonadExcept.throw (.stop e)) :
    MakesCalls (tryCatch x handler) := by
  intro s hs
  obtain ⟨calls, hcalls⟩ := hx s hs
  rw [run_tryCatch]
  cases hrun : x.run s with
  | ok a s' =>
    rw [hrun] at hcalls
    exact ⟨calls, hcalls⟩
  | error e s' =>
    rw [hrun] at hcalls
    have hgo : (runCalls calls).run s.ctx = .ok () s'.ctx →
        ∃ calls, DoneBy calls s.ctx ((handler e).run s') := by
      intro hok
      obtain ⟨calls', hcalls'⟩ := hh e s' (sound_of_runCalls hs hok)
      exact ⟨calls ++ calls', hcalls'.trans hok⟩
    cases e with
    | requestError msg type => exact hgo hcalls
    | responseError msg type => exact hgo hcalls
    | stop e =>
      dsimp only
      rw [hstop]
      exact ⟨calls, hcalls⟩

theorem makesCalls_result (r : Except HttpStop α) : MakesCalls (result r) := by
  cases r with
  | ok a => exact .pure a
  | error e => exact .throw e

theorem makesCalls_runCall (call : UserCall) : MakesCalls (onConnection (runCall call)) := by
  intro s _
  refine ⟨[call], ?_⟩
  rw [run_onConnection]
  cases hrun : (runCall call).run s.ctx with
  | ok u ctx => simp only [DoneBy, runCalls, EStateM.run_bind, hrun, EStateM.run_pure]
  | error e ctx => simp only [DoneBy, runCalls, EStateM.run_bind, hrun, final]

theorem makesCalls_takeRequest : MakesCalls takeRequest := by
  intro s hs
  cases hp : parseHttpRequest s.ctx.conn.mRecvBuffer.readable with
  | error e =>
    rw [takeRequest_of_error hs hp]
    exact ⟨[], doneBy_nil_error e s⟩
  | ok request =>
    obtain ⟨s', htake, hext, -⟩ := takeRequest_of_parsed hs hp
    rw [htake]
    refine ⟨[.extract (toSize request.mRequestSize)], ?_⟩
    simp only [DoneBy, runCalls, runCall, EStateM.run_bind, hext, EStateM.run_pure]

theorem makesCalls_generate (request : HttpRequest) :
    MakesCalls (generate mRequestHandle request) := by
  unfold generate
  split
  · next handle =>
    refine .bind (fun s _ => ⟨[], ?_⟩) fun _ => makesCalls_result _
    simp only [DoneBy, runCalls, EStateM.run_pure, EStateM.run_modify]
  · exact .throw _

theorem makesCalls_onError (e : HttpStop) : MakesCalls (onError onHighWater e) := by
  unfold onError
  split
  · exact .pure ()
  · exact makesCalls_runCall _
  · exact .throw _

end

/-- **The callback makes the calls of a user**: it is one of those that the results about
connections are about. -/
theorem onMessage_calls : MakesCalls (onMessage mRequestHandle onHighWater) := by
  refine .tryCatch (.bind makesCalls_takeRequest fun request => ?_) makesCalls_onError fun _ => rfl
  refine .bind (makesCalls_generate request) fun reply => .bind (makesCalls_runCall _) fun _ => ?_
  split
  · exact makesCalls_runCall _
  · exact .pure ()

end

end HttpServer

end SimpleTcp
