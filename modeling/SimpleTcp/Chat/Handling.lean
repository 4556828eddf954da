import SimpleTcp.Chat.Moves

/-!
# What the chat server does

The handlers of the chat server are run once and for all here, from a state in which the clients
are the connected connections: each ends after some moves, or stops in one of a few ways. So
`mClients.at` never throws, and no assertion fails but the one of a write callback behind a read
that has closed the connection.

## Main definitions

* `ChatServer.Moves`: a program ends after some moves, or stops as it may
* `ChatEvent.MayStop`: the ways an event can stop the server

## Main results

* `sayTo_spec`: what is said is appended for every client
* `onMessage_waits`, `onMessage_takes`: what a look at the receive buffer does
* `step_moves`: an event is some moves, or stops as it may
-/

namespace SimpleTcp

open TcpConnection

namespace ChatServer

variable {s s' : ChatServer} {conn : Nat}

/-! ### Programs of one connection -/

theorem run_onConn {α : Type} {x : ConnM α} {a : α} {k : Ctx}
    (h : x.run (s.conns conn) = .ok a k) :
    (onConn conn x).run s = .ok a { s with conns := Function.update s.conns conn k } := by
  simp only [onConn, EStateM.run] at h ⊢
  rw [h]

theorem run_onConn_error {α : Type} {x : ConnM α} {e : Stop} {k : Ctx}
    (h : x.run (s.conns conn) = .error e k) :
    (onConn conn x).run s = .error e { s with conns := Function.update s.conns conn k } := by
  simp only [onConn, EStateM.run] at h ⊢
  rw [h]

/-! ### What is said -/

/-- **What is said** is appended once for every client of the walk, and for nobody else. -/
theorem sayTo_spec {name : Bytes} (data : Bytes) (hname : s.mClients.lookup conn = some name)
    (hsound : ∀ d, (s.conns d).Sound) {clients : List Nat} (hnodup : clients.Nodup)
    (hconn : ∀ d ∈ clients, (s.conns d).conn.mState = .connected) :
    (∃ conns, (sayTo conn data clients).run s = .ok () { s with conns := conns } ∧
      ∀ d, Delivered (s.conns d) (conns d)
        (if d ∈ clients then [chatMessage name data] else [])) ∨
      ∃ e s', (sayTo conn data clients).run s = .error e s' ∧ TcpBuffer.GrowStop e := by
  induction clients generalizing s with
  | nil =>
    left
    refine ⟨s.conns, rfl, fun d => ?_⟩
    rw [if_neg List.not_mem_nil]
    exact .refl (hsound d)
  | cons client clients ih =>
    obtain ⟨hnot, hnodup'⟩ := List.nodup_cons.mp hnodup
    have hfirst : (sayTo conn data (client :: clients)).run s = (do
        sendString client (chatMessage name data)
        sayTo conn data clients : ChatM Unit).run s := by
      simp [sayTo, clientName, EStateM.run_bind, EStateM.run_get, hname]
    rw [hfirst, EStateM.run_bind]
    rcases sendInLoop_delivers (hsound client) (hconn client List.mem_cons_self)
      (chatMessage name data) with ⟨k, hk, hdel⟩ | ⟨e, he, hstop, -⟩
    · rw [sendString, run_onConn hk]
      -- the connection that was sent to is not met again
      have hsame : ∀ d, d ≠ client → Function.update s.conns client k d = s.conns d :=
        fun d hd => Function.update_of_ne hd k s.conns
      have hsound' : ∀ d, (Function.update s.conns client k d).Sound := by
        intro d
        by_cases hd : d = client
        · rw [hd, Function.update_self]
          exact hdel.sound
        · rw [hsame d hd]
          exact hsound d
      have hconn' : ∀ d ∈ clients, (Function.update s.conns client k d).conn.mState =
          .connected := by
        intro d hd
        rw [hsame d (ne_of_mem_of_not_mem hd hnot)]
        exact hconn d (List.mem_cons_of_mem _ hd)
      rcases ih (s := { s with conns := Function.update s.conns client k }) hname hsound' hnodup'
        hconn' with ⟨conns, hrun, hall⟩ | hstop
      · left
        refine ⟨conns, hrun, fun d => ?_⟩
        have hd := hall d
        by_cases hdc : d = client
        · subst hdc
          rw [if_neg hnot] at hd
          rw [if_pos List.mem_cons_self]
          change Delivered (Function.update s.conns d k d) _ _ at hd
          rw [Function.update_self] at hd
          exact hdel.trans hd
        · change Delivered (Function.update s.conns client k d) _ _ at hd
          rw [hsame d hdc] at hd
          simpa [hdc] using hd
      · exact .inr hstop
    · right
      rw [sendString, run_onConn_error he]
      exact ⟨e, _, rfl, hstop⟩

/-! ### A look at the receive buffer -/

/-- The request has left the receive buffer. -/
def took (s : ChatServer) (conn : Nat) (b : TcpBuffer) (request : Bytes) : ChatServer := { s with
  conns := Function.update s.conns conn { s.conns conn with conn.mRecvBuffer := b }
  requests := Function.update s.requests conn (s.requests conn ++ [request]) }

/-- **A look that finds no request** leaves everything as it is. -/
theorem onMessage_waits (h : (s.conns conn).Sound)
    (hnone : nextRequest (s.conns conn).conn.mRecvBuffer.readable = none) (order : List Nat) :
    (onMessage conn order).run s = .ok () s := by
  have hsize : (s.conns conn).conn.mRecvBuffer.size =
      (s.conns conn).conn.mRecvBuffer.readable.length := h.recv.length_readable.symm
  have hread := h.recv.read_eq RequestHdr.size
  generalize (s.conns conn).conn.mRecvBuffer.readable = bs at hnone hsize hread
  have hshort : ¬ (RequestHdr.size ≤ bs.length ∧
      (RequestHdr.ofBytes (bs.take RequestHdr.size)).mReqLength.toNat ≤ bs.length) := by
    intro hle
    simp [nextRequest, hle] at hnone
  unfold onMessage
  rw [EStateM.run_bind, EStateM.run_get]
  dsimp only
  rw [hsize, hread]
  by_cases hhdr : RequestHdr.size ≤ bs.length
  · have hlen : RequestHdr.size = (bs.take RequestHdr.size).length := by simp [hhdr]
    have hall : ¬ bs.length ≥ (RequestHdr.ofBytes (bs.take RequestHdr.size)).mReqLength.toNat :=
      fun hle => hshort ⟨hhdr, hle⟩
    rw [if_pos hhdr, assertTrue_pos hlen, EStateM.run_bind, EStateM.run_pure]
    dsimp only
    rw [if_neg hall]
    rfl
  · rw [if_neg hhdr]
    rfl

/-- **A look that finds a request** takes it out of the buffer and handles it. -/
theorem onMessage_takes (h : (s.conns conn).Sound) {request : Bytes}
    (hsome : nextRequest (s.conns conn).conn.mRecvBuffer.readable = some request)
    (order : List Nat) :
    ∃ b, b.HasRoom ∧
      b.readable = (s.conns conn).conn.mRecvBuffer.readable.drop request.length ∧
      (onMessage conn order).run s =
        (handleRequest conn (requestType (s.conns conn).conn.mRecvBuffer.readable) request
          order).run (s.took conn b request) := by
  have hsize : (s.conns conn).conn.mRecvBuffer.size =
      (s.conns conn).conn.mRecvBuffer.readable.length := h.recv.length_readable.symm
  have hread := h.recv.read_eq RequestHdr.size
  obtain ⟨b, hb, -, hbr, hroom⟩ := TcpBuffer.extract_spec h.recv.toValid
    (RequestHdr.ofBytes ((s.conns conn).conn.mRecvBuffer.readable.take
      RequestHdr.size)).mReqLength.toNat
  have hextract : (extract (RequestHdr.ofBytes ((s.conns conn).conn.mRecvBuffer.readable.take
      RequestHdr.size)).mReqLength.toNat).run (s.conns conn) =
        .ok ((s.conns conn).conn.mRecvBuffer.readable.take (RequestHdr.ofBytes
          ((s.conns conn).conn.mRecvBuffer.readable.take RequestHdr.size)).mReqLength.toNat)
          { s.conns conn with conn.mRecvBuffer := b } := by
    simp [extract, EStateM.run_bind, EStateM.run_get, hb]
  unfold requestType
  unfold onMessage
  rw [EStateM.run_bind, EStateM.run_get]
  dsimp only
  rw [hsize, hread]
  generalize (s.conns conn).conn.mRecvBuffer.readable = bs at *
  unfold nextRequest at hsome
  dsimp only at hsome
  split at hsome
  · rename_i hle
    obtain ⟨hhdr, hall⟩ := hle
    obtain rfl := Option.some.inj hsome
    have htake : (bs.take (RequestHdr.ofBytes
        (bs.take RequestHdr.size)).mReqLength.toNat).length =
          (RequestHdr.ofBytes (bs.take RequestHdr.size)).mReqLength.toNat := by
      rw [List.length_take]
      omega
    have hlen : RequestHdr.size = (bs.take RequestHdr.size).length := by simp [hhdr]
    refine ⟨b, hroom h.recv, by rw [hbr, htake], ?_⟩
    rw [if_pos hhdr, assertTrue_pos hlen, EStateM.run_bind, EStateM.run_pure]
    dsimp only
    rw [if_pos hall, EStateM.run_bind, run_onConn hextract]
    dsimp only
    rw [assertTrue_pos htake.symm, EStateM.run_bind, EStateM.run_pure]
    dsimp only
    rw [EStateM.run_bind, EStateM.run_modify]
    rfl
  · cases hsome

/-- The data is there when the request is as long as a header. -/
theorem requestData_eq {request : Bytes} (hmax : request.length ≤ maxSize) :
    requestData request =
      if RequestHdr.size ≤ request.length then .ok (request.drop RequestHdr.size)
      else .error .outOfBounds := by
  unfold requestData
  dsimp only
  by_cases hle : RequestHdr.size ≤ request.length
  · rw [if_pos hle, sizeSub_of_le hle hmax, if_pos (by omega), Vec.slice,
      List.take_of_length_le (by rw [List.length_drop])]
  · have hlt : request.length < RequestHdr.size := Nat.lt_of_not_le hle
    have hsize : RequestHdr.size ≤ maxSize := by decide
    have hpow : maxSize + RequestHdr.size < 2 ^ 64 := by decide
    rw [if_neg hle, sizeSub_of_lt hlt hsize, if_neg (by omega)]

/-! ### Handlers -/

/-- The program ends after some moves, or stops as `E` allows. -/
def Moves (E : Stop → Prop) (s : ChatServer) : EStateM.Result Stop ChatServer Unit → Prop
  | .ok _ s' => Relation.ReflTransGen Move s s'
  | .error e _ => E e

section

variable {E E' : Stop → Prop}

theorem Moves.bind {x y : ChatM Unit} (hx : Moves E s (x.run s))
    (hy : ∀ s', Relation.ReflTransGen Move s s' → Moves E s' (y.run s')) :
    Moves E s ((do x; y).run s) := by
  rw [EStateM.run_bind]
  cases hrun : x.run s with
  | ok u s₁ =>
    rw [hrun] at hx
    have hend := hy s₁ hx
    dsimp only
    cases hrun' : y.run s₁ with
    | ok u' s₂ =>
      rw [hrun'] at hend
      exact Relation.ReflTransGen.trans hx hend
    | error e s₂ =>
      rw [hrun'] at hend
      exact hend
  | error e s₁ =>
    rw [hrun] at hx
    exact hx

theorem Moves.of_moves {r : EStateM.Result Stop ChatServer Unit}
    (h : Relation.ReflTransGen Move s s') (hr : Moves E s' r) : Moves E s r := by
  cases r with
  | ok u t => exact Relation.ReflTransGen.trans h hr
  | error e t => exact hr

theorem Moves.imp {r : EStateM.Result Stop ChatServer Unit} (h : Moves E s r)
    (hE : ∀ e, E e → E' e) : Moves E' s r := by
  cases r with
  | ok u t => exact h
  | error e t => exact hE e h

end

theorem handleClose_moves (conn : Nat) (hopen : (s.conns conn).conn.mState ≠ .disConnected) :
    ∃ s', (handleClose conn).run s = .ok () s' ∧ Move s s' := by
  refine ⟨_, ?_, .closed hopen⟩
  have hclose : (TcpConnection.handleClose []).run (s.conns conn) =
      .ok () (s.conns conn).closing := by
    simp [TcpConnection.handleClose, runCalls, EStateM.run_bind, EStateM.run_get,
      assertTrue_pos ((open_iff _).mpr hopen), Ctx.closing]
  have hst : (s.conns conn).closing.conn.mState ≠ .connected := by simp [Ctx.closing]
  rw [handleClose, EStateM.run_bind, run_onConn hclose]
  simp [onConnection, note, EStateM.run_bind, EStateM.run_get, hst]

theorem Taken.data_eq {piece request : Bytes} {t : ChatServer}
    (h : Taken s conn piece request t) : requestData request =
      if RequestHdr.size ≤ request.length then .ok (request.drop RequestHdr.size)
      else .error .outOfBounds := by
  have hnext := h.next
  unfold nextRequest at hnext
  dsimp only at hnext
  split at hnext
  · obtain rfl := Option.some.inj hnext
    exact requestData_eq ((List.length_take_le' _ _).trans h.le_max)
  · cases hnext

/-- A message that was taken is said to all clients, or the answer stops. -/
theorem message_moves (hs : s.Serving) {piece request : Bytes} {t : ChatServer}
    (h : Taken s conn piece request t)
    (htype : requestType ((s.conns conn).conn.mRecvBuffer.readable ++ piece) = .Message)
    (hmem : conn ∈ s.mClients) {order : List Nat} (horder : order.Perm s.mClients.keys) :
    Moves TcpBuffer.GrowStop s ((handleRequest conn .Message request order).run t) := by
  obtain ⟨name, hname⟩ := Option.isSome_iff_exists.mp (AList.lookup_isSome.mpr hmem)
  have hdata := h.data_eq
  by_cases hle : RequestHdr.size ≤ request.length
  · rw [if_pos hle] at hdata
    have hrun : (handleRequest conn .Message request order).run t =
        (sayTo conn (request.drop RequestHdr.size) order).run { t with
          log := t.log ++ [.message conn (request.drop RequestHdr.size)] } := by
      simp [handleRequest, hdata, note, EStateM.run_bind]
    rw [hrun]
    have hkept := h.kept hs
    rcases sayTo_spec (s := { t with
        log := t.log ++ [.message conn (request.drop RequestHdr.size)] })
      (request.drop RequestHdr.size) (h.mClients ▸ hname) (fun d => (hkept d).sound)
      (horder.nodup_iff.mpr s.mClients.keys_nodup) (fun d hd => by
        rw [(hkept d).mState, ← hs.mem_iff]
        exact horder.mem_iff.mp hd) with ⟨conns, hr, hall⟩ | ⟨e, s', hr, hstop⟩
    · rw [hr]
      have hmove : Move s { t with
          conns := conns
          log := s.log ++ [.message conn (request.drop RequestHdr.size)] } := by
        refine .said h htype hle hname fun d => ?_
        have hd := hall d
        rwa [if_congr (horder.mem_iff.trans AList.mem_keys.symm) rfl rfl] at hd
      rw [← h.log] at hmove
      exact .single hmove
    · rw [hr]
      exact hstop
  · rw [if_neg hle] at hdata
    have hrun : (handleRequest conn .Message request order).run t = .error .outOfBounds t := by
      simp [handleRequest, hdata]
    rw [hrun]
    exact .inr (.inl rfl)

/-- A registration that was taken names the client, or is too short. -/
theorem register_moves {piece request : Bytes} {t : ChatServer}
    (h : Taken s conn piece request t)
    (htype : requestType ((s.conns conn).conn.mRecvBuffer.readable ++ piece) = .Register)
    (hmem : conn ∈ s.mClients) (order : List Nat) :
    Moves TcpBuffer.GrowStop s ((handleRequest conn .Register request order).run t) := by
  obtain ⟨name, hname⟩ := Option.isSome_iff_exists.mp (AList.lookup_isSome.mpr hmem)
  have hdata := h.data_eq
  have hne : ChatRequestType.Register ≠ ChatRequestType.Message := by decide
  by_cases hle : RequestHdr.size ≤ request.length
  · rw [if_pos hle] at hdata
    have hrun : (handleRequest conn .Register request order).run t = .ok () { t with
        mClients := s.mClients.insert conn (cStr (request.drop RequestHdr.size))
        log := s.log ++ [.register conn (request.drop RequestHdr.size)] } := by
      rw [handleRequest, if_neg hne, if_pos rfl, hdata]
      dsimp only
      simp [note, setClientName, EStateM.run_bind, EStateM.run_get, assertTrue_pos hmem, hname,
        h.mClients, h.log]
    rw [hrun]
    exact .single (.registered h htype hle hmem)
  · rw [if_neg hle] at hdata
    have hrun : (handleRequest conn .Register request order).run t = .error .outOfBounds t := by
      simp [handleRequest, hne, hdata]
    rw [hrun]
    exact .inr (.inl rfl)

/-- **A request that was taken** is answered, or the answer stops. -/
theorem handleRequest_moves (hs : s.Serving) {piece request : Bytes} {t : ChatServer}
    (h : Taken s conn piece request t)
    (hmem : conn ∈ s.mClients) {order : List Nat} (horder : order.Perm s.mClients.keys) :
    Moves TcpBuffer.GrowStop s ((handleRequest conn
      (requestType ((s.conns conn).conn.mRecvBuffer.readable ++ piece)) request order).run t) := by
  by_cases hmsg : requestType ((s.conns conn).conn.mRecvBuffer.readable ++ piece) = .Message
  · rw [hmsg]
    exact message_moves hs h hmsg hmem horder
  · by_cases hreg : requestType ((s.conns conn).conn.mRecvBuffer.readable ++ piece) = .Register
    · rw [hreg]
      exact register_moves h hreg hmem order
    · have hrun : (handleRequest conn
          (requestType ((s.conns conn).conn.mRecvBuffer.readable ++ piece)) request order).run t =
            .ok () t := by
        simp [handleRequest, hmsg, hreg]
      rw [hrun]
      refine .single (.ignored h ?_)
      rintro type rfl
      exact ⟨hmsg, hreg⟩

/-- `piece` was stored. -/
def stored (s : ChatServer) (conn : Nat) (piece : Bytes) (b : TcpBuffer) : ChatServer := { s with
  conns := Function.update s.conns conn { s.conns conn with conn.mRecvBuffer := b }
  pieces := Function.update s.pieces conn (s.pieces conn ++ [piece]) }

theorem stored_self (piece : Bytes) (b : TcpBuffer) :
    (s.stored conn piece b).conns conn = { s.conns conn with conn.mRecvBuffer := b } :=
  Function.update_self ..

/-- A read from the socket finds nothing, has no room for a larger vector, or stores a piece. -/
theorem run_readFromSocket (h : (s.conns conn).Sound) (io : ChatIo) :
    (io.readRes.Nothing ∧
      (readFromSocket conn io).run s = .error (.networkException io.soError) s) ∨
    (readFromSocket conn io).run s = .error .lengthError s ∨
    ∃ piece b, b.HasRoom ∧
      b.readable = (s.conns conn).conn.mRecvBuffer.readable ++ piece ∧
      (readFromSocket conn io).run s = .ok () (s.stored conn piece b) := by
  have hsame : { s with conns := Function.update s.conns conn (s.conns conn) } = s := by
    rw [Function.update_eq_self]
  rcases TcpBuffer.readFromSocket_spec h.recv io.readRes io.soError with
    ⟨hn, hr⟩ | ⟨-, hr⟩ | ⟨arrived, b, hres, -, hr, hroom, hreadable⟩
  · refine .inl ⟨hn, ?_⟩
    rw [readFromSocket, EStateM.run_bind, EStateM.run_get]
    dsimp only
    rw [hr, EStateM.run_bind, run_onConn_error (k := s.conns conn)
      (e := .networkException io.soError) (by simp [EStateM.run_bind]), hsame]
  · refine .inr (.inl ?_)
    rw [readFromSocket, EStateM.run_bind, EStateM.run_get]
    dsimp only
    rw [hr, EStateM.run_bind, run_onConn_error (k := s.conns conn) (e := .lengthError)
      (by simp [EStateM.run_bind]), hsame]
  · refine .inr (.inr ⟨(s.conns conn).conn.mRecvBuffer.stored io.readRes, b, hroom, ?_, ?_⟩)
    · rw [hreadable, ← h.recv.writablebytes_eq, hres]
      rfl
    · rw [readFromSocket, EStateM.run_bind, EStateM.run_get]
      dsimp only
      rw [hr, EStateM.run_bind, run_onConn (k := { s.conns conn with conn.mRecvBuffer := b })
        (a := ()) (by simp)]
      rfl

/-- A program of one connection that keeps its state keeps the states of all. -/
theorem keeps_onConn {α : Type} {x : ConnM α} {st : ConnState}
    (hx : Machine.Keeps (fun c : Ctx => c.conn.mState = st) x) (d : Nat) :
    Machine.Keeps (fun s : ChatServer => (s.conns d).conn.mState = st) (onConn conn x) := by
  intro s hs
  by_cases hd : d = conn
  · subst hd
    have hk := hx (s.conns d) hs
    cases hrun : x.run (s.conns d) with
    | ok a k =>
      rw [hrun] at hk
      rw [run_onConn hrun]
      show (Function.update s.conns d k d).conn.mState = st
      rw [Function.update_self]
      exact hk
    | error e k =>
      rw [hrun] at hk
      rw [run_onConn_error hrun]
      show (Function.update s.conns d k d).conn.mState = st
      rw [Function.update_self]
      exact hk
  · cases hrun : x.run (s.conns conn) with
    | ok a k =>
      rw [run_onConn hrun]
      show (Function.update s.conns conn k d).conn.mState = st
      rw [Function.update_of_ne hd]
      exact hs
    | error e k =>
      rw [run_onConn_error hrun]
      show (Function.update s.conns conn k d).conn.mState = st
      rw [Function.update_of_ne hd]
      exact hs

theorem callsKeep_mState (st : ConnState) : CallsKeep fun c => c.conn.mState = st where
  append _ _ _ _ h := h
  channel _ _ _ _ h := h
  extract _ _ _ _ _ h := h
  shutdown _ h := h

section

variable {I : ChatServer → Prop}

open Machine

/-- What each send keeps, and what a change of the log, the names and the requests keeps, a message
callback keeps. -/
theorem keeps_sayTo (hsend : ∀ d message, Keeps I (sendString d message)) (data : Bytes)
    (clients : List Nat) : Keeps I (sayTo conn data clients) := by
  induction clients with
  | nil => exact .pure ()
  | cons client clients ih =>
    refine .bind ?_ fun name => .bind (hsend client _) fun _ => ih
    refine .bind .get fun s => ?_
    cases s.mClients.lookup conn with
    | some name => exact .pure name
    | none => exact .throw _

theorem keeps_handleRequest (hsend : ∀ d message, Keeps I (sendString d message))
    (hlog : ∀ s log, I s → I { s with log := log })
    (hnames : ∀ s mClients, I s → I { s with mClients := mClients }) (type : ChatRequestType)
    (request : Bytes) (order : List Nat) : Keeps I (handleRequest conn type request order) := by
  refine .ite (fun _ => ?_) fun _ => .ite (fun _ => ?_) fun _ => .pure ()
  · cases requestData request with
    | ok data => exact .bind (.modify fun s => hlog s _) fun _ => keeps_sayTo hsend data order
    | error e => exact .throw e
  · cases requestData request with
    | ok data =>
      refine .bind (.modify fun s => hlog s _) fun _ => .bind .get fun s => .bind ?_ fun _ => ?_
      · by_cases hmem : conn ∈ s.mClients
        · rw [assertTrue_pos hmem]
          exact .pure ()
        · rw [assertTrue_neg hmem]
          exact .throw _
      · refine .bind .get fun s => ?_
        cases s.mClients.lookup conn with
        | some name => exact .modify fun s => hnames s _
        | none => exact .throw _
    | error e => exact .throw e

end

/-- An answer leaves every connection in its state. -/
theorem handleRequest_mState (conn d : Nat) (st : ConnState) (type : ChatRequestType)
    (request : Bytes) (order : List Nat) :
    Machine.Keeps (fun s : ChatServer => (s.conns d).conn.mState = st)
      (handleRequest conn type request order) :=
  keeps_handleRequest
    (fun _ message => keeps_onConn ((callsKeep_mState st).sendInLoop message (.pure ())) d)
    (fun _ _ h => h) (fun _ _ h => h) type request order

/-- **The message callback**, after a piece was stored. -/
theorem onMessage_moves (hs : s.Serving) (hmem : conn ∈ s.mClients) {order : List Nat}
    (horder : order.Perm s.mClients.keys) {piece : Bytes} {b : TcpBuffer} (hroom : b.HasRoom)
    (hpiece : b.readable = (s.conns conn).conn.mRecvBuffer.readable ++ piece) :
    Moves TcpBuffer.GrowStop s ((onMessage conn order).run (s.stored conn piece b)) ∧
      ∀ s', (onMessage conn order).run (s.stored conn piece b) = .ok () s' →
        (s'.conns conn).conn.mState = (s.conns conn).conn.mState := by
  have hself : (s.stored conn piece b).conns conn = { s.conns conn with conn.mRecvBuffer := b } :=
    stored_self piece b
  have hsound : ((s.stored conn piece b).conns conn).Sound := by
    rw [hself]
    exact (hs.sound conn).received hroom
  have hmax : ((s.conns conn).conn.mRecvBuffer.readable ++ piece).length ≤ maxSize := by
    have hw := hroom.write_le
    have hm := hroom.le_max
    rw [← hpiece, hroom.length_readable, hroom.readablebytes_eq]
    omega
  cases hnext : nextRequest ((s.conns conn).conn.mRecvBuffer.readable ++ piece) with
  | none =>
    rw [onMessage_waits hsound (by rw [hself]; exact hpiece ▸ hnext)]
    refine ⟨.single (.waited ⟨hnext, b, hroom, hpiece, rfl⟩), fun s' hs' => ?_⟩
    cases hs'
    rw [hself]
  | some request =>
    have hsome : nextRequest ((s.stored conn piece b).conns conn).conn.mRecvBuffer.readable =
        some request := by
      rw [hself]
      exact hpiece ▸ hnext
    obtain ⟨b', hroom', hrest, hrun⟩ := onMessage_takes hsound hsome order
    rw [hself] at hrest hrun
    dsimp only at hrest hrun
    rw [hpiece] at hrest hrun
    rw [hrun]
    refine ⟨handleRequest_moves hs ⟨hnext, hmax, b', hroom', hrest, ?_⟩ hmem horder,
      fun s' hs' => ?_⟩
    · simp only [took, stored, Function.update_idem, Function.update_self]
    · have htook : (((s.stored conn piece b).took conn b' request).conns conn).conn.mState =
          (s.conns conn).conn.mState := by
        simp only [took, stored, Function.update_self]
      have hkept := handleRequest_mState conn conn _
        (requestType ((s.conns conn).conn.mRecvBuffer.readable ++ piece)) request order _ htook
      rw [hs'] at hkept
      exact hkept

/-- `handleRead` from its `try`. -/
theorem run_handleRead (hconn : (s.conns conn).conn.mState = .connected) (io : ChatIo) :
    (handleRead conn io).run s =
      (tryCatch (readFromSocket conn io >>= fun _ => onMessage conn io.order)
        (onReadError conn)).run { s with
          conns := Function.update s.conns conn ((s.conns conn).note [.entered .handleRead]) } := by
  have heffect : (effect (.entered .handleRead)).run (s.conns conn) =
      .ok () ((s.conns conn).note [.entered .handleRead]) := rfl
  have hass : (Function.update s.conns conn ((s.conns conn).note [.entered .handleRead])
        conn).conn.mState = .connected ∨
      (Function.update s.conns conn ((s.conns conn).note [.entered .handleRead])
        conn).conn.mState = .halfClosed := by
    rw [Function.update_self]
    exact .inl hconn
  rw [handleRead, EStateM.run_bind, run_onConn heffect]
  dsimp only
  rw [EStateM.run_bind, EStateM.run_get]
  dsimp only
  rw [assertTrue_pos hass]
  rfl

/-- **Reading** closes the connection, meets an error, or stores a piece and takes a request. -/
theorem handleRead_moves (hs : s.Serving) (hconn : (s.conns conn).conn.mState = .connected)
    {io : ChatIo} (horder : io.order.Perm s.mClients.keys) :
    Moves TcpBuffer.GrowStop s ((handleRead conn io).run s) ∧
      ∀ s', (handleRead conn io).run s = .ok () s' →
        (s'.conns conn).conn.mState = .connected ∨ io.readRes.Nothing ∧ io.soError = 0 := by
  have hentered : Delivered (s.conns conn) ((s.conns conn).note [.entered .handleRead]) [] :=
    .note (hs.sound conn) (by simp [Effect.Quiet])
  let s₁ : ChatServer := { s with
    conns := Function.update s.conns conn ((s.conns conn).note [.entered .handleRead]) }
  have hmove : Move s s₁ := .idle hentered
  have hs₁ : s₁.Serving := hmove.serving hs
  have hself : s₁.conns conn = (s.conns conn).note [.entered .handleRead] :=
    Function.update_self ..
  have hconn₁ : (s₁.conns conn).conn.mState = .connected := by
    rw [hself]
    exact hconn
  rw [run_handleRead hconn io, Machine.run_tryCatch, EStateM.run_bind]
  rcases run_readFromSocket (hs₁.sound conn) io with
    ⟨hn, hr⟩ | hr | ⟨piece, b, hroom, hpiece, hr⟩
  · rw [hr]
    dsimp only [onReadError]
    by_cases herr : io.soError = 0
    · -- no pending error: the peer has closed
      obtain ⟨s₂, hr₂, hmove₂⟩ := handleClose_moves conn (s := s₁) (by simp [hconn₁])
      rw [if_pos herr, hr₂]
      exact ⟨.tail (.single hmove) hmove₂, fun _ _ => .inr ⟨hn, herr⟩⟩
    · rw [if_neg herr, run_onConn run_handleError]
      refine ⟨.tail (.single hmove) (.idle (.note (hs₁.sound conn) (by simp [Effect.Quiet]))),
        fun s' hs' => .inl ?_⟩
      cases hs'
      show (Function.update s₁.conns conn _ conn).conn.mState = _
      rw [Function.update_self]
      exact hconn₁
  · rw [hr]
    exact ⟨.inr (.inr rfl), fun s' hs' => by cases hs'⟩
  · rw [hr]
    dsimp only
    obtain ⟨hmoves, hst⟩ := onMessage_moves hs₁ ((hs₁.mem_iff conn).mpr hconn₁) horder hroom hpiece
    cases hend : (onMessage conn io.order).run (s₁.stored conn piece b) with
    | ok u s₂ =>
      rw [hend] at hmoves
      refine ⟨Relation.ReflTransGen.head hmove hmoves, fun s' hs' => .inl ?_⟩
      cases hs'
      exact (hst _ hend).trans hconn₁
    | error e s₂ =>
      -- what the callback throws is no `NetworkException`, and goes on
      rw [hend] at hmoves
      obtain rfl | rfl | rfl := hmoves
      · exact ⟨.inl rfl, fun s' hs' => by cases hs'⟩
      · exact ⟨.inr (.inl rfl), fun s' hs' => by cases hs'⟩
      · exact ⟨.inr (.inr rfl), fun s' hs' => by cases hs'⟩

theorem handleWrite_moves (hs : s.Serving) (hconn : (s.conns conn).conn.mState = .connected)
    (io : ChatIo) :
    Moves (fun e => e = .networkException io.soError ∧ io.writeRes.Nothing) s
      ((handleWrite conn io).run s) := by
  rcases handleWrite_delivers (hs.sound conn) hconn io.writeRes io.soError with
    ⟨k, hk, hdel⟩ | ⟨k, hk, hn⟩
  · rw [handleWrite, run_onConn hk]
    exact .single (.idle hdel)
  · rw [handleWrite, run_onConn_error hk]
    exact ⟨rfl, hn⟩

/-! ### Events -/

end ChatServer

/-- The ways an event can stop the server: a buffer cannot grow, a request is shorter than its
header, `write(2)` takes nothing, or a connection that the read has closed is written to. -/
def ChatEvent.MayStop : ChatEvent → Stop → Prop
  | .event _ mRevent io, e => TcpBuffer.GrowStop e ∨ Channel.Writes mRevent ∧
      (e = .networkException io.soError ∧ io.writeRes.Nothing ∨
        e = .fatal ∧ io.readRes.Nothing ∧ io.soError = 0)
  | _, _ => False

namespace ChatServer

variable {s s' : ChatServer} {conn : Nat}

theorem handleEvent_moves (hs : s.Serving) (hconn : (s.conns conn).conn.mState = .connected)
    (mRevent : EventMask) {io : ChatIo} (horder : io.order.Perm s.mClients.keys) :
    Moves (ChatEvent.event conn mRevent io).MayStop s ((handleEvent conn mRevent io).run s) := by
  obtain ⟨hread, hst⟩ := handleRead_moves hs hconn horder
  rcases Channel.closes_or_errors_or_ready mRevent with hcl | herr | hready
  · obtain ⟨s', hr, hmove⟩ := handleClose_moves conn (s := s) (by simp [hconn])
    rw [handleEvent, Channel.handleEvent_of_closes _ _ _ _ hcl, hr]
    exact .single hmove
  · rw [handleEvent, Channel.handleEvent_of_errors _ _ _ _ herr, run_onConn run_handleError]
    exact .single (.idle (.note (hs.sound conn) (by simp [Effect.Quiet])))
  · rw [handleEvent, Channel.handleEvent_of_ready _ _ _ _ hready]
    by_cases hw : mRevent.Meets EPOLLOUT
    · by_cases hr : mRevent.Meets (EPOLLIN ||| EPOLLPRI ||| EPOLLRDHUP)
      · rw [if_pos hr, if_pos hw]
        cases hrun : (handleRead conn io).run s with
        | error e s₁ =>
          rw [hrun] at hread
          rw [EStateM.run_bind, hrun]
          exact .inl hread
        | ok u s₁ =>
          rw [hrun] at hread
          rw [EStateM.run_bind, hrun]
          refine .of_moves hread ?_
          have hs₁ := serving_of_moves hs hread
          by_cases hconn₁ : (s₁.conns conn).conn.mState = .connected
          · exact (handleWrite_moves hs₁ hconn₁ io).imp fun e he => .inr ⟨⟨hready, hw⟩, .inl he⟩
          · -- the read has closed the connection
            have hrun' := run_handleWrite_of_not_connected hconn₁ ⟨io.writeRes, io.soError, []⟩
            dsimp only
            rw [handleWrite, run_onConn_error hrun']
            exact .inr ⟨⟨hready, hw⟩, .inr ⟨rfl, (hst s₁ hrun).resolve_left hconn₁⟩⟩
      · rw [if_neg hr, if_pos hw]
        exact (handleWrite_moves hs hconn io).imp fun e he => .inr ⟨⟨hready, hw⟩, .inl he⟩
    · rw [if_neg hw]
      by_cases hr : mRevent.Meets (EPOLLIN ||| EPOLLPRI ||| EPOLLRDHUP)
      · rw [if_pos hr]
        refine Moves.bind (hread.imp fun e he => .inl he) fun s₁ _ => ?_
        exact Relation.ReflTransGen.refl
      · rw [if_neg hr]
        exact Relation.ReflTransGen.refl

theorem establish_moves (conn : Nat) :
    Moves (ChatEvent.establish conn).MayStop s ((step (.establish conn)).run s) := by
  by_cases hnew : s.conns conn = Ctx.created
  · have hrun : (step (.establish conn)).run s = (do
        onConn conn (establishConnect [])
        onConnection conn : ChatM Unit).run s := by
      simp [step, EStateM.run_bind, EStateM.run_get, hnew]
    have hestablish : (establishConnect []).run (s.conns conn) = .ok () Ctx.start := by
      have hch : Ctx.created.conn.mpChannel = some Channel.create := rfl
      rw [hnew, run_establishConnect hch, runCalls]
      rfl
    have hst : Ctx.start.conn.mState = .connected := rfl
    rw [hrun, EStateM.run_bind, run_onConn hestablish]
    have hend : (onConnection conn).run
        { s with conns := Function.update s.conns conn Ctx.start } = .ok () { s with
          conns := Function.update s.conns conn Ctx.start
          mClients := if conn ∈ s.mClients then s.mClients else s.mClients.insert conn []
          log := s.log ++ [.established conn] } := by
      simp [onConnection, note, EStateM.run_bind, EStateM.run_get, hst]
    dsimp only
    rw [hend]
    exact .single (.established hnew)
  · have hrun : (step (.establish conn)).run s = .ok () s := by
      simp [step, EStateM.run_bind, EStateM.run_get, hnew]
    rw [hrun]
    exact Relation.ReflTransGen.refl

theorem event_moves (hs : s.Serving) (conn : Nat) (mRevent : EventMask) (io : ChatIo) :
    Moves (ChatEvent.event conn mRevent io).MayStop s ((step (.event conn mRevent io)).run s) := by
  by_cases hon : (s.conns conn).conn.mState ≠ .disConnected ∧ io.order.Perm s.mClients.keys
  · have hrun : (step (.event conn mRevent io)).run s = (handleEvent conn mRevent io).run s := by
      simp [step, EStateM.run_bind, EStateM.run_get, hon]
    have hconn : (s.conns conn).conn.mState = .connected := by
      cases hst : (s.conns conn).conn.mState with
      | connected => rfl
      | halfClosed => exact absurd hst (hs.not_half conn)
      | disConnected => exact absurd hst hon.1
    rw [hrun]
    exact handleEvent_moves hs hconn mRevent hon.2
  · have hrun : (step (.event conn mRevent io)).run s = .ok () s := by
      simp [step, EStateM.run_bind, EStateM.run_get, hon]
    rw [hrun]
    exact Relation.ReflTransGen.refl

theorem close_moves (hs : s.Serving) (conn : Nat) :
    Moves (ChatEvent.close conn).MayStop s ((step (.close conn)).run s) := by
  by_cases hclose : .close ∈ (s.conns conn).mPendingTasks
  · have hst := hs.closing conn hclose
    have hdestroy : (do
        modify fun c : Ctx => { c with mPendingTasks := c.mPendingTasks.erase .close }
        destroyConnection : ConnM Unit).run (s.conns conn) =
          .ok () (Ctx.destroyed { s.conns conn with
            mPendingTasks := (s.conns conn).mPendingTasks.erase .close }) := by
      rw [EStateM.run_bind, EStateM.run_modify]
      exact run_destroyConnection hst
    have hrun : (step (.close conn)).run s = (onConn conn do
        modify fun c : Ctx => { c with mPendingTasks := c.mPendingTasks.erase .close }
        destroyConnection).run s := by
      simp [step, EStateM.run_bind, EStateM.run_get, hclose]
    rw [hrun, run_onConn hdestroy]
    refine .single (.idle ?_)
    have hunqueued := Delivered.unqueued (hs.sound conn) .close
    exact hunqueued.trans (.destroyed hunqueued.sound hst)
  · have hrun : (step (.close conn)).run s = .ok () s := by
      simp [step, EStateM.run_bind, EStateM.run_get, hclose]
    rw [hrun]
    exact Relation.ReflTransGen.refl

/-- **An event** of the chat server is some moves, or stops as it may. -/
theorem step_moves (hs : s.Serving) (i : ChatEvent) : Moves i.MayStop s ((step i).run s) := by
  cases i with
  | establish conn => exact establish_moves conn
  | event conn mRevent io => exact event_moves hs conn mRevent io
  | close conn => exact close_moves hs conn

end ChatServer

end SimpleTcp
