import SimpleTcp.Http.Markers
import SimpleTcp.Http.Server

/-!
# Requests that arrive in segments

TCP may deliver a request in any segments, and the message callback runs after each of them. A
prefix without the blank line is refused as a bad request, and a prefix of a `GET` with it is parsed
as the request; only the prefixes of another request that have the blank line are waited for.

## Main definitions

* `HeadArrived`: the request line and the headers have arrived, up to the blank line
* `Waits`: the callback waits for more after a prefix
* `Delivery`: a request that arrives in segments
* `HandledOnce`: the request is handled once, after the last segment

## Main results

* `parse_prefix_cases`: what the parser makes of a prefix
* `receive_cases`: what the callback makes of a segment that is not the last
* `handledOnce_iff`: when the request is handled once
-/

namespace SimpleTcp

open Search Machine TcpConnection HttpServer

/-! ### Prefixes of a request -/

/-- The request line, and the headers up to the blank line. -/
def HeadArrived (p : Bytes) : Prop :=
  ∃ line blank, find CRLF p = some line ∧ findFrom BLANK_LINE p (line + 2) = some blank

/-- The first line. -/
def firstLine (r : Bytes) : Bytes := r.take ((find CRLF r).getD 0)

section

variable {r p : Bytes} {request : HttpRequest} {line blank : Nat}

theorem Parsed.mType_eq (hp : Parsed r request line blank) :
    request.mType = lineType (firstLine r) := by
  rw [hp.mType, firstLine, hp.line_found]
  rfl

theorem headArrived_iff (hp : Parsed r request line blank) (hpre : p <+: r) :
    HeadArrived p ↔ blank + 4 ≤ p.length := by
  constructor
  · rintro ⟨line', blank', hline, hblank⟩
    obtain rfl := Option.some.inj (((find_prefix_iff hpre (by decide)).mp hline).1.symm.trans
      hp.line_found)
    obtain ⟨hfound, hle⟩ := (findFrom_prefix_iff hpre (by decide)).mp hblank
    obtain rfl := Option.some.inj (hfound.symm.trans hp.blank_found)
    exact hle
  · intro hle
    have hpos := (findFrom_eq_some_iff.mp hp.blank_found).1
    have hcrlf : line + CRLF.length ≤ p.length := by
      simp only [CRLF, List.length_cons, List.length_nil]
      omega
    have hline := (find_prefix_iff hpre (by decide)).mpr ⟨hp.line_found, hcrlf⟩
    have hblank := (findFrom_prefix_iff hpre (by decide)).mpr ⟨hp.blank_found, hle⟩
    exact ⟨line, blank, hline, hblank⟩

/-- A prefix without the blank line is refused. -/
theorem parse_of_not_headArrived (hlen : r.length ≤ maxSize) (hp : Parsed r request line blank)
    (hpre : p <+: r) (hhead : ¬ HeadArrived p) :
    ∃ msg, parseHttpRequest p = .error (.requestError msg .BadRequest) := by
  have hplen : p.length ≤ maxSize := hpre.length_le.trans hlen
  unfold parseHttpRequest
  cases hline : find CRLF p with
  | none =>
    obtain ⟨msg, hrun⟩ := parseRequestLine_of_none hline
    exact ⟨msg, by rw [hrun]; rfl⟩
  | some line' =>
    obtain ⟨hline', hle⟩ := (find_prefix_iff hpre (by decide)).mp hline
    obtain rfl := Option.some.inj (hline'.symm.trans hp.line_found)
    -- the line is the one of the whole request, so it is accepted and its markers are in order
    have htake : p.take line' = r.take line' := by
      obtain ⟨t, rfl⟩ := hpre
      rw [List.take_append_of_le_length (by omega)]
    obtain ⟨horder, -⟩ := hp.inOrder line' hp.line_found hp.accepted
    have hnone : findFrom BLANK_LINE p (line' + 2) = none := by
      cases hblank : findFrom BLANK_LINE p (line' + 2) with
      | none => rfl
      | some blank' => exact absurd ⟨line', blank', hline, hblank⟩ hhead
    rcases parseRequestLine_cases hplen hline with
      ⟨hacc, -⟩ | ⟨-, -, request₁, hrun, -⟩ | ⟨-, hno, -⟩
    · rw [htake] at hacc
      exact absurd hp.accepted hacc
    · obtain ⟨msg, hrun'⟩ := parseHeaderBlock_of_none request₁ hnone
      refine ⟨msg, ?_⟩
      rw [hrun, ok_bind]
      dsimp only
      rw [hrun', error_bind]
    · rw [htake] at hno
      exact absurd horder hno

/-- A proper prefix with the blank line is parsed if the request is a `GET`, and waited for
otherwise. -/
theorem parse_of_headArrived (hlen : r.length ≤ maxSize) (hp : Parsed r request line blank)
    (hpre : p <+: r) (hne : p.length < r.length) (hhead : HeadArrived p) :
    (request.mType = .GET ∧ ∃ request', parseHttpRequest p = .ok request') ∨
    (request.mType ≠ .GET ∧
      ∃ msg, parseHttpRequest p = .error (.requestError msg .PartialPacket)) := by
  have hle := (headArrived_iff hp hpre).mp hhead
  obtain ⟨line', blank', hline, hblank⟩ := hhead
  obtain rfl := Option.some.inj (((find_prefix_iff hpre (by decide)).mp hline).1.symm.trans
    hp.line_found)
  obtain rfl := Option.some.inj (((findFrom_prefix_iff hpre (by decide)).mp hblank).1.symm.trans
    hp.blank_found)
  have hpos := (findFrom_eq_some_iff.mp hp.blank_found).1
  -- The head of the prefix is the head of the whole request, so it is parsed in the same way.
  have htake : p.take line' = r.take line' := by
    obtain ⟨t, rfl⟩ := hpre
    rw [List.take_append_of_le_length (by omega)]
  have hblock : headerBlock p line' blank' = headerBlock r line' blank' := by
    obtain ⟨t, rfl⟩ := hpre
    rw [headerBlock, headerBlock, Vec.slice, Vec.slice, List.drop_append_of_le_length (by omega),
      List.take_append_of_le_length (by rw [List.length_drop]; omega)]
  have hin : InOrder p := by
    intro line₁ hline₁ hacc
    obtain rfl := Option.some.inj (hline.symm.trans hline₁)
    rw [htake] at hacc ⊢
    obtain ⟨horder, hbound⟩ := hp.inOrder line' hp.line_found hacc
    refine ⟨horder, fun blank₁ hblank₁ => ?_⟩
    obtain rfl := Option.some.inj (hblank.symm.trans hblank₁)
    rw [hblock]
    exact hbound blank' hp.blank_found
  have hcont := hp.content
  have hlength := hp.length
  rw [hp.mType] at hcont hlength
  rw [hp.mType]
  rcases parsed_or_partial (hpre.length_le.trans hlen) hin hline (htake ▸ hp.accepted) hblank
    (by rw [htake, hblock]; exact hcont) with ⟨⟨hpost, -⟩, hrun⟩ | ⟨hfull, hrun⟩
  · rw [htake] at hpost
    exact .inr ⟨hpost, hrun⟩
  · -- a body that is announced is longer than what has arrived of it
    refine .inl ⟨?_, hrun⟩
    by_contra hpost
    rw [htake, hblock] at hfull
    refine hfull ⟨hpost, ?_⟩
    rw [← hlength hpost]
    omega

end

/-! ### A segment -/

/-- The callback waits for more after the prefix `p`: once the blank line is there, the request is
no `GET`; before, the refusal is not sent, since the connection is not connected. -/
def Waits (r : Bytes) (mState : ConnState) (p : Bytes) : Prop :=
  (HeadArrived p → lineType (firstLine r) ≠ .GET) ∧ (¬ HeadArrived p → mState ≠ .connected)

section

variable {s : HttpCtx} {a : Arrival}

/-- The state in which the callback starts. -/
def HttpCtx.arrived (s : HttpCtx) (a : Arrival) : HttpCtx :=
  { s with ctx.conn.mRecvBuffer := a.mRecvBuffer }

theorem run_receive (mRequestHandle : Option RequestHandle) (a : Arrival) (s : HttpCtx) :
    (receive mRequestHandle a).run s =
      (onMessage mRequestHandle a.onHighWater).run (s.arrived a) := by
  rw [receive, EStateM.run_bind]
  rfl

theorem sound_arrived (h : Received s a) (hs : s.ctx.Sound) : (s.arrived a).ctx.Sound :=
  ⟨hs.send, h.hasRoom, hs.channel⟩

/-- A send on a connected connection is seen. -/
theorem trace_ne_of_send {ctx ctx' : Ctx} {message : Bytes} {onHighWater : List UserCall}
    (h : ctx.Sound) (hconn : ctx.conn.mState = .connected) (hne : message ≠ [])
    (hrun : (runCall (.send message onHighWater)).run ctx = .ok () ctx') :
    ctx'.trace ≠ ctx.trace := by
  intro htrace
  have hout := runCall_outcome (.send message onHighWater) h
  rw [hrun] at hout
  obtain ⟨⟨ds, hcalled⟩, hsends⟩ := hout
  have hsend := hsends hconn
  -- nothing was appended to the trace, so nothing was appended to the send buffer
  have hds : ds = [] := by
    have happ := hcalled.trace
    rw [htrace, List.self_eq_append_right] at happ
    exact List.map_eq_nil_iff.mp happ
  have hsame := hcalled.readable
  rw [hds, List.flatten_nil, List.append_nil] at hsame
  simp only [sendCall] at hsend
  cases happend : ctx.conn.mSendBuffer.appendToBuffer message with
  | error e =>
    rw [happend] at hsend
    cases hsend
  | ok b =>
    obtain ⟨hv, hr⟩ := TcpBuffer.appendToBuffer_eq_ok h.send happend
    rw [happend, ok_bind] at hsend
    have hpre : b.readable <+: ctx'.conn.mSendBuffer.readable := by
      split at hsend
      · exact (sendCalls_extends onHighWater hv hsend).2
      · cases hsend
        exact List.prefix_rfl
    have hlen := hpre.length_le
    have hpos := List.length_pos_iff.mpr hne
    rw [hr, hsame, List.length_append] at hlen
    omega

/-- **A segment that is not the last**: the callback waits for more and changes nothing, or it does
not wait, and then it stops, handles a request or sends. -/
theorem receive_cases (handle : RequestHandle) {r : Bytes} {request : HttpRequest}
    {line blank : Nat} (hlen : r.length ≤ maxSize) (hp : Parsed r request line blank)
    (hs : s.ctx.Sound) (ha : Received s a)
    (hpre : s.ctx.conn.mRecvBuffer.readable ++ a.segment <+: r)
    (hne : (s.ctx.conn.mRecvBuffer.readable ++ a.segment).length < r.length) :
    (Waits r s.ctx.conn.mState (s.ctx.conn.mRecvBuffer.readable ++ a.segment) ∧
      (receive (some handle) a).run s = .ok () (s.arrived a)) ∨
    (¬ Waits r s.ctx.conn.mState (s.ctx.conn.mRecvBuffer.readable ++ a.segment) ∧
      ∀ s', (receive (some handle) a).run s = .ok () s' →
        ¬ (s'.handled = s.handled ∧ s'.ctx.trace = s.ctx.trace)) := by
  have hs' := sound_arrived ha hs
  have hread : (s.arrived a).ctx.conn.mRecvBuffer.readable =
      s.ctx.conn.mRecvBuffer.readable ++ a.segment := ha.readable
  rw [← hread] at hpre hne ⊢
  by_cases hhead : HeadArrived (s.arrived a).ctx.conn.mRecvBuffer.readable
  · rcases parse_of_headArrived hlen hp hpre hne hhead with
      ⟨hget, request', hparse⟩ | ⟨hpost, msg, hparse⟩
    · -- a `GET` is handled as soon as its blank line is there
      refine .inr ⟨fun hwaits => hwaits.1 hhead (hp.mType_eq ▸ hget), fun s' hrun hsame => ?_⟩
      have hhandled := onMessage_handled a.onHighWater hs' handle hparse
      rw [← run_receive, hrun] at hhandled
      have hlength := congrArg List.length (hsame.1.symm.trans hhandled)
      simp [HttpCtx.arrived] at hlength
    · refine .inl ⟨⟨fun _ => hp.mType_eq ▸ hpost, fun hno => absurd hhead hno⟩, ?_⟩
      rw [run_receive, onMessage_of_error hs' hparse]
      rfl
  · -- the start of a request is answered as a bad request
    obtain ⟨msg, hparse⟩ := parse_of_not_headArrived hlen hp hpre hhead
    have hrun : (receive (some handle) a).run s =
        (sendString HTTP_BAD_REQUEST_RESPONSE a.onHighWater).run (s.arrived a) := by
      rw [run_receive, onMessage_of_error hs' hparse]
      rfl
    rw [hrun, sendString, run_onConnection]
    by_cases hconn : s.ctx.conn.mState = .connected
    · refine .inr ⟨fun hwaits => hwaits.2 hhead hconn, fun s' hok hsame => ?_⟩
      cases hsend : (runCall (.send HTTP_BAD_REQUEST_RESPONSE a.onHighWater)).run
          (s.arrived a).ctx with
      | ok u ctx =>
        rw [hsend] at hok
        cases hok
        exact trace_ne_of_send hs' hconn (by decide +kernel) hsend hsame.2
      | error e ctx =>
        rw [hsend] at hok
        cases hok
    · refine .inl ⟨⟨fun hyes => absurd hyes hhead, fun _ => hconn⟩, ?_⟩
      have hconn' : (s.arrived a).ctx.conn.mState ≠ .connected := hconn
      simp [runCall, sendInLoop, EStateM.run_bind, EStateM.run_get, hconn']

end

/-! ### A request in segments -/

/-- The bytes of some segments. -/
def bytes (as : List Arrival) : Bytes := (as.map Arrival.segment).flatten

theorem bytes_cons (a : Arrival) (as : List Arrival) : bytes (a :: as) = a.segment ++ bytes as :=
  rfl

/-- The request `r` arrives in segments, in an empty receive buffer. -/
structure Delivery (r : Bytes) (handle : RequestHandle) (s : HttpCtx) (as : List Arrival) :
    Prop where
  sound : s.ctx.Sound
  empty : s.ctx.conn.mRecvBuffer.readable = []
  nonempty : ∀ a ∈ as, a.segment ≠ []
  cut : bytes as = r
  received : Along (receive (some handle)) Received s as

/-- Before the last segment the callback returns, no request is handled and nothing is sent. -/
def QuietBefore (handle : RequestHandle) (s : HttpCtx) (as : List Arrival) : Prop :=
  ∀ pre, pre <+: as → pre ≠ as → ∃ s', (exec (receive (some handle)) pre).run s = .ok () s' ∧
    s'.handled = s.handled ∧ s'.ctx.trace = s.ctx.trace

/-- The request is handled once, after the last segment, as the whole of `r`. -/
def HandledOnce (r : Bytes) (request : HttpRequest) (handle : RequestHandle) (s : HttpCtx)
    (as : List Arrival) : Prop :=
  QuietBefore handle s as ∧ (final ((exec (receive (some handle)) as).run s)).handled =
    s.handled ++ [{ request with mRawRequest := r }]

/-- The callback waits after every segment but the last. -/
def WaitsBefore (r : Bytes) (mState : ConnState) (received : Bytes) (as : List Arrival) : Prop :=
  ∀ pre, pre <+: as → pre ≠ [] → pre ≠ as → Waits r mState (received ++ bytes pre)

section

variable {r : Bytes} {handle : RequestHandle} {s : HttpCtx} {a b : Arrival} {as : List Arrival}

theorem eq_nil_of_prefix_singleton (hpre : as <+: [a]) (hne : as ≠ [a]) : as = [] := by
  cases as with
  | nil => rfl
  | cons c as =>
    obtain ⟨rfl, htail⟩ := List.cons_prefix_cons.mp hpre
    rw [List.prefix_nil.mp htail] at hne
    exact absurd rfl hne

/-- A request in one piece leaves nothing to wait for. -/
theorem waitsBefore_singleton {mState : ConnState} {received : Bytes} :
    WaitsBefore r mState received [a] :=
  fun _ hpre hnil hne => absurd (eq_nil_of_prefix_singleton hpre hne) hnil

theorem waitsBefore_cons {mState : ConnState} {received : Bytes} :
    WaitsBefore r mState received (a :: b :: as) ↔
      Waits r mState (received ++ a.segment) ∧
        WaitsBefore r mState (received ++ a.segment) (b :: as) := by
  constructor
  · intro h
    refine ⟨?_, fun pre hpre hne hne' => ?_⟩
    · have hfirst := h [a] (List.cons_prefix_cons.mpr ⟨rfl, List.nil_prefix⟩) (by simp) (by simp)
      simpa [bytes] using hfirst
    · have hrest := h (a :: pre) (List.cons_prefix_cons.mpr ⟨rfl, hpre⟩) (by simp)
        (by simpa using hne')
      rwa [bytes_cons, ← List.append_assoc] at hrest
  · rintro ⟨hfirst, hrest⟩ pre hpre hne hne'
    cases pre with
    | nil => exact absurd rfl hne
    | cons c pre =>
      obtain ⟨rfl, htail⟩ := List.cons_prefix_cons.mp hpre
      cases pre with
      | nil => simpa [bytes] using hfirst
      | cons d pre =>
        rw [bytes_cons, ← List.append_assoc]
        exact hrest (d :: pre) htail (by simp) (by simpa using hne')

/-- A segment that changes nothing but the receive buffer. -/
theorem quietBefore_cons (hrun : (receive (some handle) a).run s = .ok () (s.arrived a)) :
    QuietBefore handle s (a :: as) ↔ QuietBefore handle (s.arrived a) as := by
  constructor
  · intro h pre hpre hne
    obtain ⟨s', hs', hh, ht⟩ :=
      h (a :: pre) (List.cons_prefix_cons.mpr ⟨rfl, hpre⟩) (by simpa using hne)
    rw [exec_cons_ok hrun] at hs'
    exact ⟨s', hs', hh, ht⟩
  · intro h pre hpre hne
    cases pre with
    | nil => exact ⟨s, rfl, rfl, rfl⟩
    | cons c pre =>
      obtain ⟨rfl, htail⟩ := List.cons_prefix_cons.mp hpre
      rw [exec_cons_ok hrun]
      exact h pre htail (by simpa using hne)

/-- The segments that are left, after those that were waited for. The induction is on them. -/
theorem handledOnce_iff_waitsBefore {request : HttpRequest} {line blank : Nat}
    (hlen : r.length ≤ maxSize) (hparse : parseHttpRequest r = .ok request)
    (hp : Parsed r request line blank) (hs : s.ctx.Sound) (hne : as ≠ [])
    (hseg : ∀ a ∈ as, a.segment ≠ [])
    (hcut : s.ctx.conn.mRecvBuffer.readable ++ bytes as = r)
    (hrecv : Along (receive (some handle)) Received s as) :
    HandledOnce r request handle s as ↔
      WaitsBefore r s.ctx.conn.mState s.ctx.conn.mRecvBuffer.readable as := by
  induction as generalizing s with
  | nil => exact absurd rfl hne
  | cons a as ih =>
    have ha := hrecv.1
    have hread : (s.arrived a).ctx.conn.mRecvBuffer.readable =
      s.ctx.conn.mRecvBuffer.readable ++ a.segment := ha.readable
    cases as with
    | nil =>
      -- the last segment completes the request
      have hwhole : (s.arrived a).ctx.conn.mRecvBuffer.readable = r := by
        rw [hread, ← hcut, bytes_cons]
        simp [bytes]
      refine iff_of_true ⟨fun pre hpre hne => ?_, ?_⟩ waitsBefore_singleton
      · rw [eq_nil_of_prefix_singleton hpre hne]
        exact ⟨s, rfl, rfl, rfl⟩
      · have hhandled := onMessage_handled a.onHighWater (sound_arrived ha hs) handle
          (hwhole.symm ▸ hparse)
        have hsize : toSize request.mRequestSize = r.length := by
          rw [hp.mRequestSize, toSize]
          unfold maxSize at hlen
          omega
        rw [hwhole, hsize, List.take_length] at hhandled
        rw [exec_singleton, run_receive]
        exact hhandled
    | cons b as =>
      -- a segment is still to come, so what has arrived is a proper prefix
      have hpre : s.ctx.conn.mRecvBuffer.readable ++ a.segment <+: r :=
        ⟨bytes (b :: as), by rw [← hcut, bytes_cons a, List.append_assoc]⟩
      have hshort : (s.ctx.conn.mRecvBuffer.readable ++ a.segment).length < r.length := by
        have hb := List.length_pos_iff.mpr (hseg b (by simp))
        rw [← hcut, bytes_cons a, bytes_cons b]
        simp only [List.length_append]
        omega
      rw [waitsBefore_cons]
      rcases receive_cases handle hlen hp hs ha hpre hshort with
        ⟨hwaits, hrun⟩ | ⟨hno, hloud⟩
      · have hrest := ih (sound_arrived ha hs) (by simp) (fun c hc => hseg c (by simp [hc]))
          (by rw [hread, ← hcut, bytes_cons a, List.append_assoc]) (hrecv.2 _ hrun)
        rw [hread] at hrest
        rw [HandledOnce, quietBefore_cons hrun, exec_cons_ok hrun]
        exact hrest.trans ⟨fun h => ⟨hwaits, h⟩, fun h => h.2⟩
      · refine iff_of_false (fun h => ?_) fun h => hno h.1
        obtain ⟨s', hs', hsame⟩ := h.1 [a] (List.cons_prefix_cons.mpr ⟨rfl, List.nil_prefix⟩)
          (by simp)
        rw [exec_singleton] at hs'
        exact hloud s' hs' hsame

end

/-- **Segments**: a request is handled once, after the last segment, when the callback waits after
every other: the request is no `GET` once its blank line is there, and the connection is not
connected before. -/
theorem handledOnce_iff (r : ByteString) (request : HttpRequest)
    (hparse : parseHttpRequest r.1 = .ok request) (handle : RequestHandle) (s : HttpCtx)
    (as : List Arrival) (hd : Delivery r.1 handle s as) :
    HandledOnce r.1 request handle s as ↔ WaitsBefore r.1 s.ctx.conn.mState [] as := by
  obtain ⟨line, blank, hp⟩ := parsed_of_ok r.2 hparse
  have hne : as ≠ [] := by
    rintro rfl
    have hfound := hp.line_found
    rw [← hd.cut] at hfound
    cases hfound
  have hcut : s.ctx.conn.mRecvBuffer.readable ++ bytes as = r.1 := by
    rw [hd.empty, List.nil_append, hd.cut]
  have hiff := handledOnce_iff_waitsBefore r.2 hparse hp hd.sound hne hd.nonempty hcut hd.received
  rwa [hd.empty] at hiff

/-- A request for the root. -/
def rootRequest : Bytes := ascii "GET / HTTP/1.1\r\nHost: a\r\n\r\n"

/-- A handle that answers nothing and keeps the connection. -/
def quietHandle : RequestHandle := fun _ => .ok ([], true)

/-- A segment behind what has arrived before. -/
def arrival (before segment : Bytes) : Arrival where
  segment
  mRecvBuffer := (holding (before ++ segment)).ctx.conn.mRecvBuffer
  onHighWater := []

theorem received_arrival {s : HttpCtx} {before segment : Bytes}
    (h : (before ++ segment).length < 1024)
    (hr : s.ctx.conn.mRecvBuffer.readable = before) : Received s (arrival before segment) where
  hasRoom := (holding_spec h).1.recv
  readable := by
    rw [hr]
    exact (holding_spec h).2

/-- A request in two segments, of which the first stays in the receive buffer. -/
theorem delivery_cut {r : Bytes} {n : Nat} (hlen : r.length < 1024) (hpos : 0 < n)
    (hn : n < r.length)
    (hbuffer : (final ((receive (some quietHandle) (arrival [] (r.take n))).run
      (holding []))).ctx.conn.mRecvBuffer = (holding (r.take n)).ctx.conn.mRecvBuffer) :
    Delivery r quietHandle (holding [])
      [arrival [] (r.take n), arrival (r.take n) (r.drop n)] where
  sound := (holding_spec (by decide)).1
  empty := (holding_spec (by decide)).2
  nonempty := by
    intro a ha
    rcases List.mem_pair.mp ha with rfl | rfl <;> refine List.ne_nil_of_length_pos ?_ <;>
      simp only [arrival, List.length_take, List.length_drop] <;> omega
  cut := by simp [bytes, arrival]
  received := by
    have htake : (r.take n).length < 1024 := by rw [List.length_take]; omega
    refine ⟨received_arrival htake (holding_spec (by decide)).2,
      fun s' hs' => ⟨received_arrival (by rwa [List.take_append_drop]) ?_, fun _ _ => trivial⟩⟩
    rw [hs'] at hbuffer
    exact (congrArg TcpBuffer.readable hbuffer).trans (holding_spec htake).2

/-- A body of three bytes is announced. -/
def postRequest : Bytes :=
  ascii "POST / HTTP/1.1\r\nContent-Type: text/plain\r\nContent-Length: 3\r\n\r\nabc"

/-- The first segment reaches through the blank line and the first byte of the body. -/
theorem handledOnce_iff_whole : ∃ request, parseHttpRequest postRequest = .ok request ∧
    HandledOnce postRequest request quietHandle (holding [])
      [arrival [] (postRequest.take 65), arrival (postRequest.take 65) (postRequest.drop 65)] := by
  have hok : (parseHttpRequest postRequest).isOk := by decide +kernel
  have hd := delivery_cut (r := postRequest) (n := 65) (by decide +kernel) (by decide)
    (by decide +kernel) (by decide +kernel)
  have hhead : HeadArrived (postRequest.take 65) :=
    ⟨15, 60, by decide +kernel, by decide +kernel⟩
  cases hparse : parseHttpRequest postRequest with
  | error e =>
    rw [hparse] at hok
    cases hok
  | ok request =>
    refine ⟨request, rfl, (handledOnce_iff ⟨postRequest, by decide +kernel⟩ request hparse
      quietHandle (holding []) _ hd).mpr ?_⟩
    exact waitsBefore_cons.mpr ⟨⟨fun _ => by decide +kernel, fun hno => absurd hhead hno⟩,
      waitsBefore_singleton⟩

/-- The first bytes of a request are answered as a bad request. -/
theorem not_handledOnce_cut : ¬ ∀ (r : ByteString) (request : HttpRequest),
    parseHttpRequest r.1 = .ok request → ∀ (handle : RequestHandle) (s : HttpCtx)
      (as : List Arrival), Delivery r.1 handle s as → HandledOnce r.1 request handle s as := by
  intro h
  have hok : (parseHttpRequest rootRequest).isOk := by decide +kernel
  have hlen : rootRequest.length ≤ maxSize := by decide +kernel
  cases hparse : parseHttpRequest rootRequest with
  | error e =>
    rw [hparse] at hok
    cases hok
  | ok request =>
    -- the first three bytes are answered, and stay in the buffer
    have hd := delivery_cut (r := rootRequest) (n := 3) (by decide +kernel) (by decide)
      (by decide +kernel) (by decide +kernel)
    -- an answer is in the trace
    have htrace : (final ((receive (some quietHandle) (arrival [] (rootRequest.take 3))).run
        (holding []))).ctx.trace ≠ (holding []).ctx.trace := by decide +kernel
    -- but nothing may be answered before the packet is complete
    obtain ⟨hquiet, -⟩ := h ⟨rootRequest, hlen⟩ request hparse quietHandle (holding []) _ hd
    obtain ⟨s', hs', -, hsame⟩ := hquiet [arrival [] (rootRequest.take 3)]
      (List.cons_prefix_cons.mpr ⟨rfl, List.nil_prefix⟩) (by simp)
    rw [exec_singleton] at hs'
    rw [hs'] at htrace
    exact htrace hsame

end SimpleTcp
