import SimpleTcp.Http.ContentLength
import SimpleTcp.Http.ContentRange
import SimpleTcp.Http.KeepAlive
import SimpleTcp.Http.Sections
import SimpleTcp.Http.VideoServ
import SimpleTcp.Tcp.Delivery

/-!
# Downloading a video

A client that asks for the video from where the last part ended gets the video, part by part,
whatever the other clients of the server do in the meantime.

## Main definitions

* `askText`: a request for the video from a position on
* `Downloads`: what happens on the connection of such a client
* `partFrom`: the part of the video that is sent

## Main results

* `parse_askText`: how the server reads the request
* `served_ask`: what it sends
* `VideoServer.downloads_return`: a download whose answers fit in the send buffer is not stopped
* `VideoServer.download`: the parts that a client gets are the video
-/

namespace SimpleTcp

open Machine Search VideoServ HttpResponse

/-! ### The request -/

/-- `bytes=pos-`. -/
def rangeFrom (pos : Nat) : Bytes := ascii "bytes=" ++ (decimal pos ++ [45])

def askLine : Bytes := ascii "GET /video.mp4 HTTP/1.1"

/-- A request for the video from a position on. -/
def askText (pos : Nat) : Bytes :=
  packet askLine [headerLine (ascii "Range", rangeFrom pos)] []

/-- What the request line says. -/
def askStart : HttpRequest :=
  { HttpRequest.create with mType := .GET, mVersion := .HTTP1_1, mUrl := ascii "video.mp4" }

section

variable {pos : Nat}

theorem mem_rangeFrom {c : UInt8} (h : c ∈ rangeFrom pos) :
    c ∈ ascii "bytes=" ∨ isDigit c ∨ c = 45 := by
  rcases List.mem_append.mp h with h | h
  · exact .inl h
  · rcases List.mem_append.mp h with h | h
    · exact .inr (.inl (isDigit_decimal pos c h))
    · exact .inr (.inr (List.mem_singleton.mp h))

theorem not_mem_rangeFrom {c : UInt8} (hname : c ∉ ascii "bytes=") (hdigit : isDigit c = false)
    (hminus : c ≠ 45) : c ∉ rangeFrom pos := by
  intro hmem
  rcases mem_rangeFrom hmem with h | h | h
  · exact hname h
  · rw [hdigit] at h
    cases h
  · exact hminus h

theorem trim_rangeFrom : trim (rangeFrom pos) = rangeFrom pos := by
  apply trim_of_ends
  · show some (98 : UInt8) ≠ some 32
    decide
  · have hlast : (rangeFrom pos).getLast? = some 45 := by
      rw [rangeFrom, ← List.append_assoc, List.getLast?_append]
      rfl
    rw [hlast]
    decide

theorem not_isInfix_ask : ¬ CRLF <:+: headerLine (ascii "Range", rangeFrom pos) := by
  rw [isInfix_headerLine_iff, not_or]
  constructor
  · show ¬ CRLF <:+: ascii "Range"
    decide
  · exact not_isInfix_of_not_mem (not_mem_rangeFrom (by decide) (by decide) (by decide))

/-- The range is the only header. -/
theorem headerFields_ask :
    (headerFields (block [headerLine (ascii "Range", rangeFrom pos)])).lookup (ascii "Range") =
      some (rangeFrom pos) := by
  have hcolon : (58 : UInt8) ∉ (ascii "Range", rangeFrom pos).1 := by
    show (58 : UInt8) ∉ ascii "Range"
    decide
  rw [(isHeaderMap_linesOf _).lookup, linesOf_block (by simpa using not_isInfix_ask)]
  simp only [List.filterMap_cons, List.filterMap_nil, field_headerLine hcolon, trim_rangeFrom]
  exact List.lookup_cons_self

/-- **The request** is read as one for the video, from the position on. -/
theorem parse_askText (hpos : pos < 2 ^ 63) (hlen : (askText pos).length ≤ maxSize) :
    ∃ request, parseHttpRequest (askText pos) = .ok request ∧
      request.mUrl = ascii "video.mp4" ∧ request.mRanges = [((pos : Int), (-1 : Int))] ∧
      toSize request.mRequestSize = (askText pos).length := by
  let lines := [headerLine (ascii "Range", rangeFrom pos)]
  let spec : RangeSpec := .opened (.ofNat pos hpos)
  have hlength : (askText pos).length = askLine.length + (block lines).length + 4 + 0 :=
    length_packet askLine [] lines
  have hblock : (block lines).length ≤ maxSize := by omega
  have htext : rangeText [(0, spec)] = rangeFrom pos := by
    rw [rangeText, List.map_singleton, List.intercalate_singleton]
    rfl
  obtain ⟨request, hheaders, hranges⟩ : ∃ request,
      parseHeaders (block lines) askStart = .ok (some request) ∧
        request.mRanges = askStart.mRanges ++ (kept [(0, spec)]).map fun spec => spec.2.read :=
    mRanges_eq hblock rfl rfl (fun hget => absurd rfl hget) (List.cons_ne_nil (0, spec) [])
      (htext ▸ headerFields_ask)
  have haccepted : Accepted askLine lines askStart request :=
    ⟨by decide +kernel, rfl, hheaders⟩
  have hline : ∀ line ∈ lines, ¬ CRLF <:+: line ∧ line ≠ [] := by
    intro line hmem
    obtain rfl := List.mem_singleton.mp hmem
    exact ⟨not_isInfix_ask, by simp [headerLine, ascii]⟩
  have hlocated := (located_iff hlen hline haccepted).mpr ⟨List.cons_ne_nil _ _, by decide⟩
  refine ⟨_, hlocated.parsed, ?_, ?_, ?_⟩
  · obtain ⟨rs, -, hfields⟩ := parseHeaders_ok hblock rfl hheaders
    show request.mUrl = _
    rw [hfields]
    rfl
  · show request.mRanges = _
    rw [hranges, kept_singleton]
    show [((digitsValue (decimal pos) : Int), (-1 : Int))] = _
    rw [digitsValue_decimal]
  · apply toSize_natCast
    show (askText pos).length < 2 ^ 63
    unfold maxSize at hlen
    omega

end

/-! ### The answer -/

/-- The part of the video that is sent. -/
def partFrom (video : Bytes) (pos : Nat) : Bytes := (video.drop pos).take chunkSize

/-- The position behind the part. -/
def behind (video : Bytes) (pos : Nat) : Nat := min (pos + chunkSize) video.length

/-- A date is a line. -/
def PlainDate (date_str : Option Bytes) : Prop := ∀ d, date_str = some d → ¬ CRLF <:+: d

/-- A date is a line, and the map of the properties is read in some order. -/
structure VideoIo.Plain (io : VideoIo) : Prop where
  date : PlainDate io.date_str
  iterate : ∀ m, (io.iterate m).Perm m

section

variable {video : Bytes} {pos : Nat} {io : VideoIo}

theorem selectRange_opened (video : Bytes) (pos : Nat) :
    selectRange video.length chunkSize (pos, -1) =
      ⟨pos, behind video pos, video.length⟩ := by
  unfold selectRange behind
  simp only [RangeType.mk.injEq, true_and, and_true]
  split <;> split <;> split <;> omega

theorem slice_partFrom (video : Bytes) (pos : Nat) :
    Vec.slice video (pos : Int).toNat ((behind video pos : Int) - pos).toNat =
      partFrom video pos := by
  have hn : ((behind video pos : Int) - pos).toNat = min chunkSize (video.length - pos) := by
    unfold behind
    omega
  rw [hn, Int.toNat_natCast, Vec.slice, partFrom, ← List.length_drop, ← List.take_eq_take_min]

theorem length_partFrom (hpos : pos < video.length) :
    (partFrom video pos).length = behind video pos - pos := by
  rw [partFrom, List.length_take, List.length_drop, behind]
  omega

/-- The response that has the part. -/
def partResponse (video : Bytes) (io : VideoIo) (pos : Nat) (response : HttpResponse) :
    HttpResponse :=
  updateResponse (greeting io.date_str response) ⟨pos, behind video pos, video.length⟩
    (partFrom video pos)

theorem mStatus_partResponse (video : Bytes) (io : VideoIo) (pos : Nat) (response : HttpResponse) :
    (partResponse video io pos response).mStatus = .PARTIAL_CONTENT ∨
      (partResponse video io pos response).mStatus = .OK := ite_eq_or_eq _ _ _

theorem mVersion_partResponse (video : Bytes) (io : VideoIo) (pos : Nat)
    (response : HttpResponse) : (partResponse video io pos response).mVersion = .HTTP1_1 := by
  unfold partResponse greeting HttpResponse.setDate
  cases io.date_str <;> rfl

theorem answer_ask (env : VideoEnv) (hpos : pos < video.length) {request : HttpRequest}
    (hurl : request.mUrl = ascii "video.mp4")
    (hranges : request.mRanges = [((pos : Int), (-1 : Int))]) (response : HttpResponse) :
    answer env video io request response = .ok (partResponse video io pos response) := by
  have hne : ascii "video.mp4" ≠ [] := by decide
  have hbeyond : ¬ (pos : Int) ≥ video.length := by omega
  have hlt : ¬ (behind video pos : Int) < pos := by
    unfold behind
    omega
  unfold answer
  rw [hurl, hranges]
  simp only [if_neg hne, if_true, answerRange, if_neg hbeyond, selectRange_opened,
    if_neg hlt, slice_partFrom]
  rfl

end

/-- The text of a response that is generated. -/
def HttpResponse.text (r : HttpResponse) (iterate : Headers → Headers) : Bytes :=
  r.statusLine ++ CRLF ++ (iterate r.generated).flatMap (headerLine · ++ CRLF) ++ CRLF ++ r.mBody

/-! ### A response that is greeted -/

/-- The response of a handle that has greeted, and has set a body of the right length. -/
structure Greeted (date_str : Option Bytes) (r : HttpResponse) : Prop where
  headers : r.mHeaders = (greeting date_str HttpResponse.create).mHeaders
  version : r.mVersion = .HTTP1_1
  status : r.mStatus = .PARTIAL_CONTENT ∨ r.mStatus = .OK
  length : r.mContentLength = r.mBody.length
  keepAlive : r.mIsKeepAlive = true

theorem mHeaders_greeting (date_str : Option Bytes) :
    (greeting date_str HttpResponse.create).mHeaders =
      match date_str with
      | some date_str => [(cStr (ascii "Date"), cStr date_str)]
      | none => [] := by
  unfold greeting HttpResponse.setDate
  cases date_str <;> rfl

section

variable {date_str : Option Bytes} {r : HttpResponse}

theorem Greeted.keyed (h : Greeted date_str r) : Keyed r.mHeaders := by
  rw [h.headers, mHeaders_greeting]
  cases date_str with
  | none => exact List.nodup_nil
  | some date_str => exact List.nodup_singleton _

/-- The response is well formed. -/
theorem Greeted.renders (h : Greeted date_str r) (hdate : PlainDate date_str) : Renders r where
  version := .inr h.version
  status := by
    rcases h.status with hs | hs <;> rw [hs] <;> exact ⟨by decide, by decide⟩
  length := h.length
  lines := by
    intro header hmem _
    rw [h.headers, mHeaders_greeting] at hmem
    cases hd : date_str with
    | none =>
      rw [hd] at hmem
      cases hmem
    | some date_str =>
      rw [hd] at hmem
      obtain rfl := List.mem_singleton.mp hmem
      refine ⟨?_, ?_, ?_⟩
      · show ¬ CRLF <:+: cStr (ascii "Date")
        decide
      · intro hin
        exact hdate date_str hd (hin.trans (List.takeWhile_prefix _).isInfix)
      · have hcolon : (58 : UInt8) ∉ cStr (ascii "Date") := by decide
        unfold IsContentLength
        rw [fieldName_headerLine hcolon]
        decide

/-- **A response that is greeted** is sent with its body, and keeps the connection. -/
theorem Greeted.generated (h : Greeted date_str r) (hdate : PlainDate date_str)
    (hpasses : r.PassesRangeCheck) {iterate : Headers → Headers}
    (hiterate : ∀ m, (iterate m).Perm m) :
    ∃ text r' lines, r.generateResponse iterate = .ok (text, r') ∧ r'.mIsKeepAlive = true ∧
      readHead text = some (lines, r.mBody) ∧ text = r.text iterate := by
  have hvalid : ¬ r.Invalid := by
    rintro (hversion | hstatus | ⟨-, hlength⟩)
    · rw [h.version] at hversion
      cases hversion
    · rcases h.status with hs | hs <;>
        · rw [hs] at hstatus
          cases hstatus
    · rw [h.length] at hlength
      omega
  obtain ⟨text, r', hgenerate⟩ : ∃ text r', r.generateResponse iterate = .ok (text, r') :=
    generateResponse_ok_iff.mpr ⟨hvalid, hpasses⟩
  obtain ⟨hversion, hstatus, -, htext⟩ := generateResponse_of_ok hgenerate
  obtain ⟨status, lines, hread, -⟩ :=
    wellFormed_of_renders h.keyed hiterate hversion hstatus (h.renders hdate)
  have hkeep : r'.mIsKeepAlive = true := by
    obtain ⟨u, -, hrun⟩ := ok_of_bind hgenerate
    obtain ⟨r₁, hset, hok⟩ := ok_of_bind hrun
    cases hok
    rw [setConnection_of_ok hset]
    exact h.keepAlive
  exact ⟨text, r', status :: lines, hgenerate, hkeep, htext ▸ hread, htext⟩

end

/-! ### The part that is sent -/

section

variable {video : Bytes} {pos : Nat} {io : VideoIo}

theorem greeted_partResponse (hpos : pos < video.length) (encodings : List EncodingType) :
    Greeted io.date_str
      (partResponse video io pos (HttpResponse.create.setAcceptEncodings encodings)) where
  headers := by
    unfold partResponse greeting HttpResponse.setDate
    cases io.date_str <;> rfl
  version := mVersion_partResponse _ _ _ _
  status := mStatus_partResponse _ _ _ _
  length := by
    show (behind video pos : Int) - pos = ((partFrom video pos).length : Nat)
    rw [length_partFrom hpos]
    unfold behind
    omega
  keepAlive := by
    unfold partResponse greeting
    rfl

/-- The text of the answer with the part. -/
def partText (video : Bytes) (io : VideoIo) (pos : Nat) : Bytes :=
  (partResponse video io pos HttpResponse.create).text io.iterate

/-- The video is not compressed, whatever the client accepts. -/
theorem text_partResponse (encodings : List EncodingType) :
    (partResponse video io pos (HttpResponse.create.setAcceptEncodings encodings)).text io.iterate =
      partText video io pos := by
  unfold partText partResponse greeting HttpResponse.setDate
  cases io.date_str <;> rfl

theorem readHead_partText (hplain : io.Plain) (hpos : pos < video.length) :
    ∃ lines, readHead (partText video io pos) = some (lines, partFrom video pos) := by
  obtain ⟨text, r', lines, -, -, hread, htext⟩ := (greeted_partResponse hpos []).generated
    hplain.date (passesRangeCheck_iff.mpr (.inr rfl)) hplain.iterate
  obtain rfl : text = partText video io pos := htext.trans (text_partResponse [])
  exact ⟨lines, hread⟩

/-- **The server sends the part**, and keeps the connection. -/
theorem served_ask (env : VideoEnv) (hplain : io.Plain) (hpos : pos < video.length)
    {request : HttpRequest} (hurl : request.mUrl = ascii "video.mp4")
    (hranges : request.mRanges = [((pos : Int), (-1 : Int))]) :
    VideoServer.served env video io request = .ok (partText video io pos, true) := by
  have hgreeted : Greeted io.date_str (partResponse video io pos
      (HttpResponse.create.setAcceptEncodings request.mAcceptEncodings)) :=
    greeted_partResponse hpos request.mAcceptEncodings
  obtain ⟨text, r', -, hgenerate, hkeep, -, htext⟩ :=
    hgreeted.generated hplain.date (passesRangeCheck_iff.mpr (.inr rfl)) hplain.iterate
  obtain rfl : text = partText video io pos := htext.trans (text_partResponse _)
  unfold VideoServer.served
  rw [answer_ask env hpos hurl hranges, ok_bind, hgenerate, ok_bind]
  show Except.ok (partText video io pos, r'.mIsKeepAlive) = _
  rw [hkeep]

end

/-! ### The download -/

/-- What happens on the connection of a client that downloads a video of the size: the client asks
for what follows the last part, as long as there is something, and the loop writes what is sent. -/
inductive Downloads (video : Bytes) : Nat → List VideoEvent → Prop
  | nil (pos : Nat) : Downloads video pos []
  | ask {pos : Nat} {conn : Nat} {mRecvBuffer : TcpBuffer} {io : VideoIo}
      {events : List VideoEvent} (hpos : pos < video.length) (hroom : mRecvBuffer.HasRoom)
      (hreadable : mRecvBuffer.readable = askText pos) (hplain : io.Plain)
      (h : Downloads video (behind video pos) events) :
      Downloads video pos (.arrive conn (askText pos) mRecvBuffer io :: events)
  | write {pos : Nat} {conn : Nat} {res : WriteResult} {soError : Errno}
      {events : List VideoEvent} (h : Downloads video pos events) :
      Downloads video pos (.invoke conn (.handleWrite ⟨res, soError, []⟩) :: events)

/-- The requests of a client. -/
def askCount : List VideoEvent → Nat
  | [] => 0
  | .arrive .. :: events => askCount events + 1
  | .invoke .. :: events => askCount events

/-- The connection can take the next request. -/
structure HttpCtx.Idle (s : HttpCtx) : Prop where
  sound : s.ctx.Sound
  connected : s.ctx.conn.mState = .connected

/-- The send buffer after a send. -/
theorem appendToBuffer_of_send {c k : Ctx} {data : Bytes} (h : c.Sound)
    (hconn : c.conn.mState = .connected)
    (hrun : (TcpConnection.sendInLoop data (pure ())).run c = .ok () k) :
    c.conn.mSendBuffer.appendToBuffer data = .ok k.conn.mSendBuffer := by
  have hout := runCall_outcome (.send data []) h
  simp only [TcpConnection.runCall, TcpConnection.runCalls] at hout
  rw [hrun] at hout
  have hsend := hout.2 hconn
  simp only [sendCall, sendCalls] at hsend
  obtain ⟨b, hb, hrest⟩ := ok_of_bind hsend
  rw [hb]
  split at hrest <;> exact hrest

/-- A request whose answer keeps the connection: the answer is sent, if there is room for it in the
send buffer, and otherwise the server stops. -/
theorem onMessage_answers {s : HttpCtx} {handle : RequestHandle} {request : HttpRequest}
    {text : Bytes} (hidle : HttpCtx.Idle s)
    (hparse : parseHttpRequest s.ctx.conn.mRecvBuffer.readable = .ok request)
    (hhandle : ∀ mRawRequest, handle { request with mRawRequest } = .ok (text, true)) :
    (∃ s', (HttpServer.onMessage (some handle) []).run s = .ok () s' ∧ HttpCtx.Idle s' ∧
        s'.ctx.sent = s.ctx.sent ++ [text] ∧
        s.ctx.conn.mSendBuffer.appendToBuffer text = .ok s'.ctx.conn.mSendBuffer) ∨
      ¬ s.ctx.conn.mSendBuffer.CanAppend text ∧
        ∃ e s', (HttpServer.onMessage (some handle) []).run s = .error e s' := by
  obtain ⟨s₁, htake, hext, -, hcalled, -⟩ := HttpServer.takeRequest_of_parsed hidle.sound hparse
  have hconn : s₁.ctx.conn.mState = .connected := hcalled.mState.trans hidle.connected
  have hsent : s₁.ctx.sent = s.ctx.sent := by
    rw [Ctx.sent, hcalled.trace, List.map_nil, List.append_nil]
    rfl
  have hbuffer : s₁.ctx.conn.mSendBuffer = s.ctx.conn.mSendBuffer := by
    obtain ⟨ctx, hext', -, hbuffer, -⟩ :=
      extract_called hidle.sound (toSize request.mRequestSize)
    obtain ⟨-, rfl⟩ := EStateM.Result.ok.inj (hext.symm.trans hext')
    exact hbuffer
  rw [HttpServer.onMessage, run_tryCatch, EStateM.run_bind, htake]
  simp only [HttpServer.respond, HttpServer.generate, EStateM.run_bind, EStateM.run_modify, hhandle,
    HttpServer.result_ok, EStateM.run_pure, HttpServer.sendString, HttpServer.run_onConnection,
    TcpConnection.runCall, TcpConnection.runCalls]
  rcases sendInLoop_delivers hcalled.sound hconn text with ⟨k, hsend, hk⟩ | ⟨e, hsend, -, hfull⟩
  · left
    simp only [hsend, not_true_eq_false, if_false, EStateM.run_pure]
    refine ⟨_, rfl, ⟨hk.sound, hk.mState.trans hconn⟩, ?_, ?_⟩
    · rw [← hsent]
      exact hk.sent
    · rw [← hbuffer]
      exact appendToBuffer_of_send hcalled.sound hconn hsend
  · right
    simp only [hsend]
    exact ⟨hbuffer ▸ hfull, _, _, rfl⟩

/-- Without calls, the end of a write leaves the send buffer. -/
theorem writeComplete_mSendBuffer {c k : Ctx} (h : c.Sound) (hconn : c.conn.mState = .connected)
    (hrun : (writeComplete []).run c = .ok () k) :
    k.conn.mSendBuffer = c.conn.mSendBuffer := by
  rcases writeComplete_cases h hconn [] with ⟨ds, s₁, -, hsent, hr⟩ | ⟨e, s₁, -, -, -, hr⟩
  · rw [hr] at hrun
    cases hrun
    simp only [sendCalls] at hsent
    rw [Ctx.writeOff_mSendBuffer, ← Except.ok.inj hsent]
  · rw [hr] at hrun
    cases hrun

/-- Writing takes no room of the send buffer away. -/
theorem handleWrite_room {c k : Ctx} (h : c.Sound) (hconn : c.conn.mState = .connected)
    {res : WriteResult} {soError : Errno}
    (hrun : (TcpConnection.handleWrite ⟨res, soError, []⟩).run c = .ok () k) :
    c.conn.mSendBuffer.writablebytes ≤ k.conn.mSendBuffer.writablebytes := by
  have hentered := h.note [.entered .handleWrite]
  rcases handleWrite_cases h hconn ⟨res, soError, []⟩ with ⟨-, hr⟩ | ⟨-, -, hr⟩ |
    ⟨room, b, -, -, -, -, -, -, hw, hr⟩ | ⟨room, b, -, -, -, hv, -, -, hw, hr⟩
  · rw [hr] at hrun
    exact (congrArg TcpBuffer.writablebytes
      (writeComplete_mSendBuffer hentered hconn hrun)).symm.le
  · rw [hr] at hrun
    cases hrun
  · rw [hr] at hrun
    cases hrun
    exact TcpBuffer.writeToSocket_room h.send hw
  · rw [hr] at hrun
    rw [writeComplete_mSendBuffer (hentered.wrote _ hv) hconn hrun]
    exact TcpBuffer.writeToSocket_room h.send hw

namespace VideoServer

section

variable {env : VideoEnv} {video : Bytes} {s s' : HttpCtx} {pos conn : Nat}

/-- A request is answered with the part, if there is room for the answer. -/
theorem receive_answers (env : VideoEnv) (conn : Nat) (hidle : HttpCtx.Idle s)
    (hsize : video.length < 2 ^ 63) (hpos : pos < video.length) {mRecvBuffer : TcpBuffer}
    (hroom : mRecvBuffer.HasRoom)
    (hreadable : mRecvBuffer.readable = askText pos) {io : VideoIo} (hplain : io.Plain) :
    (∃ s', (alone env video (.arrive conn (askText pos) mRecvBuffer io)).run s = .ok () s' ∧
        HttpCtx.Idle s' ∧ s'.ctx.sent = s.ctx.sent ++ [partText video io pos] ∧
        s.ctx.conn.mSendBuffer.appendToBuffer (partText video io pos) =
          .ok s'.ctx.conn.mSendBuffer) ∨
      ¬ s.ctx.conn.mSendBuffer.CanAppend (partText video io pos) ∧ ∃ e s',
        (alone env video (.arrive conn (askText pos) mRecvBuffer io)).run s = .error e s' := by
  have hlen : (askText pos).length ≤ maxSize := by
    rw [← hreadable, hroom.length_readable, hroom.readablebytes_eq]
    have := hroom.write_le
    have := hroom.le_max
    omega
  obtain ⟨request, hparse, hurl, hranges, -⟩ := parse_askText (by omega) hlen
  let s₁ : HttpCtx := { s with ctx := { s.ctx with conn.mRecvBuffer := mRecvBuffer } }
  have hidle₁ : HttpCtx.Idle s₁ := ⟨hidle.sound.received hroom, hidle.connected⟩
  have hparse₁ : parseHttpRequest s₁.ctx.conn.mRecvBuffer.readable = .ok request := by
    show parseHttpRequest mRecvBuffer.readable = _
    rw [hreadable]
    exact hparse
  -- the answer is the same, whatever bytes the request was read from
  have hhandle : ∀ mRawRequest, served env video io { request with mRawRequest } =
      .ok (partText video io pos, true) :=
    fun mRawRequest => served_ask env hplain hpos hurl hranges
  exact onMessage_answers hidle₁ hparse₁ hhandle

theorem receive_ask (hidle : HttpCtx.Idle s) (hsize : video.length < 2 ^ 63)
    (hpos : pos < video.length) {mRecvBuffer : TcpBuffer} (hroom : mRecvBuffer.HasRoom)
    (hreadable : mRecvBuffer.readable = askText pos) {io : VideoIo} (hplain : io.Plain)
    (hrun : (alone env video (.arrive conn (askText pos) mRecvBuffer io)).run s = .ok () s') :
    HttpCtx.Idle s' ∧ ∃ text lines, readHead text = some (lines, partFrom video pos) ∧
      s'.ctx.sent = s.ctx.sent ++ [text] := by
  obtain ⟨lines, hread⟩ := readHead_partText hplain hpos
  rcases receive_answers env conn hidle hsize hpos hroom hreadable hplain with
    ⟨s₁, hok, hidle₁, hsent, -⟩ | ⟨-, e, s₁, herr⟩
  · obtain ⟨-, rfl⟩ := EStateM.Result.ok.inj (hrun.symm.trans hok)
    exact ⟨hidle₁, _, lines, hread, hsent⟩
  · cases hrun.symm.trans herr

/-- The loop writes. -/
theorem write_alone (hidle : HttpCtx.Idle s) {res : WriteResult} {soError : Errno}
    (hrun : (alone env video (.invoke conn (.handleWrite ⟨res, soError, []⟩))).run s =
      .ok () s') : HttpCtx.Idle s' ∧ s'.ctx.sent = s.ctx.sent := by
  have hstep : (alone env video (.invoke conn (.handleWrite ⟨res, soError, []⟩))).run s =
      (HttpServer.onConnection (TcpConnection.handleWrite ⟨res, soError, []⟩)).run s := rfl
  rw [hstep, HttpServer.run_onConnection] at hrun
  rcases handleWrite_delivers hidle.sound hidle.connected res soError with
    ⟨k, hwrite, hk⟩ | ⟨k, hwrite, -⟩
  · rw [hwrite] at hrun
    obtain ⟨-, rfl⟩ := EStateM.Result.ok.inj hrun
    refine ⟨⟨hk.sound, hk.mState.trans hidle.connected⟩, ?_⟩
    have hsent := hk.sent
    rw [List.append_nil] at hsent
    exact hsent
  · rw [hwrite] at hrun
    cases hrun

/-- The position of a client that has asked `n` times. -/
theorem take_behind (video : Bytes) (pos n : Nat) :
    partFrom video pos ++ (video.drop (behind video pos)).take (n * chunkSize) =
      (video.drop pos).take ((n + 1) * chunkSize) := by
  have hbehind : video.drop (behind video pos) = (video.drop pos).drop chunkSize := by
    rw [List.drop_drop, behind]
    rcases Nat.le_total (pos + chunkSize) video.length with hle | hle
    · rw [Nat.min_eq_left hle]
    · rw [Nat.min_eq_right hle, List.drop_of_length_le (le_refl _), List.drop_of_length_le hle]
  rw [hbehind, partFrom, Nat.succ_mul, Nat.add_comm (n * chunkSize), List.take_add]

/-- A run of the connection alone. -/
theorem downloads_alone {events : List VideoEvent} (h : Downloads video pos events)
    (hsize : video.length < 2 ^ 63) (hidle : HttpCtx.Idle s)
    (hrun : (exec (alone env video) events).run s = .ok () s') :
    ∃ texts bodies : List Bytes, s'.ctx.sent = s.ctx.sent ++ texts ∧
      List.Forall₂ (fun text body => ∃ lines, readHead text = some (lines, body)) texts bodies ∧
      bodies.flatten = (video.drop pos).take (askCount events * chunkSize) := by
  induction h generalizing s with
  | nil pos =>
    obtain rfl : s = s' := by simpa using hrun
    refine ⟨[], [], (List.append_nil _).symm, .nil, ?_⟩
    show [] = (video.drop pos).take (0 * chunkSize)
    rw [Nat.zero_mul, List.take_zero]
  | @ask pos conn mRecvBuffer io events hpos hroom hreadable hplain hrest ih =>
    obtain ⟨s₁, hstep, hrun⟩ := exec_cons_eq_ok hrun
    obtain ⟨hidle₁, text, lines, hread, hsent⟩ :=
      receive_ask hidle hsize hpos hroom hreadable hplain hstep
    obtain ⟨texts, bodies, hsents, hbodies, hflat⟩ := ih hidle₁ hrun
    refine ⟨text :: texts, partFrom video pos :: bodies, ?_, .cons ⟨lines, hread⟩ hbodies, ?_⟩
    · rw [hsents, hsent, List.append_assoc, List.singleton_append]
    · rw [List.flatten_cons, hflat]
      exact take_behind video pos _
  | @write pos conn res soError events hrest ih =>
    obtain ⟨s₁, hstep, hrun⟩ := exec_cons_eq_ok hrun
    obtain ⟨hidle₁, hsent⟩ := write_alone hidle hstep
    obtain ⟨texts, bodies, hsents, hbodies, hflat⟩ := ih hidle₁ hrun
    exact ⟨texts, bodies, by rw [hsents, hsent], hbodies, hflat⟩

/-! ### Downloads that are not stopped -/

/-- A write takes something. -/
def Takes : VideoEvent → Prop
  | .invoke _ (.handleWrite io) => ¬ io.res.Nothing
  | _ => True

/-- The bytes of the answers to a client at a position. -/
def answerLength (video : Bytes) : Nat → List VideoEvent → Nat
  | _, [] => 0
  | pos, .arrive _ _ _ io :: events =>
    (partText video io pos).length + answerLength video (behind video pos) events
  | pos, .invoke _ _ :: events => answerLength video pos events

/-- **A download whose answers fit in the send buffer** is not stopped. -/
theorem downloads_return {events : List VideoEvent} (h : Downloads video pos events)
    (hsize : video.length < 2 ^ 63) (hidle : HttpCtx.Idle s) (htakes : ∀ e ∈ events, Takes e)
    (hroom : answerLength video pos events ≤ s.ctx.conn.mSendBuffer.writablebytes) :
    ∃ s', (exec (alone env video) events).run s = .ok () s' := by
  induction h generalizing s with
  | nil pos => exact ⟨s, rfl⟩
  | @ask pos conn mRecvBuffer io events hpos hread hreadable hplain hrest ih =>
    simp only [answerLength] at hroom
    obtain ⟨b, hb, -, hw⟩ := TcpBuffer.appendToBuffer_of_room hidle.sound.send
      (Nat.le_of_add_right_le hroom)
    rcases receive_answers env conn hidle hsize hpos hread hreadable hplain with
      ⟨s₁, hok, hidle₁, -, happend⟩ | ⟨hfull, -⟩
    · rw [exec_cons_ok hok]
      refine ih hidle₁ (fun e he => htakes e (List.mem_cons_of_mem _ he)) ?_
      rw [← Except.ok.inj (hb.symm.trans happend), hw]
      omega
    · refine absurd (.inl ?_) hfull
      rw [← hidle.sound.send.writablebytes_eq]
      omega
  | @write pos conn res soError events hrest ih =>
    have hsome : ¬ res.Nothing := htakes _ List.mem_cons_self
    have hstep : (alone env video (.invoke conn (.handleWrite ⟨res, soError, []⟩))).run s =
        (HttpServer.onConnection (TcpConnection.handleWrite ⟨res, soError, []⟩)).run s := rfl
    rcases handleWrite_delivers hidle.sound hidle.connected res soError with
      ⟨k, hwrite, hk⟩ | ⟨k, -, hnothing⟩
    · rw [HttpServer.run_onConnection, hwrite] at hstep
      rw [exec_cons_ok hstep]
      refine ih ⟨hk.sound, hk.mState.trans hidle.connected⟩
        (fun e he => htakes e (List.mem_cons_of_mem _ he)) ?_
      exact hroom.trans (handleWrite_room hidle.sound hidle.connected hwrite)
    · exact absurd hnothing hsome

end

/-- **A client that downloads the video gets the video**: the bodies of the answers that were sent
to it are the first bytes of the file, one part for each request, whatever the other clients have
asked in between. -/
theorem download (env : VideoEnv) (content : Bytes) (conns : Nat → HttpCtx)
    (events : List VideoEvent) (conn : Nat) (s : VideoServer) (hsize : content.length < 2 ^ 63)
    (hidle : HttpCtx.Idle (conns conn))
    (hdownloads : Downloads content 0 (Parts.own VideoEvent.conn conn events))
    (hrun : (exec (step env) events).run (start content false conns) = .ok () s) :
    ∃ texts bodies : List Bytes,
      (s.conns conn).ctx.sent = (conns conn).ctx.sent ++ texts ∧
      List.Forall₂ (fun text body => ∃ lines, readHead text = some (lines, body)) texts bodies ∧
      bodies.flatten =
        content.take (askCount (Parts.own VideoEvent.conn conn events) * chunkSize) := by
  have halone := (step_acts env (video content false)).project events
    (s := start content false conns) (create_serves content false)
  rw [hrun] at halone
  exact downloads_alone hdownloads hsize hidle (halone conn)

/-- What stands in front of the part in an answer. -/
def partHead (io : VideoIo) (range : RangeType) : Bytes :=
  (updateResponse (greeting io.date_str HttpResponse.create) range []).text io.iterate

theorem partText_eq (video : Bytes) (io : VideoIo) (pos : Nat) :
    partText video io pos =
      partHead io ⟨pos, behind video pos, video.length⟩ ++ partFrom video pos := by
  let range : RangeType := ⟨pos, behind video pos, video.length⟩
  let r := updateResponse (greeting io.date_str HttpResponse.create) range []
  have hhead : partHead io range = r.statusLine ++ CRLF ++
      (io.iterate r.generated).flatMap (headerLine · ++ CRLF) ++ CRLF := List.append_nil _
  rw [hhead]
  rfl

/-- An idle connection with a send buffer of the length. -/
def roomy (length : Nat) : HttpCtx :=
  { HttpServer.holding [] with ctx.conn.mSendBuffer := ⟨Vec.resize [] length, 0, 0⟩ }

theorem roomy_spec {length : Nat} (h : length ≤ maxSize) : HttpCtx.Idle (roomy length) ∧
    (roomy length).ctx.conn.mSendBuffer.writablebytes = length := by
  have hlength : (Vec.resize ([] : Bytes) length).length = length := Vec.length_resize _ _
  have hvalid : TcpBuffer.Valid (roomy length).ctx.conn.mSendBuffer :=
    ⟨le_refl 0, Nat.zero_le _, hlength.le.trans h⟩
  refine ⟨⟨⟨hvalid, (HttpServer.holding_spec (by decide)).1.recv, fun _ => ⟨_, rfl⟩⟩, rfl⟩, ?_⟩
  rw [hvalid.writablebytes_eq]
  exact hlength

/-- What a request of the two clients meets. -/
def plainIo : VideoIo := ⟨none, .missing "", id⟩

theorem plain_plainIo : plainIo.Plain := ⟨nofun, fun _ => .rfl⟩

/-- The download of a client, in two parts with a write between them. -/
def inTwoParts : List VideoEvent :=
  [.arrive 1 (askText 0) (HttpServer.holding (askText 0)).ctx.conn.mRecvBuffer plainIo,
    .invoke 1 (.handleWrite ⟨.accepted 4096, 0, []⟩),
    .arrive 1 (askText chunkSize) (HttpServer.holding (askText chunkSize)).ctx.conn.mRecvBuffer
      plainIo]

/-- Another client asks for a page that there is not. -/
def noPage : VideoEvent :=
  let text := ascii "GET /x HTTP/1.1\r\nHost: a\r\n\r\n"
  .arrive 0 text (HttpServer.holding text).ctx.conn.mRecvBuffer plainIo

def twoClients : List VideoEvent := inTwoParts.take 1 ++ noPage :: inTwoParts.drop 1

/-- A video of a full part and three bytes. -/
def twoParts : Bytes := List.replicate (chunkSize + 3) 0

section

variable {content : Bytes} (hcontent : content.length = chunkSize + 3)

include hcontent

theorem behind_zero : behind content 0 = chunkSize := by
  simp [behind, hcontent]

theorem downloads_inTwoParts : Downloads content 0 inTwoParts := by
  have hlen : (askText 0).length < 1024 := by decide +kernel
  have hlen' : (askText chunkSize).length < 1024 := by decide +kernel
  have hfirst := HttpServer.holding_spec hlen
  have hsecond := HttpServer.holding_spec hlen'
  refine .ask (by simp [hcontent]) hfirst.1.recv hfirst.2 plain_plainIo (.write ?_)
  rw [behind_zero hcontent]
  exact .ask (by simp [hcontent]) hsecond.1.recv hsecond.2 plain_plainIo (.nil _)

theorem answerLength_inTwoParts : answerLength content 0 inTwoParts ≤ 2 ^ 22 := by
  have hbehind : behind content chunkSize = chunkSize + 3 := by
    rw [behind, hcontent]
    decide
  have hpart : ∀ pos, (partFrom content pos).length ≤ chunkSize :=
    fun pos => List.length_take_le _ _
  -- what stands in front of the parts is short
  have hhead : (partHead plainIo ⟨(0 : Nat), chunkSize, (chunkSize + 3 : Nat)⟩).length ≤ 1024 := by
    decide +kernel
  have hhead' : (partHead plainIo ⟨chunkSize, (chunkSize + 3 : Nat),
      (chunkSize + 3 : Nat)⟩).length ≤ 1024 := by decide +kernel
  have hfirst := hpart 0
  have hsecond := hpart chunkSize
  simp only [inTwoParts, answerLength, partText_eq, List.length_append, behind_zero hcontent,
    hbehind, hcontent]
  unfold chunkSize at *
  omega

end

theorem download_twoClients : ∃ (s : VideoServer) (texts bodies : List Bytes),
    (s.conns 1).ctx.sent = texts ∧
    List.Forall₂ (fun text body => ∃ lines, readHead text = some (lines, body)) texts bodies ∧
    bodies.flatten = twoParts := by
  let env : VideoEnv := ⟨ascii "/", plainCodec⟩
  let conns : Nat → HttpCtx := fun conn =>
    if conn = 1 then roomy (2 ^ 22) else HttpServer.holding []
  have hpage : (returned ((exec (alone env twoParts) [noPage]).run
      (HttpServer.holding []))).isSome := by decide +kernel
  have hcontent : twoParts.length = chunkSize + 3 := List.length_replicate
  -- from here on only the length of the video counts
  revert hpage hcontent
  generalize twoParts = content
  intro hpage hcontent
  have hlen : 2 ^ 22 ≤ maxSize := by decide
  obtain ⟨hidle, hroom⟩ := roomy_spec hlen
  have hsize : content.length < 2 ^ 63 := by
    rw [hcontent]
    decide
  obtain ⟨s, hs⟩ : ∃ s, (exec (step env) twoClients).run (start content false conns) =
      .ok () s := by
    refine Parts.Independent.exists_ok (step_acts env (video content false))
      (create_serves content false) fun conn => ?_
    match conn with
    | 0 =>
      obtain ⟨s₀, hs₀⟩ := Option.isSome_iff_exists.mp hpage
      exact ⟨s₀, eq_ok_of_mem_returned hs₀⟩
    | 1 =>
      have htakes : ∀ e ∈ inTwoParts, Takes e := by
        simp [inTwoParts, Takes, WriteResult.Nothing]
      exact downloads_return (downloads_inTwoParts hcontent) hsize hidle htakes
        ((answerLength_inTwoParts hcontent).trans hroom.ge)
    | n + 2 => exact ⟨HttpServer.holding [], rfl⟩
  obtain ⟨texts, bodies, hsent, hbodies, hflat⟩ := download env content conns twoClients 1 s hsize
    hidle (downloads_inTwoParts hcontent) hs
  refine ⟨s, texts, bodies, hsent, hbodies, hflat.trans (List.take_of_length_le ?_)⟩
  rw [hcontent]
  decide

end VideoServer

end SimpleTcp
