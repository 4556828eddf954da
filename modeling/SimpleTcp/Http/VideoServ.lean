import SimpleTcp.Http.HeaderMap
import SimpleTcp.Http.Response
import SimpleTcp.Http.Server
import SimpleTcp.Library.Parts
import SimpleTcp.Tcp.Invocation

/-!
# The video server

`HttpVideoServ` hands out a file in parts of at most `mChunkSize` bytes. All clients share one file
stream and one buffer; every request moves the stream and writes over the buffer. Nevertheless a
client gets what it would get if it were alone: what is sent depends on the request and on the file
only.

The file has the size it had when the server was started. The sizes of files at which the sum of a
bound and `mChunkSize` overflows are left out, and so is the output on the console.

## Main definitions

* `FStream`, `VideoServ`: the stream, and what the clients share
* `VideoServ.handleRequest`: the handle of the server
* `VideoServ.answer`: what a request gets, whatever was asked before
* `VideoServer`, `VideoServer.step`: the server with its connections

## Main results

* `first_nonneg`: no range that is read starts before the file
* `VideoServ.handleRequest_answers`: the handle gives the answer, and can give it again
* `VideoServer.isolated`: every connection is served as if it were alone
-/

namespace SimpleTcp

open Machine

/-! ### The stream -/

/-- A `std::fstream` for reading. `eofbit` is set together with `failbit`, and only with it. -/
structure FStream where
  content : Bytes
  pos : Nat
  failbit : Bool

namespace FStream

def seekg (file : FStream) (pos : Int) : FStream :=
  if file.failbit then file
  else if pos < 0 then { file with failbit := true }
  else { file with pos := pos.toNat }

/-- The bytes that are stored, and the stream behind them. -/
def read (file : FStream) (n : Int) : Bytes × FStream :=
  if file.failbit then ([], file)
  else
    let bytes := Vec.slice file.content file.pos n.toNat
    (bytes, { file with pos := file.pos + bytes.length, failbit := (bytes.length : Int) ≠ n })

end FStream

/-! ### The handle -/

/-- What the clients share. -/
structure VideoServ where
  mFile : FStream
  mFileSize : Int
  mChunkSize : Int
  mChunkBuffer : Bytes

/-- What is fixed when the server is built. -/
structure VideoEnv where
  HTTP_RESOURCE_PATH : Bytes
  codec : Compressors

/-- What a request meets: the date, what reading the file of a page meets, and the order in which
the properties are read. -/
structure VideoIo where
  date_str : Option Bytes
  file : FileRead
  iterate : Headers → Headers

/-- `path::append`. An absolute path takes the place of what is there. -/
def appendPath (path name : Bytes) : Bytes :=
  if name.head? = some 47 then name
  else if path = [] ∨ path.getLast? = some 47 then path ++ name
  else path ++ 47 :: name

abbrev VideoM := EStateM HttpStop VideoServ

namespace VideoServ

/-- `1 << 20`. -/
def chunkSize : Nat := 2 ^ 20

/-- The file was opened, or `failbit` is set. -/
def create (content : Bytes) (failbit : Bool) : VideoServ where
  mFile := ⟨content, 0, failbit⟩
  mFileSize := content.length
  mChunkSize := chunkSize
  mChunkBuffer := Vec.resize [] chunkSize

/-- `Select transfer range`. -/
def selectRange (mFileSize mChunkSize : Int) (received_range : Int × Int) : RangeType :=
  let start := received_range.1
  let end_ := if received_range.2 > 0 then received_range.2 else mChunkSize + start
  let end_ := if end_ > mFileSize then mFileSize else end_
  let end_ := if end_ - start > mChunkSize then start + mChunkSize else end_
  { start, end_, total := mFileSize }

/-- `Update http response`. -/
def updateResponse (response : HttpResponse) (range : RangeType) (data : Bytes) : HttpResponse :=
  { response with
    mStatus := if range.end_ < range.total then .PARTIAL_CONTENT else .OK
    mBody := data
    mContentLength := range.end_ - range.start
    mContentType := .MP4
    mContentRange := range }

/-- What every response starts with. -/
def greeting (date_str : Option Bytes) (response : HttpResponse) : HttpResponse :=
  { { response with mVersion := .HTTP1_1, mStatus := .OK }.setDate date_str with
    mIsKeepAlive := true }

def sendPage (env : VideoEnv) (io : VideoIo) (name : Bytes) (response : HttpResponse) :
    Except HttpStop HttpResponse :=
  response.setContentByFilePath env.codec (appendPath env.HTTP_RESOURCE_PATH name) io.file

/-- `Read file of range`. The string of the body is made of the view, whose length is taken for that
of a size, in a function that may not throw. -/
def readRange (range : RangeType) : VideoM Bytes := do
  let n := range.end_ - range.start
  modify fun serv =>
    let (bytes, mFile) := (serv.mFile.seekg range.start).read n
    { serv with mFile, mChunkBuffer := Vec.copyInto serv.mChunkBuffer 0 bytes }
  if n < 0 then throw (.stop .fatal)
  else return (← get).mChunkBuffer.take n.toNat

def sendVideo (request : HttpRequest) (response : HttpResponse) : VideoM HttpResponse := do
  match request.mRanges with
  | [] => throw (.responseError "[HttpVideoServ] bad range arguments." .BadResponse)
  | received_range :: _ =>
    let serv ← get
    if received_range.1 ≥ serv.mFileSize then return { response with mStatus := .BAD_REQUEST }
    else
      let range := selectRange serv.mFileSize serv.mChunkSize received_range
      let data ← readRange range
      return updateResponse response range data

def handleRequest (env : VideoEnv) (io : VideoIo) (request : HttpRequest)
    (response : HttpResponse) : VideoM HttpResponse :=
  let response := greeting io.date_str response
  if request.mUrl = [] then MonadExcept.ofExcept (sendPage env io (ascii "video.html") response)
  else if request.mUrl = ascii "video.mp4" then sendVideo request response
  else if request.mUrl = ascii "favicon.ico" then
    MonadExcept.ofExcept (sendPage env io (ascii "favicon.ico") response)
  else pure { response with mStatus := .NOT_FOUND }

end VideoServ

/-! ### The server -/

/-- The video server with its connections. -/
structure VideoServer where
  serv : VideoServ
  conns : Nat → HttpCtx

inductive VideoEvent where
  /-- Bytes arrive at a connection, and the receive buffer then has them. -/
  | arrive (conn : Nat) (segment : Bytes) (mRecvBuffer : TcpBuffer) (io : VideoIo)
  /-- Any other step of a connection. -/
  | invoke (conn : Nat) (invocation : Invocation)

def VideoEvent.conn : VideoEvent → Nat
  | .arrive conn _ _ _ | .invoke conn _ => conn

abbrev VideoServerM := EStateM HttpStop VideoServer

namespace VideoServer

section

variable {α : Type}

/-- A program of one connection. -/
def onConn (conn : Nat) (x : HttpM α) : VideoServerM α := fun s =>
  match x.run (s.conns conn) with
  | .ok a c => .ok a { s with conns := Function.update s.conns conn c }
  | .error e c => .error e { s with conns := Function.update s.conns conn c }

/-- A program of the handle. -/
def onServ (x : VideoM α) : VideoServerM α := fun s =>
  match x.run s.serv with
  | .ok a serv => .ok a { s with serv }
  | .error e serv => .error e { s with serv }

end

/-- The handle, and the text of its response. -/
def generate (env : VideoEnv) (conn : Nat) (io : VideoIo) (request : HttpRequest) :
    VideoServerM (Bytes × Bool) := do
  onConn conn (modify fun s => { s with handled := s.handled ++ [request] })
  let response ← onServ (VideoServ.handleRequest env io request
    (HttpResponse.create.setAcceptEncodings request.mAcceptEncodings))
  let (text, response) ← onConn conn (HttpServer.result (response.generateResponse io.iterate))
  return (text, response.mIsKeepAlive)

def respond (env : VideoEnv) (conn : Nat) (io : VideoIo) (request : HttpRequest) :
    VideoServerM Unit := do
  let (response, mIsKeepAlive) ← generate env conn io request
  onConn conn do
    HttpServer.sendString response []
    if ¬ mIsKeepAlive then HttpServer.onConnection (TcpConnection.runCall .shutdownConnection)

def onMessage (env : VideoEnv) (conn : Nat) (io : VideoIo) : VideoServerM Unit :=
  tryCatch (onConn conn HttpServer.takeRequest >>= respond env conn io) fun e =>
    onConn conn (HttpServer.onError [] e)

/-- The message callback runs when bytes have arrived. -/
def step (env : VideoEnv) : VideoEvent → VideoServerM Unit
  | .arrive conn _ mRecvBuffer io => do
    onConn conn (HttpServer.onConnection (TcpConnection.setRecvBuffer mRecvBuffer))
    onMessage env conn io
  | .invoke conn invocation => onConn conn (HttpServer.onConnection invocation.run)

/-- The server is started; whatever has become of the connections before. -/
def start (content : Bytes) (failbit : Bool) (conns : Nat → HttpCtx) : VideoServer :=
  ⟨VideoServ.create content failbit, conns⟩

end VideoServer

/-! ### What the parser reads of a range -/

/-- No range starts before the file. -/
def StartsInside (request : HttpRequest) : Prop := ∀ range ∈ request.mRanges, 0 ≤ range.1

theorem first_nonneg_of_parseRange {first last : Bytes} {range : Int × Int}
    (h : parseRange first last = .ok range) : 0 ≤ range.1 := by
  obtain ⟨a, ha, h⟩ := ok_of_bind h
  obtain ⟨b, -, hok⟩ := ok_of_bind h
  obtain rfl := Except.ok.inj hok
  unfold stollOr at ha
  split at ha
  · obtain rfl := Except.ok.inj ha
    exact le_refl 0
  · unfold stoll at ha
    split at ha
    · obtain rfl := Except.ok.inj ha
      exact Int.natCast_nonneg _
    · cases ha

theorem first_nonneg_of_parseRanges {ranges : List Bytes} {rs : List (Int × Int)}
    (h : parseRanges ranges = .ok rs) : ∀ range ∈ rs, 0 ≤ range.1 := by
  induction ranges generalizing rs with
  | nil =>
    obtain rfl := Except.ok.inj h
    exact List.forall_mem_nil _
  | cons cur_range ranges ih =>
    rw [parseRanges] at h
    split at h
    · exact ih h
    · obtain ⟨r, hr, h⟩ := ok_of_bind h
      obtain ⟨rs', hrs, hok⟩ := ok_of_bind h
      obtain rfl := Except.ok.inj hok
      exact List.forall_mem_cons.mpr ⟨first_nonneg_of_parseRange hr, ih hrs⟩

theorem startsInside_parseUrl {requestLine : Bytes} {request request' : HttpRequest}
    (hr : StartsInside request) (h : parseUrl requestLine request = .ok (some request')) :
    StartsInside request' := by
  unfold parseUrl at h
  split at h
  · cases h
  · split at h
    · cases h
    · dsimp only at h
      split at h
      · obtain ⟨mUrl, -, hok⟩ := ok_of_bind h
        cases hok
        exact hr
      · obtain ⟨mQueryParameters, -, hq⟩ := ok_of_bind h
        obtain ⟨mUrl, -, hok⟩ := ok_of_bind hq
        cases hok
        exact hr

theorem startsInside_parseStartLine {requestLine : Bytes} {request request' : HttpRequest}
    (hr : StartsInside request) (h : parseStartLine requestLine request = .ok (some request')) :
    StartsInside request' := by
  unfold parseStartLine at h
  split at h
  · cases h
  · split at h
    · cases h
    · next mType _ =>
      have hr' : StartsInside { request with mType } := hr
      exact startsInside_parseUrl hr' h

theorem startsInside_parseHeaders {headers : Bytes} {request request' : HttpRequest}
    (hr : StartsInside request) (h : parseHeaders headers request = .ok (some request')) :
    StartsInside request' := by
  unfold parseHeaders at h
  split at h
  · cases h
    exact hr
  · obtain ⟨mHeaders, -, h⟩ := ok_of_bind h
    split at h
    · cases h
    · next request₁ hcontent =>
      obtain ⟨mRanges, hranges, hok⟩ := ok_of_bind h
      cases hok
      have hset : request₁.mRanges = request.mRanges := by
        rw [parseContent_ok hcontent]
        rfl
      intro range hmem
      rcases List.mem_append.mp hmem with hmem | hmem
      · rw [hset] at hmem
        exact hr range hmem
      · exact first_nonneg_of_parseRanges hranges range hmem

/-- A part of the parser that returns has parsed something. -/
theorem ok_of_orBadRequest {msg : String} {result : Except Stop (Option HttpRequest)}
    {request : HttpRequest} (h : orBadRequest msg result = .ok request) :
    result = .ok (some request) := by
  cases result with
  | error e => cases h
  | ok found =>
    cases found with
    | none => cases h
    | some request' =>
      obtain rfl := Except.ok.inj h
      rfl

/-- **No range that is read starts before the file.** -/
theorem first_nonneg {raw : Bytes} {request : HttpRequest}
    (h : parseHttpRequest raw = .ok request) : StartsInside request := by
  unfold parseHttpRequest at h
  obtain ⟨⟨request₁, start_pos⟩, hline, h⟩ := ok_of_bind h
  obtain ⟨⟨request₂, end_pos⟩, hblock, h⟩ := ok_of_bind h
  have hstart : StartsInside request₁ := by
    unfold parseRequestLine at hline
    split at hline
    · cases hline
    · obtain ⟨requestLine, -, hline⟩ := ok_of_bind hline
      obtain ⟨request', hparse, hok⟩ := ok_of_bind hline
      cases hok
      have hcreate : StartsInside { HttpRequest.create with mIsKeepAlive := false } :=
        List.forall_mem_nil _
      exact startsInside_parseStartLine hcreate (ok_of_orBadRequest hparse)
  have hheaders : StartsInside request₂ := by
    unfold parseHeaderBlock at hblock
    split at hblock
    · cases hblock
    · obtain ⟨headers, -, hblock⟩ := ok_of_bind hblock
      obtain ⟨request', hparse, hok⟩ := ok_of_bind hblock
      cases hok
      exact startsInside_parseHeaders hstart (ok_of_orBadRequest hparse)
  -- the body has no ranges
  dsimp only at h
  unfold parseBody at h
  dsimp only at h
  split at h
  · cases h
  · obtain ⟨mBody, -, hok⟩ := ok_of_bind h
    cases hok
    exact hheaders

/-! ### The answer to a request -/

namespace VideoServ

/-- What is read of the file: zeros, when it could not be opened. -/
def video (content : Bytes) (failbit : Bool) : Bytes :=
  if failbit then List.replicate content.length 0 else content

/-- The answer to a request for a range of the video. -/
def answerRange (video : Bytes) (received_range : Int × Int) (response : HttpResponse) :
    Except HttpStop HttpResponse :=
  let range := selectRange video.length chunkSize received_range
  if received_range.1 ≥ video.length then .ok { response with mStatus := .BAD_REQUEST }
  else if range.end_ < range.start then .error (.stop .fatal)
  else .ok (updateResponse response range
    (Vec.slice video range.start.toNat (range.end_ - range.start).toNat))

/-- **The answer to a request**, whatever was asked before. -/
def answer (env : VideoEnv) (video : Bytes) (io : VideoIo) (request : HttpRequest)
    (response : HttpResponse) : Except HttpStop HttpResponse :=
  let response := greeting io.date_str response
  if request.mUrl = [] then sendPage env io (ascii "video.html") response
  else if request.mUrl = ascii "video.mp4" then
    match request.mRanges with
    | [] => .error (.responseError "[HttpVideoServ] bad range arguments." .BadResponse)
    | received_range :: _ => answerRange video received_range response
  else if request.mUrl = ascii "favicon.ico" then sendPage env io (ascii "favicon.ico") response
  else .ok { response with mStatus := .NOT_FOUND }

/-- The server can hand out the video: the stream reads it, or has failed for good. -/
structure Serves (video : Bytes) (serv : VideoServ) : Prop where
  size : serv.mFileSize = video.length
  chunk : serv.mChunkSize = chunkSize
  buffer : serv.mChunkBuffer.length = chunkSize
  stream : (serv.mFile.failbit = false ∧ serv.mFile.content = video) ∨
    (serv.mFile.failbit = true ∧ video = List.replicate video.length 0 ∧
      serv.mChunkBuffer = List.replicate chunkSize 0)

theorem create_serves (content : Bytes) (failbit : Bool) :
    (create content failbit).Serves (video content failbit) where
  size := by
    cases failbit with
    | false => rfl
    | true =>
      show (content.length : Int) = ((List.replicate content.length (0 : UInt8)).length : Nat)
      rw [List.length_replicate]
  chunk := rfl
  buffer := Vec.length_resize _ _
  stream := by
    cases failbit with
    | false => exact .inl ⟨rfl, rfl⟩
    | true =>
      refine .inr ⟨rfl, ?_, ?_⟩
      · show List.replicate content.length 0 =
          List.replicate (List.replicate content.length (0 : UInt8)).length 0
        rw [List.length_replicate]
      · show Vec.resize [] chunkSize = _
        rw [Vec.resize, List.take_nil, List.nil_append, List.length_nil, Nat.sub_zero]

section

variable {video : Bytes} {serv : VideoServ} {range : RangeType}

/-- A range that is selected lies in the file, and fits into the buffer. -/
theorem selectRange_le (mFileSize mChunkSize : Int) (received_range : Int × Int) :
    (selectRange mFileSize mChunkSize received_range).end_ ≤ mFileSize ∧
      (selectRange mFileSize mChunkSize received_range).end_ - received_range.1 ≤ mChunkSize := by
  unfold selectRange
  dsimp only
  split <;> split <;> split <;> omega

/-- What is read is stored at the front of the buffer. -/
theorem run_readRange (hle : range.start ≤ range.end_) (serv : VideoServ) {data : Bytes}
    {mFile : FStream}
    (hread : (serv.mFile.seekg range.start).read (range.end_ - range.start) = (data, mFile)) :
    (readRange range).run serv =
      .ok ((Vec.copyInto serv.mChunkBuffer 0 data).take (range.end_ - range.start).toNat)
        { serv with mFile, mChunkBuffer := Vec.copyInto serv.mChunkBuffer 0 data } := by
  have hnonneg : ¬ range.end_ - range.start < 0 := by omega
  simp only [readRange, EStateM.run_bind, EStateM.run_modify, hnonneg, if_false, EStateM.run_get,
    EStateM.run_pure, hread]

/-- The stream stands where the range starts, and reads it. -/
theorem readRange_of_good (h : serv.Serves video) (hgood : serv.mFile.failbit = false)
    (hcontent : serv.mFile.content = video) (hstart : 0 ≤ range.start)
    (hle : range.start ≤ range.end_) (hend : range.end_ ≤ video.length)
    (hfits : range.end_ - range.start ≤ chunkSize) :
    ∃ serv', serv'.Serves video ∧ (readRange range).run serv =
      .ok (Vec.slice video range.start.toNat (range.end_ - range.start).toNat) serv' := by
  let n := (range.end_ - range.start).toNat
  have hn : (n : Int) = range.end_ - range.start := Int.toNat_of_nonneg (by omega)
  have hroom : n ≤ chunkSize := by omega
  have hlen : (Vec.slice video range.start.toNat n).length = n := Vec.length_slice (by omega)
  have hread : (serv.mFile.seekg range.start).read (range.end_ - range.start) =
      (Vec.slice video range.start.toNat n,
        ⟨video, range.start.toNat + n, false⟩) := by
    have hseek : serv.mFile.seekg range.start = ⟨video, range.start.toNat, false⟩ := by
      rw [FStream.seekg, hgood, hcontent]
      simp only [Bool.false_eq_true, if_false, if_neg (not_lt.mpr hstart)]
    rw [hseek, FStream.read]
    simp only [Bool.false_eq_true, if_false]
    rw [hlen, ← hn]
    simp
  have hstored : 0 + (Vec.slice video range.start.toNat n).length ≤ serv.mChunkBuffer.length := by
    rw [hlen, h.buffer, Nat.zero_add]
    exact hroom
  have hslice := Vec.slice_copyInto_zero ((Nat.zero_add _).symm.trans_le hstored)
  rw [hlen] at hslice
  refine ⟨_, ?_, (run_readRange hle serv hread).trans (congrArg (EStateM.Result.ok · _) hslice)⟩
  exact {
    size := h.size
    chunk := h.chunk
    buffer := (Vec.length_copyInto hstored).trans h.buffer
    stream := .inl ⟨rfl, rfl⟩ }

/-- The stream has failed: nothing is stored, and the buffer has the zeros it was made with. -/
theorem readRange_of_fail (hfail : serv.mFile.failbit = true)
    (hzero : video = List.replicate video.length 0)
    (hbuffer : serv.mChunkBuffer = List.replicate chunkSize 0) (hstart : 0 ≤ range.start)
    (hle : range.start ≤ range.end_) (hend : range.end_ ≤ video.length)
    (hfits : range.end_ - range.start ≤ chunkSize) :
    (readRange range).run serv =
      .ok (Vec.slice video range.start.toNat (range.end_ - range.start).toNat) serv := by
  have hread : (serv.mFile.seekg range.start).read (range.end_ - range.start) =
      ([], serv.mFile) := by
    rw [FStream.seekg, if_pos hfail, FStream.read, if_pos hfail]
  have hroom : (range.end_ - range.start).toNat ≤ chunkSize := by omega
  have hinside : (range.end_ - range.start).toNat ≤ video.length - range.start.toNat := by omega
  have hdata : serv.mChunkBuffer.take (range.end_ - range.start).toNat =
      Vec.slice video range.start.toNat (range.end_ - range.start).toNat := by
    rw [hbuffer, hzero, Vec.slice, List.take_replicate, List.drop_replicate, List.take_replicate,
      Nat.min_eq_left hroom, Nat.min_eq_left hinside]
  exact (run_readRange hle serv hread).trans (congrArg (EStateM.Result.ok · _) hdata)

/-- **The range is read**: the bytes of the video, whoever has asked before. -/
theorem readRange_of_le (h : serv.Serves video) (hstart : 0 ≤ range.start)
    (hle : range.start ≤ range.end_) (hend : range.end_ ≤ video.length)
    (hfits : range.end_ - range.start ≤ chunkSize) :
    ∃ serv', serv'.Serves video ∧ (readRange range).run serv =
      .ok (Vec.slice video range.start.toNat (range.end_ - range.start).toNat) serv' := by
  rcases h.stream with ⟨hgood, hcontent⟩ | ⟨hfail, hzero, hbuffer⟩
  · exact readRange_of_good h hgood hcontent hstart hle hend hfits
  · exact ⟨serv, h, readRange_of_fail hfail hzero hbuffer hstart hle hend hfits⟩

/-- A length that is negative stops the server. -/
theorem readRange_of_lt (hlt : range.end_ < range.start) (serv : VideoServ) :
    ∃ serv', (readRange range).run serv = .error (.stop .fatal) serv' := by
  have hneg : range.end_ - range.start < 0 := by omega
  apply Exists.intro
  simp only [readRange, EStateM.run_bind, EStateM.run_modify, hneg, if_true, run_throw]
  rfl

/-- A program of the handle does what it says, and the server can hand out the video again, unless
it ends. -/
def Answers {α : Type} (video : Bytes) (answer : Except HttpStop α) :
    EStateM.Result HttpStop VideoServ α → Prop
  | .ok a serv' => answer = .ok a ∧ serv'.Serves video
  | .error e serv' => answer = .error e ∧ ((∃ stop, e = .stop stop) ∨ serv'.Serves video)

theorem ofExcept_answers {α : Type} (h : serv.Serves video) (answer : Except HttpStop α) :
    Answers video answer ((MonadExcept.ofExcept answer : VideoM α).run serv) := by
  cases answer with
  | ok a => exact ⟨rfl, h⟩
  | error e => exact ⟨rfl, .inr h⟩

theorem sendVideo_answers (h : serv.Serves video) {request : HttpRequest}
    (hinside : StartsInside request) (response : HttpResponse) :
    Answers video
      (match request.mRanges with
        | [] => .error (.responseError "[HttpVideoServ] bad range arguments." .BadResponse)
        | received_range :: _ => answerRange video received_range response)
      ((sendVideo request response).run serv) := by
  unfold sendVideo
  cases hranges : request.mRanges with
  | nil => exact ⟨rfl, .inr h⟩
  | cons received_range ranges =>
    have hstart : 0 ≤ received_range.1 := hinside received_range (by simp [hranges])
    simp only [EStateM.run_bind, EStateM.run_get]
    rw [h.size, h.chunk, answerRange]
    by_cases hbeyond : received_range.1 ≥ video.length
    · simp only [if_pos hbeyond]
      exact ⟨rfl, h⟩
    · obtain ⟨hend, hfits⟩ := selectRange_le video.length chunkSize received_range
      simp only [if_neg hbeyond, EStateM.run_bind]
      by_cases hlt : (selectRange video.length chunkSize received_range).end_ <
          (selectRange video.length chunkSize received_range).start
      · obtain ⟨serv', hrun⟩ := readRange_of_lt hlt serv
        rw [if_pos hlt, hrun]
        exact ⟨rfl, .inl ⟨.fatal, rfl⟩⟩
      · obtain ⟨serv', hserv, hrun⟩ := readRange_of_le h hstart (not_lt.mp hlt) hend hfits
        rw [if_neg hlt, hrun]
        exact ⟨rfl, hserv⟩

/-- **The handle gives the answer**, and can give it again. -/
theorem handleRequest_answers (env : VideoEnv) (io : VideoIo) (h : serv.Serves video)
    {request : HttpRequest} (hinside : StartsInside request) (response : HttpResponse) :
    Answers video (answer env video io request response)
      ((handleRequest env io request response).run serv) := by
  unfold handleRequest answer
  dsimp only
  split
  · exact ofExcept_answers h _
  · split
    · exact sendVideo_answers h hinside _
    · split
      · exact ofExcept_answers h _
      · exact ⟨rfl, h⟩

end

end VideoServ

/-! ### Connections -/

namespace VideoServer

open VideoServ Parts

/-- The handle as it would be for one client: the text of the answer. -/
def served (env : VideoEnv) (video : Bytes) (io : VideoIo) : RequestHandle := fun request => do
  let response ← answer env video io request
    (HttpResponse.create.setAcceptEncodings request.mAcceptEncodings)
  let (text, response) ← response.generateResponse io.iterate
  return (text, response.mIsKeepAlive)

/-- A connection that has the server for itself. -/
def alone (env : VideoEnv) (video : Bytes) : VideoEvent → HttpM Unit
  | .arrive _ segment mRecvBuffer io =>
    HttpServer.receive (some (served env video io)) ⟨segment, mRecvBuffer, []⟩
  | .invoke _ invocation => HttpServer.onConnection invocation.run

/-- Nothing handles the stop. -/
def Deadly (e : HttpStop) : Prop := ∃ stop, e = .stop stop

/-- What a program of the server does to one connection. -/
abbrev ActsOn {α : Type} (video : Bytes) (conn : Nat) (x : VideoServerM α) (y : HttpM α) : Prop :=
  Acts (fun s : VideoServer => s.serv.Serves video) Deadly VideoServer.conns conn x y

section

variable {α : Type} {env : VideoEnv} {video : Bytes} {conn : Nat}

theorem run_onConn (x : HttpM α) (s : VideoServer) :
    (onConn conn x).run s = match x.run (s.conns conn) with
      | .ok a c => .ok a { s with conns := Function.update s.conns conn c }
      | .error e c => .error e { s with conns := Function.update s.conns conn c } := rfl

theorem run_onServ (x : VideoM α) (s : VideoServer) :
    (onServ x).run s = match x.run s.serv with
      | .ok a serv => .ok a { s with serv }
      | .error e serv => .error e { s with serv } := rfl

theorem onConn_acts (x : HttpM α) : ActsOn video conn (onConn conn x) x := by
  intro s hs
  rw [run_onConn]
  cases x.run (s.conns conn) with
  | ok a c =>
    refine ⟨?_, hs, fun j hj => Function.update_of_ne hj _ _⟩
    show _ = EStateM.Result.ok a (Function.update s.conns conn c conn)
    rw [Function.update_self]
  | error e c =>
    refine ⟨?_, .inr hs, fun j hj => Function.update_of_ne hj _ _⟩
    show _ = EStateM.Result.error e (Function.update s.conns conn c conn)
    rw [Function.update_self]

/-- What the handle does is seen by no connection. -/
theorem handleRequest_acts (io : VideoIo) {request : HttpRequest} (hinside : StartsInside request)
    (response : HttpResponse) :
    ActsOn video conn (onServ (handleRequest env io request response))
      (HttpServer.result (answer env video io request response)) := by
  intro s hs
  have hanswers := handleRequest_answers env io hs hinside response
  rw [run_onServ]
  cases hres : (handleRequest env io request response).run s.serv with
  | ok a serv =>
    rw [hres] at hanswers
    obtain ⟨hanswer, hserv⟩ := hanswers
    rw [hanswer]
    exact ⟨rfl, hserv, fun _ _ => rfl⟩
  | error e serv =>
    rw [hres] at hanswers
    obtain ⟨hanswer, hserv⟩ := hanswers
    rw [hanswer]
    exact ⟨rfl, hserv, fun _ _ => rfl⟩

theorem result_served (io : VideoIo) (request : HttpRequest) :
    HttpServer.result (served env video io request) = do
      let response ← HttpServer.result (answer env video io request
        (HttpResponse.create.setAcceptEncodings request.mAcceptEncodings))
      let (text, response) ← HttpServer.result (response.generateResponse io.iterate)
      return (text, response.mIsKeepAlive) := by
  unfold served
  cases answer env video io request
      (HttpResponse.create.setAcceptEncodings request.mAcceptEncodings) with
  | error e => rfl
  | ok response =>
    simp only [ok_bind, HttpServer.result_ok, pure_bind]
    cases response.generateResponse io.iterate with
    | error e => rfl
    | ok generated => rfl

theorem respond_acts (io : VideoIo) {request : HttpRequest} (hinside : StartsInside request) :
    ActsOn video conn (respond env conn io request)
      (HttpServer.respond (some (served env video io)) [] request) := by
  unfold respond HttpServer.respond
  refine .bind ?_ fun reply => onConn_acts _
  unfold generate HttpServer.generate
  dsimp only
  rw [result_served]
  refine .bind (onConn_acts _) fun _ => .bind (handleRequest_acts io hinside _) fun response => ?_
  exact .bind (onConn_acts _) fun generated => .pure _

/-- No range of a request that is taken starts before the file. -/
theorem startsInside_of_takeRequest {s s' : HttpCtx} {request : HttpRequest}
    (h : HttpServer.takeRequest.run s = .ok request s') : StartsInside request := by
  unfold HttpServer.takeRequest at h
  simp only [EStateM.run_bind, EStateM.run_get] at h
  cases hparse : parseHttpRequest
      (s.ctx.conn.mRecvBuffer.read s.ctx.conn.mRecvBuffer.size) with
  | error e =>
    rw [hparse] at h
    cases h
  | ok request' =>
    have hinside := first_nonneg hparse
    simp only [hparse, HttpServer.result_ok, EStateM.run_pure] at h
    cases hextract : (HttpServer.onConnection
        (TcpConnection.extract (toSize request'.mRequestSize))).run s with
    | error e s₁ =>
      rw [hextract] at h
      cases h
    | ok mRawRequest s₁ =>
      rw [hextract] at h
      cases h
      exact hinside

theorem onMessage_acts (io : VideoIo) :
    ActsOn video conn (onMessage env conn io)
      (HttpServer.onMessage (some (served env video io)) []) := by
  refine .tryCatch ?_ (fun e => onConn_acts _) ?_
  · exact (onConn_acts _).bind_of (fun _ _ _ => startsInside_of_takeRequest) fun request hinside =>
      respond_acts io hinside
  · -- the stops of the server go on
    rintro e ⟨stop, rfl⟩
    refine ⟨?_, rfl⟩
    funext s
    show EStateM.Result.error _ { s with conns := Function.update s.conns conn (s.conns conn) } = _
    rw [Function.update_eq_self]
    rfl

theorem step_acts (env : VideoEnv) (video : Bytes) :
    Independent (fun s : VideoServer => s.serv.Serves video) Deadly VideoServer.conns
      VideoEvent.conn (step env) (alone env video) := by
  intro e
  cases e with
  | arrive conn segment mRecvBuffer io =>
    exact .bind (onConn_acts _) fun _ => onMessage_acts io
  | invoke conn invocation => exact onConn_acts _

end

/-- **Every connection is served as if it were alone**, whatever the others ask and in whatever
order the events come; and where the server stops, the connection that has stopped it would have
stopped it alone. -/
theorem isolated (env : VideoEnv) (content : Bytes) (failbit : Bool) (conns : Nat → HttpCtx)
    (events : List VideoEvent) :
    match (exec (step env) events).run (start content failbit conns) with
    | .ok _ s => ∀ conn, (exec (alone env (video content failbit))
        (own VideoEvent.conn conn events)).run (conns conn) = .ok () (s.conns conn)
    | .error e s => ∃ last before, before ++ [last] <+: events ∧
        (exec (alone env (video content failbit)) (own VideoEvent.conn last.conn
          (before ++ [last]))).run (conns last.conn) = .error e (s.conns last.conn) ∧
        ∀ conn ≠ last.conn, (exec (alone env (video content failbit))
          (own VideoEvent.conn conn before)).run (conns conn) = .ok () (s.conns conn) := by
  have hserves : (start content failbit conns).serv.Serves (video content failbit) :=
    create_serves content failbit
  have hrun := (step_acts env (video content failbit)).project events hserves
  revert hrun
  cases (exec (step env) events).run (start content failbit conns) <;> exact id

end VideoServer

end SimpleTcp
