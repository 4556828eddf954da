import SimpleTcp.Http.Packet
import SimpleTcp.Http.Server

/-!
# Where a request ends

A well-formed request is written down and read again. The parser takes all that has arrived for one
request, so it frames the request rightly only when nothing has arrived behind it.

## Main definitions

* `Message`: a well-formed request, and `Message.render`, its bytes
* `Message.headers`: its headers, as they are to be read
* `Framed`: the parser and the server take exactly the request

## Main results

* `headerFields_rendered`: the headers are read as they were written
* `framed_iff`: when a request is framed
-/

namespace SimpleTcp

open Search Machine HttpServer

/-! ### Well-formed requests -/

/-- A header, as it is to be read. -/
def trimmed (fields : Headers) : Headers := fields.map fun field => (field.1, trim field.2)

/-- The methods of a well-formed request. -/
inductive Method where
  | GET
  | POST
  deriving DecidableEq, Repr

def Method.text : Method → Bytes
  | .GET => ascii "GET"
  | .POST => ascii "POST"

/-- The versions of a well-formed request. -/
inductive Protocol where
  | HTTP1_0
  | HTTP1_1
  deriving DecidableEq, Repr

def Protocol.text : Protocol → Bytes
  | .HTTP1_0 => ascii "HTTP/1.0"
  | .HTTP1_1 => ascii "HTTP/1.1"

/-- What the headers of a well-formed request say of its body: a `GET` has none, and a `POST` has a
content type that is accepted and the length of the body. -/
def Announces (method : Method) (headers : Headers) (body : Bytes) : Prop :=
  match method with
  | .GET => headers.lookup (ascii "Content-Length") = none ∧ body = []
  | .POST => (∃ type, headers.lookup (ascii "Content-Type") = some type ∧
      toContentType type ≠ .UNKNOWN) ∧
    ∃ len, headers.lookup (ascii "Content-Length") = some len ∧ len ≠ [] ∧
      (∀ c ∈ len, isDigit c) ∧ digitsValue len = body.length

/-- A well-formed request. -/
structure Message where
  method : Method
  target : Bytes
  protocol : Protocol
  fields : Headers
  body : Bytes
  target_text : ∀ c ∈ target, c ≠ 32 ∧ c ≠ 13 ∧ c ≠ 10
  name_text : ∀ field ∈ fields, ∀ c ∈ field.1, c ≠ 58 ∧ c ≠ 13 ∧ c ≠ 10
  value_text : ∀ field ∈ fields, ∀ c ∈ field.2, c ≠ 13 ∧ c ≠ 10
  announces : Announces method (trimmed fields) body

namespace Message

variable (m : Message)

def headers : Headers := trimmed m.fields

def requestLine : Bytes := m.method.text ++ 32 :: m.target ++ 32 :: m.protocol.text

/-- A line of the headers. -/
def line (field : Bytes × Bytes) : Bytes := field.1 ++ 58 :: field.2

def block : Bytes := (m.fields.map line).flatMap (· ++ CRLF)

def render : Bytes := m.requestLine ++ CRLF ++ m.block ++ CRLF ++ m.body

end Message

/-! ### Reading the headers -/

/-- The first value of a key stays. -/
theorem lookup_insertHeader (m : Headers) (key value k : Bytes) :
    (insertHeader m key value).lookup k = (m ++ [(key, value)]).lookup k := by
  unfold insertHeader
  split
  · next h =>
    rw [List.lookup_append]
    by_cases hk : k = key
    · subst hk
      obtain ⟨v, hv⟩ := Option.isSome_iff_exists.mp h
      rw [hv]
      rfl
    · rw [List.lookup_singleton, if_neg (by simpa using hk), Option.or_none]
  · rfl

theorem lookup_foldl_insertHeader (fields m : Headers) (k : Bytes) :
    (fields.foldl (fun m field => insertHeader m field.1 field.2) m).lookup k =
      (m ++ fields).lookup k := by
  induction fields generalizing m with
  | nil => simp
  | cons field fields ih =>
    rw [List.foldl_cons, ih, List.lookup_append, lookup_insertHeader, ← List.lookup_append,
      List.append_assoc]
    rfl

/-- A line is split at its first colon. -/
theorem parseHeader_line (m : Headers) {field : Bytes × Bytes} (h : ∀ c ∈ field.1, c ≠ 58) :
    parseHeader m (Message.line field) = insertHeader m field.1 (trim field.2) := by
  have hmem : (58 : UInt8) ∉ field.1 := fun hc => h 58 hc rfl
  have hfind : find [58] (Message.line field) = some field.1.length := by
    have hcolon : find (58 :: []) (field.1 ++ 58 :: [] ++ field.2) = some field.1.length :=
      find_append_cons hmem field.2
    simpa [Message.line] using hcolon
  unfold parseHeader
  rw [hfind]
  dsimp only
  rw [strip_eq_trim, Message.line, List.take_left, ← List.drop_drop, List.drop_left]
  rfl

/-- The lines of the block. -/
theorem foldl_parseHeader_lines {fields : Headers} (h : ∀ field ∈ fields, ∀ c ∈ field.1, c ≠ 58)
    (m : Headers) : (fields.map Message.line).foldl parseHeader m =
      (trimmed fields).foldl (fun m field => insertHeader m field.1 field.2) m := by
  induction fields generalizing m with
  | nil => rfl
  | cons field fields ih =>
    obtain ⟨hfield, hfields⟩ := List.forall_mem_cons.mp h
    rw [List.map_cons, List.foldl_cons, parseHeader_line m hfield, ih hfields]
    rfl

namespace Message

variable (m : Message)

/-- No line has an end of line in it, and none is empty. -/
theorem line_text {l : Bytes} (hl : l ∈ m.fields.map line) : ¬ CRLF <:+: l ∧ l ≠ [] := by
  obtain ⟨field, hfield, rfl⟩ := List.mem_map.mp hl
  constructor
  · refine not_isInfix_of_not_mem fun hmem => ?_
    rcases List.mem_append.mp hmem with hname | hrest
    · exact (m.name_text field hfield 13 hname).2.1 rfl
    · rcases List.mem_cons.mp hrest with hcolon | hvalue
      · cases hcolon
      · exact (m.value_text field hfield 13 hvalue).1 rfl
  · simp [line]

/-- **The headers are read as they were written.** -/
theorem headerFields_rendered (k : Bytes) :
    (headerFields m.block).lookup k = m.headers.lookup k := by
  have hlines : linesOf m.block = m.fields.map line :=
    linesOf_block fun l hl => (m.line_text hl).1
  have hnames : ∀ field ∈ m.fields, ∀ c ∈ field.1, c ≠ 58 :=
    fun field hf c hc => (m.name_text field hf c hc).1
  rw [headerFields, ← linesOf, hlines, foldl_parseHeader_lines hnames, lookup_foldl_insertHeader,
    List.nil_append]
  rfl

/-! ### Finding the parts -/

theorem method_text : 13 ∉ m.method.text := by
  cases m.method <;> decide

theorem protocol_text : 13 ∉ m.protocol.text := by
  cases m.protocol <;> decide

theorem requestLine_text : 13 ∉ m.requestLine := by
  simp only [requestLine, List.mem_append, List.mem_cons, not_or]
  refine ⟨⟨m.method_text, by decide, fun h => ?_⟩, by decide, m.protocol_text⟩
  exact (m.target_text 13 h).2.1 rfl

theorem lineAccepted : LineAccepted m.requestLine := by
  have hmethod : m.method.text <:+: m.requestLine := by
    rw [requestLine, List.append_assoc]
    exact (List.prefix_append _ _).isInfix
  have hprotocol : m.protocol.text <:+: m.requestLine := by
    exact ((List.suffix_cons _ _).trans (List.suffix_append _ _)).isInfix
  constructor
  · have hfind := find_isSome_of_isInfix hmethod
    unfold parseType
    cases hm : m.method <;> rw [hm, Method.text] at hfind <;> split <;> simp_all
  · have hfind := find_isSome_of_isInfix hprotocol
    unfold parseVersion
    cases hp : m.protocol <;> rw [hp, Protocol.text] at hfind <;> split <;> simp_all

/-- The line of a `GET` is the line of a `GET`. -/
theorem lineType_of_get (h : m.method = .GET) : lineType m.requestLine = .GET := by
  have hmethod : m.method.text <:+: m.requestLine := by
    rw [requestLine, List.append_assoc]
    exact (List.prefix_append _ _).isInfix
  have hfind := find_isSome_of_isInfix hmethod
  rw [h, Method.text] at hfind
  rw [lineType, parseType, if_pos hfind]
  rfl

variable (rest : Bytes)

/-- What has arrived is a packet. -/
theorem render_append : m.render ++ rest =
    packet m.requestLine (m.fields.map line) (m.body ++ rest) := by
  simp only [render, packet, block, SimpleTcp.block, List.append_assoc]

theorem find_line : find CRLF (m.render ++ rest) = some m.requestLine.length := by
  rw [render_append]
  exact find_packet _ _ (not_isInfix_of_not_mem m.requestLine_text)

theorem take_line : (m.render ++ rest).take m.requestLine.length = m.requestLine := by
  rw [render_append, take_packet]

theorem drop_line : (m.render ++ rest).drop (m.requestLine.length + 2) =
    m.block ++ (CRLF ++ (m.body ++ rest)) := by
  rw [render_append, drop_packet]
  rfl

/-- The block ends with the end of its last line. -/
theorem find_blank_line (h : m.fields ≠ []) :
    findFrom BLANK_LINE (m.render ++ rest) (m.requestLine.length + 2) =
      some (m.requestLine.length + m.block.length) := by
  have hlines : m.fields.map line ≠ [] := fun hnil => h (List.map_eq_nil_iff.mp hnil)
  rw [render_append]
  exact findFrom_packet _ _ hlines fun l hl => m.line_text hl

theorem headerBlock_eq : headerBlock (m.render ++ rest) m.requestLine.length
    (m.requestLine.length + m.block.length) = m.block := by
  rw [render_append]
  exact headerBlock_packet _ _ _

theorem drop_body : (m.render ++ rest).drop (m.requestLine.length + m.block.length + 4) =
    m.body ++ rest := by
  rw [render_append]
  exact SimpleTcp.drop_body _ _ _

theorem length_render : m.render.length =
    m.requestLine.length + m.block.length + 4 + m.body.length :=
  length_packet _ _ _

/-! ### What the headers say -/

/-- A request whose line is not that of a `GET` announces its body. -/
theorem announces_of_post (hpost : lineType m.requestLine ≠ .GET) :
    (∃ type, m.headers.lookup (ascii "Content-Type") = some type ∧
      toContentType type ≠ .UNKNOWN) ∧
    ∃ len, m.headers.lookup (ascii "Content-Length") = some len ∧ len ≠ [] ∧
      (∀ c ∈ len, isDigit c) ∧ digitsValue len = m.body.length := by
  have hann := m.announces
  cases hm : m.method with
  | GET => exact absurd (m.lineType_of_get hm) hpost
  | POST =>
    rw [hm] at hann
    exact hann

theorem contentAccepted (hbody : m.body.length ≤ maxSize) :
    ContentAccepted (lineType m.requestLine) (headerFields m.block) := by
  intro hpost type htype
  obtain ⟨⟨type', htype', hknown⟩, len, hlen, hne, hdigits, hvalue⟩ := m.announces_of_post hpost
  rw [headerFields_rendered] at htype
  obtain rfl := Option.some.inj (htype'.symm.trans htype)
  refine ⟨hknown, fun len' hlen' => ?_⟩
  rw [headerFields_rendered] at hlen'
  obtain rfl := Option.some.inj (hlen.symm.trans hlen')
  rw [fromChars_of_digits hne hdigits (by rw [hvalue]; unfold maxSize at hbody; omega)]
  simp

/-- The length that is announced is that of the body. -/
theorem contentLength_eq (hbody : m.body.length ≤ maxSize)
    (hpost : lineType m.requestLine ≠ .GET) :
    toSize (contentLength (lineType m.requestLine) (headerFields m.block)) = m.body.length := by
  obtain ⟨⟨type, htype, -⟩, len, hlen, hne, hdigits, hvalue⟩ := m.announces_of_post hpost
  rw [contentLength, headerFields_rendered, headerFields_rendered, htype, hlen,
    if_neg (by simp [hpost]), Option.bind_some,
    fromChars_of_digits hne hdigits (by rw [hvalue]; unfold maxSize at hbody; omega), hvalue]
  unfold maxSize at hbody
  simp only [Option.getD_some, toSize]
  omega

theorem rangesBounded_iff : RangesBounded (headerFields m.block) ↔ RangesBounded m.headers := by
  simp only [RangesBounded, rangePieces, headerFields_rendered]

theorem inOrder_iff (hbody : m.body.length ≤ maxSize) (h : m.fields ≠ []) :
    InOrder (m.render ++ rest) ↔ MarkersInOrder m.requestLine ∧ RangesBounded m.headers := by
  have hblank := m.find_blank_line rest h
  have hcont := m.contentAccepted hbody
  rw [← m.rangesBounded_iff]
  constructor
  · intro hin
    have hacc : LineAccepted ((m.render ++ rest).take m.requestLine.length) := by
      rw [take_line]
      exact m.lineAccepted
    obtain ⟨horder, hbound⟩ := hin _ (m.find_line rest) hacc
    rw [take_line] at horder
    refine ⟨horder, ?_⟩
    have hranges := hbound _ hblank
    rw [take_line, headerBlock_eq] at hranges
    exact hranges hcont
  · rintro ⟨horder, hranges⟩ line hline -
    obtain rfl := Option.some.inj ((m.find_line rest).symm.trans hline)
    rw [take_line]
    refine ⟨horder, fun blank hb _ => ?_⟩
    obtain rfl := Option.some.inj (hblank.symm.trans hb)
    rw [headerBlock_eq]
    exact hranges

end Message

/-! ### Framing -/

/-- The parser takes exactly the request for one, and the message callback takes exactly the request
out of the receive buffer. -/
def Framed (m : Message) (rest : Bytes) (s : HttpCtx) : Prop :=
  (∃ request, parseHttpRequest (m.render ++ rest) = .ok request ∧ request.mBody = m.body ∧
    request.mRequestSize = m.render.length) ∧
  ∃ request s', takeRequest.run s = .ok request s' ∧ request.mRawRequest = m.render ∧
    s'.ctx.conn.mRecvBuffer.readable = rest

/-- A request that is alone, with headers, is parsed with its own body. -/
theorem parse_render (m : Message) (hlen : m.render.length ≤ maxSize) (h : m.fields ≠ [])
    (horder : MarkersInOrder m.requestLine) (hbound : RangesBounded m.headers) :
    ∃ request, parseHttpRequest m.render = .ok request ∧ request.mBody = m.body ∧
      request.mRequestSize = m.render.length := by
  have hlength := m.length_render
  have hbody : m.body.length ≤ maxSize := by omega
  have hin : InOrder m.render := by
    have hiff := m.inOrder_iff [] hbody h
    rw [List.append_nil] at hiff
    exact hiff.mpr ⟨horder, hbound⟩
  have hline := m.find_line []
  have htake := m.take_line []
  have hblank := m.find_blank_line [] h
  have hblock := m.headerBlock_eq []
  have hdrop := m.drop_body []
  simp only [List.append_nil] at hline htake hblank hblock hdrop
  have hacc : LineAccepted (m.render.take m.requestLine.length) := by
    rw [htake]
    exact m.lineAccepted
  have hcont : ContentAccepted (lineType (m.render.take m.requestLine.length))
      (headerFields (headerBlock m.render m.requestLine.length
        (m.requestLine.length + m.block.length))) := by
    rw [htake, hblock]
    exact m.contentAccepted hbody
  rcases parsed_or_partial hlen hin hline hacc hblank hcont with
    ⟨⟨hpost, hshort⟩, -⟩ | ⟨-, request, hparse⟩
  · -- the body has the length that its headers announce
    rw [htake] at hpost
    rw [htake, hblock, m.contentLength_eq hbody hpost] at hshort
    omega
  · obtain ⟨line, blank, hp⟩ := parsed_of_ok hlen hparse
    obtain rfl := Option.some.inj (hline.symm.trans hp.line_found)
    obtain rfl := Option.some.inj (hblank.symm.trans hp.blank_found)
    exact ⟨request, hparse, hp.mBody.trans hdrop, hp.mRequestSize⟩

/-- **Framing**: exactly one request is consumed when nothing has arrived behind it, it has a
header, the markers of its line are in order and its ranges are bounded. -/
theorem framed_iff (m : Message) (rest : Bytes) (s : HttpCtx) (hs : s.ctx.Sound)
    (hr : s.ctx.conn.mRecvBuffer.readable = m.render ++ rest) :
    Framed m rest s ↔ rest = [] ∧ m.fields ≠ [] ∧ MarkersInOrder m.requestLine ∧
      RangesBounded m.headers := by
  have hlen : (m.render ++ rest).length ≤ maxSize := by
    rw [← hr, hs.recv.length_readable, hs.recv.readablebytes_eq]
    have := hs.recv.write_le
    have := hs.recv.le_max
    omega
  have hbody : m.body.length ≤ maxSize := by
    have := m.length_render
    rw [List.length_append] at hlen
    omega
  constructor
  · rintro ⟨⟨request, hparse, -, hsize⟩, -⟩
    obtain ⟨line, blank, hp⟩ := parsed_of_ok hlen hparse
    -- the size of the request is that of all that has arrived
    have hrest : rest = [] := by
      have hall := hp.mRequestSize.symm.trans hsize
      rw [List.length_append] at hall
      exact List.length_eq_zero_iff.mp (by omega)
    subst hrest
    -- without a header, the blank line starts with the end of the request line
    have hfields : m.fields ≠ [] := by
      intro hnone
      have hfound := hp.blank_found
      obtain rfl := Option.some.inj ((m.find_line []).symm.trans hp.line_found)
      have hmethod : m.method = .GET := by
        by_contra hpost
        have hann := m.announces
        cases hm : m.method with
        | GET => exact hpost hm
        | POST =>
          rw [hm, hnone] at hann
          obtain ⟨⟨type, htype, -⟩, -⟩ := hann
          cases htype
      have hget : m.body = [] := by
        have hann := m.announces
        rw [hmethod] at hann
        exact hann.2
      have hblock : m.block = [] := by rw [Message.block, hnone]; rfl
      rw [findFrom, m.drop_line [], hblock, hget] at hfound
      cases hfound
    obtain ⟨horder, hbound⟩ := (m.inOrder_iff [] hbody hfields).mp hp.inOrder
    exact ⟨rfl, hfields, horder, hbound⟩
  · -- the size of the request is its length, and `extractString` takes that many bytes
    rintro ⟨rfl, hfields, horder, hbound⟩
    rw [List.append_nil] at hlen hr
    obtain ⟨request, hparse, hmBody, hsize⟩ := parse_render m hlen hfields horder hbound
    refine ⟨⟨request, by rwa [List.append_nil], hmBody, hsize⟩, ?_⟩
    rw [← hr] at hparse
    obtain ⟨s', htake, -, -, -, hleft⟩ := takeRequest_of_parsed hs hparse
    have htoSize : toSize request.mRequestSize = m.render.length := by
      rw [hsize, toSize]
      unfold maxSize at hlen
      omega
    rw [htoSize, hr] at htake hleft
    refine ⟨_, s', htake, ?_, ?_⟩
    · exact List.take_length
    · rw [hleft, List.drop_length]

/-- `GET /index.html HTTP/1.1`, with a host. -/
def indexRequest : Message where
  method := .GET
  target := ascii "/index.html"
  protocol := .HTTP1_1
  fields := [(ascii "Host", ascii " localhost")]
  body := []
  target_text := by decide +kernel
  name_text := by decide +kernel
  value_text := by decide +kernel
  announces := ⟨by decide +kernel, rfl⟩

theorem framed_iff_index : Framed indexRequest [] (holding indexRequest.render) ↔
    ([] : Bytes) = [] ∧ indexRequest.fields ≠ [] ∧ MarkersInOrder indexRequest.requestLine ∧
      RangesBounded indexRequest.headers :=
  framed_iff indexRequest [] (holding indexRequest.render)
    (holding_spec (by decide +kernel)).1
    ((holding_spec (by decide +kernel)).2.trans (List.append_nil _).symm)

/-- Two requests that have arrived together are taken for one, and the second for the body of the
first. -/
theorem not_framed_pipelined : ¬ ∀ (m : Message) (rest : Bytes) (s : HttpCtx), s.ctx.Sound →
    s.ctx.conn.mRecvBuffer.readable = m.render ++ rest → Framed m rest s := by
  intro h
  have hspec : (indexRequest.render ++ indexRequest.render).length < 1024 := by decide +kernel
  obtain ⟨⟨request, hparse, hbody, -⟩, -⟩ := h indexRequest indexRequest.render
    (holding (indexRequest.render ++ indexRequest.render)) (holding_spec hspec).1
    (holding_spec hspec).2
  have hrun : (parseHttpRequest (indexRequest.render ++ indexRequest.render)).map (·.mBody) =
      .ok indexRequest.render := by decide +kernel
  rw [hparse] at hrun
  have hwhole := (Except.ok.inj hrun).symm.trans hbody
  exact absurd hwhole (by decide +kernel)

end SimpleTcp
