import SimpleTcp.Http.Markers

/-!
# Packets

A packet is a request line, the lines of its headers, each with its end of line, a blank line and a
body. The parser looks for the first end of line, and for the first two ends of line behind it; what
is between them is what `parseHeaders` is given.

## Main definitions

* `packet`: the text of a packet
* `headersOf`: what `parseHeaders` is given of a text
* `linesOf`: the lines that end in a text

## Main results

* `parseHttpRequest_eq`: the parser, once the ends of the request line and of the headers are found
* `find_packet`, `findFrom_packet`: where they are in a packet
* `linesOf_block`: lines are found again
-/

namespace SimpleTcp

open Search

/-- The lines of the headers, each with its end of line. -/
def block (lines : List Bytes) : Bytes := lines.flatMap (· ++ CRLF)

def packet (requestLine : Bytes) (lines : List Bytes) (body : Bytes) : Bytes :=
  requestLine ++ CRLF ++ block lines ++ CRLF ++ body

/-- What `parseHttpRequest` gives to `parseHeaders`. -/
def headersOf (raw : Bytes) : Option Bytes := do
  let line ← find CRLF raw
  let blank ← findFrom BLANK_LINE raw (line + 2)
  return headerBlock raw line blank

/-! ### The parser -/

section

variable {raw : Bytes} {line blank : Nat} {request : HttpRequest}

theorem parseRequestLine_eq (hlen : raw.length ≤ maxSize) (h : find CRLF raw = some line) :
    parseRequestLine raw =
      (orBadRequest "[parseHttpRequest] parse request failed."
        (parseStartLine (raw.take line) HttpRequest.create)).map (·, line + 2) := by
  have hle := le_of_find h (by decide)
  have hstart : { HttpRequest.create with mIsKeepAlive := false } = HttpRequest.create := rfl
  unfold parseRequestLine
  rw [h]
  dsimp only
  rw [substring_take (by omega) hlen, hstart]
  simp only [orStop, ok_bind]
  cases orBadRequest "[parseHttpRequest] parse request failed."
    (parseStartLine (raw.take line) HttpRequest.create) <;> rfl

theorem parseHeaderBlock_eq (hlen : raw.length ≤ maxSize)
    (h : findFrom BLANK_LINE raw (line + 2) = some blank) (request : HttpRequest) :
    parseHeaderBlock raw request (line + 2) =
      (orBadRequest "[parseHttpRequest] parse header failed."
        (parseHeaders (headerBlock raw line blank) request)).map (·, blank + 4) := by
  have hle := le_of_findFrom h (by decide)
  have hpos := (findFrom_eq_some_iff.mp h).1
  simp only [BLANK_LINE, List.length_cons, List.length_nil] at hle
  unfold parseHeaderBlock
  rw [h]
  dsimp only
  rw [sizeSub_of_le (by omega) (by omega), substring_of_le (by omega), ← headerBlock]
  simp only [orStop, ok_bind]
  cases orBadRequest "[parseHttpRequest] parse header failed."
    (parseHeaders (headerBlock raw line blank) request) <;> rfl

/-- **The parser** parses the request line, then the headers, then the body. -/
theorem parseHttpRequest_eq (hlen : raw.length ≤ maxSize) (hline : find CRLF raw = some line)
    (hblank : findFrom BLANK_LINE raw (line + 2) = some blank)
    (hstart : parseStartLine (raw.take line) HttpRequest.create = .ok (some request)) :
    parseHttpRequest raw = (do
      let request' ← orBadRequest "[parseHttpRequest] parse header failed."
        (parseHeaders (headerBlock raw line blank) request)
      parseBody raw request' (blank + 4)) := by
  rw [parseHttpRequest, parseRequestLine_eq hlen hline, hstart]
  simp only [orBadRequest, Except.map, ok_bind]
  rw [parseHeaderBlock_eq hlen hblank]
  simp only [orBadRequest]
  cases parseHeaders (headerBlock raw line blank) request with
  | ok result => cases result <;> rfl
  | error e => rfl

/-- A request line that is accepted leaves the other fields as they were. -/
theorem parseStartLine_ok {requestLine : Bytes} (hlen : requestLine.length ≤ maxSize)
    {request request' : HttpRequest}
    (h : parseStartLine requestLine request = .ok (some request')) :
    LineAccepted requestLine ∧ MarkersInOrder requestLine ∧
      parseType requestLine = some request'.mType ∧ request' = { request with
        mType := request'.mType
        mVersion := request'.mVersion
        mUrl := request'.mUrl
        mQueryParameters := request'.mQueryParameters } := by
  rcases parseStartLine_cases hlen request with
    ⟨-, hrun⟩ | ⟨mType, mVersion, ht, hv, horder, mUrl, mQueryParameters, hrun⟩ | ⟨-, -, -, e, hrun⟩
  · rw [hrun] at h
    cases h
  · rw [hrun] at h
    obtain rfl := Option.some.inj (Except.ok.inj h)
    exact ⟨⟨by simp [ht], by simp [hv]⟩, horder, ht, rfl⟩
  · rw [hrun] at h
    cases h

end

/-! ### Finding the parts of a packet -/

section

variable (requestLine body : Bytes) (lines : List Bytes)

theorem packet_eq : packet requestLine lines body =
    requestLine ++ CRLF ++ (block lines ++ (CRLF ++ body)) := by
  simp only [packet, List.append_assoc]

theorem length_packet : (packet requestLine lines body).length =
    requestLine.length + (block lines).length + 4 + body.length := by
  simp only [packet, List.length_append, CRLF, List.length_cons, List.length_nil]
  omega

theorem take_packet : (packet requestLine lines body).take requestLine.length = requestLine := by
  rw [packet_eq, List.append_assoc, List.take_left]

theorem drop_packet : (packet requestLine lines body).drop (requestLine.length + 2) =
    block lines ++ (CRLF ++ body) := by
  have hlen : requestLine.length + 2 = (requestLine ++ CRLF).length := by
    simp [CRLF]
  rw [packet_eq, hlen, List.drop_left]

theorem drop_body : (packet requestLine lines body).drop
    (requestLine.length + (block lines).length + 4) = body := by
  have hlen : requestLine.length + (block lines).length + 4 =
      requestLine.length + 2 + (block lines ++ CRLF).length := by
    simp only [List.length_append, CRLF, List.length_cons, List.length_nil]
    omega
  rw [hlen, ← List.drop_drop, drop_packet, ← List.append_assoc, List.drop_left]

theorem headerBlock_packet : headerBlock (packet requestLine lines body) requestLine.length
    (requestLine.length + (block lines).length) = block lines := by
  have hlen : requestLine.length + (block lines).length + 2 - (requestLine.length + 2) =
      (block lines).length := by omega
  rw [headerBlock, Vec.slice, drop_packet, hlen, List.take_left]

variable {requestLine}

/-- The first end of line ends the request line. -/
theorem find_packet (h : ¬ CRLF <:+: requestLine) :
    find CRLF (packet requestLine lines body) = some requestLine.length := by
  have hpat : (13 : UInt8) ∉ ([10] : Bytes) := by decide
  rw [packet_eq]
  exact find_line_end hpat h _

variable (requestLine) {lines}

/-- The first two ends of line behind it start with the end of the last line. -/
theorem findFrom_packet (hne : lines ≠ [])
    (hlines : ∀ line ∈ lines, ¬ CRLF <:+: line ∧ line ≠ []) :
    findFrom BLANK_LINE (packet requestLine lines body) (requestLine.length + 2) =
      some (requestLine.length + (block lines).length) := by
  have hpat : (13 : UInt8) ∉ ([10] : Bytes) := by decide
  obtain ⟨n, hn, hfind⟩ := find_blank_lines hpat hne hlines body
  have hfind' : find BLANK_LINE (block lines ++ (CRLF ++ body)) = some n := hfind
  have hn' : n + 2 = (block lines).length := hn
  rw [findFrom, drop_packet, hfind', Option.map_some, Option.some.injEq]
  omega

end

/-! ### The headers of lines -/

/-- The lines that end in a text. -/
def linesOf (headers : Bytes) : List Bytes := pieces CRLF (headers.length + 1) headers

/-- **Lines are found again.** -/
theorem linesOf_block {lines : List Bytes} (hlines : ∀ line ∈ lines, ¬ CRLF <:+: line) :
    linesOf (block lines) = lines :=
  pieces_flatMap (by decide) hlines ((length_le_flatMap (by decide) lines).trans (Nat.le_succ _))

end SimpleTcp
