import SimpleTcp.Http.Packet

/-!
# Where the headers and the body are

`parseHttpRequest` skips the first end of line before it looks for two of them. Behind a request
line without headers, the blank line is that end of line, and what is found, if anything, lies in
the body.

## Main definitions

* `Accepted`: a request line that is that of a `GET`, and headers that are accepted behind it
* `Located`: the parser finds the headers and the body

## Main results

* `located_iff`: the packets whose headers and body are found
-/

namespace SimpleTcp

open Search

/-- The request line is that of a `GET`, and `parseHeaders` accepts the lines behind it. -/
structure Accepted (requestLine : Bytes) (lines : List Bytes) (start request : HttpRequest) :
    Prop where
  start_line : parseStartLine requestLine HttpRequest.create = .ok (some start)
  get : start.mType = .GET
  headers : parseHeaders (block lines) start = .ok (some request)

/-- The lines are what `parseHeaders` is given, and the body is what is behind them. -/
structure Located (requestLine : Bytes) (lines : List Bytes) (body : Bytes)
    (request : HttpRequest) : Prop where
  passes : headersOf (packet requestLine lines body) = some (block lines)
  parsed : parseHttpRequest (packet requestLine lines body) = .ok { request with
    mBody := body
    mRequestSize := (packet requestLine lines body).length }

section

variable {requestLine body : Bytes} {lines : List Bytes} {start request : HttpRequest}

theorem Accepted.mType (h : Accepted requestLine lines start request)
    (hlen : (packet requestLine lines body).length ≤ maxSize) : request.mType = .GET := by
  have hlength := length_packet requestLine body lines
  obtain ⟨-, -, -, hfields⟩ := parseStartLine_ok (by omega) h.start_line
  have hm : start.mHeaders = [] := by rw [hfields]; rfl
  have hcl : start.mContentLength = -1 := by rw [hfields]; rfl
  have hblock : (block lines).length ≤ maxSize := by omega
  rcases parseHeaders_cases hblock start hm hcl with
    ⟨-, hrun⟩ | ⟨-, -, request', hrun, htype, -⟩ | ⟨-, -, hrun⟩
  · rw [h.headers] at hrun
    cases hrun
  · rw [h.headers] at hrun
    obtain rfl := Option.some.inj (Except.ok.inj hrun)
    exact htype.trans h.get
  · rw [h.headers] at hrun
    cases hrun

/-- The headers and the body lie where the parser looks for them. -/
theorem Located.positions (h : Located requestLine lines body request)
    (hlen : (packet requestLine lines body).length ≤ maxSize) :
    find CRLF (packet requestLine lines body) = some requestLine.length ∧
      2 ≤ (block lines).length := by
  obtain ⟨line, blank, hp⟩ := parsed_of_ok hlen h.parsed
  have hpasses := h.passes
  simp only [headersOf, hp.line_found, hp.blank_found, Option.bind_eq_bind,
    Option.bind_some] at hpasses
  have hpos := (findFrom_eq_some_iff.mp hp.blank_found).1
  have hle := le_of_findFrom hp.blank_found (by decide)
  simp only [BLANK_LINE, List.length_cons, List.length_nil] at hle
  -- the length of the body tells where it starts, and then that of the headers where they do
  have hlength := length_packet requestLine body lines
  have hbody : body.length = (packet requestLine lines body).length - (blank + 4) := by
    rw [← List.length_drop]
    exact congrArg List.length hp.mBody
  have hheaders : (block lines).length = blank + 2 - (line + 2) := by
    rw [← Option.some.inj hpasses, headerBlock, Vec.length_slice (by omega)]
  have hline : line = requestLine.length := by omega
  rw [hline] at hp hpos
  exact ⟨hp.line_found, by omega⟩

/-- **Headers and body are located** when there is a header and the request line has no end of line
in it, and not otherwise. -/
theorem located_iff (hlen : (packet requestLine lines body).length ≤ maxSize)
    (hlines : ∀ line ∈ lines, ¬ CRLF <:+: line ∧ line ≠ [])
    (h : Accepted requestLine lines start request) :
    Located requestLine lines body request ↔ lines ≠ [] ∧ ¬ CRLF <:+: requestLine := by
  constructor
  · intro hlocated
    obtain ⟨hfind, hheaders⟩ := hlocated.positions hlen
    constructor
    · rintro rfl
      -- the blank line is found behind two bytes of headers, or more
      have hempty : (block []).length = 0 := rfl
      omega
    · intro hin
      -- an end of line in the request line is found first
      obtain ⟨i, hi⟩ := Option.isSome_iff_exists.mp (find_isSome_of_isInfix hin)
      have hpre : requestLine <+: packet requestLine lines body := by
        rw [packet_eq, List.append_assoc]
        exact List.prefix_append _ _
      obtain ⟨hfound, hle⟩ := (find_prefix_iff hpre (by decide)).mp hi
      obtain rfl := Option.some.inj (hfind.symm.trans hfound)
      simp only [CRLF, List.length_cons, List.length_nil] at hle
      omega
  · rintro ⟨hne, hno⟩
    -- both ends are where they were written
    have hline := find_packet body lines hno
    have hblank := findFrom_packet requestLine body hne hlines
    constructor
    · simp only [headersOf, hline, hblank, Option.bind_eq_bind, Option.bind_some,
        headerBlock_packet]
      rfl
    · have hstart : parseStartLine ((packet requestLine lines body).take requestLine.length)
          HttpRequest.create = .ok (some start) := by
        rw [take_packet]
        exact h.start_line
      rw [parseHttpRequest_eq hlen hline hblank hstart, headerBlock_packet, h.headers]
      simp only [orBadRequest, ok_bind]
      have hlength := length_packet requestLine body lines
      rcases parseBody_cases hlen request (requestLine.length + (block lines).length + 4)
        (by omega) with ⟨⟨hpost, -⟩, -⟩ | ⟨-, hrun⟩
      · exact absurd (h.mType hlen) hpost
      · rw [hrun, drop_body]

end

/-- `GET / HTTP/1.1`. -/
def rootStart : HttpRequest :=
  { HttpRequest.create with mType := .GET, mVersion := .HTTP1_1 }

theorem located_iff_root :
    let request := { rootStart with mHeaders := [(ascii "Host", ascii "a")], mHost := ascii "a" }
    Located (ascii "GET / HTTP/1.1") [ascii "Host: a"] (ascii "b\r\n\r\nc") request ↔
      [ascii "Host: a"] ≠ [] ∧ ¬ CRLF <:+: ascii "GET / HTTP/1.1" := by
  intro request
  have haccepted : Accepted (ascii "GET / HTTP/1.1") [ascii "Host: a"] rootStart request :=
    ⟨by decide +kernel, rfl, by decide +kernel⟩
  exact located_iff (by decide +kernel) (by decide +kernel) haccepted

/-- Without a header, the parser finds no blank line. -/
theorem not_located_root : ¬ ∀ (requestLine : Bytes) (lines : List Bytes) (body : Bytes)
    (start request : HttpRequest), (packet requestLine lines body).length ≤ maxSize →
      (∀ line ∈ lines, ¬ CRLF <:+: line ∧ line ≠ []) → Accepted requestLine lines start request →
        Located requestLine lines body request := by
  intro h
  have hlocated := h (ascii "GET / HTTP/1.1") [] [] rootStart rootStart (by decide +kernel)
    (by simp) ⟨by decide +kernel, rfl, rfl⟩
  have hnone : headersOf (packet (ascii "GET / HTTP/1.1") [] []) = none := by decide +kernel
  have hpasses := hlocated.passes
  rw [hnone] at hpasses
  cases hpasses

end SimpleTcp
