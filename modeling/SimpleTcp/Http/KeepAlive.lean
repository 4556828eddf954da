import SimpleTcp.Http.HeaderMap
import SimpleTcp.Http.Rendering

/-!
# Keeping a connection alive

A response writes the header `Connection`, and a request is searched for `Connections`. What a
response says of its connection is read again only by accident.

## Main definitions

* `KeptAlive`: the first line with a name says that the connection is kept alive
* `HttpResponse.propertyLines`: the lines that the properties of a response make

## Main results

* `mIsKeepAlive_iff`: what is read from lines
* `keepAlive_iff`: when the header that is written is the one that is read
-/

namespace SimpleTcp

open HttpResponse

/-- The first of the lines with the name has the value for a connection that is kept alive. -/
def KeptAlive (name : Bytes) (lines : List Bytes) : Prop :=
  (lines.filterMap field).lookup name = some (ascii "keep-alive")

instance (name : Bytes) (lines : List Bytes) : Decidable (KeptAlive name lines) :=
  inferInstanceAs (Decidable (_ = _))

/-- A request whose headers are not parsed yet. -/
def Fresh (request : HttpRequest) : Prop :=
  request.mHeaders = [] ∧ request.mIsKeepAlive = false

namespace HttpResponse

/-- The properties as they are written. -/
def headerText (iterate : Headers → Headers) (r : HttpResponse) : Bytes :=
  (iterate r.generated).flatMap (headerLine · ++ CRLF)

/-- The lines that the properties of a response make. -/
def propertyLines (iterate : Headers → Headers) (r : HttpResponse) : List Bytes :=
  linesOf (r.headerText iterate)

end HttpResponse

section

variable {headers : Bytes} {lines : List Bytes} {request request' : HttpRequest}

/-- **What is read** is the header `Connections`. -/
theorem mIsKeepAlive_iff (hlen : headers.length ≤ maxSize) (hfresh : Fresh request)
    (h : parseHeaders headers request = .ok (some request')) :
    request'.mIsKeepAlive = true ↔ KeptAlive (ascii "Connections") (linesOf headers) := by
  obtain ⟨rs, -, hr⟩ := parseHeaders_ok hlen hfresh.1 h
  have hflag : request'.mIsKeepAlive =
      (request.mIsKeepAlive ||
        (headerFields headers).lookup (ascii "Connections") = some (ascii "keep-alive")) := by
    rw [hr]
    rfl
  rw [hflag, hfresh.2, Bool.false_or, decide_eq_true_iff, KeptAlive,
    (isHeaderMap_linesOf headers).lookup]

/-- What is between the status line and the blank line of a response. -/
theorem headers_of_generated {iterate : Headers → Headers} {r r' : HttpResponse} {out : Bytes}
    (h : r.generateResponse iterate = .ok (out, r'))
    (hout : out = r.statusLine ++ CRLF ++ headers ++ CRLF ++ r.mBody) :
    headers = r.headerText iterate := by
  obtain ⟨-, -, -, heq⟩ := generateResponse_of_ok h
  rw [hout] at heq
  exact List.append_cancel_left
    (List.append_cancel_right (List.append_cancel_right heq))

/-- **The header of a connection**: the flag that is read is the one that `Connection` tells in the
lines in which `Connections` tells the same; and the flag of a response is read again when the first
of its lines named `Connections` tells it. -/
theorem keepAlive_iff (hlen : headers.length ≤ maxSize) (hfresh : Fresh request)
    (h : parseHeaders headers request = .ok (some request')) :
    ((request'.mIsKeepAlive = true ↔ KeptAlive (ascii "Connection") (linesOf headers)) ↔
      (KeptAlive (ascii "Connections") (linesOf headers) ↔
        KeptAlive (ascii "Connection") (linesOf headers))) ∧
    ∀ (r r' : HttpResponse) (iterate : Headers → Headers) (out : Bytes),
      r.generateResponse iterate = .ok (out, r') →
        out = r.statusLine ++ CRLF ++ headers ++ CRLF ++ r.mBody →
          (request'.mIsKeepAlive = r.mIsKeepAlive ↔
            (KeptAlive (ascii "Connections") (r.propertyLines iterate) ↔
              r.mIsKeepAlive = true)) := by
  have hread := mIsKeepAlive_iff hlen hfresh h
  constructor
  · rw [hread]
  · intro r r' iterate out hgen hout
    rw [headers_of_generated hgen hout] at hread
    rw [propertyLines, ← hread, Bool.eq_iff_iff]

end

/-- A response that keeps its connection alive. -/
def persistentResponse : HttpResponse :=
  { HttpResponse.create with
    mStatus := .OK
    mVersion := .HTTP1_1
    mContentLength := 0
    mIsKeepAlive := true }

theorem keepAlive_iff_persistent : ∃ request : HttpRequest,
    parseHeaders (persistentResponse.headerText id) { HttpRequest.create with mType := .GET } =
      .ok (some request) ∧
    ((request.mIsKeepAlive = true ↔
        KeptAlive (ascii "Connection") (persistentResponse.propertyLines id)) ↔
      (KeptAlive (ascii "Connections") (persistentResponse.propertyLines id) ↔
        KeptAlive (ascii "Connection") (persistentResponse.propertyLines id))) ∧
    (request.mIsKeepAlive = persistentResponse.mIsKeepAlive ↔
      (KeptAlive (ascii "Connections") (persistentResponse.propertyLines id) ↔
        persistentResponse.mIsKeepAlive = true)) := by
  have hparse : parseHeaders (persistentResponse.headerText id)
      { HttpRequest.create with mType := .GET } = .ok (some { HttpRequest.create with
        mType := .GET
        mHeaders := [(ascii "Content-Length", ascii "0"),
          (ascii "Connection", ascii "keep-alive")] }) := by decide +kernel
  have hgen : persistentResponse.generateResponse id = .ok (persistentResponse.statusLine ++ CRLF ++
      persistentResponse.headerText id ++ CRLF ++ persistentResponse.mBody,
        { persistentResponse with mHeaders := persistentResponse.generated }) := by decide +kernel
  obtain ⟨hlines, hresponse⟩ := keepAlive_iff (by decide +kernel) ⟨rfl, rfl⟩ hparse
  exact ⟨_, hparse, hlines, hresponse _ _ id _ hgen rfl⟩

/-- A request that names the header as responses do is not kept alive. -/
theorem not_keepAlive_connection : ¬ ∀ (headers : Bytes) (request request' : HttpRequest),
    headers.length ≤ maxSize → Fresh request →
      parseHeaders headers request = .ok (some request') →
        (request'.mIsKeepAlive = true ↔ KeptAlive (ascii "Connection") (linesOf headers)) := by
  intro h
  have hiff := h (block [ascii "Connection: keep-alive"]) HttpRequest.create
    { HttpRequest.create with mHeaders := [(ascii "Connection", ascii "keep-alive")] }
    (by decide +kernel) ⟨rfl, rfl⟩ (by decide +kernel)
  have hkept : KeptAlive (ascii "Connection")
      (linesOf (block [ascii "Connection: keep-alive"])) := by decide +kernel
  have hread := hiff.mpr hkept
  cases hread

/-! ### Responses as they are written -/

section

variable {codec : Compressors} {calls : List Setter} {iterate : Headers → Headers}

theorem field_headerLine {header : Bytes × Bytes} (h : 58 ∉ header.1) :
    field (headerLine header) = some (header.1, trim header.2) := by
  have hmem : 58 ∈ headerLine header := by simp [headerLine, ascii]
  have hname : ∀ c ∈ header.1, decide (c ≠ 58) = true := fun c hc => by
    simpa using ne_of_mem_of_not_mem hc h
  have hline : headerLine header = header.1 ++ 58 :: 32 :: header.2 := by
    simp [headerLine, ascii]
  rw [field, if_pos hmem, hline, List.takeWhile_append_of_pos hname,
    List.dropWhile_append_of_pos hname]
  simp [trim_cons_space]

/-- **A response that names no `Connections`**, whose properties are texts of one line, is never
read as one that keeps its connection alive. -/
theorem not_keptAlive_of_plain (hiterate : ∀ m, (iterate m).Perm m)
    (hplain : ∀ header ∈ (after codec calls).mHeaders, 58 ∉ header.1 ∧
      ¬ CRLF <:+: header.1 ∧ ¬ CRLF <:+: header.2 ∧ header.1 ≠ ascii "Connections") :
    ¬ KeptAlive (ascii "Connections") ((after codec calls).propertyLines iterate) := by
  let r := after codec calls
  have hgenerated : ∀ header ∈ iterate r.generated, 58 ∉ header.1 ∧
      ¬ CRLF <:+: headerLine header ∧ header.1 ≠ ascii "Connections" := by
    intro header hmem
    rw [(hiterate _).mem_iff, mem_generated (keyed_after codec calls)] at hmem
    rw [isInfix_headerLine_iff, not_or]
    rcases hmem with hw | ⟨hset, -⟩
    · refine ⟨fun hc => (key_of_mem_written hw 58 hc).2.2 rfl,
        ⟨Search.not_isInfix_of_not_mem fun hc => (key_of_mem_written hw 13 hc).2.1 rfl,
          Search.not_isInfix_of_not_mem fun hc => (value_of_mem_written hw 13 hc).2 rfl⟩, ?_⟩
      have hkeys : ∀ key ∈ [ascii "Content-Type", ascii "Content-Length", ascii "Content-Range",
          ascii "Connection"], key ≠ ascii "Connections" := by decide
      exact hkeys _ ((keys_written _).subset (List.mem_map_of_mem hw))
    · obtain ⟨hcolon, hkey, hvalue, hname⟩ := hplain header hset
      exact ⟨hcolon, ⟨hkey, hvalue⟩, hname⟩
  have hlines : r.propertyLines iterate = (iterate r.generated).map headerLine := by
    have hblock : r.headerText iterate = block ((iterate r.generated).map headerLine) := by
      rw [headerText, block, List.flatMap_map]
    rw [propertyLines, hblock, linesOf_block]
    intro line hline
    obtain ⟨header, hheader, rfl⟩ := List.mem_map.mp hline
    exact (hgenerated header hheader).2.1
  intro hkept
  change KeptAlive (ascii "Connections") (r.propertyLines iterate) at hkept
  rw [hlines] at hkept
  -- the value would be that of a property with the name
  obtain ⟨l₁, l₂, hsplit, -⟩ := List.lookup_eq_some_iff.mp hkept
  have hfield : (ascii "Connections", ascii "keep-alive") ∈
      ((iterate r.generated).map headerLine).filterMap field := by
    rw [hsplit]
    simp
  obtain ⟨line, hline, hsome⟩ := List.mem_filterMap.mp hfield
  obtain ⟨header, hheader, rfl⟩ := List.mem_map.mp hline
  obtain ⟨hcolon, -, hname⟩ := hgenerated header hheader
  rw [field_headerLine hcolon] at hsome
  exact hname (congrArg Prod.fst (Option.some.inj hsome))

end

end SimpleTcp
