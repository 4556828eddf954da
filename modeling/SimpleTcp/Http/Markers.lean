import SimpleTcp.Http.Request

/-!
# What the parser throws

The parser answers with a request or with a `RequestError` when the markers of the request line come
in order and the bounds of the ranges fit the type they are converted to. Otherwise a difference of
positions wraps around, or a conversion throws.

## Main definitions

* `MarkersInOrder`: `/` before `?`, and both before `HTTP`
* `ContentAccepted`, `RangesBounded`: what the headers say of the body and of the ranges
* `Answers`: the parser has returned or thrown a `RequestError`
* `InOrder`: the packets whose markers are in order and whose ranges are bounded

## Main results

* `parseStartLine_cases`, `parseHeaders_cases`: how the two parsers end
* `answers_iff`: the packets that the parser answers
* `parsed_of_ok`: what is known of a packet that was parsed
-/

namespace SimpleTcp

open Search

/-! ### The request line -/

/-- `/` comes before `?`, if there is one, and before `HTTP`, and `?` comes before `HTTP`. -/
def MarkersInOrder (requestLine : Bytes) : Prop :=
  ∀ slash http, find [47] requestLine = some slash → find (ascii "HTTP") requestLine = some http →
    match find [63] requestLine with
    | none => slash < http
    | some query => slash < query ∧ query < http

theorem find_ascii_isSome {pat sub s : Bytes} (hsub : sub <:+: pat) (h : (find pat s).isSome) :
    ∃ i, find sub s = some i := by
  obtain ⟨i, hi⟩ := Option.isSome_iff_exists.mp h
  refine Option.isSome_iff_exists.mp (find_isSome_of_isInfix (hsub.trans ?_))
  exact (find_eq_some_iff.mp hi).1.isInfix.trans (List.drop_suffix i s).isInfix

/-- A version has both markers in it. -/
theorem markers_of_version {requestLine : Bytes} (h : parseVersion requestLine ≠ none) :
    (∃ slash, find [47] requestLine = some slash) ∧
      ∃ http, find (ascii "HTTP") requestLine = some http := by
  unfold parseVersion at h
  split at h
  · next hv => exact ⟨find_ascii_isSome (by decide) hv, find_ascii_isSome (by decide) hv⟩
  · split at h
    · next hv => exact ⟨find_ascii_isSome (by decide) hv, find_ascii_isSome (by decide) hv⟩
    · exact absurd rfl h

section

variable {requestLine : Bytes} {mVersion : Version} {slash http query : Nat}

theorem find_ne_of_ne {a b : UInt8} {pat pat' s : Bytes} {i j : Nat} (hab : a ≠ b)
    (hi : find (a :: pat) s = some i) (hj : find (b :: pat') s = some j) : i ≠ j := by
  rintro rfl
  obtain ⟨t, ht⟩ := (find_eq_some_iff.mp hi).1
  obtain ⟨t', ht'⟩ := (find_eq_some_iff.mp hj).1
  rw [← ht] at ht'
  exact hab (List.cons.inj ht').1.symm

/-- The functor `parser`, on a line with a version. -/
theorem parseUrl_cases (hlen : requestLine.length ≤ maxSize)
    (hv : parseVersion requestLine = some mVersion) (request : HttpRequest) :
    (MarkersInOrder requestLine ∧ ∃ mUrl mQueryParameters, parseUrl requestLine request =
      .ok (some { request with mVersion, mUrl, mQueryParameters })) ∨
    (¬ MarkersInOrder requestLine ∧ ∃ e, parseUrl requestLine request = .error e) := by
  have hversion : parseVersion requestLine ≠ none := by simp [hv]
  obtain ⟨⟨slash, hslash⟩, http, hhttp⟩ := markers_of_version hversion
  have hslash_le := le_of_find hslash (by simp)
  have hhttp_le := le_of_find hhttp (by decide)
  have hslash_http : slash ≠ http := find_ne_of_ne (by decide) hslash hhttp
  have horder : MarkersInOrder requestLine ↔ match find [63] requestLine with
      | none => slash < http
      | some query => slash < query ∧ query < http := by
    refine ⟨fun h => h slash http hslash hhttp, fun h slash' http' hs hh => ?_⟩
    rw [hslash] at hs
    rw [hhttp] at hh
    obtain rfl := Option.some.inj hs
    obtain rfl := Option.some.inj hh
    exact h
  -- Each subrange lies between two markers: it is one, or its length wraps around.
  simp only [List.length_singleton] at hslash_le
  unfold parseUrl
  simp only [hv, hslash, hhttp, Option.getD_some]
  cases hquery : find [63] requestLine with
  | none =>
    simp only [hquery] at horder
    dsimp only
    rw [horder]
    rcases Nat.lt_or_ge slash http with hlt | hge
    · refine .inl ⟨hlt, ?_⟩
      rw [sizeSub_of_le (by omega) (by omega), stripView_of_le (by omega)]
      exact ⟨_, request.mQueryParameters, rfl⟩
    · obtain ⟨e, he⟩ := stripView_sizeSub_of_lt (a := http) (by omega) hslash_le hlen
      refine .inr ⟨by omega, e, ?_⟩
      rw [he]
      rfl
  | some query =>
    have hquery_le := le_of_find hquery (by simp)
    have hquery_http : query ≠ http := find_ne_of_ne (by decide) hquery hhttp
    have hslash_query : slash ≠ query := find_ne_of_ne (by decide) hslash hquery
    simp only [List.length_singleton] at hquery_le
    simp only [hquery] at horder
    dsimp only
    rw [horder]
    rcases Nat.lt_or_ge query http with hlt | hge
    · rw [sizeSub_of_le hlt.le (by omega), substring_of_le (by omega)]
      rcases Nat.lt_or_ge slash query with hlt' | hge'
      · refine .inl ⟨⟨hlt', hlt⟩, ?_⟩
        rw [sizeSub_of_le (by omega) (by omega), stripView_of_le (by omega)]
        exact ⟨_, _, rfl⟩
      · obtain ⟨e, he⟩ := stripView_sizeSub_of_lt (a := query) (by omega) hslash_le hlen
        refine .inr ⟨by omega, e, ?_⟩
        rw [he]
        rfl
    · -- the query is taken before the path, so its length is the one that throws
      refine .inr ⟨by omega, .lengthError, ?_⟩
      rw [substring_sizeSub_of_lt (by omega) (by omega) hlen]
      rfl

/-- **The request line**: it is refused, it is parsed, or its markers are out of order. -/
theorem parseStartLine_cases (hlen : requestLine.length ≤ maxSize) (request : HttpRequest) :
    ((parseType requestLine = none ∨ parseVersion requestLine = none) ∧
      parseStartLine requestLine request = .ok none) ∨
    (∃ mType mVersion, parseType requestLine = some mType ∧
      parseVersion requestLine = some mVersion ∧ MarkersInOrder requestLine ∧
      ∃ mUrl mQueryParameters, parseStartLine requestLine request =
        .ok (some { request with mType, mVersion, mUrl, mQueryParameters })) ∨
    (parseType requestLine ≠ none ∧ parseVersion requestLine ≠ none ∧
      ¬ MarkersInOrder requestLine ∧ ∃ e, parseStartLine requestLine request = .error e) := by
  unfold parseStartLine
  by_cases hempty : requestLine = []
  · refine .inl ⟨.inl ?_, if_pos hempty⟩
    rw [hempty]
    decide
  rw [if_neg hempty]
  cases ht : parseType requestLine with
  | none => exact .inl ⟨.inl rfl, rfl⟩
  | some mType =>
    cases hv : parseVersion requestLine with
    | none =>
      refine .inl ⟨.inr rfl, ?_⟩
      simp only [parseUrl, hv]
    | some mVersion =>
      right
      -- type and version are known, and the markers decide
      rcases parseUrl_cases hlen hv { request with mType } with
        ⟨horder, mUrl, mQueryParameters, hrun⟩ | ⟨horder, e, hrun⟩
      · exact .inl ⟨mType, mVersion, rfl, rfl, horder, mUrl, mQueryParameters, hrun⟩
      · exact .inr ⟨by simp, by simp, horder, e, hrun⟩

end

/-! ### The headers -/

/-- The headers of the lines that end in the block. -/
def headerFields (headers : Bytes) : Headers :=
  (pieces CRLF (headers.length + 1) headers).foldl parseHeader []

/-- What the headers say of the body is accepted. -/
def ContentAccepted (mType : RequestType) (m : Headers) : Prop :=
  mType ≠ .GET → ∀ type, m.lookup (ascii "Content-Type") = some type →
    toContentType type ≠ .UNKNOWN ∧
      ∀ len, m.lookup (ascii "Content-Length") = some len → fromChars len (-1) ≠ none

/-- The length of the body that the headers announce. -/
def contentLength (mType : RequestType) (m : Headers) : Int :=
  if mType = .GET ∨ m.lookup (ascii "Content-Type") = none then -1
  else ((m.lookup (ascii "Content-Length")).bind fun len => fromChars len (-1)).getD (-1)

/-- The bounds of a piece that is a range fit an `int64_t`. -/
def RangeBounded (piece : Bytes) : Prop :=
  ∀ first last, matchRange piece = some (first, last) →
    digitsValue first < 2 ^ 63 ∧ digitsValue last < 2 ^ 63

/-- The bounds of all ranges. -/
def RangesBounded (m : Headers) : Prop := ∀ piece ∈ rangePieces m, RangeBounded piece

/-- The loop keeps the lines, one after the other. -/
theorem headerLoop_eq {headers : Bytes} (hlen : headers.length ≤ maxSize) (fuel start_pos : Nat)
    (m : Headers) : headerLoop fuel headers start_pos m =
      .ok ((pieces CRLF fuel (headers.drop start_pos)).foldl parseHeader m) := by
  induction fuel generalizing start_pos m with
  | zero => rfl
  | succ fuel ih =>
    rw [headerLoop, pieces, findFrom]
    cases hfind : find CRLF (headers.drop start_pos) with
    | none => rfl
    | some i =>
      -- the end of line is found at or behind `start_pos`, so the length does not wrap around
      have hle := le_of_find hfind (by decide)
      rw [List.length_drop] at hle
      simp only [CRLF, List.length_cons, List.length_nil] at hle
      simp only [Option.map_some]
      rw [sizeSub_of_le (by omega) (by omega), substring_of_le (by omega)]
      simp only [ok_bind, ih, List.foldl_cons]
      rw [Nat.add_sub_cancel, List.drop_drop, Vec.slice]
      congr 4
      simp only [CRLF, List.length_cons, List.length_nil]
      omega

/-- The content headers. -/
theorem parseContent_cases (request : HttpRequest) (hlength : request.mContentLength = -1) :
    (ContentAccepted request.mType request.mHeaders ∧ ∃ mContentType, parseContent request =
      some { request with
        mContentType, mContentLength := contentLength request.mType request.mHeaders }) ∨
    (¬ ContentAccepted request.mType request.mHeaders ∧ parseContent request = none) := by
  have hself : { request with mContentLength := -1 } = request := by rw [← hlength]
  unfold parseContent ContentAccepted contentLength
  rw [hlength]
  split
  · next hget =>
    -- a `GET` has no content, whatever its headers say
    refine .inl ⟨fun h => absurd hget h, request.mContentType, ?_⟩
    rw [if_pos (.inl hget)]
    exact congrArg some hself.symm
  · next hget =>
    cases htype : request.mHeaders.lookup (ascii "Content-Type") with
    | none =>
      -- without a `Content-Type` the length is not read
      refine .inl ⟨by simp, request.mContentType, ?_⟩
      rw [if_pos (.inr rfl)]
      exact congrArg some hself.symm
    | some type =>
      rw [if_neg (by simp [hget])]
      dsimp only
      split
      · next hunknown => exact .inr ⟨by simp [hget, hunknown], rfl⟩
      · next hunknown =>
        cases hlen : request.mHeaders.lookup (ascii "Content-Length") with
        | none =>
          -- the length stays unknown
          exact .inl ⟨by simp [hunknown], toContentType type, rfl⟩
        | some len =>
          cases hres : fromChars len (-1) with
          | none => exact .inr ⟨by simp [hget, hres], by simp [hres]⟩
          | some n =>
            exact .inl ⟨by simp [hunknown, hres], toContentType type, by simp [hres]⟩

theorem stollOr_cases (none : Int) (digits : Bytes) :
    (digitsValue digits < 2 ^ 63 ∧ ∃ n, stollOr none digits = .ok n) ∨
    (¬ digitsValue digits < 2 ^ 63 ∧ stollOr none digits = .error .outOfRange) := by
  unfold stollOr stoll
  by_cases hempty : digits = []
  · rw [if_pos hempty, hempty]
    exact .inl ⟨by decide, none, rfl⟩
  · rw [if_neg hempty]
    by_cases hlt : digitsValue digits < 2 ^ 63
    · exact .inl ⟨hlt, _, if_pos hlt⟩
    · exact .inr ⟨hlt, if_neg hlt⟩

theorem parseRange_cases (first last : Bytes) :
    ((digitsValue first < 2 ^ 63 ∧ digitsValue last < 2 ^ 63) ∧
      ∃ r, parseRange first last = .ok r) ∨
    (¬ (digitsValue first < 2 ^ 63 ∧ digitsValue last < 2 ^ 63) ∧
      parseRange first last = .error .outOfRange) := by
  unfold parseRange
  rcases stollOr_cases 0 first with ⟨hfirst, n, hn⟩ | ⟨hfirst, hn⟩
  · rcases stollOr_cases (-1) last with ⟨hlast, k, hk⟩ | ⟨hlast, hk⟩
    · exact .inl ⟨⟨hfirst, hlast⟩, (n, k), by rw [hn, hk]; rfl⟩
    · exact .inr ⟨fun h => hlast h.2, by rw [hn, hk]; rfl⟩
  · exact .inr ⟨fun h => hfirst h.1, by rw [hn]; rfl⟩

/-- The ranges, one piece after the other. -/
theorem parseRanges_cases (pieces : List Bytes) :
    ((∀ piece ∈ pieces, RangeBounded piece) ∧ ∃ rs, parseRanges pieces = .ok rs) ∨
    (¬ (∀ piece ∈ pieces, RangeBounded piece) ∧ parseRanges pieces = .error .outOfRange) := by
  induction pieces with
  | nil => exact .inl ⟨by simp, [], rfl⟩
  | cons piece pieces ih =>
    rw [parseRanges, List.forall_mem_cons]
    cases hm : matchRange piece with
    | none =>
      -- what is no range is passed over
      have hbounded : RangeBounded piece := by simp [RangeBounded, hm]
      simpa only [hbounded, true_and] using ih
    | some bounds =>
      obtain ⟨first, last⟩ := bounds
      have hiff : RangeBounded piece ↔
          digitsValue first < 2 ^ 63 ∧ digitsValue last < 2 ^ 63 := by
        unfold RangeBounded
        rw [hm]
        refine ⟨fun h => h first last rfl, fun h first' last' he => ?_⟩
        obtain ⟨rfl, rfl⟩ := Prod.mk.inj (Option.some.inj he)
        exact h
      rw [hiff]
      dsimp only
      -- the first range that is out of range ends the loop
      rcases parseRange_cases first last with ⟨hok, r, hr⟩ | ⟨hno, hr⟩
      · rw [hr]
        rcases ih with ⟨hrest, rs, hrs⟩ | ⟨hrest, hrs⟩
        · exact .inl ⟨⟨hok, hrest⟩, r :: rs, by rw [hrs]; rfl⟩
        · exact .inr ⟨fun h => hrest h.2, by rw [hrs]; rfl⟩
      · exact .inr ⟨fun h => hno h.1, by rw [hr]; rfl⟩

/-- **The headers**: they are refused, they are parsed, or a range is out of range. -/
theorem parseHeaders_cases {headers : Bytes} (hlen : headers.length ≤ maxSize)
    (request : HttpRequest) (hm : request.mHeaders = []) (hlength : request.mContentLength = -1) :
    (¬ ContentAccepted request.mType (headerFields headers) ∧
      parseHeaders headers request = .ok none) ∨
    (ContentAccepted request.mType (headerFields headers) ∧ RangesBounded (headerFields headers) ∧
      ∃ request', parseHeaders headers request = .ok (some request') ∧
        request'.mType = request.mType ∧
        request'.mContentLength = contentLength request.mType (headerFields headers)) ∨
    (ContentAccepted request.mType (headerFields headers) ∧
      ¬ RangesBounded (headerFields headers) ∧
      parseHeaders headers request = .error .outOfRange) := by
  unfold parseHeaders
  by_cases hempty : headers = []
  · rw [if_pos hempty, hempty]
    have hfields : headerFields [] = [] := by decide
    rw [hfields]
    exact .inr (.inl ⟨by simp [ContentAccepted], by simp [RangesBounded, rangePieces], request,
      rfl, rfl, by simp [contentLength, hlength]⟩)
  · -- the loop first, then what the headers say of the body, then the ranges
    rw [if_neg hempty, headerLoop_eq hlen, hm, List.drop_zero]
    simp only [ok_bind]
    rw [← headerFields]
    rcases parseContent_cases (setHeaders request (headerFields headers)) hlength with
      ⟨hacc, mContentType, hrun⟩ | ⟨hacc, hrun⟩
    · rw [hrun]
      dsimp only
      right
      rcases parseRanges_cases (rangePieces (headerFields headers)) with
        ⟨hb, rs, hrs⟩ | ⟨hb, hrs⟩
      · rw [hrs]
        exact .inl ⟨hacc, hb, _, rfl, rfl, rfl⟩
      · rw [hrs]
        exact .inr ⟨hacc, hb, rfl⟩
    · rw [hrun]
      exact .inl ⟨hacc, rfl⟩

/-! ### The packet -/

/-- The request line is taken for one. -/
def LineAccepted (requestLine : Bytes) : Prop :=
  parseType requestLine ≠ none ∧ parseVersion requestLine ≠ none

/-- The type of an accepted request line. -/
def lineType (requestLine : Bytes) : RequestType := (parseType requestLine).getD .UNKNOWN

/-- The lines between the request line, which ends at `line`, and the blank line at `blank`. -/
def headerBlock (raw : Bytes) (line blank : Nat) : Bytes :=
  Vec.slice raw (line + 2) (blank + 2 - (line + 2))

/-- The markers of the request line are in order and, where the headers are read to their end, the
ranges are bounded. -/
def InOrder (raw : Bytes) : Prop :=
  ∀ line, find CRLF raw = some line → LineAccepted (raw.take line) →
    MarkersInOrder (raw.take line) ∧
      ∀ blank, findFrom BLANK_LINE raw (line + 2) = some blank →
        ContentAccepted (lineType (raw.take line)) (headerFields (headerBlock raw line blank)) →
          RangesBounded (headerFields (headerBlock raw line blank))

/-- The parser has returned a request or thrown a `RequestError`. -/
def Answers : Except HttpStop HttpRequest → Prop
  | .ok _ => True
  | .error (.requestError _ _) => True
  | .error _ => False

section

variable {raw : Bytes} {line blank : Nat}

theorem substring_take (hle : line ≤ raw.length) (hlen : raw.length ≤ maxSize) :
    substring raw 0 (sizeSub line 0) = .ok (raw.take line) := by
  rw [sizeSub_of_le (by omega) (by omega), substring_of_le (by omega)]
  rfl

/-- Without an end of line there is no request line. -/
theorem parseRequestLine_of_none (h : find CRLF raw = none) :
    ∃ msg, parseRequestLine raw = .error (.requestError msg .BadRequest) := by
  unfold parseRequestLine
  rw [h]
  exact ⟨_, rfl⟩

/-- **The request line of a packet**: it is refused, it is parsed, or its markers are out of
order. -/
theorem parseRequestLine_cases (hlen : raw.length ≤ maxSize) (h : find CRLF raw = some line) :
    (¬ LineAccepted (raw.take line) ∧
      ∃ msg, parseRequestLine raw = .error (.requestError msg .BadRequest)) ∨
    (LineAccepted (raw.take line) ∧ MarkersInOrder (raw.take line) ∧
      ∃ request : HttpRequest, parseRequestLine raw = .ok (request, line + 2) ∧
        request.mType = lineType (raw.take line) ∧ request.mHeaders = [] ∧
        request.mContentLength = -1) ∨
    (LineAccepted (raw.take line) ∧ ¬ MarkersInOrder (raw.take line) ∧
      ∃ e, parseRequestLine raw = .error (.stop e)) := by
  have hle := le_of_find h (by decide)
  have htake : (raw.take line).length ≤ maxSize := (List.length_take_le' _ _).trans hlen
  unfold parseRequestLine
  rw [h]
  dsimp only
  rw [substring_take (by omega) hlen]
  rcases parseStartLine_cases htake { HttpRequest.create with mIsKeepAlive := false } with
    ⟨hno, hrun⟩ | ⟨mType, mVersion, ht, hv, horder, mUrl, mQueryParameters, hrun⟩ |
      ⟨ht, hv, horder, e, hrun⟩
  · refine .inl ⟨fun hacc => hno.elim hacc.1 hacc.2, ?_⟩
    simp only [orStop, ok_bind, hrun, orBadRequest, badRequest, error_bind]
    exact ⟨_, rfl⟩
  · refine .inr (.inl ⟨⟨by simp [ht], by simp [hv]⟩, horder, ?_⟩)
    simp only [orStop, ok_bind, hrun, orBadRequest]
    exact ⟨_, rfl, by rw [lineType, ht]; rfl, rfl, rfl⟩
  · refine .inr (.inr ⟨⟨ht, hv⟩, horder, e, ?_⟩)
    simp only [orStop, ok_bind, hrun, orBadRequest, error_bind]

/-- Without a blank line there are no headers. -/
theorem parseHeaderBlock_of_none (request : HttpRequest) {start_pos : Nat}
    (h : findFrom BLANK_LINE raw start_pos = none) :
    ∃ msg, parseHeaderBlock raw request start_pos = .error (.requestError msg .BadRequest) := by
  unfold parseHeaderBlock
  rw [h]
  exact ⟨_, rfl⟩

/-- **The headers of a packet**: they are refused, they are parsed, or a range is out of range. -/
theorem parseHeaderBlock_cases (hlen : raw.length ≤ maxSize)
    (h : findFrom BLANK_LINE raw (line + 2) = some blank) {request : HttpRequest}
    (hm : request.mHeaders = []) (hlength : request.mContentLength = -1) :
    let m := headerFields (headerBlock raw line blank)
    (¬ ContentAccepted request.mType m ∧ ∃ msg, parseHeaderBlock raw request (line + 2) =
      .error (.requestError msg .BadRequest)) ∨
    (ContentAccepted request.mType m ∧ RangesBounded m ∧ ∃ request' : HttpRequest,
      parseHeaderBlock raw request (line + 2) = .ok (request', blank + 4) ∧
      request'.mType = request.mType ∧
      request'.mContentLength = contentLength request.mType m) ∨
    (ContentAccepted request.mType m ∧ ¬ RangesBounded m ∧
      ∃ e, parseHeaderBlock raw request (line + 2) = .error (.stop e)) := by
  have hle := le_of_findFrom h (by decide)
  have hpos := (findFrom_eq_some_iff.mp h).1
  simp only [BLANK_LINE, List.length_cons, List.length_nil] at hle
  -- the first line break of the blank line belongs to the last header
  have hblock : substring raw (line + 2) (sizeSub (blank + 2) (line + 2)) =
      .ok (headerBlock raw line blank) := by
    rw [sizeSub_of_le (by omega) (by omega), substring_of_le (by omega), headerBlock]
  have hlen' : (headerBlock raw line blank).length ≤ maxSize := by
    rw [headerBlock, Vec.length_slice (by omega)]
    omega
  intro m
  unfold parseHeaderBlock
  rw [h]
  dsimp only
  rw [hblock]
  rcases parseHeaders_cases hlen' request hm hlength with
    ⟨hacc, hrun⟩ | ⟨hacc, hb, request', hrun, htype, hcl⟩ | ⟨hacc, hb, hrun⟩
  · refine .inl ⟨hacc, ?_⟩
    simp only [orStop, ok_bind, hrun, orBadRequest, badRequest, error_bind]
    exact ⟨_, rfl⟩
  · refine .inr (.inl ⟨hacc, hb, request', ?_, htype, hcl⟩)
    simp only [orStop, ok_bind, hrun, orBadRequest]
  · refine .inr (.inr ⟨hacc, hb, .outOfRange, ?_⟩)
    simp only [orStop, ok_bind, hrun, orBadRequest, error_bind]

/-- **The body**: it is all that follows, and its length is compared unless the request is a
`GET`. -/
theorem parseBody_cases (hlen : raw.length ≤ maxSize) (request : HttpRequest) (start_pos : Nat)
    (hle : start_pos ≤ raw.length) :
    ((request.mType ≠ .GET ∧ raw.length - start_pos ≠ toSize request.mContentLength) ∧
      ∃ msg, parseBody raw request start_pos = .error (.requestError msg .PartialPacket)) ∨
    (¬ (request.mType ≠ .GET ∧ raw.length - start_pos ≠ toSize request.mContentLength) ∧
      parseBody raw request start_pos = .ok { request with
        mBody := raw.drop start_pos, mRequestSize := raw.length }) := by
  unfold parseBody
  dsimp only
  rw [sizeSub_of_le hle hlen]
  by_cases hshort : request.mType ≠ .GET ∧ raw.length - start_pos ≠ toSize request.mContentLength
  · exact .inl ⟨hshort, _, if_pos hshort⟩
  · refine .inr ⟨hshort, ?_⟩
    rw [if_neg hshort, substring_of_le (by omega), Vec.slice,
      List.take_of_length_le (by rw [List.length_drop])]
    rfl

end

/-- What is known of a packet that was parsed. -/
structure Parsed (raw : Bytes) (request : HttpRequest) (line blank : Nat) : Prop where
  line_found : find CRLF raw = some line
  blank_found : findFrom BLANK_LINE raw (line + 2) = some blank
  accepted : LineAccepted (raw.take line)
  inOrder : InOrder raw
  mType : request.mType = lineType (raw.take line)
  content : ContentAccepted request.mType (headerFields (headerBlock raw line blank))
  length : request.mType ≠ .GET → raw.length - (blank + 4) =
    toSize (contentLength request.mType (headerFields (headerBlock raw line blank)))
  mBody : request.mBody = raw.drop (blank + 4)
  mRequestSize : request.mRequestSize = raw.length

/-- **What the parser throws**: it answers exactly the packets that are in order. -/
theorem answers_iff (raw : ByteString) : Answers (parseHttpRequest raw.1) ↔ InOrder raw.1 := by
  obtain ⟨raw, hlen⟩ := raw
  dsimp only
  unfold parseHttpRequest
  cases hline : find CRLF raw with
  | none =>
    obtain ⟨msg, hrun⟩ := parseRequestLine_of_none hline
    rw [hrun]
    exact iff_of_true trivial fun line h => by simp [hline] at h
  | some line =>
    rcases parseRequestLine_cases hlen hline with
      ⟨hacc, msg, hrun⟩ | ⟨hacc, horder, request, hrun, htype, hm, hcl⟩ | ⟨hacc, horder, e, hrun⟩
    · -- a line that is refused is answered, whatever the order of its markers
      rw [hrun]
      refine iff_of_true trivial fun line' h hacc' => ?_
      obtain rfl := Option.some.inj (hline.symm.trans h)
      exact absurd hacc' hacc
    · rw [hrun, ok_bind]
      dsimp only
      cases hblank : findFrom BLANK_LINE raw (line + 2) with
      | none =>
        obtain ⟨msg, hrun'⟩ := parseHeaderBlock_of_none request hblank
        rw [hrun']
        refine iff_of_true trivial fun line' h hacc' => ?_
        obtain rfl := Option.some.inj (hline.symm.trans h)
        exact ⟨horder, fun blank hb => by simp [hblank] at hb⟩
      | some blank =>
        have hle := le_of_findFrom hblank (by decide)
        simp only [BLANK_LINE, List.length_cons, List.length_nil] at hle
        -- What is left of the order is the bounds of the ranges.
        have hiff : InOrder raw ↔ (ContentAccepted request.mType
            (headerFields (headerBlock raw line blank)) →
              RangesBounded (headerFields (headerBlock raw line blank))) := by
          rw [htype]
          constructor
          · intro h
            exact (h line hline hacc).2 blank hblank
          · intro h line' hl hacc'
            obtain rfl := Option.some.inj (hline.symm.trans hl)
            refine ⟨horder, fun blank' hb => ?_⟩
            obtain rfl := Option.some.inj (hblank.symm.trans hb)
            exact h
        rw [hiff]
        rcases parseHeaderBlock_cases hlen hblank hm hcl with
          ⟨hcont, msg, hrun'⟩ | ⟨hcont, hbound, request', hrun', -⟩ | ⟨hcont, hbound, e, hrun'⟩
        · rw [hrun']
          exact iff_of_true trivial fun h => absurd h hcont
        · rw [hrun', ok_bind]
          dsimp only
          rcases parseBody_cases hlen request' (blank + 4) (by omega) with
            ⟨-, msg, hbody⟩ | ⟨-, hbody⟩
          · rw [hbody]
            exact iff_of_true trivial fun _ => hbound
          · rw [hbody]
            exact iff_of_true trivial fun _ => hbound
        · rw [hrun']
          exact iff_of_false id fun h => hbound (h hcont)
    · rw [hrun]
      exact iff_of_false id fun h => horder (h line hline hacc).1

/-- **A packet that was parsed**: all of it is the request, and the body is all that follows the
blank line. -/
theorem parsed_of_ok {raw : Bytes} (hlen : raw.length ≤ maxSize) {request : HttpRequest}
    (h : parseHttpRequest raw = .ok request) : ∃ line blank, Parsed raw request line blank := by
  -- a packet that is parsed is answered, so its markers are in order
  have hin : InOrder raw := (answers_iff ⟨raw, hlen⟩).mp (by rw [h]; trivial)
  -- in each of the three parts, the cases that stop or refuse are impossible
  unfold parseHttpRequest at h
  cases hline : find CRLF raw with
  | none =>
    obtain ⟨msg, hrun⟩ := parseRequestLine_of_none hline
    rw [hrun] at h
    cases h
  | some line =>
    rcases parseRequestLine_cases hlen hline with
      ⟨-, msg, hrun⟩ | ⟨hacc, -, request₁, hrun, htype, hm, hcl⟩ | ⟨-, -, e, hrun⟩ <;>
      rw [hrun] at h
    · cases h
    · rw [ok_bind] at h
      dsimp only at h
      cases hblank : findFrom BLANK_LINE raw (line + 2) with
      | none =>
        obtain ⟨msg, hrun'⟩ := parseHeaderBlock_of_none request₁ hblank
        rw [hrun'] at h
        cases h
      | some blank =>
        have hle := le_of_findFrom hblank (by decide)
        simp only [BLANK_LINE, List.length_cons, List.length_nil] at hle
        rcases parseHeaderBlock_cases hlen hblank hm hcl with
          ⟨-, msg, hrun'⟩ | ⟨hcont, -, request₂, hrun', htype', hcl'⟩ | ⟨-, -, e, hrun'⟩ <;>
          rw [hrun'] at h
        · cases h
        · rw [ok_bind] at h
          dsimp only at h
          rcases parseBody_cases hlen request₂ (blank + 4) (by omega) with
            ⟨-, msg, hbody⟩ | ⟨hfull, hbody⟩ <;> rw [hbody] at h
          · cases h
          · -- the block and the body see the type of the request line
            obtain rfl := Except.ok.inj h
            refine ⟨line, blank, hline, hblank, hacc, hin, htype'.trans htype, ?_, ?_, rfl, rfl⟩
            · rw [← htype'] at hcont
              exact hcont
            · intro hpost
              rw [← htype'] at hcl'
              rw [← hcl']
              exact not_not.mp fun hne => hfull ⟨hpost, hne⟩
        · cases h
    · cases h

/-- A packet with a head that is accepted: it is parsed, or some of its body is missing or too
much. -/
theorem parsed_or_partial {raw : Bytes} (hlen : raw.length ≤ maxSize) (hin : InOrder raw)
    {line blank : Nat} (hline : find CRLF raw = some line) (hacc : LineAccepted (raw.take line))
    (hblank : findFrom BLANK_LINE raw (line + 2) = some blank)
    (hcont : ContentAccepted (lineType (raw.take line))
      (headerFields (headerBlock raw line blank))) :
    let short := lineType (raw.take line) ≠ .GET ∧ raw.length - (blank + 4) ≠
      toSize (contentLength (lineType (raw.take line)) (headerFields (headerBlock raw line blank)))
    (short ∧ ∃ msg, parseHttpRequest raw = .error (.requestError msg .PartialPacket)) ∨
      (¬ short ∧ ∃ request, parseHttpRequest raw = .ok request) := by
  intro short
  obtain ⟨horder, hbound⟩ := hin line hline hacc
  have hle := le_of_findFrom hblank (by decide)
  simp only [BLANK_LINE, List.length_cons, List.length_nil] at hle
  unfold parseHttpRequest
  -- the head is accepted by assumption, so that only the body is left to decide
  rcases parseRequestLine_cases hlen hline with
    ⟨hno, -⟩ | ⟨-, -, request₁, hrun, htype, hm, hcl⟩ | ⟨-, hno, -⟩
  · exact absurd hacc hno
  · rw [hrun, ok_bind]
    dsimp only
    rcases parseHeaderBlock_cases hlen hblank hm hcl with
      ⟨hno, -⟩ | ⟨-, -, request₂, hrun', htype', hcl'⟩ | ⟨-, hno, -⟩
    · rw [htype] at hno
      exact absurd hcont hno
    · rw [hrun', ok_bind]
      dsimp only
      rw [htype] at htype' hcl'
      rcases parseBody_cases hlen request₂ (blank + 4) (by omega) with
        ⟨hshort, msg, hbody⟩ | ⟨hfull, hbody⟩
      · rw [htype', hcl'] at hshort
        exact .inl ⟨hshort, msg, hbody⟩
      · rw [htype', hcl'] at hfull
        exact .inr ⟨hfull, _, hbody⟩
    · exact absurd (hbound blank hblank hcont) hno
  · exact absurd horder hno

/-- A query behind the version: its length wraps around, and `std::length_error` escapes. -/
theorem not_answers_query : ¬ ∀ raw : ByteString, Answers (parseHttpRequest raw.1) := by
  intro h
  have hrun : parseHttpRequest (ascii "GET /a HTTP/1.1?b\r\nHost: c\r\n\r\n") =
      .error (.stop .lengthError) := by decide +kernel
  have hans := h ⟨ascii "GET /a HTTP/1.1?b\r\nHost: c\r\n\r\n", by decide +kernel⟩
  rw [hrun] at hans
  exact hans

end SimpleTcp
