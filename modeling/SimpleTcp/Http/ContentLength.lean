import SimpleTcp.Http.Packet

/-!
# The length of a body

The length of the body of a `POST` is read only where the headers have a content type. What follows
the digits at its front is ignored, a numeral out of range leaves the length unset, and an unset
length is that of no body: the parser waits for more of it.

## Main definitions

* `Numeral`, `Leads`: a decimal numeral, and a text that has one at its front
* `Post`: a packet that is a `POST` with a length
* `Governs`: the length decides how the parser ends
* `Governed`: the packets whose length does

## Main results

* `Post.cases`: how the parser ends on a `POST`
* `governs_iff`: when the length of a body governs
-/

namespace SimpleTcp

open Search

/-- The text is the decimal numeral of `n`. -/
def Numeral (len : Bytes) (n : Nat) : Prop :=
  len ≠ [] ∧ (∀ c ∈ len, isDigit c) ∧ digitsValue len = n

/-- The text starts with a digit, after a minus sign if there is one. -/
def Leads (len : Bytes) : Prop :=
  ∃ c ∈ (if len.head? = some 45 then len.tail else len).head?, isDigit c

theorem fromChars_eq_none_iff {len : Bytes} {old : Int} :
    fromChars len old = none ↔ ¬ Leads len := by
  have htake : ∀ s : Bytes, s.takeWhile isDigit = [] ↔ ¬ ∃ c ∈ s.head?, isDigit c := by
    intro s
    cases s with
    | nil => simp
    | cons c s =>
      by_cases hc : isDigit c <;> simp [hc]
  rw [Leads, ← htake]
  unfold fromChars
  dsimp only
  by_cases hnone : (if len.head? = some 45 then len.tail else len).takeWhile isDigit = []
  · exact iff_of_true (if_pos hnone) hnone
  · rw [if_neg hnone]
    refine iff_of_false ?_ hnone
    split_ifs <;> simp

theorem Numeral.leads {len : Bytes} {n : Nat} (h : Numeral len n) : Leads len := by
  obtain ⟨hne, hdigits, -⟩ := h
  cases len with
  | nil => exact absurd rfl hne
  | cons c len =>
    have hc := hdigits c List.mem_cons_self
    have hminus : c ≠ 45 := by
      rintro rfl
      exact absurd hc (by decide)
    refine ⟨c, ?_, hc⟩
    simp [hminus]

/-- A packet whose request line is that of a `POST`, whose content type, if there is one, is
supported and whose length is `len`. The request line ends at `line`, and the headers at
`blank`. -/
structure Post (raw : Bytes) (line blank : Nat) (len : Bytes) : Prop where
  line_found : find CRLF raw = some line
  blank_found : findFrom BLANK_LINE raw (line + 2) = some blank
  accepted : ∃ request, parseStartLine (raw.take line) HttpRequest.create = .ok (some request) ∧
    request.mType = .POST
  supported : ∀ type,
    (headerFields (headerBlock raw line blank)).lookup (ascii "Content-Type") = some type →
      toContentType type ≠ .UNKNOWN
  length : (headerFields (headerBlock raw line blank)).lookup (ascii "Content-Length") = some len

/-- A numeral in range is the length of the body: the parser returns when it has arrived, and tells
that the packet is partial when it has not. Any other text is refused. -/
structure Governs (raw len body : Bytes) : Prop where
  complete : ∀ n < 2 ^ 63, Numeral len n → body.length = n →
    ∃ request, parseHttpRequest raw = .ok request ∧ request.mContentLength = n ∧
      request.mBody = body
  short : ∀ n < 2 ^ 63, Numeral len n → body.length < n →
    ∃ msg, parseHttpRequest raw = .error (.requestError msg .PartialPacket)
  refused : (¬ ∃ n < 2 ^ 63, Numeral len n) →
    ∃ msg, parseHttpRequest raw = .error (.requestError msg .BadRequest)

/-- The headers have a content type. -/
def Typed (m : Headers) : Prop := m.lookup (ascii "Content-Type") ≠ none

/-- The ranges are bounded; there is a content type where the body has arrived; and a length that is
no numeral in range comes with a content type and has no numeral at its front. -/
structure Governed (m : Headers) (len body : Bytes) : Prop where
  complete : ∀ n < 2 ^ 63, Numeral len n → body.length = n → Typed m ∧ RangesBounded m
  short : ∀ n < 2 ^ 63, Numeral len n → body.length < n → RangesBounded m
  refused : (¬ ∃ n < 2 ^ 63, Numeral len n) → Typed m ∧ ¬ Leads len

section

variable {raw len : Bytes} {line blank n : Nat}

theorem contentAccepted_iff {m : Headers} (hsupported : ∀ type,
    m.lookup (ascii "Content-Type") = some type → toContentType type ≠ .UNKNOWN)
    (hlength : m.lookup (ascii "Content-Length") = some len) :
    ContentAccepted .POST m ↔ (Typed m → Leads len) := by
  constructor
  · intro h htyped
    obtain ⟨type, htype⟩ := Option.ne_none_iff_exists'.mp htyped
    have hnumeral := (h (by decide) type htype).2 len hlength
    exact not_not.mp fun hno => hnumeral (fromChars_eq_none_iff.mpr hno)
  · intro h _ type htype
    refine ⟨hsupported type htype, fun len' hlen' hnone => ?_⟩
    obtain rfl := Option.some.inj (hlength.symm.trans hlen')
    exact fromChars_eq_none_iff.mp hnone (h (by simp [Typed, htype]))

/-- **A `POST`**: its headers are refused, a range is out of range, its body has not the length that
the headers announce, or it has. -/
theorem Post.cases (hlen : raw.length ≤ maxSize) (h : Post raw line blank len) :
    let m := headerFields (headerBlock raw line blank)
    let body := raw.drop (blank + 4)
    ((Typed m ∧ ¬ Leads len) ∧
      ∃ msg, parseHttpRequest raw = .error (.requestError msg .BadRequest)) ∨
    ((Typed m → Leads len) ∧ ¬ RangesBounded m ∧ ∃ e, parseHttpRequest raw = .error (.stop e)) ∨
    ((Typed m → Leads len) ∧ RangesBounded m ∧ body.length ≠ toSize (contentLength .POST m) ∧
      ∃ msg, parseHttpRequest raw = .error (.requestError msg .PartialPacket)) ∨
    ((Typed m → Leads len) ∧ RangesBounded m ∧ body.length = toSize (contentLength .POST m) ∧
      ∃ request, parseHttpRequest raw = .ok request ∧
        request.mContentLength = contentLength .POST m ∧ request.mBody = body) := by
  intro m body
  obtain ⟨start, hstart, hpost⟩ := h.accepted
  have hlen' : (raw.take line).length ≤ maxSize := (List.length_take_le' _ _).trans hlen
  obtain ⟨-, -, -, hfields⟩ := parseStartLine_ok hlen' hstart
  have hm : start.mHeaders = [] := by rw [hfields]; rfl
  have hcl : start.mContentLength = -1 := by rw [hfields]; rfl
  have hle := le_of_findFrom h.blank_found (by decide)
  have hpos := (findFrom_eq_some_iff.mp h.blank_found).1
  simp only [BLANK_LINE, List.length_cons, List.length_nil] at hle
  have hblock : (headerBlock raw line blank).length ≤ maxSize := by
    rw [headerBlock, Vec.length_slice (by omega)]
    omega
  have hiff : ContentAccepted .POST m ↔ (Typed m → Leads len) :=
    contentAccepted_iff h.supported h.length
  rw [parseHttpRequest_eq hlen h.line_found h.blank_found hstart]
  -- the headers are refused, accepted, or have a range out of range
  rcases parseHeaders_cases hblock start hm hcl with
    ⟨hacc, hrun⟩ | ⟨hacc, hb, request, hrun, htype, hlength⟩ | ⟨hacc, hb, hrun⟩ <;>
    rw [hpost] at hacc <;> rw [hrun]
  · refine .inl ⟨?_, _, rfl⟩
    rw [hiff] at hacc
    exact Classical.not_imp.mp hacc
  · right
    right
    simp only [orBadRequest, ok_bind]
    rw [hpost] at htype hlength
    have hbody : body.length = raw.length - (blank + 4) := List.length_drop
    rcases parseBody_cases hlen request (blank + 4) (by omega) with
      ⟨⟨-, hne⟩, msg, hbody'⟩ | ⟨heq, hbody'⟩
    · rw [hlength, ← hbody] at hne
      exact .inl ⟨hiff.mp hacc, hb, hne, msg, hbody'⟩
    · have hsize : body.length = toSize (contentLength .POST m) := by
        by_contra hne
        rw [hbody] at hne
        exact heq ⟨by rw [htype]; decide, by rwa [hlength]⟩
      exact .inr ⟨hiff.mp hacc, hb, hsize, _, hbody', hlength, rfl⟩
  · exact .inr (.inl ⟨hiff.mp hacc, hb, .outOfRange, rfl⟩)

/-- The length that is announced: none without a content type. -/
theorem contentLength_of_numeral {m : Headers} (hn : n < 2 ^ 63) (hnumeral : Numeral len n)
    (hlength : m.lookup (ascii "Content-Length") = some len) :
    Typed m ∧ contentLength .POST m = n ∨ ¬ Typed m ∧ contentLength .POST m = -1 := by
  by_cases htyped : Typed m
  · refine .inl ⟨htyped, ?_⟩
    obtain ⟨hne, hdigits, hvalue⟩ := hnumeral
    rw [contentLength, if_neg (by simpa [Typed] using htyped), hlength, Option.bind_some,
      fromChars_of_digits hne hdigits (by omega), hvalue]
    rfl
  · refine .inr ⟨htyped, if_pos (.inr ?_)⟩
    exact not_not.mp htyped

theorem toSize_natCast (hn : n < 2 ^ 63) : toSize n = n := by
  rw [toSize]
  omega

theorem Post.complete_iff (hlen : raw.length ≤ maxSize) (h : Post raw line blank len)
    (hn : n < 2 ^ 63) (hnumeral : Numeral len n) (hsize : (raw.drop (blank + 4)).length = n) :
    (∃ request, parseHttpRequest raw = .ok request ∧ request.mContentLength = n ∧
      request.mBody = raw.drop (blank + 4)) ↔
    Typed (headerFields (headerBlock raw line blank)) ∧
      RangesBounded (headerFields (headerBlock raw line blank)) := by
  have hbig : toSize (-1) = 2 ^ 64 - 1 := by decide
  rcases contentLength_of_numeral hn hnumeral h.length with ⟨htyped, hcl⟩ | ⟨htyped, hcl⟩ <;>
    rcases h.cases hlen with ⟨⟨-, hno⟩, -⟩ | ⟨-, hb, e, hrun⟩ | ⟨-, hb, hne, msg, hrun⟩ |
      ⟨-, hb, heq, request, hrun, hlength, hbody⟩
  · exact absurd hnumeral.leads hno
  · exact iff_of_false (by simp [hrun]) fun hand => hb hand.2
  · rw [hcl, toSize_natCast hn] at hne
    exact absurd hsize hne
  · rw [hcl] at hlength
    exact iff_of_true ⟨request, hrun, hlength, hbody⟩ ⟨htyped, hb⟩
  · exact absurd hnumeral.leads hno
  · exact iff_of_false (by simp [hrun]) fun hand => hb hand.2
  · exact iff_of_false (by simp [hrun]) fun hand => htyped hand.1
  · -- no body is as long as an unset length
    rw [hcl, hbig] at heq
    omega

theorem Post.short_iff (hlen : raw.length ≤ maxSize) (h : Post raw line blank len)
    (hn : n < 2 ^ 63) (hnumeral : Numeral len n) (hsize : (raw.drop (blank + 4)).length < n) :
    (∃ msg, parseHttpRequest raw = .error (.requestError msg .PartialPacket)) ↔
      RangesBounded (headerFields (headerBlock raw line blank)) := by
  have hbig : toSize (-1) = 2 ^ 64 - 1 := by decide
  rcases h.cases hlen with ⟨⟨-, hno⟩, -⟩ | ⟨-, hb, e, hrun⟩ | ⟨-, hb, -, msg, hrun⟩ |
    ⟨-, -, heq, -⟩
  · exact absurd hnumeral.leads hno
  · exact iff_of_false (by simp [hrun]) hb
  · exact iff_of_true ⟨msg, hrun⟩ hb
  -- a body that is taken is as long as the announced one, or as an unset length
  · rcases contentLength_of_numeral hn hnumeral h.length with ⟨-, hcl⟩ | ⟨-, hcl⟩
    · rw [hcl, toSize_natCast hn] at heq
      omega
    · rw [hcl, hbig] at heq
      omega

theorem Post.refused_iff (hlen : raw.length ≤ maxSize) (h : Post raw line blank len) :
    (∃ msg, parseHttpRequest raw = .error (.requestError msg .BadRequest)) ↔
      Typed (headerFields (headerBlock raw line blank)) ∧ ¬ Leads len := by
  rcases h.cases hlen with ⟨hno, msg, hrun⟩ | ⟨himp, -, e, hrun⟩ | ⟨himp, -, -, msg, hrun⟩ |
    ⟨himp, -, -, request, hrun, -⟩
  · exact iff_of_true ⟨msg, hrun⟩ hno
  · exact iff_of_false (by simp [hrun]) fun hand => hand.2 (himp hand.1)
  · exact iff_of_false (by simp [hrun]) fun hand => hand.2 (himp hand.1)
  · exact iff_of_false (by simp [hrun]) fun hand => hand.2 (himp hand.1)

/-- **The length of a body governs** in the packets that have a content type where it is read, no
range out of range, and no text with a numeral only at its front, and in no others. -/
theorem governs_iff (hlen : raw.length ≤ maxSize) (h : Post raw line blank len) :
    Governs raw len (raw.drop (blank + 4)) ↔
      Governed (headerFields (headerBlock raw line blank)) len (raw.drop (blank + 4)) := by
  constructor
  · intro hgov
    refine ⟨fun n hn hnumeral hsize => ?_, fun n hn hnumeral hsize => ?_, fun hno => ?_⟩
    · exact (h.complete_iff hlen hn hnumeral hsize).mp (hgov.complete n hn hnumeral hsize)
    · exact (h.short_iff hlen hn hnumeral hsize).mp (hgov.short n hn hnumeral hsize)
    · exact (h.refused_iff hlen).mp (hgov.refused hno)
  · intro hgov
    refine ⟨fun n hn hnumeral hsize => ?_, fun n hn hnumeral hsize => ?_, fun hno => ?_⟩
    · exact (h.complete_iff hlen hn hnumeral hsize).mpr (hgov.complete n hn hnumeral hsize)
    · exact (h.short_iff hlen hn hnumeral hsize).mpr (hgov.short n hn hnumeral hsize)
    · exact (h.refused_iff hlen).mpr (hgov.refused hno)

end

/-- A `POST` with a body of one byte. -/
def plainPost : Bytes :=
  ascii "POST / HTTP/1.1\r\nContent-Type: text/plain\r\nContent-Length: 1\r\n\r\na"

theorem fields_plain : headerFields (headerBlock plainPost 15 60) =
    [(ascii "Content-Type", ascii "text/plain"), (ascii "Content-Length", ascii "1")] := by
  decide +kernel

theorem post_plain : Post plainPost 15 60 (ascii "1") where
  line_found := by decide +kernel
  blank_found := by decide +kernel
  accepted := ⟨{ HttpRequest.create with mType := .POST, mVersion := .HTTP1_1 },
    by decide +kernel, rfl⟩
  supported type htype := by
    rw [fields_plain] at htype
    obtain rfl : ascii "text/plain" = type := Option.some.inj htype
    decide
  length := by
    rw [fields_plain]
    decide

theorem governs_iff_plain : Governs plainPost (ascii "1") (plainPost.drop 64) ↔
    Governed (headerFields (headerBlock plainPost 15 60)) (ascii "1") (plainPost.drop 64) :=
  governs_iff (by decide +kernel) post_plain

/-- A `POST` with a length and no content type. -/
def untypedPost : Bytes := ascii "POST / HTTP/1.1\r\nContent-Length: 1\r\n\r\na"

theorem fields_untyped : headerFields (headerBlock untypedPost 15 34) =
    [(ascii "Content-Length", ascii "1")] := by
  decide +kernel

theorem post_untyped : Post untypedPost 15 34 (ascii "1") where
  line_found := by decide +kernel
  blank_found := by decide +kernel
  accepted := ⟨{ HttpRequest.create with mType := .POST, mVersion := .HTTP1_1 },
    by decide +kernel, rfl⟩
  supported type htype := by
    rw [fields_untyped] at htype
    cases htype
  length := by
    rw [fields_untyped]
    rfl

/-- Without a content type, a body that has arrived is waited for. -/
theorem not_governs_untyped : ¬ ∀ (raw len : Bytes) (line blank : Nat), raw.length ≤ maxSize →
    Post raw line blank len → Governs raw len (raw.drop (blank + 4)) := by
  intro h
  have hgoverns := h untypedPost (ascii "1") 15 34 (by decide +kernel) post_untyped
  have hnumeral : Numeral (ascii "1") 1 := ⟨by decide, List.all_eq_true.mp (by decide), by decide⟩
  obtain ⟨request, hrun, -⟩ := hgoverns.complete 1 (by decide) hnumeral (by decide +kernel)
  have hshort : parseHttpRequest untypedPost =
      .error (.requestError "[parseHttpRequest] parse body failed." .PartialPacket) := by
    decide +kernel
  rw [hshort] at hrun
  cases hrun

end SimpleTcp
