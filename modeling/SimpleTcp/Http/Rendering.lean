import Mathlib.Data.List.Nodup
import SimpleTcp.Http.Response

/-!
# The text of a response

A response is read back from its text: the lines up to the first blank line, and the body behind it.
The text is well formed when the first line is the status line, the others are the properties, one
of them is the length of the body, and the body is that of the response. `to_cstr` has no text for
two status codes and for one version, the length is whatever was set, and keys and values are
written as they are.

## Main definitions

* `readHead`: the lines of the head, and the body
* `WellFormed`: what is read back is what was set
* `HttpResponse.Renders`: the responses that are written well

## Main results

* `readHead_lines`: lines without an end of line in them are read back
* `HttpResponse.mem_generated`: the properties that a response is generated with
* `HttpResponse.wellFormed_iff`: the responses whose text is well formed
-/

namespace SimpleTcp

open Search

/-! ### Reading a response -/

/-- The lines up to the first blank line, and what follows it. -/
def readHead (out : Bytes) : Option (List Bytes × Bytes) :=
  (find BLANK_LINE out).map fun blank =>
    (pieces CRLF out.length (out.take (blank + 2)), out.drop (blank + 4))

/-- The name of a header field; its case does not matter. -/
def fieldName (line : Bytes) : Bytes := (line.takeWhile (· ≠ 58)).map toLower

def fieldValue (line : Bytes) : Bytes := trim ((line.dropWhile (· ≠ 58)).drop 1)

def IsContentLength (line : Bytes) : Prop := fieldName line = ascii "content-length"

instance (line : Bytes) : Decidable (IsContentLength line) := inferInstanceAs (Decidable (_ = _))

/-- How a version is written in a status line. -/
def Version.text : Version → Option Bytes
  | .HTTP1_0 => some (ascii "HTTP/1.0")
  | .HTTP1_1 => some (ascii "HTTP/1.1")
  | .HTTP3_0 => some (ascii "HTTP/3.0")
  | .UNKNOWN => none

/-- The version, a space and a code of three digits, with or without a reason. -/
def IsStatusLine (mVersion : Version) (mStatus : StatusCode) (line : Bytes) : Prop :=
  ∃ version reason, mVersion.text = some version ∧ (decimal mStatus.toUnsigned).length = 3 ∧
    line = version ++ 32 :: decimal mStatus.toUnsigned ++ reason ∧
      (reason = [] ∨ reason.head? = some 32)

/-- What is read back is the status line, one line for each of the properties, one of them with the
length of the body, and the body. -/
def WellFormed (r : HttpResponse) (mHeaders : Headers) (out : Bytes) : Prop :=
  ∃ status lines, readHead out = some (status :: lines, r.mBody) ∧
    IsStatusLine r.mVersion r.mStatus status ∧
    lines.Perm (mHeaders.map HttpResponse.headerLine) ∧
    (lines.filter IsContentLength).map fieldValue = [decimal r.mBody.length]

/-- **Lines without an end of line in them are read back.** -/
theorem readHead_lines {lines : List Bytes} (hne : lines ≠ [])
    (h : ∀ line ∈ lines, ¬ CRLF <:+: line ∧ line ≠ []) (body : Bytes) :
    readHead (lines.flatMap (· ++ CRLF) ++ CRLF ++ body) = some (lines, body) := by
  have hpat : (13 : UInt8) ∉ ([10] : Bytes) := by decide
  let head := lines.flatMap (· ++ CRLF)
  obtain ⟨blank, hblank, hfind⟩ := find_blank_lines hpat hne h body
  have hend : blank + 2 = head.length := hblank
  have hrest : blank + 4 = (head ++ CRLF).length := by
    rw [List.length_append, ← hend]
    rfl
  have hfind' : find BLANK_LINE (head ++ CRLF ++ body) = some blank := by
    rw [List.append_assoc]
    exact hfind
  have hcount : lines.length ≤ (head ++ (CRLF ++ body)).length :=
    (length_le_flatMap (by decide : CRLF ≠ []) _).trans (List.prefix_append head _).length_le
  have hlines : pieces CRLF (head ++ (CRLF ++ body)).length head = lines :=
    pieces_flatMap hpat (fun line hl => (h line hl).1) hcount
  change readHead (head ++ CRLF ++ body) = _
  rw [readHead, hfind', Option.map_some, hend, hrest, List.drop_left, List.append_assoc,
    List.take_left, hlines]

/-- The lines that are read have no end of line in them, and the first is what comes before the
first end of line. -/
theorem lines_of_readHead {out body : Bytes} {line : Bytes} {lines : List Bytes}
    (h : readHead out = some (line :: lines, body)) :
    (∀ l ∈ line :: lines, ¬ CRLF <:+: l) ∧
      ∃ n, find CRLF out = some n ∧ line = out.take n := by
  obtain ⟨blank, -, hread⟩ := Option.map_eq_some_iff.mp h
  have hpieces := congrArg Prod.fst hread
  dsimp only at hpieces
  refine ⟨fun l hl => not_isInfix_of_mem_pieces (by decide) (hpieces ▸ hl), ?_⟩
  cases hlen : out.length with
  | zero => simp [hlen, pieces] at hpieces
  | succ n =>
    rw [hlen, pieces] at hpieces
    cases hf : find CRLF (out.take (blank + 2)) with
    | none => simp [hf] at hpieces
    | some i =>
      rw [hf] at hpieces
      obtain ⟨hfind, hle⟩ := (find_prefix_iff (List.take_prefix _ _) (by decide)).mp hf
      have hi : i ≤ blank + 2 := by
        have := hle.trans (List.length_take_le _ _)
        omega
      refine ⟨i, hfind, ?_⟩
      rw [← (List.cons.inj hpieces).1, List.take_take, Nat.min_eq_left hi]

/-! ### Lines of properties -/

theorem fieldName_headerLine {key value : Bytes} (h : 58 ∉ key) :
    fieldName (HttpResponse.headerLine (key, value)) = key.map toLower := by
  have htake : (key ++ ascii ": " ++ value).takeWhile (· ≠ 58) = key := by
    have hname : ∀ c ∈ key, decide (c ≠ 58) = true := fun c hc => by
      simpa using ne_of_mem_of_not_mem hc h
    rw [List.append_assoc, List.takeWhile_append_of_pos hname]
    simp [ascii]
  rw [fieldName, HttpResponse.headerLine, htake]

theorem fieldValue_headerLine {key value : Bytes} (h : 58 ∉ key) :
    fieldValue (HttpResponse.headerLine (key, value)) = trim value := by
  have hdrop : (key ++ ascii ": " ++ value).dropWhile (· ≠ 58) = 58 :: 32 :: value := by
    have hname : ∀ c ∈ key, decide (c ≠ 58) = true := fun c hc => by
      simpa using ne_of_mem_of_not_mem hc h
    rw [List.append_assoc, List.dropWhile_append_of_pos hname]
    rfl
  rw [fieldValue, HttpResponse.headerLine, hdrop, List.drop_one, List.tail_cons, trim_cons_space]

/-- The separator has no part of an end of line. -/
theorem isInfix_headerLine_iff {header : Bytes × Bytes} :
    CRLF <:+: HttpResponse.headerLine header ↔ CRLF <:+: header.1 ∨ CRLF <:+: header.2 := by
  have hline : HttpResponse.headerLine header = header.1 ++ 58 :: ([] ++ 32 :: header.2) := by
    simp [HttpResponse.headerLine, ascii]
  rw [hline, isInfix_append_cons_iff (by decide), isInfix_append_cons_iff (by decide)]
  simp [CRLF]

/-! ### The properties that are generated -/

theorem mem_foldl_assignHeader {m ws : Headers} (hm : Keyed m) (hws : Keyed ws)
    {header : Bytes × Bytes} :
    header ∈ ws.foldl (fun m w => assignHeader m w.1 w.2) m ↔
      header ∈ ws ∨ (header ∈ m ∧ header.1 ∉ ws.map Prod.fst) := by
  induction ws generalizing m with
  | nil => simp
  | cons w ws ih =>
    obtain ⟨hnot, hrest⟩ := List.nodup_cons.mp hws
    rw [List.foldl_cons, ih (keyed_assignHeader hm _ _) hrest, mem_assignHeader hm, List.mem_cons,
      List.map_cons, List.mem_cons, not_or]
    constructor
    · rintro (hmem | ⟨rfl | ⟨hmem, hne⟩, hk⟩)
      · exact .inl (.inr hmem)
      · exact .inl (.inl rfl)
      · exact .inr ⟨hmem, hne, hk⟩
    · rintro ((rfl | hmem) | ⟨hmem, hne, hk⟩)
      · exact .inr ⟨.inl rfl, hnot⟩
      · exact .inl hmem
      · exact .inr ⟨.inr ⟨hmem, hne⟩, hk⟩

theorem keyed_foldl_assignHeader {m : Headers} (hm : Keyed m) (ws : Headers) :
    Keyed (ws.foldl (fun m w => assignHeader m w.1 w.2) m) := by
  induction ws generalizing m with
  | nil => exact hm
  | cons w ws ih => exact ih (keyed_assignHeader hm _ _)

namespace HttpResponse

variable {r r' : HttpResponse} {iterate : Headers → Headers} {out : Bytes}

def contentHeaders (r : HttpResponse) : Headers :=
  (if r.mContentType ≠ .UNKNOWN then
    [(ascii "Content-Type", if r.mCharSet ≠ .UNKNOWN then
      r.mContentType.toCstr ++ ascii "; " ++ r.mCharSet.toCstr else r.mContentType.toCstr)]
  else []) ++ [(ascii "Content-Length", toDecimal r.mContentLength)]

def rangeHeaders (r : HttpResponse) : Headers :=
  if r.mContentRange.total ≠ 0 then
    [(ascii "Content-Range", ascii "bytes " ++ toDecimal r.mContentRange.start ++ ascii "-" ++
      toDecimal r.mContentRange.end_ ++ ascii "/" ++ toDecimal r.mContentRange.total)]
  else []

def connectionHeader (r : HttpResponse) : Bytes × Bytes :=
  (ascii "Connection", if r.mIsKeepAlive then ascii "keep-alive" else ascii "close")

/-- The properties that are set when the response is generated. -/
def written (r : HttpResponse) : Headers :=
  r.contentHeaders ++ r.rangeHeaders ++ [r.connectionHeader]

/-- The properties of the response when it is written. -/
def generated (r : HttpResponse) : Headers :=
  r.written.foldl (fun m w => assignHeader m w.1 w.2) r.mHeaders

theorem keys_written (r : HttpResponse) : (r.written.map Prod.fst).Sublist
    [ascii "Content-Type", ascii "Content-Length", ascii "Content-Range", ascii "Connection"] := by
  by_cases htype : r.mContentType = .UNKNOWN <;> by_cases hrange : r.mContentRange.total = 0 <;>
    simp [written, contentHeaders, rangeHeaders, connectionHeader, htype, hrange]

theorem keyed_written (r : HttpResponse) : Keyed r.written :=
  (keys_written r).nodup (by decide)

theorem key_of_mem_written {header : Bytes × Bytes} (h : header ∈ r.written) :
    ∀ c ∈ header.1, c ≠ 0 ∧ c ≠ 13 ∧ c ≠ 58 := by
  have hkeys : ∀ key ∈ [ascii "Content-Type", ascii "Content-Length", ascii "Content-Range",
      ascii "Connection"], key.all fun c => c ≠ 0 ∧ c ≠ 13 ∧ c ≠ 58 := by decide
  simpa using hkeys _ ((keys_written r).subset (List.mem_map_of_mem h))

/-- The texts of the values have no zero byte, and no part of an end of line. -/
theorem plain_of_all {s : Bytes} (h : s.all fun c => c ≠ 0 ∧ c ≠ 13) :
    ∀ c ∈ s, c ≠ 0 ∧ c ≠ 13 := by
  simpa using h

theorem plain_contentType (type : ContentType) : ∀ c ∈ type.toCstr, c ≠ 0 ∧ c ≠ 13 :=
  plain_of_all (by cases type <;> decide)

theorem plain_charSet (charSet : CharSet) : ∀ c ∈ charSet.toCstr, c ≠ 0 ∧ c ≠ 13 :=
  plain_of_all (by cases charSet <;> decide)

theorem plain_toDecimal (n : Int) : ∀ c ∈ toDecimal n, c ≠ 0 ∧ c ≠ 13 := by
  intro c hc
  rcases mem_toDecimal hc with rfl | hdigit
  · decide
  · constructor <;> rintro rfl <;> exact absurd hdigit (by decide)

/-- The values that are written have no zero byte, and no part of an end of line. -/
theorem value_of_mem_written {header : Bytes × Bytes} (h : header ∈ r.written) :
    ∀ c ∈ header.2, c ≠ 0 ∧ c ≠ 13 := by
  have happend : ∀ {s t : Bytes}, (∀ c ∈ s, c ≠ 0 ∧ c ≠ 13) → (∀ c ∈ t, c ≠ 0 ∧ c ≠ 13) →
      ∀ c ∈ s ++ t, c ≠ 0 ∧ c ≠ 13 := fun hs ht c hc => (List.mem_append.mp hc).elim (hs c) (ht c)
  simp only [written, contentHeaders, rangeHeaders, List.mem_append, List.mem_singleton] at h
  rcases h with ((h | rfl) | h) | rfl
  · split at h
    · obtain rfl := List.mem_singleton.mp h
      dsimp only
      split
      · exact happend (happend (plain_contentType _) (plain_of_all (by decide))) (plain_charSet _)
      · exact plain_contentType _
    · cases h
  · exact plain_toDecimal _
  · split at h
    · obtain rfl := List.mem_singleton.mp h
      refine happend (happend (happend (happend (happend ?_ (plain_toDecimal _)) ?_)
        (plain_toDecimal _)) ?_) (plain_toDecimal _)
      all_goals exact plain_of_all (by decide)
    · cases h
  · rw [connectionHeader]
    split <;> exact plain_of_all (by decide)

theorem cStr_of_mem_written {w : Bytes × Bytes} (h : w ∈ r.written) :
    cStr w.1 = w.1 ∧ cStr w.2 = w.2 :=
  ⟨cStr_of_not_mem fun hmem => (key_of_mem_written h 0 hmem).1 rfl,
    cStr_of_not_mem fun hmem => (value_of_mem_written h 0 hmem).1 rfl⟩

/-- Properties are set one after the other. -/
def setProperties (r : HttpResponse) (ws : Headers) : HttpResponse :=
  ws.foldl (fun r w => r.setProperty w.1 w.2) r

theorem setProperties_eq (r : HttpResponse) (ws : Headers) :
    r.setProperties ws = { r with
      mHeaders := ws.foldl (fun m w => assignHeader m (cStr w.1) (cStr w.2)) r.mHeaders } := by
  induction ws generalizing r with
  | nil => rfl
  | cons w ws ih => exact ih (r.setProperty w.1 w.2)

theorem setContent_eq (r : HttpResponse) : r.setContent = r.setProperties r.contentHeaders := by
  by_cases htype : r.mContentType = .UNKNOWN <;> by_cases hchar : r.mCharSet = .UNKNOWN <;>
    simp [setContent, contentHeaders, setProperties, htype, hchar] <;> rfl

theorem setRange_of_ok (h : r.setRange = .ok r') : r' = r.setProperties r.rangeHeaders := by
  unfold setRange at h
  dsimp only at h
  split at h
  · next htotal =>
    split at h
    · cases h
    · cases h
      simp [setProperties, rangeHeaders, htotal]
  · next htotal =>
    cases h
    simp [setProperties, rangeHeaders, htotal]

/-- The response is written with the properties that are generated. -/
theorem setConnection_of_ok (h : r.setContent.setRange = .ok r') :
    r'.setConnection = { r with mHeaders := r.generated } := by
  have hwritten : r'.setConnection = r.setProperties r.written := by
    rw [setRange_of_ok h, setContent_eq, written]
    simp only [setProperties_eq, List.foldl_append]
    rfl
  rw [hwritten, setProperties_eq, generated]
  congr 1
  refine List.foldl_ext _ _ _ fun m w hw => ?_
  obtain ⟨hkey, hvalue⟩ := cStr_of_mem_written hw
  rw [hkey, hvalue]

/-- What a response that is generated meets, and what it is generated from. -/
theorem generateResponse_of_ok (h : r.generateResponse iterate = .ok (out, r')) :
    r.mVersion ≠ .UNKNOWN ∧ r.mStatus ≠ .UNKNOWN ∧ r'.mHeaders = r.generated ∧
      out = r.statusLine ++ CRLF ++ (iterate r.generated).flatMap (headerLine · ++ CRLF) ++ CRLF ++
        r.mBody := by
  unfold generateResponse validateResponse at h
  split at h
  · cases h
  · next hversion =>
    split at h
    · cases h
    · next hstatus =>
      split at h
      · cases h
      · cases hset : r.setContent.setRange with
        | error e =>
          simp only [ok_bind, hset] at h
          cases h
        | ok r₂ =>
          simp only [ok_bind, hset, setConnection_of_ok hset] at h
          cases h
          exact ⟨hversion, hstatus, rfl, rfl⟩

/-! ### Well-formed texts -/

/-- The version and the status have a text, the length that is set is that of the body, and a
property that stays as it was set has no end of line and is no other length. -/
structure Renders (r : HttpResponse) : Prop where
  version : r.mVersion = .HTTP1_0 ∨ r.mVersion = .HTTP1_1
  status : r.mStatus ≠ .UNAUTHORIZED ∧ r.mStatus ≠ .HTTP_VERSION_NO_SUPPORT
  length : r.mContentLength = r.mBody.length
  lines : ∀ header ∈ r.mHeaders, header.1 ∉ r.written.map Prod.fst →
    ¬ CRLF <:+: header.1 ∧ ¬ CRLF <:+: header.2 ∧ ¬ IsContentLength (headerLine header)

theorem mem_generated (h : Keyed r.mHeaders) {header : Bytes × Bytes} :
    header ∈ r.generated ↔ header ∈ r.written ∨
      (header ∈ r.mHeaders ∧ header.1 ∉ r.written.map Prod.fst) :=
  mem_foldl_assignHeader h (keyed_written r)

theorem isStatusLine_iff (hversion : r.mVersion ≠ .UNKNOWN) (hstatus : r.mStatus ≠ .UNKNOWN) :
    IsStatusLine r.mVersion r.mStatus r.statusLine ↔
      (r.mVersion = .HTTP1_0 ∨ r.mVersion = .HTTP1_1) ∧
        r.mStatus ≠ .UNAUTHORIZED ∧ r.mStatus ≠ .HTTP_VERSION_NO_SUPPORT := by
  rw [statusLine]
  generalize r.mVersion = version at hversion ⊢
  generalize r.mStatus = status at hstatus ⊢
  constructor
  · rintro ⟨text, reason, htext, -, hline, -⟩
    -- the version and the code stand where the line starts, and nine characters later
    have hfirst := congrArg List.head? hline
    have hcode := congrArg (fun text => text[9]?) hline
    cases version with
    | UNKNOWN => exact absurd rfl hversion
    | HTTP3_0 =>
      obtain rfl := Option.some.inj htext
      simp [Version.toCstr, ascii] at hfirst
    | HTTP1_0 =>
      obtain rfl := Option.some.inj htext
      refine ⟨.inl rfl, ?_, ?_⟩ <;> rintro rfl <;>
        simp [Version.toCstr, StatusCode.toCstr, StatusCode.toUnsigned, ascii, decimal,
          Nat.toDigits, Nat.toDigitsCore, Nat.digitChar] at hcode
    | HTTP1_1 =>
      obtain rfl := Option.some.inj htext
      refine ⟨.inr rfl, ?_, ?_⟩ <;> rintro rfl <;>
        simp [Version.toCstr, StatusCode.toCstr, StatusCode.toUnsigned, ascii, decimal,
          Nat.toDigits, Nat.toDigitsCore, Nat.digitChar] at hcode
  · rintro ⟨hv, hs⟩
    refine ⟨version.toCstr, status.toCstr.drop 3, ?_, ?_, ?_, ?_⟩
    · rcases hv with rfl | rfl <;> rfl
    · cases status <;> first | exact absurd rfl hstatus | decide
    · rcases hv with rfl | rfl <;> cases status <;> simp_all <;> decide
    · cases status <;> simp_all <;> decide

theorem contentLength_mem_written (r : HttpResponse) :
    (ascii "Content-Length", toDecimal r.mContentLength) ∈ r.written := by
  simp [written, contentHeaders]

theorem isContentLength_contentLength (value : Bytes) :
    IsContentLength (headerLine (ascii "Content-Length", value)) := by
  rw [IsContentLength, fieldName_headerLine (by decide)]
  decide

/-- Of the properties that are written, one is the length. -/
theorem eq_of_mem_written {header : Bytes × Bytes} (h : header ∈ r.written)
    (hlength : IsContentLength (headerLine header)) :
    header = (ascii "Content-Length", toDecimal r.mContentLength) := by
  have hcolon : (58 : UInt8) ∉ header.1 := fun hmem => (key_of_mem_written h 58 hmem).2.2 rfl
  rw [IsContentLength, fieldName_headerLine hcolon] at hlength
  have hkeys : ∀ key ∈ [ascii "Content-Type", ascii "Content-Length", ascii "Content-Range",
      ascii "Connection"], key.map toLower = ascii "content-length" →
        key = ascii "Content-Length" := by decide
  have hkey := hkeys _ ((keys_written r).subset (List.mem_map_of_mem h)) hlength
  exact List.inj_on_of_nodup_map (keyed_written r) h (contentLength_mem_written r) hkey

theorem fieldValue_contentLength (n : Int) :
    fieldValue (headerLine (ascii "Content-Length", toDecimal n)) = toDecimal n := by
  have hspace : (32 : UInt8) ∉ toDecimal n := by
    intro hmem
    rcases mem_toDecimal hmem with h | h <;> exact absurd h (by decide)
  rw [fieldValue_headerLine (by decide), trim_of_ends]
  · exact fun h => hspace (List.mem_of_mem_head? h)
  · exact fun h => hspace (List.mem_of_getLast? h)

theorem not_mem_statusLine (r : HttpResponse) : 13 ∉ r.statusLine := by
  rw [statusLine]
  generalize r.mVersion = version
  generalize r.mStatus = status
  cases version <;> cases status <;> decide

/-- The head of a generated response, line by line. -/
theorem out_eq_lines (r : HttpResponse) (headers : Headers) :
    r.statusLine ++ CRLF ++ headers.flatMap (headerLine · ++ CRLF) ++ CRLF ++ r.mBody =
      (r.statusLine :: headers.map headerLine).flatMap (· ++ CRLF) ++ CRLF ++ r.mBody := by
  rw [List.flatMap_cons, List.flatMap_map]

/-- A response that renders is read back. -/
theorem wellFormed_of_renders (hkeyed : Keyed r.mHeaders)
    (hiterate : ∀ m, (iterate m).Perm m) (hversion : r.mVersion ≠ .UNKNOWN)
    (hstatus : r.mStatus ≠ .UNKNOWN) (h : Renders r) :
    WellFormed r r.generated (r.statusLine ++ CRLF ++
      (iterate r.generated).flatMap (headerLine · ++ CRLF) ++ CRLF ++ r.mBody) := by
  have hline : ∀ header ∈ r.generated, ¬ CRLF <:+: headerLine header ∧
      (IsContentLength (headerLine header) →
        header = (ascii "Content-Length", toDecimal r.mContentLength)) := by
    intro header hmem
    rw [isInfix_headerLine_iff, not_or]
    rcases (mem_generated hkeyed).mp hmem with hw | ⟨hset, hkey⟩
    · exact ⟨⟨not_isInfix_of_not_mem fun hc => (key_of_mem_written hw 13 hc).2.1 rfl,
        not_isInfix_of_not_mem fun hc => (value_of_mem_written hw 13 hc).2 rfl⟩,
        eq_of_mem_written hw⟩
    · obtain ⟨hk, hv, hlength⟩ := h.lines header hset hkey
      exact ⟨⟨hk, hv⟩, fun hl => absurd hl hlength⟩
  have hlines : ∀ line ∈ r.statusLine :: (iterate r.generated).map headerLine,
      ¬ CRLF <:+: line ∧ line ≠ [] := by
    refine List.forall_mem_cons.mpr ⟨⟨not_isInfix_of_not_mem (not_mem_statusLine r), ?_⟩, ?_⟩
    · simp [statusLine, ascii]
    · intro line hl
      obtain ⟨header, hheader, rfl⟩ := List.mem_map.mp hl
      exact ⟨(hline header ((hiterate _).mem_iff.mp hheader)).1, by simp [headerLine, ascii]⟩
  refine ⟨r.statusLine, (iterate r.generated).map headerLine, ?_,
    (isStatusLine_iff hversion hstatus).mpr ⟨h.version, h.status⟩, (hiterate _).map _, ?_⟩
  · rw [out_eq_lines, readHead_lines (by simp) hlines]
  · -- the lines of a length are those of one property, which is there once
    have hfilter :
        (iterate r.generated).filter (fun header => IsContentLength (headerLine header)) =
          (iterate r.generated).filter
            (· = (ascii "Content-Length", toDecimal r.mContentLength)) := by
      refine List.filter_congr fun header hheader => decide_eq_decide.mpr ⟨?_, ?_⟩
      · exact (hline header ((hiterate _).mem_iff.mp hheader)).2
      · rintro rfl
        exact isContentLength_contentLength _
    have hmem : (ascii "Content-Length", toDecimal r.mContentLength) ∈ iterate r.generated :=
      (hiterate _).mem_iff.mpr
        ((mem_generated hkeyed).mpr (.inl (contentLength_mem_written r)))
    have hnodup : (iterate r.generated).Nodup :=
      (hiterate _).nodup_iff.mpr (keyed_foldl_assignHeader hkeyed _).of_map
    rw [List.filter_map, List.map_map]
    change (List.filter (fun header => IsContentLength (headerLine header)) _).map _ = _
    rw [hfilter, List.filter_eq, List.count_eq_one_of_mem hnodup hmem, List.replicate_one,
      List.map_singleton, Function.comp_apply, fieldValue_contentLength,
      toDecimal_eq_iff.mpr h.length]

/-- What is read back of a response. -/
theorem renders_of_wellFormed (hkeyed : Keyed r.mHeaders)
    (hversion : r.mVersion ≠ .UNKNOWN) (hstatus : r.mStatus ≠ .UNKNOWN)
    (h : WellFormed r r.generated (r.statusLine ++ CRLF ++
      (iterate r.generated).flatMap (headerLine · ++ CRLF) ++ CRLF ++ r.mBody)) : Renders r := by
  obtain ⟨status, lines, hread, hline, hperm, hlength⟩ := h
  obtain ⟨hfree, n, hfind, rfl⟩ := lines_of_readHead hread
  -- the status line has no end of line in it, so it is the line that is read
  have hfirst : find CRLF (r.statusLine ++ CRLF ++
      (iterate r.generated).flatMap (headerLine · ++ CRLF) ++ CRLF ++ r.mBody) =
        some r.statusLine.length := by
    simp only [List.append_assoc]
    rw [← List.append_assoc]
    exact find_append_cons (not_mem_statusLine r) _
  obtain rfl := Option.some.inj (hfirst.symm.trans hfind)
  simp only [List.append_assoc, List.take_left] at hline
  obtain ⟨hv, hs⟩ := (isStatusLine_iff hversion hstatus).mp hline
  have hcontent := (mem_generated hkeyed).mpr (.inl (contentLength_mem_written r))
  -- the properties with the name of the length, of which there is one
  have hcount := (hperm.filter (fun line => IsContentLength line)).length_eq
  have hlen := congrArg List.length hlength
  rw [List.length_map, hcount, List.filter_map, List.length_map, List.length_singleton] at hlen
  obtain ⟨only, honly⟩ := List.length_eq_one_iff.mp hlen
  have heq : ∀ header ∈ r.generated, IsContentLength (headerLine header) → header = only := by
    intro header hmem hl
    have hin : header ∈ [only] := honly ▸ List.mem_filter.mpr ⟨hmem, by simpa using hl⟩
    exact List.mem_singleton.mp hin
  refine ⟨hv, hs, ?_, fun header hmem hkey => ?_⟩
  · have hin : headerLine (ascii "Content-Length", toDecimal r.mContentLength) ∈
        lines.filter IsContentLength := by
      refine List.mem_filter.mpr ⟨hperm.mem_iff.mpr (List.mem_map_of_mem hcontent), ?_⟩
      simpa using isContentLength_contentLength _
    have hvalue := List.mem_map_of_mem (f := fieldValue) hin
    rw [hlength, fieldValue_contentLength, List.mem_singleton] at hvalue
    exact toDecimal_eq_iff.mp hvalue
  · have hgen := (mem_generated hkeyed).mpr (.inr ⟨hmem, hkey⟩)
    have hsub := hfree (headerLine header)
      (List.mem_cons_of_mem _ (hperm.mem_iff.mpr (List.mem_map_of_mem hgen)))
    rw [isInfix_headerLine_iff, not_or] at hsub
    refine ⟨hsub.1, hsub.2, fun hl => hkey ?_⟩
    have hsame := (heq header hgen hl).trans
      (heq _ hcontent (isContentLength_contentLength _)).symm
    rw [hsame]
    exact List.mem_map_of_mem (contentLength_mem_written r)

/-- **The text of a response is well formed** exactly when the response renders. -/
theorem wellFormed_iff (codec : Compressors) (calls : List Setter)
    (hiterate : ∀ m, (iterate m).Perm m)
    (h : (after codec calls).generateResponse iterate = .ok (out, r')) :
    WellFormed (after codec calls) r'.mHeaders out ↔ (after codec calls).Renders := by
  obtain ⟨hversion, hstatus, hheaders, rfl⟩ := generateResponse_of_ok h
  have hkeyed := keyed_after codec calls
  rw [hheaders]
  exact ⟨renders_of_wellFormed hkeyed hversion hstatus,
    wellFormed_of_renders hkeyed hiterate hversion hstatus⟩

/-- Compressors of a server that never compresses. -/
def noCompressors : Compressors := ⟨fun _ => .error "", id⟩

theorem wellFormed_iff_greeting :
    let calls := [Setter.setStatus .OK, .setVersion .HTTP1_1, .setContentType .PLAIN,
      .setBody (ascii "hello"), .setContentLength 5]
    ∃ out r', (after noCompressors calls).generateResponse List.reverse = .ok (out, r') ∧
      (WellFormed (after noCompressors calls) r'.mHeaders out ↔
        (after noCompressors calls).Renders) :=
  ⟨_, _, rfl, wellFormed_iff noCompressors _ List.reverse_perm rfl⟩

/-- The status has no text: the status line is `HTTP/1.1 UNKNOWN`. -/
theorem not_wellFormed_unauthorized :
    ¬ ∀ (codec : Compressors) (calls : List Setter) (iterate : Headers → Headers) (out : Bytes)
      (r' : HttpResponse), (∀ m, (iterate m).Perm m) →
        (after codec calls).generateResponse iterate = .ok (out, r') →
          WellFormed (after codec calls) r'.mHeaders out := by
  intro h
  let calls := [Setter.setStatus .UNAUTHORIZED, .setVersion .HTTP1_1, .setContentLength 0]
  have hgen : ∃ out r', (after noCompressors calls).generateResponse id = .ok (out, r') :=
    ⟨_, _, rfl⟩
  obtain ⟨out, r', hok⟩ := hgen
  have hformed := h noCompressors calls id out r' List.Perm.refl hok
  obtain ⟨hversion, hstatus, hheaders, rfl⟩ := generateResponse_of_ok hok
  rw [hheaders] at hformed
  have hrenders := renders_of_wellFormed (keyed_after noCompressors calls) hversion hstatus hformed
  exact hrenders.status.1 rfl

end HttpResponse

end SimpleTcp
