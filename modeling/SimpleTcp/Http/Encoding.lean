import SimpleTcp.Http.Response
import SimpleTcp.Library.Machine

/-!
# The encoding of a response

A client lists the codings that it accepts, and the server takes the first of those that it reads.
The file is compressed when its extension says so: by `gzip` if that is the coding, and otherwise by
`deflate`, `br` included. The property that names the coding stays when the next file is not
compressed.

What a coding stands for is a parameter, and the compressors are taken to implement it.

## Main definitions

* `Lists`: a coding is an element of the list
* `Honest`: the body is the file in the coding that is named, which the client lists
* `ServesWell`: when a file is served honestly

## Main results

* `acceptEncodings_of_ok`: what the parser reads of the list
* `lists_iff_offered`: when the coding that is used is listed
* `honest_iff`: the calls that serve every file honestly
-/

namespace SimpleTcp

open Search Machine

/-! ### What the parser reads -/

/-- The codings of the header, as they are read. -/
def acceptEncodings (m : Headers) : List EncodingType :=
  match m.lookup (ascii "Accept-Encoding") with
  | none => []
  | some value => (split value [44]).map fun encoding => toEncodingType (strip encoding)

/-- The codings are those of the headers. -/
def ReadsEncodings (request : HttpRequest) : Prop :=
  request.mAcceptEncodings = acceptEncodings request.mHeaders

/-- A request without headers lists nothing. -/
theorem readsEncodings_parseUrl {requestLine : Bytes} {request request' : HttpRequest}
    (hm : request.mHeaders = []) (hr : ReadsEncodings request)
    (h : parseUrl requestLine request = .ok (some request')) :
    request'.mHeaders = [] ∧ ReadsEncodings request' := by
  unfold parseUrl at h
  split at h
  · cases h
  · split at h
    · cases h
    · dsimp only at h
      split at h
      · obtain ⟨mUrl, -, hok⟩ := ok_of_bind h
        cases hok
        exact ⟨hm, hr⟩
      · obtain ⟨mQueryParameters, -, hq⟩ := ok_of_bind h
        obtain ⟨mUrl, -, hok⟩ := ok_of_bind hq
        cases hok
        exact ⟨hm, hr⟩

theorem readsEncodings_parseRequestLine {raw : Bytes} {request : HttpRequest} {start_pos : Nat}
    (h : parseRequestLine raw = .ok (request, start_pos)) :
    request.mHeaders = [] ∧ ReadsEncodings request := by
  unfold parseRequestLine at h
  split at h
  · cases h
  · obtain ⟨requestLine, -, h⟩ := ok_of_bind h
    obtain ⟨request', hparse, hok⟩ := ok_of_bind h
    cases hok
    cases hline : parseStartLine requestLine { HttpRequest.create with mIsKeepAlive := false } with
    | error e =>
      rw [hline] at hparse
      cases hparse
    | ok result =>
      rw [hline] at hparse
      cases result with
      | none => cases hparse
      | some request' =>
        obtain rfl := Except.ok.inj hparse
        unfold parseStartLine at hline
        split at hline
        · cases hline
        · split at hline
          · cases hline
          · exact readsEncodings_parseUrl (by rfl) (by rfl) hline

/-- The content is read after the list. -/
theorem readsEncodings_parseContent {request request' : HttpRequest} (hr : ReadsEncodings request)
    (h : parseContent request = some request') :
    request'.mHeaders = request.mHeaders ∧ ReadsEncodings request' := by
  unfold parseContent at h
  split at h
  · cases h
    exact ⟨rfl, hr⟩
  · split at h
    · cases h
      exact ⟨rfl, hr⟩
    · split at h
      · cases h
      · split at h
        · cases h
          exact ⟨rfl, hr⟩
        · obtain ⟨mContentLength, -, hsome⟩ := Option.map_eq_some_iff.mp h
          cases hsome
          exact ⟨rfl, hr⟩

theorem readsEncodings_parseHeaders {headers : Bytes} {request request' : HttpRequest}
    (hm : request.mHeaders = []) (hr : ReadsEncodings request)
    (h : parseHeaders headers request = .ok (some request')) : ReadsEncodings request' := by
  have hnone : request.mAcceptEncodings = [] := by
    rw [hr, hm]
    rfl
  unfold parseHeaders at h
  split at h
  · cases h
    exact hr
  · obtain ⟨mHeaders, -, h⟩ := ok_of_bind h
    split at h
    · cases h
    · next request₁ hcontent =>
      obtain ⟨mRanges, -, hok⟩ := ok_of_bind h
      cases hok
      have hset : ReadsEncodings (setHeaders request mHeaders) := by
        rw [ReadsEncodings, setHeaders, hnone]
        rfl
      exact (readsEncodings_parseContent hset hcontent).2

/-- **What the parser reads of the list** is what the headers say. -/
theorem acceptEncodings_of_ok {raw : Bytes} {request : HttpRequest}
    (h : parseHttpRequest raw = .ok request) : ReadsEncodings request := by
  unfold parseHttpRequest at h
  obtain ⟨⟨request₁, start_pos⟩, hline, h⟩ := ok_of_bind h
  obtain ⟨⟨request₂, end_pos⟩, hblock, h⟩ := ok_of_bind h
  -- nothing is read of the list in the request line
  obtain ⟨hm, hr⟩ := readsEncodings_parseRequestLine hline
  -- the headers read it once
  have hheaders : ReadsEncodings request₂ := by
    unfold parseHeaderBlock at hblock
    split at hblock
    · cases hblock
    · obtain ⟨headers, -, hblock⟩ := ok_of_bind hblock
      obtain ⟨request', hparse, hok⟩ := ok_of_bind hblock
      cases hok
      cases hrun : parseHeaders headers request₁ with
      | error e =>
        rw [hrun] at hparse
        cases hparse
      | ok result =>
        rw [hrun] at hparse
        cases result with
        | none => cases hparse
        | some request' =>
          obtain rfl := Except.ok.inj hparse
          exact readsEncodings_parseHeaders hm hr hrun
  -- and the body leaves it as it is
  dsimp only at h
  unfold parseBody at h
  dsimp only at h
  split at h
  · cases h
  · obtain ⟨mBody, -, hok⟩ := ok_of_bind h
    cases hok
    exact hheaders

/-! ### The list of the client -/

/-- What stands between two commas. -/
def IsElement (value piece : Bytes) : Prop :=
  44 ∉ piece ∧ ∃ before after, value = before ++ piece ++ after ∧
    (before = [] ∨ before.getLast? = some 44) ∧ (after = [] ∨ after.head? = some 44)

/-- The coding that an element names, without its weight. -/
def codingOf (piece : Bytes) : Bytes := (trim (piece.takeWhile (· ≠ 59))).map toLower

def Lists (value name : Bytes) : Prop := ∃ piece, IsElement value piece ∧ codingOf piece = name

/-- The name of a coding: no comma, no semicolon and no zero byte, in lower case. -/
structure IsName (name : Bytes) : Prop where
  ne_nil : name ≠ []
  comma : 44 ∉ name
  semicolon : 59 ∉ name
  zero : 0 ∉ name
  lower : name.map toLower = name

theorem codingOf_of_trim {piece name : Bytes} (hname : IsName name) (h : trim piece = name) :
    codingOf piece = name := by
  have hsemi : 59 ∉ piece := fun hmem => hname.semicolon (h ▸ mem_trim hmem (by decide))
  have htake : piece.takeWhile (· ≠ 59) = piece :=
    List.takeWhile_eq_self_iff.mpr fun c hc => by simpa using ne_of_mem_of_not_mem hc hsemi
  rw [codingOf, htake, h, hname.lower]

/-- The first piece is what stands before a comma, or a C string without any. -/
theorem split_head (value : Bytes) :
    (44 ∈ value ∧ ∃ piece, (split value [44]).head? = some piece ∧ IsElement value piece) ∨
      ((44 ∈ value → 44 ∈ cStr value) ∧ (split value [44]).head? = some (cStr value)) := by
  unfold split
  split
  · next hnone =>
    -- there is nothing but commas
    have hall : ∀ c ∈ value, c = 44 := by simpa [findFirstNotOf] using hnone
    have hwhole : cStr value = value :=
      List.takeWhile_eq_self_iff.mpr fun c hc => by rw [hall c hc]; decide
    exact .inr ⟨fun h => hwhole.symm ▸ h, rfl⟩
  · next start_pos hstart =>
    have hstart' : value.findIdx? (· ∉ [44]) = some start_pos := by
      simpa [findFirstNotOf] using hstart
    obtain ⟨hlt, hfirst, hbefore⟩ := List.findIdx?_eq_some_iff_getElem.mp hstart'
    have hcommas : ∀ c ∈ value.take start_pos, c = 44 := by
      intro c hc
      obtain ⟨i, hi, rfl⟩ := List.getElem_of_mem hc
      have hi' : i < start_pos := by
        rw [List.length_take] at hi
        omega
      rw [List.getElem_take]
      simpa using hbefore i hi'
    have hdrop : ∀ {i : Nat} (hi : i < value.length), [44] <+: value.drop i ↔ value[i] = 44 := by
      intro i hi
      rw [List.drop_eq_getElem_cons hi, List.cons_prefix_cons]
      exact ⟨fun h => h.1.symm, fun h => ⟨h.symm, List.nil_prefix⟩⟩
    split
    · next hnone =>
      -- no comma follows, so one that comes before starts the string
      refine .inr ⟨fun hmem => ?_, rfl⟩
      rw [← List.take_append_drop start_pos value, List.mem_append] at hmem
      rcases hmem with hmem | hmem
      · cases value with
        | nil => simp at hmem
        | cons c value =>
          have hc : c = 44 := by
            cases start_pos with
            | zero => simp at hmem
            | succ n => exact hcommas c (by simp)
          simp [cStr, hc]
      · obtain ⟨i, hi, heq⟩ := List.getElem_of_mem hmem
        have hnot := find_eq_none_iff.mp (Option.map_eq_none_iff.mp hnone) i
        rw [List.drop_drop] at hnot
        rw [List.length_drop] at hi
        rw [List.getElem_drop] at heq
        exact absurd ((hdrop (by omega)).mpr heq) hnot
    · next end_pos hend =>
      obtain ⟨hle, hpre, hno⟩ := findFrom_eq_some_iff.mp hend
      have hend' : end_pos < value.length := by
        have hlen := le_of_findFrom hend (by simp)
        rw [List.length_singleton] at hlen
        omega
      have hcomma : value[end_pos] = 44 := (hdrop hend').mp hpre
      refine .inl ⟨hcomma ▸ List.getElem_mem hend', Vec.slice value start_pos (end_pos - start_pos),
        ?_, ?_, value.take start_pos, value.drop end_pos, ?_, ?_, .inr ?_⟩
      · obtain ⟨n, hn⟩ : ∃ n, value.length = n + 1 := ⟨value.length - 1, by omega⟩
        rw [hn, splitLoop, List.head?_cons]
      · intro hmem
        obtain ⟨i, hi, heq⟩ := List.getElem_of_mem hmem
        rw [Vec.length_slice (by omega)] at hi
        simp only [Vec.slice, List.getElem_take, List.getElem_drop] at heq
        exact hno (start_pos + i) (by omega) (by omega) ((hdrop (by omega)).mpr heq)
      · have hsplit : Vec.slice value start_pos (end_pos - start_pos) ++ value.drop end_pos =
            value.drop start_pos := by
          rw [Vec.slice, show end_pos = start_pos + (end_pos - start_pos) by omega,
            ← List.drop_drop, Nat.add_sub_cancel_left, List.take_append_drop]
        rw [List.append_assoc, hsplit, List.take_append_drop]
      · refine (List.eq_nil_or_concat' (value.take start_pos)).imp_right ?_
        rintro ⟨front, c, heq⟩
        rw [heq, List.getLast?_concat, hcommas c (by rw [heq]; simp)]
      · rw [List.drop_eq_getElem_cons hend', List.head?_cons, hcomma]

/-- **A coding that is read first is listed**, unless a zero byte ends the C string that is read. -/
theorem lists_iff {value piece name : Bytes} (hname : IsName name)
    (hfirst : (split value [44]).head? = some piece) (htrim : trim piece = name) :
    Lists value name ↔ 44 ∈ value ∨ 0 ∉ value := by
  rcases split_head value with ⟨hcomma, piece', hpiece, helem⟩ | ⟨hcomma, hpiece⟩
  · obtain rfl := Option.some.inj (hfirst.symm.trans hpiece)
    exact iff_of_true ⟨piece, helem, codingOf_of_trim hname htrim⟩ (.inl hcomma)
  · obtain rfl := Option.some.inj (hfirst.symm.trans hpiece)
    have hnone : 44 ∉ value := fun hmem =>
      hname.comma (htrim ▸ mem_trim (hcomma hmem) (by decide))
    -- the list has one element
    have honly : ∀ p, IsElement value p ↔ p = value := by
      intro p
      constructor
      · rintro ⟨-, before, after, heq, hbefore, hafter⟩
        have hb : before = [] := hbefore.resolve_right fun hlast => hnone (by
          rw [heq]
          exact List.mem_append_left _ (List.mem_append_left _ (List.mem_of_getLast? hlast)))
        have ha : after = [] := hafter.resolve_right fun hhead => hnone (by
          rw [heq]
          exact List.mem_append_right _ (List.mem_of_mem_head? hhead))
        simpa [hb, ha] using heq.symm
      · rintro rfl
        exact ⟨hnone, [], [], by simp, .inl rfl, .inl rfl⟩
    have hlists : Lists value name ↔ codingOf value = name := by
      simp [Lists, honly]
    rw [hlists, or_iff_right hnone]
    constructor
    · -- the zero byte would be in the name
      rintro hcoding hzero
      obtain ⟨front, rest, heq, hfront⟩ := List.eq_append_cons_of_mem hzero
      have hc : cStr value = front := by
        rw [heq, cStr, List.takeWhile_append_of_pos fun c hc => by
          simpa using ne_of_mem_of_not_mem hc hfront]
        simp
      have hsemi : 59 ∉ front := fun hmem =>
        hname.semicolon (htrim ▸ mem_trim (hc.symm ▸ hmem) (by decide))
      have hmem : 0 ∈ value.takeWhile (· ≠ 59) := by
        rw [heq, List.takeWhile_append_of_pos fun c hc => by
          simpa using ne_of_mem_of_not_mem hc hsemi]
        simp
      refine hname.zero (hcoding ▸ ?_)
      exact List.mem_map.mpr ⟨0, mem_trim hmem (by decide), by decide⟩
    · intro hzero
      have hwhole : cStr value = value :=
        List.takeWhile_eq_self_iff.mpr fun c hc => by simpa using ne_of_mem_of_not_mem hc hzero
      exact codingOf_of_trim hname (by rwa [hwhole] at htrim)

/-! ### Serving files -/

/-- What a coding stands for, and compressors that implement it. -/
structure Implements (decode : EncodingType → Bytes → Option Bytes) (codec : Compressors) :
    Prop where
  gzip : ∀ content out, codec.compress_gzip content = .ok out → decode .GZIP out = some content
  deflate : ∀ content, decode .DEFLATE (codec.compress_deflate content) = some content

/-- A call of `setContentByFilePath`, and what reading the file meets. -/
structure FileCall where
  filePath : Bytes
  file : FileRead

/-- A call that throws has changed nothing. -/
def serve (codec : Compressors) (call : FileCall) : EStateM HttpStop HttpResponse Unit := fun r =>
  match r.setContentByFilePath codec call.filePath call.file with
  | .ok r' => .ok () r'
  | .error _ => .ok () r

section

variable (decode : EncodingType → Bytes → Option Bytes) (codec : Compressors)
  (value : Option Bytes)

/-- The body is the content in the coding with the name, which the client lists. -/
def Named (name content body : Bytes) : Prop :=
  ∃ encoding : EncodingType, name = encoding.toCstr ∧ decode encoding body = some content ∧
    ∃ v ∈ value, Lists v name

/-- The body is the content in the coding that the header names, and the length is its length. -/
def Honest (content : Bytes) (r : HttpResponse) : Prop :=
  r.mContentLength = r.mBody.length ∧
    match r.mHeaders.lookup (ascii "Content-Encoding") with
    | none => r.mBody = content
    | some name => Named decode value name content r.mBody

/-- After a call that returns, the response is honest about the content of the file. -/
def ServesHonestly (r : HttpResponse) (call : FileCall) : Prop :=
  ∀ content stored r', call.file = .file content stored →
    r.setContentByFilePath codec call.filePath call.file = .ok r' →
      Honest decode value content r'

/-- The coding that is used is listed: `deflate` where `br` is read. A coding that is read and used
is listed, unless a zero byte ends the list. -/
def Offered (value : Bytes) : EncodingType → Prop
  | .BR => Lists value (ascii "deflate")
  | _ => 44 ∈ value ∨ 0 ∉ value

/-- All of the file has been read; zero bytes stand for what has not. -/
def IsWhole (content stored : Bytes) : Prop := Vec.resize stored content.length = content

/-- A file that is compressed is read as a whole, in a coding that is offered. A file that is not
compressed finds no encoding left over from an earlier call, or one in which it happens to be. -/
def Fits (r : HttpResponse) (filePath content stored : Bytes) : Prop :=
  match r.selectEncodeType filePath with
  | .NO_ENCODING =>
    match r.mHeaders.lookup (ascii "Content-Encoding") with
    | none => IsWhole content stored
    | some name => Named decode value name content (Vec.resize stored content.length)
  | encoding => IsWhole content stored ∧ ∃ v ∈ value, Offered v encoding

def ServesWell (r : HttpResponse) (call : FileCall) : Prop :=
  ∀ content stored r', call.file = .file content stored →
    r.setContentByFilePath codec call.filePath call.file = .ok r' →
      Fits decode value r call.filePath content stored

end

theorem toCstr_inj {e e' : EncodingType} (h : e.toCstr = e'.toCstr) : e = e' := by
  revert h
  cases e <;> cases e' <;> decide

theorem isName_gzip : IsName (ascii "gzip") := by constructor <;> decide

theorem isName_deflate : IsName (ascii "deflate") := by constructor <;> decide

theorem toEncodingType_cases (type : Bytes) :
    (toEncodingType type = .GZIP ∧ type = ascii "gzip") ∨ toEncodingType type = .BR ∨
      (toEncodingType type = .DEFLATE ∧ type = ascii "deflate") ∨
        toEncodingType type = .NO_ENCODING := by
  unfold toEncodingType
  split
  · exact .inl ⟨rfl, ‹_›⟩
  · split
    · exact .inr (.inl rfl)
    · split
      · exact .inr (.inr (.inl ⟨rfl, ‹_›⟩))
      · exact .inr (.inr (.inr rfl))

section

variable {decode : EncodingType → Bytes → Option Bytes} {codec : Compressors} {m : Headers}
  {r r' : HttpResponse}

/-- The coding that is selected, and the name of the one that is used, which is listed when it is
offered. -/
theorem offered_of_select (filePath : Bytes) (hr : r.mAvailEncodings = acceptEncodings m)
    (h : r.selectEncodeType filePath ≠ .NO_ENCODING) :
    ∃ v, m.lookup (ascii "Accept-Encoding") = some v ∧
      ((r.selectEncodeType filePath = .GZIP ∧ (Lists v (ascii "gzip") ↔ Offered v .GZIP)) ∨
        (r.selectEncodeType filePath ≠ .GZIP ∧
          (Lists v (ascii "deflate") ↔ Offered v (r.selectEncodeType filePath)))) := by
  unfold HttpResponse.selectEncodeType at h ⊢
  rw [hr] at h ⊢
  unfold acceptEncodings at h ⊢
  cases hv : m.lookup (ascii "Accept-Encoding") with
  | none => simp [hv] at h
  | some v =>
    refine ⟨v, rfl, ?_⟩
    rw [hv] at h
    simp only at h ⊢
    cases hs : split v [44] with
    | nil => simp [hs] at h
    | cons piece pieces =>
      -- the list is not empty, and its first element decides
      have hfirst : (split v [44]).head? = some piece := by rw [hs, List.head?_cons]
      rw [hs] at h
      simp only [List.map_cons] at h ⊢
      split
      · rcases toEncodingType_cases (strip piece) with ⟨he, hstrip⟩ | he | ⟨he, hstrip⟩ | he
        · rw [strip_eq_trim] at hstrip
          exact .inl ⟨he, lists_iff isName_gzip hfirst hstrip⟩
        · rw [he]
          -- `BR` goes out under the name `deflate`
          exact .inr ⟨by simp, Iff.rfl⟩
        · rw [strip_eq_trim] at hstrip
          rw [he]
          exact .inr ⟨by simp, lists_iff isName_deflate hfirst hstrip⟩
        · next hext => exact absurd (by rw [if_pos hext, he]) h
      · next hext => exact absurd (if_neg hext) h

/-- A file in a coding that stands for what has been read of it. -/
theorem named_iff {v : Bytes} {encoding : EncodingType} {content stored body : Bytes}
    (hv : m.lookup (ascii "Accept-Encoding") = some v)
    (hbody : decode encoding body = some (Vec.resize stored content.length)) :
    Named decode (m.lookup (ascii "Accept-Encoding")) encoding.toCstr content body ↔
      IsWhole content stored ∧ Lists v encoding.toCstr := by
  rw [Named, hv]
  constructor
  · rintro ⟨encoding', hname, hdecode, v', hv', hlists⟩
    obtain rfl := toCstr_inj hname
    obtain rfl := Option.some.inj hv'
    exact ⟨Option.some.inj (hbody.symm.trans hdecode), hlists⟩
  · rintro ⟨hwhole, hlists⟩
    exact ⟨encoding, rfl, hbody.trans (congrArg some hwhole), v, rfl, hlists⟩

/-- The property that names the coding, when it has been set. -/
theorem lookup_setProperty (r : HttpResponse) (encoding : EncodingType) :
    (r.setProperty (ascii "Content-Encoding") encoding.toCstr).mHeaders.lookup
      (ascii "Content-Encoding") = some encoding.toCstr := by
  have hkey : cStr (ascii "Content-Encoding") = ascii "Content-Encoding" := by decide
  have hvalue : cStr encoding.toCstr = encoding.toCstr := by cases encoding <;> decide
  rw [HttpResponse.setProperty, lookup_assignHeader, hkey, hvalue, if_pos rfl]

/-- **A file is served honestly** exactly when it is served well. -/
theorem honest_iff_fits (hcodec : Implements decode codec)
    (hr : r.mAvailEncodings = acceptEncodings m) {filePath content stored : Bytes}
    (hok : r.setContentByFilePath codec filePath (.file content stored) = .ok r') :
    Honest decode (m.lookup (ascii "Accept-Encoding")) content r' ↔
      Fits decode (m.lookup (ascii "Accept-Encoding")) r filePath content stored := by
  obtain ⟨read, type, r₁, hread, -, hset, rfl⟩ := HttpResponse.setContentByFilePath_of_ok hok
  obtain rfl : Vec.resize stored content.length = read := Except.ok.inj hread
  rw [Honest, and_iff_right rfl]
  dsimp only
  have hoffered := offered_of_select filePath hr
  unfold Fits
  rcases HttpResponse.setEncodedBody_of_ok hset with
    ⟨he, rfl⟩ | ⟨he, body, hgzip, rfl⟩ | ⟨⟨hne, hne'⟩, rfl⟩
  · -- not compressed
    rw [he]
    exact Iff.rfl
  · -- by gzip
    obtain ⟨v, hv, ⟨-, hlists⟩ | ⟨hne, -⟩⟩ := hoffered (by simp [he])
    · rw [lookup_setProperty, he]
      simp only [HttpResponse.setProperty_mBody]
      rw [named_iff hv (hcodec.gzip _ _ hgzip), hv]
      simp only [Option.mem_some_iff, exists_eq_left']
      exact and_congr_right fun _ => hlists
    · exact absurd he hne
  · -- by deflate, whatever name was read
    obtain ⟨v, hv, ⟨he, -⟩ | ⟨-, hlists⟩⟩ := hoffered hne
    · exact absurd he hne'
    · rw [lookup_setProperty]
      simp only [HttpResponse.setProperty_mBody]
      rw [named_iff hv (hcodec.deflate _), hv]
      simp only [Option.mem_some_iff, exists_eq_left']
      refine (and_congr_right fun _ => hlists).trans ?_
      generalize r.selectEncodeType filePath = e at hne hne'
      cases e <;> first | exact absurd rfl hne | exact Iff.rfl

/-- The list of the client stays. -/
theorem mAvailEncodings_serve {call : FileCall} (h : (serve codec call).run r = .ok () r') :
    r'.mAvailEncodings = r.mAvailEncodings := by
  change serve codec call r = _ at h
  unfold serve at h
  split at h
  · next r₂ hok =>
    cases h
    obtain ⟨read, type, r₁, -, -, hset, rfl⟩ := HttpResponse.setContentByFilePath_of_ok hok
    rcases HttpResponse.setEncodedBody_of_ok hset with
      ⟨-, rfl⟩ | ⟨-, body, -, rfl⟩ | ⟨-, rfl⟩ <;> rfl
  · cases h
    rfl

/-- **Every call leaves an honest response** exactly when every call serves its file well. -/
theorem honest_iff (hcodec : Implements decode codec) {raw : Bytes} {request : HttpRequest}
    (hparse : parseHttpRequest raw = .ok request) (calls : List FileCall) :
    let value := request.mHeaders.lookup (ascii "Accept-Encoding")
    let response := HttpResponse.create.setAcceptEncodings request.mAcceptEncodings
    Along (serve codec) (ServesHonestly decode codec value) response calls ↔
      Along (serve codec) (ServesWell decode codec value) response calls := by
  intro value response
  refine Along.congr (P := fun _ _ => True)
    (I := fun r => r.mAvailEncodings = acceptEncodings request.mHeaders) ?_ ?_
    (show response.mAvailEncodings = _ from acceptEncodings_of_ok hparse)
    (Along.of_forall (fun _ _ => trivial) _ _)
  · intro r call hr
    refine forall_congr' fun content => forall_congr' fun stored => forall_congr' fun r' =>
      forall_congr' fun hfile => forall_congr' fun hok => ?_
    rw [hfile] at hok
    exact honest_iff_fits hcodec hr hok
  · intro r call r' hr _ hrun
    exact (mAvailEncodings_serve hrun).trans hr

end

/-! ### A page -/

def page : Bytes := List.replicate 64 97

/-- What `compress` makes of the page. -/
def deflatedPage : Bytes := [120, 156, 75, 76, 164, 12, 0, 0, 20, 141, 24, 65]

/-- The compressors on the page; another content is only marked. -/
def pageCompressors : Compressors where
  compress_gzip _ := .error "[Compress] deflate Z_NO_FLUSH failed"
  compress_deflate content := if content = page then deflatedPage else 0 :: content

def decodePage : EncodingType → Bytes → Option Bytes
  | .DEFLATE, out => if out = deflatedPage then some page else some out.tail
  | _, _ => none

theorem implements_page : Implements decodePage pageCompressors where
  gzip content out h := by cases h
  deflate content := by
    by_cases h : content = page
    · simp [pageCompressors, decodePage, h]
    · simp [pageCompressors, decodePage, h, deflatedPage]

/-- A request whose sender accepts `deflate`, and one whose sender accepts `br`. -/
def deflateRequest : Bytes := ascii "GET / HTTP/1.1\r\nAccept-Encoding: deflate\r\n\r\n"

def brRequest : Bytes := ascii "GET / HTTP/1.1\r\nAccept-Encoding: br\r\n\r\n"

def pageCall : FileCall := ⟨ascii "/index.html", .file page page⟩

/-- A picture is not compressed. -/
def pictureCall : FileCall := ⟨ascii "/icon.png", .file [1, 2, 3] [1, 2, 3]⟩

/-- The page is served honestly; the picture behind it is sent with the encoding of the page. -/
theorem honest_iff_page : ∃ request, parseHttpRequest deflateRequest = .ok request ∧
    let value := request.mHeaders.lookup (ascii "Accept-Encoding")
    let response := HttpResponse.create.setAcceptEncodings request.mAcceptEncodings
    Along (serve pageCompressors) (ServesHonestly decodePage pageCompressors value) response
        [pageCall] ∧
      ¬ Along (serve pageCompressors) (ServesHonestly decodePage pageCompressors value) response
        [pageCall, pictureCall] := by
  have hread : ∃ request ∈ (parseHttpRequest deflateRequest).toOption,
      request.mHeaders.lookup (ascii "Accept-Encoding") = some (ascii "deflate") ∧
        request.mAcceptEncodings = [.DEFLATE] := by
    decide +kernel
  obtain ⟨request, hrequest, hvalue, hdeflate⟩ := hread
  cases hparse : parseHttpRequest deflateRequest with
  | error e =>
    rw [hparse] at hrequest
    cases hrequest
  | ok request' =>
    rw [hparse] at hrequest
    obtain rfl := Option.some.inj hrequest
    refine ⟨request', rfl, (honest_iff implements_page hparse _).mpr ?_, fun hall => ?_⟩
    · rw [hvalue, hdeflate]
      refine ⟨fun content stored r' hfile _ => ?_, fun _ _ => trivial⟩
      cases hfile
      exact ⟨by unfold IsWhole; decide, ascii "deflate", rfl, .inr (by decide)⟩
    · have hwell := (honest_iff implements_page hparse _).mp hall
      rw [hvalue, hdeflate] at hwell
      -- the header of the page is there when the picture is served
      have hleft : ∃ r ∈ returned ((serve pageCompressors pageCall).run
          (HttpResponse.create.setAcceptEncodings [.DEFLATE])),
          r.selectEncodeType pictureCall.filePath = .NO_ENCODING ∧
            r.mHeaders.lookup (ascii "Content-Encoding") = some (ascii "deflate") ∧
            (r.setContentByFilePath pageCompressors pictureCall.filePath
              pictureCall.file).isOk := by
        decide +kernel
      obtain ⟨r, hr, hselect, hname, hok⟩ := hleft
      cases hserved : r.setContentByFilePath pageCompressors pictureCall.filePath
          pictureCall.file with
      | error e =>
        rw [hserved] at hok
        cases hok
      | ok r' =>
        have hpicture := (hwell.2 r (eq_ok_of_mem_returned hr)).1 _ _ r' rfl hserved
        unfold Fits at hpicture
        rw [hselect, hname] at hpicture
        obtain ⟨encoding, hcoding, hdecode, -⟩ := hpicture
        cases encoding <;> revert hcoding hdecode <;> decide

theorem length_codingOf_le (piece : Bytes) : (codingOf piece).length ≤ piece.length := by
  rw [codingOf, List.length_map, trim, List.rdropWhile, List.length_reverse]
  refine (List.dropWhile_suffix _).length_le.trans ?_
  rw [List.length_reverse]
  exact (List.dropWhile_suffix _).length_le.trans (List.takeWhile_prefix _).length_le

/-- A client that lists `br` alone is sent `deflate`. -/
theorem not_honest_br :
    ¬ ∀ (decode : EncodingType → Bytes → Option Bytes) (codec : Compressors) (raw : Bytes)
      (request : HttpRequest) (calls : List FileCall), Implements decode codec →
        parseHttpRequest raw = .ok request →
          Along (serve codec) (ServesHonestly decode codec
            (request.mHeaders.lookup (ascii "Accept-Encoding")))
            (HttpResponse.create.setAcceptEncodings request.mAcceptEncodings) calls := by
  intro h
  have hread : ∃ request ∈ (parseHttpRequest brRequest).toOption,
      request.mHeaders.lookup (ascii "Accept-Encoding") = some (ascii "br") ∧
        request.mAcceptEncodings = [.BR] := by
    decide +kernel
  obtain ⟨request, hrequest, hvalue, hbr⟩ := hread
  cases hparse : parseHttpRequest brRequest with
  | error e =>
    rw [hparse] at hrequest
    cases hrequest
  | ok request' =>
    rw [hparse] at hrequest
    obtain rfl := Option.some.inj hrequest
    have hrun := h decodePage pageCompressors brRequest request' [pageCall] implements_page hparse
    rw [hvalue, hbr] at hrun
    obtain ⟨-, hbody⟩ := hrun.1 page page _ rfl rfl
    obtain ⟨encoding, hname, -, v, hv, piece, ⟨-, before, after, heq, -⟩, hcoding⟩ := hbody
    -- the one element of the list is shorter than the name
    obtain rfl := Option.some.inj hv
    have hlen := congrArg List.length heq
    have hle := length_codingOf_le piece
    have hdeflate := congrArg List.length hcoding
    simp only [List.length_append] at hlen
    change _ = 7 at hdeflate
    change 2 = _ at hlen
    omega

end SimpleTcp
