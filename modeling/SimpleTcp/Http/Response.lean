import SimpleTcp.Http.Request

/-!
# Responses

The response of `HttpResponse.cpp`: its setters, the check before it is generated, and its text. The
properties are kept in the order in which they were set; the order in which the unordered map is
read is a parameter. A key or a value is cut at its first zero byte.

The compressors and the file system are parameters too: a file that cannot be opened, or that ends
early, leaves zero bytes in the buffer. Dates are given as text. A difference of the bounds of a
range that overflows is left out.

## Main definitions

* `HttpResponse`: the record, with its defaults
* `HttpResponse.setProperty`, `HttpResponse.setContentByFilePath`: the setters with a body
* `HttpResponse.generateResponse`: the text of a response
* `Setter`, `HttpResponse.apply`: the calls of a user

## Main results

* `mem_assignHeader`: the entries of a map in which a key is set
* `HttpResponse.setContentByFilePath_of_ok`: what a call that returns has done
* `HttpResponse.keyed_after`: every key is set once
-/

namespace SimpleTcp

inductive StatusCode where
  | UNKNOWN
  | OK
  | PARTIAL_CONTENT
  | MOVED_PERMANENTLY
  | BAD_REQUEST
  | UNAUTHORIZED
  | FORBIDDEN
  | NOT_FOUND
  | INTERNAL_SERVER_ERROR
  | METHOD_NOT_IMPLEMENTED
  | HTTP_VERSION_NO_SUPPORT
  deriving DecidableEq, Repr

inductive CharSet where
  | UNKNOWN
  | UTF_8
  | UTF_16
  | UTF_32
  deriving DecidableEq, Repr

/-! ### Names -/

def Version.toCstr : Version → Bytes
  | .HTTP1_0 => ascii "HTTP/1.0"
  | .HTTP1_1 => ascii "HTTP/1.1"
  | _ => ascii "UNKNOWN"

def StatusCode.toUnsigned : StatusCode → Nat
  | .UNKNOWN => 0
  | .OK => 200
  | .PARTIAL_CONTENT => 206
  | .MOVED_PERMANENTLY => 301
  | .BAD_REQUEST => 400
  | .UNAUTHORIZED => 401
  | .FORBIDDEN => 403
  | .NOT_FOUND => 404
  | .INTERNAL_SERVER_ERROR => 500
  | .METHOD_NOT_IMPLEMENTED => 501
  | .HTTP_VERSION_NO_SUPPORT => 505

def StatusCode.toCstr : StatusCode → Bytes
  | .OK => ascii "200 OK"
  | .PARTIAL_CONTENT => ascii "206 Partial Content"
  | .MOVED_PERMANENTLY => ascii "301 Moved Permanently"
  | .BAD_REQUEST => ascii "400 Bad Request"
  | .FORBIDDEN => ascii "403 Forbindden"
  | .NOT_FOUND => ascii "404 Not Found"
  | .INTERNAL_SERVER_ERROR => ascii "500 Internal Server Error"
  | .METHOD_NOT_IMPLEMENTED => ascii "501 Method Not Implemented"
  -- `UNAUTHORIZED` and `HTTP_VERSION_NO_SUPPORT` have no case of their own
  | _ => ascii "UNKNOWN"

def ContentType.toCstr : ContentType → Bytes
  | .BINARY => ascii "application/octet-stream"
  | .PLAIN => ascii "text/plain"
  | .HTML => ascii "text/html"
  | .CSS => ascii "text/css"
  | .JAVASCRIPT => ascii "application/x-javascript"
  | .XML => ascii "application/xml"
  | .JSON => ascii "application/json"
  | .JPEG => ascii "image/jpeg"
  | .PNG => ascii "image/png"
  | .GIF => ascii "image/gif"
  | .ICON => ascii "application/x-ico"
  | .MP4 => ascii "video/mpeg4"
  | .MPG => ascii "video/mpg"
  | .UNKNOWN => ascii "UNKNOWN"

def CharSet.toCstr : CharSet → Bytes
  | .UTF_8 => ascii "charset=UTF-8"
  | .UTF_16 => ascii "charset=UTF-16"
  | .UTF_32 => ascii "charset=UTF-32"
  | .UNKNOWN => ascii "UNKNOWN"

def EncodingType.toCstr : EncodingType → Bytes
  | .BR => ascii "br"
  | .GZIP => ascii "gzip"
  | .COMPRESS => ascii "compress"
  | .DEFLATE => ascii "deflate"
  | .NO_ENCODING => ascii "No encoding"

def Str2ContentType : List (Bytes × ContentType) :=
  [(ascii ".html", .HTML), (ascii ".jpg", .JPEG), (ascii ".png", .PNG), (ascii ".txt", .PLAIN),
    (ascii ".js", .JAVASCRIPT), (ascii ".json", .JSON), (ascii ".xml", .XML), (ascii ".mp4", .MP4),
    (ascii ".ico", .ICON), (ascii ".css", .CSS), (ascii ".mpeg", .MPG), (ascii ".mpg", .MPG)]

/-! ### Files -/

/-- `path::filename()`: what follows the last slash. -/
def filename (filePath : Bytes) : Bytes := (filePath.reverse.takeWhile (· ≠ 47)).reverse

/-- `path::extension()`: from the last dot on. The dot of a hidden file, or of the names of the
directory itself and of its parent, starts no extension. -/
def extension (filePath : Bytes) : Bytes :=
  let name := filename filePath
  let ext := name.reverse.takeWhile (· ≠ 46)
  if name = ascii "." ∨ name = ascii ".." ∨ name.length ≤ ext.length + 1 then []
  else 46 :: ext.reverse

/-- What reading a file meets: `file_size` throws, or gives the size of the content, of which `read`
has stored a part. -/
inductive FileRead where
  | missing (what : String)
  | file (content stored : Bytes)

/-- There is no result where `file_size` throws. -/
def readFile : FileRead → Except String Bytes
  | .missing what => .error what
  | .file content stored => .ok (Vec.resize stored content.length)

/-- `compress_gzip` throws when its buffer is too short. -/
structure Compressors where
  compress_gzip : Bytes → Except String Bytes
  compress_deflate : Bytes → Bytes

/-! ### The response -/

structure RangeType where
  start : Int
  end_ : Int
  total : Int
  deriving DecidableEq, Repr

structure HttpResponse where
  mStatus : StatusCode
  mVersion : Version
  mContentType : ContentType
  mContentLength : Int
  mContentRange : RangeType
  mIsKeepAlive : Bool
  mCharSet : CharSet
  mAvailEncodings : List EncodingType
  mHeaders : Headers
  mBody : Bytes
  deriving DecidableEq, Repr

/-- `at(key) = value`, or `insert` for a new key. -/
def assignHeader : Headers → Bytes → Bytes → Headers
  | [], key, value => [(key, value)]
  | header :: m, key, value =>
    if header.1 = key then (key, value) :: m else header :: assignHeader m key value

namespace HttpResponse

/-- `HttpResponse::HttpResponse`. -/
def create : HttpResponse where
  mStatus := .UNKNOWN
  mVersion := .UNKNOWN
  mContentType := .UNKNOWN
  mContentLength := -1
  mContentRange := ⟨0, 0, 0⟩
  mIsKeepAlive := false
  mCharSet := .UNKNOWN
  mAvailEncodings := []
  mHeaders := []
  mBody := []

def setProperty (r : HttpResponse) (key value : Bytes) : HttpResponse :=
  { r with mHeaders := assignHeader r.mHeaders (cStr key) (cStr value) }

@[simp] theorem setProperty_mBody (r : HttpResponse) (key value : Bytes) :
    (r.setProperty key value).mBody = r.mBody := rfl

/-- There is no date where `localtime_r` or `strftime` has failed. -/
def setDate (r : HttpResponse) (date_str : Option Bytes) : HttpResponse :=
  match date_str with
  | some date_str => r.setProperty (ascii "Date") date_str
  | none => r

def setAcceptEncodings (r : HttpResponse) (encodings : List EncodingType) : HttpResponse :=
  { r with mAvailEncodings := encodings }

def selectEncodeType (r : HttpResponse) (filePath : Bytes) : EncodingType :=
  match r.mAvailEncodings with
  | [] => .NO_ENCODING
  | encoding :: _ =>
    if extension filePath ∈ [ascii ".html", ascii ".xml", ascii ".js", ascii ".json"] then encoding
    else .NO_ENCODING

/-- The type of a file, by its extension; there is no result for an unknown one. -/
def contentTypeOf (filePath : Bytes) : Option ContentType :=
  if extension filePath = [] then some .BINARY
  else Str2ContentType.lookup (cStr (extension filePath))

/-- The body, and the property for its encoding. Every coding but `gzip` goes to `deflate`. -/
def setEncodedBody (r : HttpResponse) (codec : Compressors) (encoding : EncodingType)
    (content : Bytes) : Except String HttpResponse :=
  match encoding with
  | .NO_ENCODING => .ok { r with mBody := content }
  | .GZIP => do
    let mBody ← codec.compress_gzip content
    .ok ({ r with mBody }.setProperty (ascii "Content-Encoding") EncodingType.GZIP.toCstr)
  | _ =>
    .ok ({ r with mBody := codec.compress_deflate content }.setProperty (ascii "Content-Encoding")
      EncodingType.DEFLATE.toCstr)

/-- A text as part of a message. -/
def toText (s : Bytes) : String := String.ofList (s.map fun c => Char.ofNat c.toNat)

/-- The exceptions of the body, the one for an unknown type among them, are caught and thrown
again. -/
def setContentByFilePath (r : HttpResponse) (codec : Compressors) (filePath : Bytes)
    (file : FileRead) : Except HttpStop HttpResponse :=
  let result : Except String HttpResponse := do
    match contentTypeOf filePath with
    | none =>
      .error ("[setContentByFilePath] unsupport file type! Path:" ++ toText filePath)
    | some type =>
      let content ← readFile file
      let r' ← r.setEncodedBody codec (r.selectEncodeType filePath) content
      .ok { r' with mContentType := type, mContentLength := r'.mBody.length }
  match result with
  | .ok r' => .ok r'
  | .error what =>
    .error (.responseError ("[HttpResponse] Error happen, " ++ what) .FileNotFound)

def validateResponse (r : HttpResponse) : Except HttpStop Unit :=
  if r.mVersion = .UNKNOWN then
    .error (.responseError "[HttpResponse] please set http version correctly!" .BadVersion)
  else if r.mStatus = .UNKNOWN then
    .error (.responseError "[HttpResponse] please set status code correctly!" .BadStatus)
  else if r.mStatus.toUnsigned < 300 ∧ r.mContentLength < 0 then
    .error (.responseError "[HttpResponse] please set the length of response!" .BadContent)
  else .ok ()

/-- `Set content type and length`. -/
def setContent (r : HttpResponse) : HttpResponse :=
  let r :=
    if r.mContentType ≠ .UNKNOWN then
      if r.mCharSet ≠ .UNKNOWN then
        r.setProperty (ascii "Content-Type")
          (r.mContentType.toCstr ++ ascii "; " ++ r.mCharSet.toCstr)
      else r.setProperty (ascii "Content-Type") r.mContentType.toCstr
    else r
  r.setProperty (ascii "Content-Length") (toDecimal r.mContentLength)

/-- `Set content range`. -/
def setRange (r : HttpResponse) : Except HttpStop HttpResponse :=
  let range := r.mContentRange
  if range.total ≠ 0 then
    if range.end_ - range.start ≠ r.mContentLength then
      .error (.responseError (s!"[HttpResponse] range end({range.end_}) - start({range.start}) " ++
        s!"not equals to conetent length({r.mContentLength})") .BadContent)
    else
      .ok (r.setProperty (ascii "Content-Range") (ascii "bytes " ++ toDecimal range.start ++
        ascii "-" ++ toDecimal range.end_ ++ ascii "/" ++ toDecimal range.total))
  else .ok r

/-- `set keep-alive property`. -/
def setConnection (r : HttpResponse) : HttpResponse :=
  r.setProperty (ascii "Connection") (if r.mIsKeepAlive then ascii "keep-alive" else ascii "close")

def statusLine (r : HttpResponse) : Bytes := r.mVersion.toCstr ++ ascii " " ++ r.mStatus.toCstr

/-- A property as it is written. -/
def headerLine (header : Bytes × Bytes) : Bytes := header.1 ++ ascii ": " ++ header.2

/-- The text, and the response with the properties that are set on the way. `iterate` is the order
in which the map is read. -/
def generateResponse (iterate : Headers → Headers) (r : HttpResponse) :
    Except HttpStop (Bytes × HttpResponse) := do
  r.validateResponse
  let r ← r.setContent.setRange
  let r := r.setConnection
  let buffer := r.statusLine ++ CRLF ++ (iterate r.mHeaders).flatMap (headerLine · ++ CRLF) ++ CRLF
  .ok (buffer ++ r.mBody, r)

end HttpResponse

/-- A call of a public setter, and that of `setAcceptEncodings` by the server. -/
inductive Setter where
  | setStatus (status : StatusCode)
  | setVersion (version : Version)
  | setKeepAlive (enable : Bool)
  | setCharSet (charSet : CharSet)
  | setDate (date_str : Option Bytes)
  | setContentByFilePath (filePath : Bytes) (file : FileRead)
  | setBody (body : Bytes)
  | setContentType (contentType : ContentType)
  | setContentLength (contentLength : Int)
  | setContentRange (contentRange : RangeType)
  | setProperty (key value : Bytes)
  | setAcceptEncodings (encodings : List EncodingType)

namespace HttpResponse

/-- A call that throws has changed nothing. -/
def apply (codec : Compressors) (r : HttpResponse) : Setter → HttpResponse
  | .setStatus mStatus => { r with mStatus }
  | .setVersion mVersion => { r with mVersion }
  | .setKeepAlive mIsKeepAlive => { r with mIsKeepAlive }
  | .setCharSet mCharSet => { r with mCharSet }
  | .setDate date_str => r.setDate date_str
  | .setContentByFilePath filePath file =>
    match r.setContentByFilePath codec filePath file with
    | .ok r' => r'
    | .error _ => r
  | .setBody mBody => { r with mBody }
  | .setContentType mContentType => { r with mContentType }
  | .setContentLength mContentLength => { r with mContentLength }
  | .setContentRange mContentRange => { r with mContentRange }
  | .setProperty key value => r.setProperty key value
  | .setAcceptEncodings encodings => r.setAcceptEncodings encodings

/-- The response after the calls of a user. -/
def after (codec : Compressors) (calls : List Setter) : HttpResponse :=
  calls.foldl (apply codec) create

end HttpResponse

/-! ### Setting properties -/

/-- The keys of a map. -/
def Keyed (m : Headers) : Prop := (m.map Prod.fst).Nodup

theorem mem_assignHeader {m : Headers} (hm : Keyed m) (key value : Bytes) {header : Bytes × Bytes} :
    header ∈ assignHeader m key value ↔
      header = (key, value) ∨ (header ∈ m ∧ header.1 ≠ key) := by
  induction m with
  | nil => simp [assignHeader]
  | cons h m ih =>
    obtain ⟨hnot, hrest⟩ := List.nodup_cons.mp hm
    rw [assignHeader]
    split
    · next heq =>
      -- no other entry has the key
      have hne : header ∈ m → header.1 ≠ key := fun hmem hk =>
        hnot (heq ▸ hk ▸ List.mem_map_of_mem hmem)
      rw [List.mem_cons, List.mem_cons]
      refine or_congr_right ⟨fun hmem => ⟨.inr hmem, hne hmem⟩, ?_⟩
      rintro ⟨rfl | hmem, hk⟩
      · exact absurd heq hk
      · exact hmem
    · next hne =>
      rw [List.mem_cons, ih hrest, List.mem_cons]
      constructor
      · rintro (rfl | rfl | ⟨hmem, hk⟩)
        · exact .inr ⟨.inl rfl, hne⟩
        · exact .inl rfl
        · exact .inr ⟨.inr hmem, hk⟩
      · rintro (rfl | ⟨rfl | hmem, hk⟩)
        · exact .inr (.inl rfl)
        · exact .inl rfl
        · exact .inr (.inr ⟨hmem, hk⟩)

theorem keyed_assignHeader {m : Headers} (hm : Keyed m) (key value : Bytes) :
    Keyed (assignHeader m key value) := by
  induction m with
  | nil => simp [Keyed, assignHeader]
  | cons h m ih =>
    obtain ⟨hnot, hrest⟩ := List.nodup_cons.mp hm
    rw [assignHeader]
    split
    · next heq => exact List.nodup_cons.mpr ⟨by rwa [← heq], hrest⟩
    · next hne =>
      refine List.nodup_cons.mpr ⟨fun hmem => ?_, ih hrest⟩
      obtain ⟨header, hheader, hk⟩ := List.mem_map.mp hmem
      rcases (mem_assignHeader hrest key value).mp hheader with rfl | ⟨hin, -⟩
      · exact hne hk.symm
      · exact hnot (hk ▸ List.mem_map_of_mem hin)

theorem lookup_assignHeader (m : Headers) (key value k : Bytes) :
    (assignHeader m key value).lookup k = if k = key then some value else m.lookup k := by
  induction m with
  | nil =>
    by_cases hk : k = key <;>
      simp [assignHeader, List.lookup_cons, hk, beq_eq_false_iff_ne.mpr]
  | cons header m ih =>
    obtain ⟨key', value'⟩ := header
    rw [assignHeader]
    split
    · next heq =>
      obtain rfl : key' = key := heq
      by_cases hk : k = key' <;> simp [List.lookup_cons, hk, beq_eq_false_iff_ne.mpr]
    · next hne =>
      have hne' : key' ≠ key := hne
      by_cases hk : k = key'
      · simp [hk, hne']
      · simp [List.lookup_cons, beq_eq_false_iff_ne.mpr hk, ih]

namespace HttpResponse

variable {r r' : HttpResponse} {codec : Compressors}

/-- What a call that returns has done: the file has been read, and the body set. -/
theorem setContentByFilePath_of_ok {filePath : Bytes} {file : FileRead}
    (h : r.setContentByFilePath codec filePath file = .ok r') :
    ∃ content type r₁, readFile file = .ok content ∧ contentTypeOf filePath = some type ∧
      r.setEncodedBody codec (r.selectEncodeType filePath) content = .ok r₁ ∧
      r' = { r₁ with mContentType := type, mContentLength := r₁.mBody.length } := by
  unfold setContentByFilePath at h
  cases htype : contentTypeOf filePath with
  | none =>
    rw [htype] at h
    cases h
  | some type =>
    cases hread : readFile file with
    | error what =>
      rw [htype, hread] at h
      cases h
    | ok content =>
      cases hset : r.setEncodedBody codec (r.selectEncodeType filePath) content with
      | error what =>
        rw [htype, hread] at h
        simp only [ok_bind, hset] at h
        cases h
      | ok r₁ =>
        rw [htype, hread] at h
        simp only [ok_bind, hset] at h
        cases h
        exact ⟨content, type, r₁, rfl, rfl, hset, rfl⟩

/-- How the body is set: as it is, by `gzip`, or by `deflate`. -/
theorem setEncodedBody_of_ok {encoding : EncodingType} {content : Bytes}
    (h : r.setEncodedBody codec encoding content = .ok r') :
    (encoding = .NO_ENCODING ∧ r' = { r with mBody := content }) ∨
      (encoding = .GZIP ∧ ∃ mBody, codec.compress_gzip content = .ok mBody ∧
        r' = { r with mBody }.setProperty (ascii "Content-Encoding") EncodingType.GZIP.toCstr) ∨
      ((encoding ≠ .NO_ENCODING ∧ encoding ≠ .GZIP) ∧
        r' = { r with mBody := codec.compress_deflate content }.setProperty
          (ascii "Content-Encoding") EncodingType.DEFLATE.toCstr) := by
  cases encoding with
  | NO_ENCODING =>
    cases h
    exact .inl ⟨rfl, rfl⟩
  | GZIP =>
    simp only [setEncodedBody] at h
    cases hgzip : codec.compress_gzip content with
    | error what =>
      rw [hgzip] at h
      cases h
    | ok mBody =>
      rw [hgzip] at h
      cases h
      exact .inr (.inl ⟨rfl, mBody, rfl, rfl⟩)
  | _ =>
    cases h
    exact .inr (.inr ⟨by simp, rfl⟩)

theorem keyed_setProperty (h : Keyed r.mHeaders) (key value : Bytes) :
    Keyed (r.setProperty key value).mHeaders := keyed_assignHeader h _ _

theorem keyed_apply (codec : Compressors) (h : Keyed r.mHeaders) (call : Setter) :
    Keyed (r.apply codec call).mHeaders := by
  cases call with
  | setDate date_str =>
    cases date_str with
    | none => exact h
    | some date_str => exact keyed_setProperty h _ _
  | setProperty key value => exact keyed_setProperty h _ _
  | setContentByFilePath filePath file =>
    rw [apply]
    split
    · next r' hok =>
      obtain ⟨content, type, r₁, -, -, hset, rfl⟩ := setContentByFilePath_of_ok hok
      rcases setEncodedBody_of_ok hset with ⟨-, rfl⟩ | ⟨-, mBody, -, rfl⟩ | ⟨-, rfl⟩
      · exact h
      · exact keyed_setProperty (r := { r with mBody }) h _ _
      · exact keyed_setProperty (r := { r with mBody := codec.compress_deflate content }) h _ _
    · exact h
  | _ => exact h

/-- **Every key is set once**, whatever is called. -/
theorem keyed_after (codec : Compressors) (calls : List Setter) :
    Keyed (after codec calls).mHeaders := by
  have hfold : ∀ (calls : List Setter) (r : HttpResponse), Keyed r.mHeaders →
      Keyed (calls.foldl (apply codec) r).mHeaders := by
    intro calls
    induction calls with
    | nil => exact fun r h => h
    | cons call calls ih => exact fun r h => ih _ (keyed_apply codec h call)
  exact hfold calls create List.nodup_nil

end HttpResponse

end SimpleTcp
