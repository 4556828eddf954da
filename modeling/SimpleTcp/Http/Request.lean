import SimpleTcp.Http.StringHelper

/-!
# Requests

The parser of `HttpRequest.cpp`: the request line, the headers up to the blank line, and the body,
which is all that follows. The markers of the request line are found independently of each other,
and the strings between them are made from the differences of their positions.

The headers are kept in the order in which they came; nothing reads them in another order. Of the
checks of positions, the one that no position of a string can meet is left out.

## Main definitions

* `HttpRequest`: the record, with its defaults
* `HttpStop`, `RequestErrorType`: the exceptions of the server
* `parseStartLine`, `parseHeaders`, `parseHttpRequest`: the parser
-/

namespace SimpleTcp

open Search

inductive RequestType where
  | UNKNOWN
  | GET
  | POST
  | PUT
  | DELETE
  deriving DecidableEq, Repr

inductive Version where
  | UNKNOWN
  | HTTP1_0
  | HTTP1_1
  | HTTP3_0
  deriving DecidableEq, Repr

inductive ContentType where
  | UNKNOWN
  | BINARY
  | PLAIN
  | HTML
  | CSS
  | JAVASCRIPT
  | XML
  | JSON
  | JPEG
  | PNG
  | GIF
  | ICON
  | MP4
  | MPG
  deriving DecidableEq, Repr

inductive EncodingType where
  | NO_ENCODING
  | GZIP
  | COMPRESS
  | DEFLATE
  | BR
  deriving DecidableEq, Repr

inductive RequestErrorType where
  | BadRequest
  | UnsupportMethod
  | PartialPacket
  deriving DecidableEq, Repr

inductive ResponseErrorType where
  | BadResponse
  | BadContentType
  | BadContent
  | BadVersion
  | BadStatus
  | FileNotFound
  deriving DecidableEq, Repr

/-- How a function of the server ends without returning. -/
inductive HttpStop where
  | requestError (msg : String) (type : RequestErrorType)
  | responseError (msg : String) (type : ResponseErrorType)
  | stop (e : Stop)
  deriving DecidableEq, Repr

/-- `mHeaders`. -/
abbrev Headers := List (Bytes × Bytes)

structure HttpRequest where
  mUrl : Bytes
  mHost : Bytes
  mQueryParameters : Bytes
  mType : RequestType
  mVersion : Version
  mContentType : ContentType
  mContentLength : Int
  mRanges : List (Int × Int)
  mIsKeepAlive : Bool
  mAcceptEncodings : List EncodingType
  mHeaders : Headers
  mBody : Bytes
  mRawRequest : Bytes
  mRequestSize : Int
  deriving DecidableEq, Repr

namespace HttpRequest

/-- `HttpRequest::HttpRequest`. -/
def create : HttpRequest where
  mUrl := []
  mHost := []
  mQueryParameters := []
  mType := .UNKNOWN
  mVersion := .UNKNOWN
  mContentType := .UNKNOWN
  mContentLength := -1
  mRanges := []
  mIsKeepAlive := false
  mAcceptEncodings := []
  mHeaders := []
  mBody := []
  mRawRequest := []
  mRequestSize := -1

end HttpRequest

def CRLF : Bytes := [13, 10]

def BLANK_LINE : Bytes := [13, 10, 13, 10]

/-! ### The request line -/

/-- `requestLine.find("HTTP/1.1")` and `requestLine.find("HTTP/1.0")`. -/
def parseVersion (requestLine : Bytes) : Option Version :=
  if (find (ascii "HTTP/1.1") requestLine).isSome then some .HTTP1_1
  else if (find (ascii "HTTP/1.0") requestLine).isSome then some .HTTP1_0
  else none

/-- `requestLine.find("GET")` and `requestLine.find("POST")`. -/
def parseType (requestLine : Bytes) : Option RequestType :=
  if (find (ascii "GET") requestLine).isSome then some .GET
  else if (find (ascii "POST") requestLine).isSome then some .POST
  else none

/-- The functor `parser` of `parseStartLine`. `find` gives a position that is no position where
there is nothing to find, and the version has `HTTP` in it. -/
def parseUrl (requestLine : Bytes) (request : HttpRequest) : Except Stop (Option HttpRequest) :=
  match parseVersion requestLine with
  | none => .ok none
  | some mVersion =>
    match find [47] requestLine with
    | none => .ok none
    | some url_start =>
      let http := (find (ascii "HTTP") requestLine).getD (2 ^ 64 - 1)
      match find [63] requestLine with
      | none => do
        let mUrl ← stripView requestLine (url_start + 1) (sizeSub http (url_start + 1))
        .ok (some { request with mVersion, mUrl })
      | some url_end => do
        -- the query goes from the question mark to the version, wherever they are
        let mQueryParameters ← substring requestLine url_end (sizeSub http url_end)
        let mUrl ← stripView requestLine (url_start + 1) (sizeSub url_end (url_start + 1))
        .ok (some { request with mVersion, mQueryParameters, mUrl })

/-- There is no result where the source returns false. -/
def parseStartLine (requestLine : Bytes) (request : HttpRequest) :
    Except Stop (Option HttpRequest) :=
  if requestLine = [] then .ok none
  else
    match parseType requestLine with
    | none => .ok none
    | some mType => parseUrl requestLine { request with mType }

/-! ### The headers -/

def toEncodingType (type : Bytes) : EncodingType :=
  if type = ascii "gzip" then .GZIP
  else if type = ascii "br" then .BR
  else if type = ascii "deflate" then .DEFLATE
  else .NO_ENCODING

def toContentType (type : Bytes) : ContentType :=
  if type = ascii "text/html" then .HTML
  else if type = ascii "application/json" then .JSON
  else if type = ascii "image/jpeg" then .JPEG
  else if type = ascii "image/png" then .PNG
  else if type = ascii "image/gif" then .GIF
  else if type = ascii "text/plain" then .PLAIN
  else .UNKNOWN

/-- `mHeaders.insert`: the first value of a key stays. -/
def insertHeader (m : Headers) (key value : Bytes) : Headers :=
  if (m.lookup key).isSome then m else m ++ [(key, value)]

/-- A line of the headers; one without a colon is skipped. -/
def parseHeader (m : Headers) (current_header : Bytes) : Headers :=
  match find [58] current_header with
  | some delim_pos =>
    insertHeader m (current_header.take delim_pos) (strip (current_header.drop (delim_pos + 1)))
  | none => m

/-- The loop over the lines. Every turn passes an end of line. -/
def headerLoop : Nat → Bytes → Nat → Headers → Except Stop Headers
  | 0, _, _, m => .ok m
  | fuel + 1, headers, start_pos, m =>
    match findFrom CRLF headers start_pos with
    | none => .ok m
    | some end_pos => do
      let current_header ← substring headers start_pos (sizeSub end_pos start_pos)
      headerLoop fuel headers (end_pos + 2) (parseHeader m current_header)

/-- `Set host`, `Set connection state` and `Set availble encodings`. -/
def setHeaders (request : HttpRequest) (mHeaders : Headers) : HttpRequest :=
  { request with
    mHeaders
    mHost := (mHeaders.lookup (ascii "Host")).getD request.mHost
    mIsKeepAlive := request.mIsKeepAlive ||
      mHeaders.lookup (ascii "Connections") = some (ascii "keep-alive")
    mAcceptEncodings := request.mAcceptEncodings ++
      match mHeaders.lookup (ascii "Accept-Encoding") with
      | none => []
      | some value => (split value [44]).map fun encoding => toEncodingType (strip encoding) }

/-- `Set content info`. -/
def parseContent (request : HttpRequest) : Option HttpRequest :=
  if request.mType = .GET then some request
  else
    match request.mHeaders.lookup (ascii "Content-Type") with
    | none => some request
    | some value =>
      if toContentType value = .UNKNOWN then none
      else
        -- the length is looked at only where there is a type
        match request.mHeaders.lookup (ascii "Content-Length") with
        | none => some { request with mContentType := toContentType value }
        | some len =>
          (fromChars len request.mContentLength).map fun mContentLength =>
            { request with mContentType := toContentType value, mContentLength }

/-- `digits.empty() ? none : std::stoll(digits)`. -/
def stollOr (none : Int) (digits : Bytes) : Except Stop Int :=
  if digits = [] then .ok none else stoll digits

/-- The bounds of a range. -/
def parseRange (first last : Bytes) : Except Stop (Int × Int) := do
  let first ← stollOr 0 first
  let last ← stollOr (-1) last
  .ok (first, last)

/-- The ranges that match; a piece that does not match is skipped. -/
def parseRanges : List Bytes → Except Stop (List (Int × Int))
  | [] => .ok []
  | cur_range :: ranges =>
    match matchRange cur_range with
    | none => parseRanges ranges
    | some (first, last) => do
      let r ← parseRange first last
      let rs ← parseRanges ranges
      .ok (r :: rs)

/-- The pieces of the range header. -/
def rangePieces (m : Headers) : List Bytes :=
  match m.lookup (ascii "Range") with
  | none => []
  | some value =>
    match matchRangeHeader value with
    | none => []
    | some range_str => split range_str [44]

/-- There is no result where the source returns false. -/
def parseHeaders (headers : Bytes) (request : HttpRequest) :
    Except Stop (Option HttpRequest) :=
  if headers = [] then .ok (some request)
  else do
    let mHeaders ← headerLoop (headers.length + 1) headers 0 request.mHeaders
    match parseContent (setHeaders request mHeaders) with
    | none => .ok none
    | some request => do
      let mRanges ← parseRanges (rangePieces mHeaders)
      .ok (some { request with mRanges := request.mRanges ++ mRanges })

/-! ### The packet -/

def badRequest {α : Type} (msg : String) : Except HttpStop α :=
  .error (.requestError msg .BadRequest)

/-- A call of the parser, whose other exceptions go to the caller. -/
def orBadRequest (msg : String) (result : Except Stop (Option HttpRequest)) :
    Except HttpStop HttpRequest :=
  match result with
  | .ok (some request) => .ok request
  | .ok none => badRequest msg
  | .error e => .error (.stop e)

/-- A substring, in the same way. -/
def orStop (result : Except Stop Bytes) : Except HttpStop Bytes :=
  match result with
  | .ok s => .ok s
  | .error e => .error (.stop e)

/-- The request line, and the position behind it. -/
def parseRequestLine (rawHttpPacket : Bytes) : Except HttpStop (HttpRequest × Nat) := do
  match find CRLF rawHttpPacket with
  | none => badRequest "[parseHttpRequest] parse failed."
  | some end_pos =>
    let requestLine ← orStop (substring rawHttpPacket 0 (sizeSub end_pos 0))
    let request ← orBadRequest "[parseHttpRequest] parse request failed."
      (parseStartLine requestLine { HttpRequest.create with mIsKeepAlive := false })
    .ok (request, end_pos + 2)

/-- The headers, which end with the first of the two ends of line, and the position behind the
second. -/
def parseHeaderBlock (rawHttpPacket : Bytes) (request : HttpRequest) (start_pos : Nat) :
    Except HttpStop (HttpRequest × Nat) := do
  match findFrom BLANK_LINE rawHttpPacket start_pos with
  | none => badRequest "[parseHttpRequest] parse header failed. BLANK_LINE not found"
  | some end_pos =>
    let end_pos := end_pos + 2
    let headers ← orStop (substring rawHttpPacket start_pos (sizeSub end_pos start_pos))
    let request ← orBadRequest "[parseHttpRequest] parse header failed."
      (parseHeaders headers request)
    .ok (request, end_pos + 2)

/-- `static_cast<size_t>(n)`. -/
def toSize (n : Int) : Nat := (n % 2 ^ 64).toNat

/-- The body is what follows the blank line, and the request is the whole packet. -/
def parseBody (rawHttpPacket : Bytes) (request : HttpRequest) (start_pos : Nat) :
    Except HttpStop HttpRequest := do
  let end_pos := rawHttpPacket.length
  if request.mType ≠ .GET ∧ sizeSub end_pos start_pos ≠ toSize request.mContentLength then
    .error (.requestError "[parseHttpRequest] parse body failed." .PartialPacket)
  else
    let mBody ← orStop (substring rawHttpPacket start_pos (sizeSub end_pos start_pos))
    .ok { request with mBody, mRequestSize := end_pos }

def parseHttpRequest (rawHttpPacket : Bytes) : Except HttpStop HttpRequest := do
  let (request, start_pos) ← parseRequestLine rawHttpPacket
  let (request, start_pos) ← parseHeaderBlock rawHttpPacket request start_pos
  parseBody rawHttpPacket request start_pos

end SimpleTcp
