import SimpleTcp.Base.Compress
import SimpleTcp.Http.ContentRange
import SimpleTcp.Http.VideoServ
import SimpleTcp.Library.Paths

/-!
# The file server

`HttpServ` answers a request with the file that its path names below the directory of the resources.
The path is appended as it was sent, so that an absolute one takes the place of the directory, and
`..` leads out of it. What a client can learn of the files elsewhere is nothing at all for some
requests, and for all others there is something to learn.

A path is followed in a tree of directories and files. Links, permissions and the limits of the
lengths of names are left out, and so is the output on the console.

## Main definitions

* `FileSystem`, `FileServ.fileAt`: the files, and what is read at a path
* `FileServ.handleRequest`: the handle of the server
* `FileServ.Contained`: the path stays near the directory of the resources

## Main results

* `FileServ.contained_iff`: the requests that tell nothing of other files
* `FileServ.contained_of_stays`: a relative path that never climbs is one of them
-/

namespace SimpleTcp

open Paths

/-- A file: its content, and the part of it that `read` stores. -/
structure StoredFile where
  content : Bytes
  stored : Bytes

abbrev FileSystem := Tree Bytes StoredFile

/-- What is fixed when the server is started: `resource_path`, the working directory, and the
compressors. -/
structure FileEnv where
  resource_path : Bytes
  cwd : Place Bytes
  codec : Compressors

/-- What a request meets: the date, the order in which the properties are read, and the text of the
exception of `file_size`. -/
structure FileIo where
  date_str : Option Bytes
  iterate : Headers → Headers
  what : String

namespace FileServ

/-! ### Paths -/

/-- What a part of a path between slashes stands for. -/
def component (name : Bytes) : Component Bytes :=
  if name = [] ∨ name = ascii "." then .here
  else if name = ascii ".." then .up
  else .name name

def components (path : Bytes) : List (Component Bytes) := (path.splitOn 47).map component

/-- Where a path starts: at the root, or in the working directory. -/
def start (env : FileEnv) (path : Bytes) : Place Bytes :=
  if path.head? = some 47 then [] else env.cwd

/-- What `readFile` meets at a path. -/
def fileAt (env : FileEnv) (io : FileIo) (fs : FileSystem) (filePath : Bytes) : FileRead :=
  match fs.content? (start env (cStr filePath)) (components (cStr filePath)) with
  | some file => .file file.content file.stored
  | none => .missing io.what

/-! ### The handle -/

def sendFile (env : FileEnv) (io : FileIo) (fs : FileSystem) (path : Bytes)
    (response : HttpResponse) : Except HttpStop HttpResponse :=
  response.setContentByFilePath env.codec path (fileAt env io fs path)

def handleRequest (env : FileEnv) (io : FileIo) (fs : FileSystem) (request : HttpRequest)
    (response : HttpResponse) : Except HttpStop HttpResponse :=
  let response := VideoServ.greeting io.date_str response
  if request.mUrl = [] then
    -- the exception of a missing index goes to the server
    sendFile env io fs (appendPath env.resource_path (ascii "index.html")) response
  else
    match sendFile env io fs (appendPath env.resource_path request.mUrl) response with
    | .error (.responseError _ _) => .ok { response with mStatus := .NOT_FOUND }
    | result => result

/-- The handle, and the text of its response. -/
def handle (env : FileEnv) (io : FileIo) (fs : FileSystem) : RequestHandle := fun request => do
  let response ← handleRequest env io fs request
    (HttpResponse.create.setAcceptEncodings request.mAcceptEncodings)
  let (text, response) ← response.generateResponse io.iterate
  .ok (text, response.mIsKeepAlive)

/-! ### What a request looks at -/

/-- The path of a request. -/
def requestPath (env : FileEnv) (request : HttpRequest) : Bytes :=
  appendPath env.resource_path (if request.mUrl = [] then ascii "index.html" else request.mUrl)

/-- The directory of the resources. -/
def resources (env : FileEnv) : Place Bytes :=
  target (start env (cStr env.resource_path)) (components (cStr env.resource_path))

/-- No file is looked for, or none can be found, or the path stays near the resources. -/
def Contained (env : FileEnv) (request : HttpRequest) : Prop :=
  let path := requestPath env request
  let place := start env (cStr path)
  HttpResponse.contentTypeOf path = none ∨
    Blocked (resources env) place (components (cStr path)) ∨
    ∀ q ∈ visited place (components (cStr path)), Near (resources env) q

instance (env : FileEnv) (request : HttpRequest) : Decidable (Contained env request) :=
  inferInstanceAs (Decidable (_ ∨ _ ∨ ∀ _ ∈ _, _))

section

variable {env : FileEnv} {io : FileIo} {fs fs' : FileSystem} {request : HttpRequest}
  {response : HttpResponse}

/-! ### Sending a file -/

/-- A file of no known type is not looked for, and any other is sent as it is read. -/
theorem sendFile_congr {path : Bytes}
    (h : HttpResponse.contentTypeOf path = none ∨ fileAt env io fs path = fileAt env io fs' path) :
    sendFile env io fs path response = sendFile env io fs' path response := by
  rcases h with htype | hfile
  · simp only [sendFile, HttpResponse.setContentByFilePath, htype]
  · rw [sendFile, sendFile, hfile]

theorem sendFile_missing {path : Bytes} {what : String}
    (h : fileAt env io fs path = .missing what) :
    ∃ text, sendFile env io fs path response = .error (.responseError text .FileNotFound) := by
  unfold sendFile HttpResponse.setContentByFilePath
  rw [h]
  cases HttpResponse.contentTypeOf path with
  | none => exact ⟨_, rfl⟩
  | some type => exact ⟨_, rfl⟩

/-- What a file changes of the response. -/
theorem sendFile_file {path content stored packed : Bytes}
    (htype : HttpResponse.contentTypeOf path ≠ none)
    (hfile : fileAt env io fs path = .file content stored)
    (hgzip : env.codec.compress_gzip (Vec.resize stored content.length) = .ok packed) :
    ∃ r, sendFile env io fs path response = .ok r ∧ r.mStatus = response.mStatus ∧
      r.mVersion = response.mVersion ∧ r.mContentRange = response.mContentRange ∧
      r.mContentLength = r.mBody.length := by
  obtain ⟨type, htype⟩ := Option.ne_none_iff_exists'.mp htype
  unfold sendFile HttpResponse.setContentByFilePath
  rw [hfile, htype]
  simp only [readFile, ok_bind]
  cases response.selectEncodeType path with
  | GZIP =>
    simp only [HttpResponse.setEncodedBody, hgzip, ok_bind]
    exact ⟨_, rfl, rfl, rfl, rfl, rfl⟩
  | _ => exact ⟨_, rfl, rfl, rfl, rfl, rfl⟩

theorem handle_congr (h : ∀ response, sendFile env io fs (requestPath env request) response =
    sendFile env io fs' (requestPath env request) response) :
    handle env io fs request = handle env io fs' request := by
  have hsame : ∀ response, handleRequest env io fs request response =
      handleRequest env io fs' request response := by
    intro response
    unfold requestPath at h
    unfold handleRequest
    by_cases hurl : request.mUrl = []
    · simp only [hurl, if_true] at h ⊢
      exact h _
    · simp only [hurl, if_false] at h ⊢
      rw [h]
  rw [handle, handle, hsame]

theorem handleRequest_file {r : HttpResponse}
    (h : sendFile env io fs (requestPath env request) (VideoServ.greeting io.date_str response) =
      .ok r) : handleRequest env io fs request response = .ok r := by
  unfold requestPath at h
  unfold handleRequest
  by_cases hurl : request.mUrl = []
  · simp only [hurl, if_true] at h ⊢
    exact h
  · simp only [hurl, if_false] at h ⊢
    rw [h]

/-- A file that there is not is answered, unless it is the index. -/
theorem handleRequest_missing {text : String} {type : ResponseErrorType}
    (h : sendFile env io fs (requestPath env request) (VideoServ.greeting io.date_str response) =
      .error (.responseError text type)) :
    handleRequest env io fs request response =
      if request.mUrl = [] then .error (.responseError text type)
      else .ok { VideoServ.greeting io.date_str response with mStatus := .NOT_FOUND } := by
  unfold requestPath at h
  unfold handleRequest
  by_cases hurl : request.mUrl = []
  · simp only [hurl, if_true] at h ⊢
    exact h
  · simp only [hurl, if_false] at h ⊢
    rw [h]

theorem mVersion_greeting (date_str : Option Bytes) (response : HttpResponse) :
    (VideoServ.greeting date_str response).mVersion = .HTTP1_1 := by
  unfold VideoServ.greeting HttpResponse.setDate
  cases date_str <;> rfl

theorem mStatus_greeting (date_str : Option Bytes) (response : HttpResponse) :
    (VideoServ.greeting date_str response).mStatus = .OK := by
  unfold VideoServ.greeting HttpResponse.setDate
  cases date_str <;> rfl

theorem mContentRange_greeting (date_str : Option Bytes) (response : HttpResponse) :
    (VideoServ.greeting date_str response).mContentRange = response.mContentRange := by
  unfold VideoServ.greeting HttpResponse.setDate
  cases date_str <;> rfl

/-- The status can be told from the text. -/
theorem head_of_generated {r r' : HttpResponse} {iterate : Headers → Headers} {text : Bytes}
    (hversion : r.mVersion = .HTTP1_1) (h : r.generateResponse iterate = .ok (text, r')) :
    text.take 10 = ((ascii "HTTP/1.1 ") ++ r.mStatus.toCstr.take 1) := by
  obtain ⟨-, -, -, rfl⟩ := HttpResponse.generateResponse_of_ok h
  rw [HttpResponse.statusLine, hversion]
  cases r.mStatus <;> rfl

/-! ### Containment -/

theorem fileAt_congr {path : Bytes}
    (h : fs.content? (start env (cStr path)) (components (cStr path)) =
      fs'.content? (start env (cStr path)) (components (cStr path))) :
    fileAt env io fs path = fileAt env io fs' path := by
  rw [fileAt, fileAt, h]

/-- A response with a body of its length, and no range, can be sent. -/
theorem exists_generateResponse {r : HttpResponse} (hstatus : r.mStatus = .OK)
    (hversion : r.mVersion = .HTTP1_1) (htotal : r.mContentRange.total = 0)
    (hlength : r.mContentLength = r.mBody.length) (iterate : Headers → Headers) :
    ∃ text r', r.generateResponse iterate = .ok (text, r') := by
  refine HttpResponse.generateResponse_ok_iff.mpr ⟨?_, ?_⟩
  · rintro (hv | hs | ⟨-, hl⟩)
    · rw [hversion] at hv
      cases hv
    · rw [hstatus] at hs
      cases hs
    · rw [hlength] at hl
      omega
  · exact HttpResponse.passesRangeCheck_iff.mpr (.inl htotal)

/-- A file that is there and one that is not are told apart. -/
theorem handle_ne {file : StoredFile} {packed : Bytes}
    (htype : HttpResponse.contentTypeOf (requestPath env request) ≠ none)
    (hnone : fs.content? (start env (cStr (requestPath env request)))
      (components (cStr (requestPath env request))) = none)
    (hsome : fs'.content? (start env (cStr (requestPath env request)))
      (components (cStr (requestPath env request))) = some file)
    (hgzip : env.codec.compress_gzip (Vec.resize file.stored file.content.length) = .ok packed) :
    handle env io fs request ≠ handle env io fs' request := by
  let response := HttpResponse.create.setAcceptEncodings request.mAcceptEncodings
  let greeted := VideoServ.greeting io.date_str response
  have hmissing : fileAt env io fs (requestPath env request) = .missing io.what := by
    rw [fileAt, hnone]
  have hfile : fileAt env io fs' (requestPath env request) =
      .file file.content file.stored := by
    rw [fileAt, hsome]
  -- with the file, there is a response with the file
  obtain ⟨r, hsend, hstatus, hversion, hrange, hlength⟩ : ∃ r,
      sendFile env io fs' (requestPath env request) greeted = .ok r ∧
        r.mStatus = greeted.mStatus ∧ r.mVersion = greeted.mVersion ∧
        r.mContentRange = greeted.mContentRange ∧ r.mContentLength = r.mBody.length :=
    sendFile_file htype hfile hgzip
  have hstatus : r.mStatus = .OK := hstatus.trans (mStatus_greeting _ _)
  have hversion : r.mVersion = .HTTP1_1 := hversion.trans (mVersion_greeting _ _)
  have htotal : r.mContentRange.total = 0 := by
    rw [hrange, mContentRange_greeting]
    rfl
  obtain ⟨text, r', hgenerate⟩ :=
    exists_generateResponse hstatus hversion htotal hlength io.iterate
  have hok : handle env io fs' request = .ok (text, r'.mIsKeepAlive) := by
    rw [handle, handleRequest_file hsend, ok_bind, hgenerate, ok_bind]
  rw [hok, handle]
  obtain ⟨what, hsend'⟩ : ∃ what, sendFile env io fs (requestPath env request) greeted =
      .error (.responseError what .FileNotFound) := sendFile_missing hmissing
  rw [handleRequest_missing hsend']
  by_cases hurl : request.mUrl = []
  · rw [if_pos hurl]
    intro h
    cases h
  · rw [if_neg hurl, ok_bind]
    intro h
    obtain ⟨⟨text', r''⟩, hgenerate', hsame⟩ := ok_of_bind h
    obtain ⟨rfl, -⟩ := Prod.mk.inj (Except.ok.inj hsame)
    -- the status lines differ
    have hnotFound : { greeted with mStatus := .NOT_FOUND }.mVersion = .HTTP1_1 :=
      mVersion_greeting io.date_str response
    have hhead := head_of_generated hversion hgenerate
    rw [head_of_generated hnotFound hgenerate', hstatus] at hhead
    cases hhead

/-- **The requests that tell nothing of other files**: the answer is the same for all files with the
same directory of resources exactly where the path stays near this directory, leads to no file
anyway, or has an unknown type. -/
theorem contained_iff (hgzip : ∃ content packed, env.codec.compress_gzip content = .ok packed) :
    (∀ fs fs' : FileSystem, fs.Shares (resources env) fs' →
      handle env io fs request = handle env io fs' request) ↔ Contained env request := by
  constructor
  · intro h
    by_contra hnot
    rw [Contained, not_or, not_or, not_forall] at hnot
    obtain ⟨htype, hblocked, q, hnear⟩ := hnot
    obtain ⟨hq, hfar⟩ := Classical.not_imp.mp hnear
    obtain ⟨content, packed, hgzip⟩ := hgzip
    obtain ⟨fs, fs', hshares, hnone, hsome⟩ :=
      exists_content?_ne hblocked hq hfar (⟨content, content⟩ : StoredFile)
    have hwhole : Vec.resize content content.length = content := by
      rw [Vec.resize, List.take_length, Nat.sub_self, List.replicate_zero, List.append_nil]
    exact handle_ne htype hnone hsome (hwhole.symm ▸ hgzip) (h fs fs' hshares)
  · intro h fs fs' hshares
    apply handle_congr
    intro response
    apply sendFile_congr
    rcases h with htype | hblocked | hnear
    · exact .inl htype
    · right
      apply fileAt_congr
      have hdir' : fs'.node (resources env) = some .dir := by
        rw [← hshares.below _ List.suffix_rfl, hshares.dir]
      rw [content?_of_blocked hshares.dir hblocked, content?_of_blocked hdir' hblocked]
    · right
      exact fileAt_congr (content?_eq_of_near hshares hnear)

/-- The requests for a page, and for a file by its absolute path. -/
theorem contained_iff_passwd :
    let env : FileEnv :=
      ⟨ascii "/www", [], ⟨Zlib.sample.compress_gzip, Zlib.sample.compress_deflate⟩⟩
    let io : FileIo := ⟨none, id, ""⟩
    let get url : HttpRequest := { HttpRequest.create with mUrl := ascii url }
    (∀ fs fs' : FileSystem, fs.Shares (resources env) fs' →
      handle env io fs (get "a/../b.css") = handle env io fs' (get "a/../b.css")) ∧
    ¬ ∀ fs fs' : FileSystem, fs.Shares (resources env) fs' →
      handle env io fs (get "/etc/passwd") = handle env io fs' (get "/etc/passwd") := by
  intro env io get
  have hgzip : ∃ content packed, env.codec.compress_gzip content = .ok packed :=
    ⟨Zlib.letters, Zlib.lettersGzip, by decide +kernel⟩
  constructor
  · exact (contained_iff hgzip).mpr (by decide +kernel)
  · exact fun h => absurd ((contained_iff hgzip).mp h) (by decide +kernel)

/-! ### Paths that do not climb -/

/-- A relative path goes on from where the path in front of it ends. -/
theorem components_appendPath {path name : Bytes} (hnul : 0 ∉ path) (hrel : name.head? ≠ some 47)
    (p : Place Bytes) :
    ∃ cs, components (cStr (appendPath path name)) = cs ++ components (cStr name) ∧
      target p cs = target p (components path) ∧ (.up ∈ cs → .up ∈ components path) := by
  rw [appendPath, if_neg hrel]
  by_cases hempty : path = []
  · subst hempty
    exact ⟨[], rfl, rfl, fun h => absurd h List.not_mem_nil⟩
  · by_cases hslash : path.getLast? = some 47
    · -- what is behind the last slash of the path is empty
      obtain ⟨front, rfl⟩ := List.getLast?_eq_some_iff.mp hslash
      have hpath : components (front ++ [47]) = components front ++ [.here] := by
        rw [components, List.splitOn_append_cons_self, List.map_append]
        rfl
      rw [if_pos (.inr hslash), cStr_append hnul, List.append_assoc, List.singleton_append,
        components, List.splitOn_append_cons_self, List.map_append, hpath]
      have hhere : target p (components front ++ [.here]) = target p (components front) := by
        rw [target_append]
        rfl
      exact ⟨components front, rfl, hhere.symm, List.mem_append_left _⟩
    · have hor : ¬ (path = [] ∨ path.getLast? = some 47) := by simp [hempty, hslash]
      have hcStr : cStr (47 :: name) = 47 :: cStr name := rfl
      rw [if_neg hor, cStr_append hnul, hcStr, components, List.splitOn_append_cons_self,
        List.map_append]
      exact ⟨components path, rfl, rfl, id⟩

theorem start_appendPath {path name : Bytes} (hnul : 0 ∉ path) (hrel : name.head? ≠ some 47) :
    start env (cStr (appendPath path name)) = start env path := by
  rw [appendPath, if_neg hrel]
  cases path with
  | nil =>
    have hrel' : (cStr name).head? ≠ some 47 := by
      cases name with
      | nil => simp [cStr]
      | cons c name =>
        by_cases hc : c = 0
        · simp [cStr, hc]
        · simpa [cStr, hc] using hrel
    show start env (cStr name) = _
    rw [start, start, if_neg hrel', if_neg (by simp)]
  | cons c path =>
    have hhead : ∀ rest, start env (cStr (c :: path ++ rest)) = start env (c :: path) := by
      intro rest
      rw [cStr_append hnul]
      rfl
    split
    · exact hhead _
    · exact hhead _

/-- **A relative path that never climbs** tells nothing of other files, where there is no `..` in
the path of the resources. -/
theorem contained_of_stays (hnul : 0 ∉ env.resource_path)
    (hdown : .up ∉ components env.resource_path) (hrel : request.mUrl.head? ≠ some 47)
    (hstays : Stays 0 (components (cStr request.mUrl))) : Contained env request := by
  obtain ⟨name, hpath, hrel, hstays⟩ : ∃ name,
      requestPath env request = appendPath env.resource_path name ∧ name.head? ≠ some 47 ∧
        Stays 0 (components (cStr name)) := by
    by_cases hurl : request.mUrl = []
    · refine ⟨ascii "index.html", ?_, by decide, ?_⟩
      · rw [requestPath, if_pos hurl]
      · have hcomponents : components (cStr (ascii "index.html")) =
            [.name (ascii "index.html")] := by decide +kernel
        rw [hcomponents]
        trivial
    · refine ⟨request.mUrl, ?_, hrel, hstays⟩
      rw [requestPath, if_neg hurl]
  refine .inr (.inr ?_)
  rw [hpath, start_appendPath hnul hrel]
  obtain ⟨cs, hcs, htarget, hup⟩ :=
    components_appendPath hnul hrel (start env env.resource_path)
  have hresources : resources env = target (start env env.resource_path) cs := by
    rw [resources, cStr_of_not_mem hnul, htarget]
  intro q hq
  rw [hcs, visited, passed_append, target_append, List.append_assoc, ← hresources] at hq
  rcases List.mem_append.mp hq with hq | hq
  · right
    rw [hresources]
    exact (passed_suffix fun h => hdown (hup h)).1 q hq
  · left
    exact near_of_stays hstays List.suffix_rfl rfl q hq

end

end FileServ

end SimpleTcp
