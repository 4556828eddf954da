import SimpleTcp.Http.Download
import SimpleTcp.Http.FileServ
import SimpleTcp.Http.StartLine

/-!
# What the file server hands out

A client that asks for a file by its absolute path, behind the slash with which every path in a
request line starts, gets the file, wherever it is. The directory of the resources does not matter.

## Main definitions

* `FileServ.absolute`: the absolute path of a place
* `FileServ.Askable`: a place whose path can be written in a request line
* `FileServ.askFor`: the request for the file there

## Main results

* `FileServ.components_absolute`, `FileServ.fileAt_absolute`: the path leads to the file
* `FileServ.parse_askFor`: how the server reads the request
* `FileServ.exposed`: the file is sent
-/

namespace SimpleTcp

open Machine Paths Search HttpResponse

namespace FileServ

/-! ### Absolute paths -/

/-- The absolute path of a place. -/
def absolute (q : Place Bytes) : Bytes := q.reverse.flatMap (47 :: ·)

/-- The place has a path, and this can be written in a request line. -/
structure Askable (q : Place Bytes) : Prop where
  names : ∀ name ∈ q, component name = .name name ∧ 47 ∉ name
  line : ∀ c ∈ absolute q, c ≠ 0 ∧ c ≠ 32 ∧ c ≠ 63 ∧ c ≠ 13 ∧ c ≠ 10
  http : ¬ ascii "HTTP" <:+: absolute q

theorem splitOn_absolute {name : Bytes} {names : List Bytes} (h : 47 ∉ name)
    (hs : ∀ name ∈ names, 47 ∉ name) :
    (name ++ names.flatMap (47 :: ·)).splitOn 47 = name :: names := by
  induction names generalizing name with
  | nil =>
    rw [List.flatMap_nil, List.append_nil]
    exact List.splitOn_eq_singleton h
  | cons next names ih =>
    rw [List.forall_mem_cons] at hs
    rw [List.flatMap_cons, List.cons_append, List.splitOn_append_cons_self,
      List.splitOn_eq_singleton h, ih hs.1 hs.2]
    rfl

section

variable {q : Place Bytes} {env : FileEnv} {io : FileIo} {fs : FileSystem} {file : StoredFile}

theorem components_absolute (h : Askable q) :
    components (absolute q) = .here :: q.reverse.map .name := by
  have hnames : ∀ name ∈ q.reverse, 47 ∉ name := fun name hmem =>
    (h.names name (List.mem_reverse.mp hmem)).2
  have hmap : q.reverse.map component = q.reverse.map .name := by
    apply List.map_congr_left
    intro name hmem
    exact (h.names name (List.mem_reverse.mp hmem)).1
  have hsplit : (q.reverse.flatMap (47 :: ·)).splitOn 47 = [] :: q.reverse :=
    splitOn_absolute List.not_mem_nil hnames
  rw [components, absolute, hsplit, List.map_cons, hmap]
  rfl

/-- A file is not the root. -/
theorem head_absolute (hfile : fs.node q = some (.file file)) :
    (absolute q).head? = some 47 := by
  have hne : q ≠ [] := by
    rintro rfl
    rw [fs.node_root] at hfile
    cases hfile
  obtain ⟨name, names, hq⟩ := List.exists_cons_of_ne_nil (List.reverse_ne_nil_iff.mpr hne)
  rw [absolute, hq]
  rfl

/-- **The absolute path** of a file leads to the file. -/
theorem fileAt_absolute (h : Askable q) (hfile : fs.node q = some (.file file)) :
    fileAt env io fs (absolute q) = .file file.content file.stored := by
  have hcStr : cStr (absolute q) = absolute q :=
    cStr_of_not_mem fun hmem => (h.line 0 hmem).1 rfl
  have hstart : start env (absolute q) = [] := if_pos (head_absolute hfile)
  have hfind : fs.find [] (.here :: q.reverse.map .name) = some (.file file) := by
    have hnode : fs.node (q.reverse.reverse ++ []) = some (.file file) := by
      rw [List.reverse_reverse, List.append_nil, hfile]
    rw [Tree.find, fs.node_root]
    have hsome : fs.node (q.reverse.reverse ++ []) ≠ none := by
      rw [hnode]
      exact Option.some_ne_none _
    exact (fs.find_names hsome).trans hnode
  rw [fileAt, hcStr, hstart, components_absolute h, Tree.content?, hfind]

/-! ### The request -/

/-- The request for the file at the place. -/
def askFor (q : Place Bytes) : Bytes :=
  packet (startLine .GET (absolute q) none .HTTP1_1) [ascii "Host: a"] []

/-- **The request** is read as one for the absolute path. -/
theorem parse_askFor (h : Askable q) (hlen : (askFor q).length ≤ maxSize) :
    ∃ request, parseHttpRequest (askFor q) = .ok request ∧ request.mUrl = absolute q ∧
      request.mAcceptEncodings = [] := by
  have hline : (startLine .GET (absolute q) none .HTTP1_1).length ≤ maxSize := by
    have hlength := length_packet (startLine .GET (absolute q) none .HTTP1_1) []
      [ascii "Host: a"]
    rw [← askFor] at hlength
    omega
  have hpath : ∀ c ∈ absolute q, c ≠ 32 ∧ c ≠ 63 := fun c hc =>
    ⟨(h.line c hc).2.1, (h.line c hc).2.2.1⟩
  have hinverts : Inverts .GET (absolute q) none .HTTP1_1 :=
    inverts_of_plain hpath hline h.http nofun
  obtain ⟨start, hstart, htype, hversion, hurl, -⟩ := hinverts
  obtain ⟨-, -, -, hfields⟩ := parseStartLine_ok hline hstart
  let request : HttpRequest :=
    { start with mHeaders := [(ascii "Host", ascii "a")], mHost := ascii "a" }
  have hheaders : parseHeaders (block [ascii "Host: a"]) start = .ok (some request) := by
    show _ = Except.ok (some { start with
      mHeaders := [(ascii "Host", ascii "a")]
      mHost := ascii "a" })
    rw [hfields, htype]
    rfl
  have hlocated := (located_iff hlen (by decide +kernel) ⟨hstart, htype, hheaders⟩).mpr
    ⟨List.cons_ne_nil _ _, ?_⟩
  · refine ⟨_, hlocated.parsed, hurl, ?_⟩
    show start.mAcceptEncodings = []
    rw [hfields]
    rfl
  · apply not_isInfix_of_not_mem
    intro hmem
    simp only [startLine, queryText, List.append_nil, List.mem_append, List.mem_cons] at hmem
    rcases hmem with (hmem | hmem | hmem | hmem) | hmem | hmem
    · exact absurd hmem (by decide)
    · cases hmem
    · cases hmem
    · exact (h.line 13 hmem).2.2.2.1 rfl
    · cases hmem
    · exact absurd hmem (by decide)

/-! ### The answer -/

/-- The response that has the file. -/
theorem greeted_file {path : Bytes} {type : ContentType} (htype : contentTypeOf path = some type)
    (hfile : fileAt env io fs path = .file file.content file.stored) :
    ∃ r, sendFile env io fs path
        (VideoServ.greeting io.date_str (HttpResponse.create.setAcceptEncodings [])) = .ok r ∧
      Greeted io.date_str r ∧ r.PassesRangeCheck ∧
      r.mBody = Vec.resize file.stored file.content.length := by
  let greeted := VideoServ.greeting io.date_str HttpResponse.create
  have hencoding : greeted.selectEncodeType path = .NO_ENCODING := by
    have hnone : greeted.mAvailEncodings = [] := by
      unfold greeted VideoServ.greeting HttpResponse.setDate
      cases io.date_str <;> rfl
    rw [selectEncodeType, hnone]
  let body := Vec.resize file.stored file.content.length
  refine ⟨{ greeted with mBody := body, mContentType := type, mContentLength := body.length },
    ?_, ?_, ?_, rfl⟩
  · show sendFile env io fs path greeted = _
    unfold sendFile setContentByFilePath
    rw [hfile, htype, hencoding]
    rfl
  · exact {
      headers := rfl
      version := mVersion_greeting io.date_str _
      status := .inr (mStatus_greeting io.date_str _)
      length := rfl
      keepAlive := rfl }
  · apply passesRangeCheck_iff.mpr
    left
    show greeted.mContentRange.total = 0
    rw [mContentRange_greeting]
    rfl

/-- **Every file is handed out**: to a client that asks for it by its path, wherever it is, if its
path can be written in a request line and its type is known. It is sent when there is room for it in
the send buffer. -/
theorem exposed (env : FileEnv) (io : FileIo) (fs : FileSystem) (q : Place Bytes)
    (file : StoredFile) (s : HttpCtx) (hdate : PlainDate io.date_str)
    (hiterate : ∀ m, (io.iterate m).Perm m) (hfile : fs.node q = some (.file file))
    (hq : Askable q) (htype : contentTypeOf (absolute q) ≠ none) (hidle : HttpCtx.Idle s)
    (hreadable : s.ctx.conn.mRecvBuffer.readable = askFor q) :
    ∃ text lines, readHead text = some (lines, Vec.resize file.stored file.content.length) ∧
      (s.ctx.conn.mSendBuffer.CanAppend text →
        ∃ s', (HttpServer.onMessage (some (handle env io fs)) []).run s = .ok () s' ∧
          s'.ctx.sent = s.ctx.sent ++ [text]) := by
  have hlen : (askFor q).length ≤ maxSize := by
    have hroom := hidle.sound.recv
    rw [← hreadable, hroom.length_readable, hroom.readablebytes_eq]
    have := hroom.write_le
    have := hroom.le_max
    omega
  obtain ⟨request, hparse, hurl, hencodings⟩ := parse_askFor hq hlen
  obtain ⟨type, htype⟩ := Option.ne_none_iff_exists'.mp htype
  have hread : fileAt env io fs (absolute q) = .file file.content file.stored :=
    fileAt_absolute hq hfile
  obtain ⟨r, hsend, hgreeted, hpasses, hbody⟩ := greeted_file htype hread
  obtain ⟨text, r', lines, hgenerate, hkeep, hhead, -⟩ := hgreeted.generated hdate hpasses hiterate
  have hhandle : ∀ mRawRequest, handle env io fs { request with mRawRequest } =
      .ok (text, true) := by
    intro mRawRequest
    have hslash : request.mUrl.head? = some 47 := hurl ▸ head_absolute hfile
    have hne : request.mUrl ≠ [] := by
      intro he
      rw [he] at hslash
      cases hslash
    have hpath : requestPath env { request with mRawRequest } = absolute q := by
      rw [requestPath, if_neg hne, appendPath, if_pos hslash, hurl]
    rw [handle, hencodings, handleRequest_file (hpath.symm ▸ hsend), ok_bind, hgenerate, ok_bind]
    show Except.ok (text, r'.mIsKeepAlive) = _
    rw [hkeep]
  rw [← hreadable] at hparse
  refine ⟨text, lines, hbody ▸ hhead, fun hroom => ?_⟩
  rcases onMessage_answers hidle hparse hhandle with ⟨s', hok, -, hsent, -⟩ | ⟨hfull, -⟩
  · exact ⟨s', hok, hsent⟩
  · exact absurd hroom hfull

end

/-- A machine with the one file `/etc/passwd`. -/
def machine : FileSystem where
  node q :=
    if q = [ascii "passwd", ascii "etc"] then some (.file ⟨ascii "root", ascii "root"⟩)
    else if q = [ascii "etc"] ∨ q = [] then some .dir
    else none
  node_root := rfl
  node_parent := by
    intro n p h
    have hp : p = [ascii "etc"] ∨ p = [] := by
      by_contra hp
      rw [not_or] at hp
      refine h ?_
      rw [if_neg (by simp [hp.1]), if_neg (by simp [hp.2])]
    rcases hp with rfl | rfl
    · rfl
    · rfl

theorem exposed_passwd :
    let q : Place Bytes := [ascii "passwd", ascii "etc"]
    let env : FileEnv := ⟨ascii "/www", [], plainCodec⟩
    let s := HttpServer.holding (askFor q)
    ∃ text lines, readHead text = some (lines, ascii "root") ∧
      (s.ctx.conn.mSendBuffer.CanAppend text →
        ∃ s', (HttpServer.onMessage (some (handle env ⟨none, id, ""⟩ machine)) []).run s =
            .ok () s' ∧ s'.ctx.sent = [text]) := by
  intro q env s
  have hshort : (askFor q).length < 1024 := by decide +kernel
  have hspec := HttpServer.holding_spec hshort
  have hq : Askable q := ⟨by decide +kernel, by decide +kernel, by decide +kernel⟩
  exact exposed env ⟨none, id, ""⟩ machine q ⟨ascii "root", ascii "root"⟩ s nofun (fun _ => .rfl)
    rfl hq (by decide +kernel) ⟨hspec.1, rfl⟩ hspec.2

end FileServ

end SimpleTcp
