import SimpleTcp.Http.Framing
import SimpleTcp.Http.Packet

/-!
# Request lines

A request line is written down and parsed again. The path goes to the first `HTTP` of the line and
is stripped; the query goes there too and keeps the space in front of the version. A method or a
version that the path has in it may be taken for that of the request.

## Main definitions

* `startLine`: the request line of a path and a query
* `Inverts`: it is parsed as what it was made from

## Main results

* `parseUrl_of_none`, `parseUrl_of_some`: the path and the query of a line
* `inverts_iff`: the request lines that are parsed as what they were made from
-/

namespace SimpleTcp

open Search

def Method.type : Method → RequestType
  | .GET => .GET
  | .POST => .POST

def Protocol.version : Protocol → Version
  | .HTTP1_0 => .HTTP1_0
  | .HTTP1_1 => .HTTP1_1

/-- A query, with its question mark. -/
def queryText : Option Bytes → Bytes
  | none => []
  | some query => 63 :: query

def startLine (method : Method) (path : Bytes) (query : Option Bytes) (protocol : Protocol) :
    Bytes :=
  method.text ++ 32 :: 47 :: (path ++ queryText query) ++ 32 :: protocol.text

/-- The request line is parsed as what it was made from. -/
def Inverts (method : Method) (path : Bytes) (query : Option Bytes) (protocol : Protocol) : Prop :=
  ∃ request, parseStartLine (startLine method path query protocol) HttpRequest.create =
      .ok (some request) ∧
    request.mType = method.type ∧ request.mVersion = protocol.version ∧ request.mUrl = path ∧
      request.mQueryParameters = queryText query

/-! ### The parts of a line -/

section

variable {requestLine : Bytes} {mVersion : Version} {slash http query : Nat} {request : HttpRequest}

theorem parseUrl_of_none (hlen : requestLine.length ≤ maxSize)
    (hv : parseVersion requestLine = some mVersion) (hslash : find [47] requestLine = some slash)
    (hhttp : find (ascii "HTTP") requestLine = some http) (hquery : find [63] requestLine = none)
    (hlt : slash < http) : parseUrl requestLine request = .ok (some { request with
      mVersion
      mUrl := strip (Vec.slice requestLine (slash + 1) (http - (slash + 1))) }) := by
  have hle := le_of_find hhttp (by decide)
  unfold parseUrl
  simp only [hv, hslash, hhttp, hquery, Option.getD_some]
  rw [sizeSub_of_le (by omega) (by omega), stripView_of_le (by omega), ok_bind]

theorem parseUrl_of_some (hlen : requestLine.length ≤ maxSize)
    (hv : parseVersion requestLine = some mVersion) (hslash : find [47] requestLine = some slash)
    (hhttp : find (ascii "HTTP") requestLine = some http)
    (hquery : find [63] requestLine = some query) (hlt : slash < query) (hlt' : query < http) :
    parseUrl requestLine request = .ok (some { request with
      mVersion
      mQueryParameters := Vec.slice requestLine query (http - query)
      mUrl := strip (Vec.slice requestLine (slash + 1) (query - (slash + 1))) }) := by
  have hle := le_of_find hhttp (by decide)
  unfold parseUrl
  simp only [hv, hslash, hhttp, hquery, Option.getD_some]
  rw [sizeSub_of_le hlt'.le (by omega), substring_of_le (by omega), ok_bind,
    sizeSub_of_le (by omega) (by omega), stripView_of_le (by omega), ok_bind]

/-- What is parsed of a line that is accepted. -/
theorem parseStartLine_parts (hlen : requestLine.length ≤ maxSize) {request' : HttpRequest}
    (h : parseStartLine requestLine request = .ok (some request'))
    (hslash : find [47] requestLine = some slash)
    (hhttp : find (ascii "HTTP") requestLine = some http) :
    match find [63] requestLine with
    | none => request'.mUrl = strip (Vec.slice requestLine (slash + 1) (http - (slash + 1)))
    | some query => query < http ∧
        request'.mQueryParameters = Vec.slice requestLine query (http - query) := by
  obtain ⟨hacc, horder, ht, -⟩ := parseStartLine_ok hlen h
  -- type and version are known, so that the URL is parsed
  obtain ⟨mVersion, hv⟩ := Option.ne_none_iff_exists'.mp hacc.2
  obtain ⟨mType, hrun⟩ : ∃ mType, parseUrl requestLine { request with mType } =
      .ok (some request') := by
    unfold parseStartLine at h
    split at h
    · cases h
    · rw [ht] at h
      exact ⟨_, h⟩
  have hlt := horder slash http hslash hhttp
  cases hquery : find [63] requestLine with
  | none =>
    rw [hquery] at hlt
    rw [parseUrl_of_none hlen hv hslash hhttp hquery hlt] at hrun
    obtain rfl := Option.some.inj (Except.ok.inj hrun)
    rfl
  | some query =>
    rw [hquery] at hlt
    rw [parseUrl_of_some hlen hv hslash hhttp hquery hlt.1 hlt.2] at hrun
    obtain rfl := Option.some.inj (Except.ok.inj hrun)
    exact ⟨hlt.2, rfl⟩

end

theorem length_strip_le (s : Bytes) : (strip s).length ≤ s.length := by
  rw [strip_eq_trim, trim, List.rdropWhile, List.length_reverse]
  refine (List.length_dropWhile_le _ _).trans ?_
  rw [List.length_reverse]
  exact List.length_dropWhile_le _ _

/-! ### The markers of a line -/

section

variable {method : Method} {path : Bytes} {query : Option Bytes} {protocol : Protocol}

/-- The line up to the space in front of the version. -/
def front (method : Method) (path : Bytes) (query : Option Bytes) : Bytes :=
  method.text ++ 32 :: 47 :: (path ++ queryText query)

theorem startLine_eq : startLine method path query protocol =
    front method path query ++ 32 :: protocol.text := rfl

theorem find_slash : find [47] (startLine method path query protocol) =
    some (method.text.length + 1) := by
  -- the method has no slash in it
  have hno : (47 : UInt8) ∉ method.text ++ [32] := by
    cases method <;> decide
  have hfind : find (47 :: []) (method.text ++ [32] ++ 47 :: [] ++
      (path ++ queryText query ++ 32 :: protocol.text)) = some (method.text ++ [32]).length :=
    find_append_cons hno _
  rw [List.length_append] at hfind
  rw [← List.length_singleton (a := (32 : UInt8)), ← hfind]
  simp [startLine]

theorem length_front (method : Method) (path : Bytes) (query : Option Bytes) :
    (front method path query).length =
      method.text.length + 2 + path.length + (queryText query).length := by
  simp only [front, List.length_append, List.length_cons]
  omega

/-- The version is behind a space, and `HTTP` starts with none. -/
theorem exists_http (method : Method) (path : Bytes) (query : Option Bytes) (protocol : Protocol) :
    ∃ http, find (ascii "HTTP") (startLine method path query protocol) = some http ∧
      http ≠ (front method path query).length ∧
      http ≤ (front method path query).length + 1 := by
  have hin : ascii "HTTP" <+: (startLine method path query protocol).drop
      ((front method path query).length + 1) := by
    rw [startLine_eq, ← List.drop_drop, List.drop_left, List.drop_one, List.tail_cons]
    cases protocol <;> decide
  -- it is found at the version at the latest
  have hsome := find_isSome_of_isInfix (hin.isInfix.trans (List.drop_suffix _ _).isInfix)
  obtain ⟨http, hhttp⟩ := Option.isSome_iff_exists.mp hsome
  obtain ⟨hpre, hfirst⟩ := find_eq_some_iff.mp hhttp
  refine ⟨http, hhttp, ?_, ?_⟩
  · rintro rfl
    rw [startLine_eq, List.drop_left] at hpre
    have hhead := (List.cons_prefix_cons.mp hpre).1
    exact absurd hhead (by decide)
  · by_contra hlt
    exact hfirst _ (by omega) hin

/-- `HTTP` comes earlier only where it is in the path. -/
theorem find_http_of_not (h : ¬ ascii "HTTP" <:+: path) :
    find (ascii "HTTP") (startLine method path none protocol) =
      some ((front method path none).length + 1) := by
  have hfront : ¬ ascii "HTTP" <:+: front method path none := by
    have htext : front method path none = method.text ++ 32 :: ([] ++ 47 :: path) := by
      simp [front, queryText]
    rw [htext, isInfix_append_cons_iff (by decide), isInfix_append_cons_iff (by decide)]
    rintro (hm | hm | hm)
    · revert hm
      cases method <;> decide
    · exact absurd hm (by decide)
    · exact h hm
  have hversion : find (ascii "HTTP") protocol.text = some 0 := by
    cases protocol <;> decide
  rw [startLine_eq, find_append_separator (by decide) hfront, hversion, Option.map_some,
    Nat.zero_add]

/-- Without a question mark in it, the path goes up to the query. -/
theorem find_query (hpath : 63 ∉ path) : find [63] (startLine method path query protocol) =
    query.map fun _ => method.text.length + 2 + path.length := by
  have hno : (63 : UInt8) ∉ method.text ++ 32 :: 47 :: path := by
    simp only [List.mem_append, List.mem_cons, not_or]
    refine ⟨?_, by decide, by decide, hpath⟩
    cases method <;> decide
  cases query with
  | none =>
    rw [Option.map_none, find_eq_none_iff]
    intro i hpre
    have hmem : 63 ∈ startLine method path none protocol :=
      List.mem_of_mem_drop (hpre.subset List.mem_cons_self)
    -- neither the path nor the version has a question mark
    have hversion : (63 : UInt8) ∉ 32 :: protocol.text := by
      cases protocol <;> decide
    rw [startLine, queryText, List.append_nil] at hmem
    exact (List.mem_append.mp hmem).elim hno hversion
  | some query =>
    have hfind : find (63 :: []) (method.text ++ 32 :: 47 :: path ++ 63 :: [] ++
        (query ++ 32 :: protocol.text)) = some (method.text ++ 32 :: 47 :: path).length :=
      find_append_cons hno _
    have hlen : (method.text ++ 32 :: 47 :: path).length =
        method.text.length + 2 + path.length := by
      simp only [List.length_append, List.length_cons]
      omega
    rw [hlen] at hfind
    rw [Option.map_some, ← hfind]
    simp [startLine, queryText]

theorem parseType_startLine (h : method = .POST → ¬ ascii "GET" <:+: path) :
    parseType (startLine method path none protocol) = some method.type := by
  unfold parseType
  cases method with
  | GET =>
    have hin : ascii "GET" <:+: startLine .GET path none protocol := by
      rw [startLine, List.append_assoc]
      exact (List.prefix_append _ _).isInfix
    rw [if_pos (find_isSome_iff.mpr hin)]
    rfl
  | POST =>
    have hin : ascii "POST" <:+: startLine .POST path none protocol := by
      rw [startLine, List.append_assoc]
      exact (List.prefix_append _ _).isInfix
    -- `GET` is searched first, in the whole of the line
    have hno : ¬ ascii "GET" <:+: startLine .POST path none protocol := by
      have htext : startLine .POST path none protocol =
          ascii "POST" ++ 32 :: ([] ++ 47 :: (path ++ 32 :: protocol.text)) := by
        simp [startLine, queryText, Method.text]
      rw [htext, isInfix_append_cons_iff (by decide), isInfix_append_cons_iff (by decide),
        isInfix_append_cons_iff (by decide)]
      rintro (hm | hm | hm | hm)
      · exact absurd hm (by decide)
      · exact absurd hm (by decide)
      · exact h rfl hm
      · revert hm
        cases protocol <;> decide
    rw [if_neg fun hsome => hno (find_isSome_iff.mp hsome), if_pos (find_isSome_iff.mpr hin)]
    rfl

theorem parseVersion_startLine (h : ¬ ascii "HTTP" <:+: path) :
    parseVersion (startLine method path none protocol) = some protocol.version := by
  have hin : protocol.text <:+: startLine method path none protocol :=
    ((List.suffix_cons _ _).trans (List.suffix_append _ _)).isInfix
  unfold parseVersion
  cases protocol with
  | HTTP1_1 =>
    have hsome : (find (ascii "HTTP/1.1") (startLine method path none .HTTP1_1)).isSome :=
      find_isSome_iff.mpr hin
    rw [if_pos hsome]
    rfl
  | HTTP1_0 =>
    -- `HTTP/1.1` is searched first, in the whole of the line
    have hno : ¬ ascii "HTTP/1.1" <:+: startLine method path none .HTTP1_0 := by
      have htext : startLine method path none .HTTP1_0 =
          method.text ++ 32 :: ((47 :: path) ++ 32 :: ascii "HTTP/1.0") := by
        simp [startLine, queryText, Protocol.text]
      rw [htext, isInfix_append_cons_iff (by decide), isInfix_append_cons_iff (by decide)]
      rintro (hm | hm | hm)
      · revert hm
        cases method <;> decide
      · have hhttp : ascii "HTTP" <:+: [] ++ 47 :: path :=
          List.IsInfix.trans (by decide) hm
        rw [isInfix_append_cons_iff (by decide)] at hhttp
        rcases hhttp with hhttp | hhttp
        · exact absurd hhttp (by decide)
        · exact h hhttp
      · exact absurd hm (by decide)
    have hsome : (find (ascii "HTTP/1.0") (startLine method path none .HTTP1_0)).isSome :=
      find_isSome_iff.mpr hin
    rw [if_neg fun hsome' => hno (find_isSome_iff.mp hsome'), if_pos hsome]
    rfl

/-! ### Parsing what was written -/

/-- A query that is parsed has another length. -/
theorem not_inverts_of_query {q : Bytes} (hpath : 63 ∉ path)
    (hlen : (startLine method path (some q) protocol).length ≤ maxSize) :
    ¬ Inverts method path (some q) protocol := by
  rintro ⟨request, hrun, -, -, -, hquery⟩
  obtain ⟨http, hhttp, hne, hle⟩ := exists_http method path (some q) protocol
  have hparts := parseStartLine_parts hlen hrun find_slash hhttp
  rw [find_query hpath] at hparts
  obtain ⟨hlt, hslice⟩ := hparts
  have hbound := le_of_find hhttp (by decide)
  -- the query goes up to `HTTP`, so it ends with the space in front of it, or before that
  have hlength := congrArg List.length (hslice.symm.trans hquery)
  rw [Vec.length_slice (by omega)] at hlength
  have hfront := length_front method path (some q)
  simp only [queryText, List.length_cons] at hlength hfront
  omega

/-- A path that has `HTTP` in it is cut there. -/
theorem not_inverts_of_http (hpath : 63 ∉ path)
    (hlen : (startLine method path none protocol).length ≤ maxSize)
    (hin : ascii "HTTP" <:+: path) : ¬ Inverts method path none protocol := by
  rintro ⟨request, hrun, -, -, hurl, -⟩
  have hfront := length_front method path none
  simp only [queryText, List.length_nil, Nat.add_zero] at hfront
  have hinfix : ascii "HTTP" <:+: front method path none := by
    have htext : front method path none = method.text ++ [32, 47] ++ path := by
      simp [front, queryText]
    rw [htext]
    exact hin.trans (List.suffix_append _ _).isInfix
  obtain ⟨http, hhttp⟩ := Option.isSome_iff_exists.mp (find_isSome_of_isInfix hinfix)
  have hpre : front method path none <+: startLine method path none protocol :=
    List.prefix_append _ _
  obtain ⟨hhttp, hle⟩ := (find_prefix_iff hpre (by decide)).mp hhttp
  have hparts := parseStartLine_parts hlen hrun find_slash hhttp
  rw [find_query hpath] at hparts
  -- the path is read up to `HTTP`, which is four bytes less of it at least
  have hurl' := congrArg List.length (hparts.symm.trans hurl)
  have hslice : (Vec.slice (startLine method path none protocol) (method.text.length + 1 + 1)
      (http - (method.text.length + 1 + 1))).length ≤ http - (method.text.length + 1 + 1) :=
    List.length_take_le _ _
  have hstrip := length_strip_le (Vec.slice (startLine method path none protocol)
    (method.text.length + 1 + 1) (http - (method.text.length + 1 + 1)))
  have hhttp_len : (ascii "HTTP").length = 4 := rfl
  have hlong := hin.length_le
  omega

theorem inverts_of_plain (hpath : ∀ c ∈ path, c ≠ 32 ∧ c ≠ 63)
    (hlen : (startLine method path none protocol).length ≤ maxSize)
    (hhttp : ¬ ascii "HTTP" <:+: path) (hget : method = .POST → ¬ ascii "GET" <:+: path) :
    Inverts method path none protocol := by
  have hmark : 63 ∉ path := fun hmem => (hpath 63 hmem).2 rfl
  have hspace : 32 ∉ path := fun hmem => (hpath 32 hmem).1 rfl
  have hfront := length_front method path none
  simp only [queryText, List.length_nil, Nat.add_zero] at hfront
  have hurl : strip (Vec.slice (startLine method path none protocol) (method.text.length + 1 + 1)
      ((front method path none).length + 1 - (method.text.length + 1 + 1))) = path := by
    have hdrop : (startLine method path none protocol).drop (method.text.length + 1 + 1) =
        (path ++ [32]) ++ protocol.text := by
      have hhead : method.text.length + 1 + 1 = (method.text ++ [32, 47]).length := by simp
      have htext : startLine method path none protocol =
          (method.text ++ [32, 47]) ++ ((path ++ [32]) ++ protocol.text) := by
        simp [startLine, queryText]
      rw [hhead, htext, List.drop_left]
    have hcount : (front method path none).length + 1 - (method.text.length + 1 + 1) =
        (path ++ [32]).length := by
      rw [hfront, List.length_append, List.length_singleton]
      omega
    -- the space behind the path is stripped, and no other
    rw [Vec.slice, hdrop, hcount, List.take_left, strip_eq_trim, trim_concat_space, trim_of_ends]
    · exact fun h => hspace (List.mem_of_mem_head? h)
    · exact fun h => hspace (List.mem_of_getLast? h)
  have hne : startLine method path none protocol ≠ [] := by
    simp [startLine]
  have hquery : find [63] (startLine method path none protocol) = none := find_query hmark
  refine ⟨{ HttpRequest.create with
    mType := method.type
    mVersion := protocol.version
    mUrl := path }, ?_, rfl, rfl, rfl, rfl⟩
  rw [parseStartLine, if_neg hne, parseType_startLine hget]
  dsimp only
  rw [parseUrl_of_none hlen (parseVersion_startLine hhttp) find_slash (find_http_of_not hhttp)
    hquery (by omega), hurl]

/-- **Parsing a request line inverts writing it** where there is no query, the path has no `HTTP` in
it, and that of a `POST` has no `GET` in it; and nowhere else. -/
theorem inverts_iff (hpath : ∀ c ∈ path, c ≠ 32 ∧ c ≠ 63 ∧ c ≠ 13 ∧ c ≠ 10)
    (hquery : ∀ q ∈ query, ∀ c ∈ q, c ≠ 32 ∧ c ≠ 13 ∧ c ≠ 10)
    (hlen : (startLine method path query protocol).length ≤ maxSize) :
    Inverts method path query protocol ↔
      query = none ∧ ¬ ascii "HTTP" <:+: path ∧ (method = .POST → ¬ ascii "GET" <:+: path) := by
  have hmark : 63 ∉ path := fun hmem => (hpath 63 hmem).2.1 rfl
  constructor
  · intro h
    cases query with
    | some q => exact absurd h (not_inverts_of_query hmark hlen)
    | none =>
      refine ⟨rfl, fun hin => not_inverts_of_http hmark hlen hin h, ?_⟩
      rintro rfl hin
      -- a `POST` with `GET` in its path is taken for a `GET`
      obtain ⟨request, hrun, htype, -⟩ := h
      obtain ⟨-, -, ht, -⟩ := parseStartLine_ok hlen hrun
      have hget : ascii "GET" <:+: startLine .POST path none protocol := by
        have hpre : path <:+: startLine .POST path none protocol := by
          have htext : startLine .POST path none protocol =
              (ascii "POST" ++ [32, 47]) ++ path ++ 32 :: protocol.text := by
            simp [startLine, queryText, Method.text]
          rw [htext]
          exact ⟨_, _, rfl⟩
        exact hin.trans hpre
      rw [parseType, if_pos (find_isSome_iff.mpr hget), htype] at ht
      cases ht
  · rintro ⟨rfl, hhttp, hget⟩
    exact inverts_of_plain (fun c hc => ⟨(hpath c hc).1, (hpath c hc).2.1⟩) hlen hhttp hget

theorem inverts_iff_index : Inverts .GET (ascii "index.html") none .HTTP1_1 ↔
    (none : Option Bytes) = none ∧ ¬ ascii "HTTP" <:+: ascii "index.html" ∧
      (Method.GET = .POST → ¬ ascii "GET" <:+: ascii "index.html") := by
  have hpath : (ascii "index.html").all fun c => c ≠ 32 ∧ c ≠ 63 ∧ c ≠ 13 ∧ c ≠ 10 := by decide
  exact inverts_iff (by simpa using hpath) (by simp) (by decide +kernel)

/-- The query of `GET /a?b HTTP/1.1` is parsed with the space behind it. -/
theorem not_inverts_query : ¬ ∀ (method : Method) (path : Bytes) (query : Option Bytes)
    (protocol : Protocol), (∀ c ∈ path, c ≠ 32 ∧ c ≠ 63 ∧ c ≠ 13 ∧ c ≠ 10) →
      (∀ q ∈ query, ∀ c ∈ q, c ≠ 32 ∧ c ≠ 13 ∧ c ≠ 10) →
        (startLine method path query protocol).length ≤ maxSize →
          Inverts method path query protocol := by
  intro h
  have hpath : (ascii "a").all fun c => c ≠ 32 ∧ c ≠ 63 ∧ c ≠ 13 ∧ c ≠ 10 := by decide
  have hquery : (ascii "b").all fun c => c ≠ 32 ∧ c ≠ 13 ∧ c ≠ 10 := by decide
  have hinverts := h .GET (ascii "a") (some (ascii "b")) .HTTP1_1 (by simpa using hpath)
    (by simpa using hquery) (by decide +kernel)
  exact not_inverts_of_query (by decide) (by decide +kernel) hinverts

end

end SimpleTcp
