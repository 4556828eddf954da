import SimpleTcp.Http.Framing
import SimpleTcp.Http.Packet

/-!
# The map of the headers

`parseHeaders` keeps the first value of every name. A line is split at its first colon, wherever the
colon is and whatever else the line has in it; a line without one is skipped.

## Main definitions

* `field`: the name and the value of a line
* `IsHeaderMap`: the map of the headers of lines

## Main results

* `parseHeaders_ok`: what `parseHeaders` sets
* `isHeaderMap_of_parsed`: the headers that are accepted are the map of their lines
-/

namespace SimpleTcp

open Search

/-! ### What `parseHeaders` sets -/

theorem parseContent_ok {request request' : HttpRequest}
    (h : parseContent request = some request') :
    request' = { request with
      mContentType := request'.mContentType
      mContentLength := request'.mContentLength } := by
  unfold parseContent at h
  split at h
  · obtain rfl := Option.some.inj h
    rfl
  · split at h
    · obtain rfl := Option.some.inj h
      rfl
    · split at h
      · cases h
      · split at h
        · obtain rfl := Option.some.inj h
          rfl
        · obtain ⟨n, -, rfl⟩ := Option.map_eq_some_iff.mp h
          rfl

theorem setHeaders_nil {request : HttpRequest} (hm : request.mHeaders = []) :
    setHeaders request [] = request := by
  cases request
  obtain rfl := hm
  simp [setHeaders]

/-- **Headers that are accepted** set what `setHeaders` sets, the content and the ranges. -/
theorem parseHeaders_ok {headers : Bytes} (hlen : headers.length ≤ maxSize)
    {request request' : HttpRequest} (hm : request.mHeaders = [])
    (h : parseHeaders headers request = .ok (some request')) :
    ∃ rs, parseRanges (rangePieces (headerFields headers)) = .ok rs ∧
      request' = { setHeaders request (headerFields headers) with
        mContentType := request'.mContentType
        mContentLength := request'.mContentLength
        mRanges := request.mRanges ++ rs } := by
  unfold parseHeaders at h
  split at h
  -- without headers `parseHeaders` leaves the request as it is
  · next hempty =>
    obtain rfl := Option.some.inj (Except.ok.inj h)
    have hfields : headerFields [] = [] := by decide
    refine ⟨[], ?_, ?_⟩
    · rw [hempty, hfields]
      rfl
    · rw [hempty, hfields, setHeaders_nil hm, List.append_nil]
  · rw [headerLoop_eq hlen, hm, List.drop_zero] at h
    simp only [ok_bind] at h
    rw [← headerFields] at h
    cases hcontent : parseContent (setHeaders request (headerFields headers)) with
    | none => simp [hcontent] at h
    | some r =>
      rw [hcontent] at h
      dsimp only at h
      obtain ⟨rs, hrs, hok⟩ := ok_of_bind h
      obtain rfl := Option.some.inj (Except.ok.inj hok)
      have hr := parseContent_ok hcontent
      refine ⟨rs, hrs, ?_⟩
      rw [hr]
      rfl

/-! ### The map -/

/-- The name before the first colon, and the value behind it without the spaces at its ends. -/
def field (line : Bytes) : Option (Bytes × Bytes) :=
  if 58 ∈ line then
    some (line.takeWhile (· ≠ 58), trim ((line.dropWhile (· ≠ 58)).drop 1))
  else none

/-- Every name has its first value, and no name comes twice. -/
structure IsHeaderMap (lines : List Bytes) (m : Headers) : Prop where
  lookup : ∀ k, m.lookup k = (lines.filterMap field).lookup k
  keyed : (m.map Prod.fst).Nodup

theorem parseHeader_of_field_none {line : Bytes} (h : field line = none) (m : Headers) :
    parseHeader m line = m := by
  have hmem : 58 ∉ line := by
    intro hmem
    simp [field, hmem] at h
  have hnone : find [58] line = none := by
    rw [find_eq_none_iff]
    intro i hpre
    exact hmem (List.mem_of_mem_drop (hpre.subset List.mem_cons_self))
  rw [parseHeader, hnone]

/-- A line with a colon is split at the first. -/
theorem parseHeader_of_field {line : Bytes} {f : Bytes × Bytes} (h : field line = some f)
    (m : Headers) : parseHeader m line = insertHeader m f.1 f.2 := by
  have hmem : 58 ∈ line := by
    by_contra hmem
    simp [field, hmem] at h
  rw [field, if_pos hmem] at h
  obtain rfl := Option.some.inj h
  -- what is not taken starts with the colon
  obtain ⟨value, hvalue⟩ : ∃ value, line.dropWhile (· ≠ 58) = 58 :: value := by
    cases hdrop : line.dropWhile (· ≠ 58) with
    | nil =>
      have hall := List.dropWhile_eq_nil_iff.mp hdrop 58 hmem
      exact absurd hall (by decide)
    | cons c value =>
      have hhead := List.head?_dropWhile_not (p := (· ≠ 58)) line
      rw [hdrop] at hhead
      have hc : c = 58 := by simpa using hhead
      exact ⟨value, by rw [hc]⟩
  have hline : line = line.takeWhile (· ≠ 58) ++ 58 :: value := by
    rw [← hvalue, List.takeWhile_append_dropWhile]
  have hname : ∀ c ∈ line.takeWhile (· ≠ 58), c ≠ 58 := fun c hc => by
    simpa using List.mem_takeWhile_imp hc
  rw [hvalue, List.drop_one, List.tail_cons]
  have hparse : parseHeader m (Message.line (line.takeWhile (· ≠ 58), value)) =
      insertHeader m (line.takeWhile (· ≠ 58)) (trim value) := parseHeader_line m hname
  conv_lhs => rw [hline]
  exact hparse

theorem lookup_parseHeader (m : Headers) (line k : Bytes) :
    (parseHeader m line).lookup k = (m ++ (field line).toList).lookup k := by
  cases hf : field line with
  | none => rw [parseHeader_of_field_none hf, Option.toList_none, List.append_nil]
  | some f => rw [parseHeader_of_field hf, lookup_insertHeader, Option.toList_some]

theorem keyed_insertHeader {m : Headers} (hm : (m.map Prod.fst).Nodup) (key value : Bytes) :
    ((insertHeader m key value).map Prod.fst).Nodup := by
  unfold insertHeader
  split
  · exact hm
  · next hnone =>
    have hkey : key ∉ m.map Prod.fst := by
      intro hmem
      obtain ⟨f, hf, rfl⟩ := List.mem_map.mp hmem
      exact hnone (List.lookup_isSome_iff.mpr ⟨f, hf, by simp⟩)
    rw [List.map_append, List.nodup_append]
    exact ⟨hm, by simp, fun a ha b hb => by
      obtain rfl := List.mem_singleton.mp hb
      exact ne_of_mem_of_not_mem ha hkey⟩

theorem keyed_parseHeader {m : Headers} (hm : (m.map Prod.fst).Nodup) (line : Bytes) :
    ((parseHeader m line).map Prod.fst).Nodup := by
  cases hf : field line with
  | none => rwa [parseHeader_of_field_none hf]
  | some f =>
    rw [parseHeader_of_field hf]
    exact keyed_insertHeader hm f.1 f.2

/-- The lines that are still to come add the names that are not there yet. -/
theorem lookup_foldl_parseHeader (lines : List Bytes) (m : Headers) (k : Bytes) :
    (lines.foldl parseHeader m).lookup k = (m ++ lines.filterMap field).lookup k := by
  induction lines generalizing m with
  | nil => simp
  | cons line lines ih =>
    rw [List.foldl_cons, ih, List.lookup_append, lookup_parseHeader, ← List.lookup_append,
      List.append_assoc]
    cases hf : field line with
    | none => rw [List.filterMap_cons_none hf, Option.toList_none, List.nil_append]
    | some f => rw [List.filterMap_cons_some hf, Option.toList_some, List.singleton_append]

theorem keyed_foldl_parseHeader (lines : List Bytes) {m : Headers} (hm : (m.map Prod.fst).Nodup) :
    ((lines.foldl parseHeader m).map Prod.fst).Nodup := by
  induction lines generalizing m with
  | nil => exact hm
  | cons line lines ih => exact ih (keyed_parseHeader hm line)

/-- The headers of a text are the map of its lines. -/
theorem isHeaderMap_linesOf (headers : Bytes) :
    IsHeaderMap (linesOf headers) (headerFields headers) :=
  ⟨lookup_foldl_parseHeader (linesOf headers) [],
    keyed_foldl_parseHeader (linesOf headers) List.nodup_nil⟩

/-- **The map of the headers**: the headers of lines that are accepted have the first value of every
name, and the host is the value of `Host`. -/
theorem isHeaderMap_of_parsed {lines : List Bytes} (hlines : ∀ line ∈ lines, ¬ CRLF <:+: line)
    (hlen : (block lines).length ≤ maxSize) {request request' : HttpRequest}
    (hm : request.mHeaders = []) (h : parseHeaders (block lines) request = .ok (some request')) :
    IsHeaderMap lines request'.mHeaders ∧
      request'.mHost = ((lines.filterMap field).lookup (ascii "Host")).getD request.mHost := by
  obtain ⟨rs, -, hr⟩ := parseHeaders_ok hlen hm h
  have hmap := isHeaderMap_linesOf (block lines)
  rw [linesOf_block hlines] at hmap
  rw [hr]
  refine ⟨hmap, ?_⟩
  rw [← hmap.lookup]
  rfl

theorem isHeaderMap_host :
    let request := { HttpRequest.create with
      mHeaders := [(ascii "Host", ascii "a:1")], mHost := ascii "a:1" }
    IsHeaderMap [ascii "Host: a:1 ", ascii "b", ascii "Host:c"] request.mHeaders ∧
      request.mHost = ascii "a:1" := by
  intro request
  have hparse : parseHeaders (block [ascii "Host: a:1 ", ascii "b", ascii "Host:c"])
      HttpRequest.create = .ok (some request) := by decide +kernel
  exact isHeaderMap_of_parsed (by decide +kernel) (by decide +kernel) rfl hparse

end SimpleTcp
