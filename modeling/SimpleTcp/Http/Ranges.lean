import SimpleTcp.Http.HeaderMap
import SimpleTcp.Http.StringView

/-!
# Ranges

The header `Range` is matched with a regular expression, what it captures is split at its commas,
and every piece is matched again. `split` drops what follows the last comma, so of several ranges
the last is lost; and a range of which only the last byte is given is read from byte 0.

## Main definitions

* `ByteRange`, `RangeSpec`: the ranges, and their texts
* `rangeText`: the value of a header
* `RangeSpec.read`: what is read of one
* `Faithful`: the ranges are read as they were written, and no two alike

## Main results

* `split_pieces`: what `split` leaves of pieces
* `mRanges_eq`: the ranges that are read
* `faithful_iff`: when they are those that were written
-/

namespace SimpleTcp

open Search

/-! ### Ranges and their texts -/

/-- From the first byte to the last, from the first on, or the last `n`. -/
inductive ByteRange where
  | closed (first last : Nat)
  | opened (first : Nat)
  | suffix (n : Nat)
  deriving DecidableEq, Repr

/-- A decimal numeral of an `int64_t`. -/
structure RangeBound where
  digits : Bytes
  ne_nil : digits ≠ []
  isDigit : ∀ c ∈ digits, isDigit c
  bounded : digitsValue digits < 2 ^ 63

/-- A range as it is written. -/
inductive RangeSpec where
  | closed (first last : RangeBound)
  | opened (first : RangeBound)
  | suffix (n : RangeBound)

namespace RangeSpec

/-- What is before the minus sign. -/
def first : RangeSpec → Bytes
  | .closed first _ | .opened first => first.digits
  | .suffix _ => []

/-- What is behind the minus sign. -/
def last : RangeSpec → Bytes
  | .closed _ last | .suffix last => last.digits
  | .opened _ => []

def text (spec : RangeSpec) : Bytes := spec.first ++ 45 :: spec.last

def range : RangeSpec → ByteRange
  | .closed first last => .closed (digitsValue first.digits) (digitsValue last.digits)
  | .opened first => .opened (digitsValue first.digits)
  | .suffix n => .suffix (digitsValue n.digits)

def IsSuffix : RangeSpec → Prop
  | .suffix _ => True
  | _ => False

/-- What the parser reads. -/
def read : RangeSpec → Int × Int
  | .closed first last => (digitsValue first.digits, digitsValue last.digits)
  | .opened first => (digitsValue first.digits, -1)
  | .suffix n => (0, digitsValue n.digits)

end RangeSpec

/-- A range behind some spaces. -/
def piece (spec : Nat × RangeSpec) : Bytes := List.replicate spec.1 32 ++ spec.2.text

/-- The value of a header with ranges. -/
def rangeText (specs : List (Nat × RangeSpec)) : Bytes :=
  ascii "bytes=" ++ [44].intercalate (specs.map piece)

/-- Every range is read, in order, as a pair that no other range is read as. -/
def Faithful (headers : Bytes) (request : HttpRequest) (specs : List (Nat × RangeSpec)) : Prop :=
  ∃ request', parseHeaders headers request = .ok (some request') ∧
    ∃ dec : ByteRange → Int × Int, Function.Injective dec ∧
      (∀ first last : Nat, dec (.closed first last) = (↑first, ↑last)) ∧
      (∀ first : Nat, dec (.opened first) = (↑first, -1)) ∧
      request'.mRanges = specs.map fun spec => dec spec.2.range

/-! ### Splitting -/

/-- A piece between two commas. -/
def IsPiece (p : Bytes) : Prop := 44 ∉ p ∧ p ≠ []

section

variable {p last : Bytes} {ps : List Bytes}

theorem closedParts_pieces (hlast : IsPiece last) (hps : ∀ q ∈ ps, IsPiece q) :
    closedParts 44 (ps.flatMap (· ++ [44]) ++ last) = ps := by
  induction ps with
  | nil => exact closedParts_of_not_mem hlast.1
  | cons p ps ih =>
    obtain ⟨⟨hcomma, hne⟩, hps⟩ := List.forall_mem_cons.mp hps
    have htext : (p :: ps).flatMap (· ++ [44]) ++ last =
        p ++ 44 :: (ps.flatMap (· ++ [44]) ++ last) := by
      simp
    rw [htext, closedParts_append_token hcomma hne, ih hps]

/-- A text without a comma is not split. -/
theorem split_of_not_mem (h : IsPiece p) (hzero : 0 ∉ p) : split p [44] = [p] := by
  have hview := StringView.split_last h.1 h.2 0 [0]
  rw [List.replicate_zero, List.nil_append, StringView.split_terminated,
    StringView.data_terminated, cStr_of_not_mem hzero] at hview
  exact Except.ok.inj hview

/-- **Splitting pieces** loses the last, unless there is only one. -/
theorem split_pieces (hlast : IsPiece last) (hps : ∀ q ∈ ps, IsPiece q) (hne : ps ≠ []) :
    split (ps.flatMap (· ++ [44]) ++ last) [44] = ps := by
  cases ps with
  | nil => exact absurd rfl hne
  | cons p ps =>
    obtain ⟨hp, hps⟩ := List.forall_mem_cons.mp hps
    have htext : (p :: ps).flatMap (· ++ [44]) ++ last =
        p ++ 44 :: (ps.flatMap (· ++ [44]) ++ last) := by
      simp
    have hview := StringView.split_part hp.1 hp.2 0 (ps.flatMap (· ++ [44]) ++ last) [0]
    rw [List.replicate_zero, List.nil_append, StringView.split_terminated,
      closedParts_pieces hlast hps, ← htext] at hview
    exact Except.ok.inj hview

end

/-! ### Reading a range -/

namespace RangeSpec

variable (spec : RangeSpec)

theorem isDigit_first : ∀ c ∈ spec.first, SimpleTcp.isDigit c := by
  cases spec with
  | closed first last => exact first.isDigit
  | opened first => exact first.isDigit
  | suffix n => simp [first]

theorem isDigit_last : ∀ c ∈ spec.last, SimpleTcp.isDigit c := by
  cases spec with
  | closed first last => exact last.isDigit
  | opened first => simp [last]
  | suffix n => exact n.isDigit

theorem parseRange_read : parseRange spec.first spec.last = .ok spec.read := by
  have hbound : ∀ (none : Int) (b : RangeBound),
      stollOr none b.digits = .ok (digitsValue b.digits : Int) := by
    intro none b
    rw [stollOr, if_neg b.ne_nil, stoll, if_pos b.bounded]
  cases spec with
  | closed first last =>
    simp only [parseRange, RangeSpec.first, RangeSpec.last, hbound, ok_bind, read]
  | opened first =>
    simp only [parseRange, RangeSpec.first, RangeSpec.last, hbound, ok_bind, read]
    rfl
  | suffix n =>
    simp only [parseRange, RangeSpec.first, RangeSpec.last, hbound, ok_bind, read]
    rfl

end RangeSpec

section

variable {spec : Nat × RangeSpec} {specs : List (Nat × RangeSpec)}

/-- The characters of a piece. -/
theorem mem_piece {c : UInt8} (h : c ∈ piece spec) : c = 32 ∨ c = 45 ∨ isDigit c := by
  rcases List.mem_append.mp h with h | h
  · exact .inl (List.eq_of_mem_replicate h)
  · rcases List.mem_append.mp h with h | h
    · exact .inr (.inr (spec.2.isDigit_first c h))
    · rcases List.mem_cons.mp h with h | h
      · exact .inr (.inl h)
      · exact .inr (.inr (spec.2.isDigit_last c h))

theorem not_mem_piece {c : UInt8} (h : c ≠ 32 ∧ c ≠ 45 ∧ isDigit c = false) : c ∉ piece spec := by
  intro hmem
  rcases mem_piece hmem with hc | hc | hc
  · exact h.1 hc
  · exact h.2.1 hc
  · rw [h.2.2] at hc
    cases hc

theorem isPiece_piece : IsPiece (piece spec) :=
  ⟨not_mem_piece (by decide), by simp [piece, RangeSpec.text]⟩

theorem matchRange_piece : matchRange (piece spec) = some (spec.2.first, spec.2.last) := by
  have hspaces : (piece spec).dropWhile isSpace = spec.2.text := by
    have hspace : ∀ c ∈ List.replicate spec.1 (32 : UInt8), isSpace c = true := fun c hc => by
      rw [List.eq_of_mem_replicate hc]
      decide
    rw [piece, List.dropWhile_append_of_pos hspace]
    -- the text starts with a digit or with the minus sign
    have hno : ∀ c, c = 45 ∨ isDigit c → ¬ isSpace c := by
      rintro c (rfl | hc)
      · decide
      · simp only [isDigit, Bool.and_eq_true, decide_eq_true_eq] at hc
        simp only [isSpace, Bool.or_eq_true, Bool.and_eq_true, decide_eq_true_eq]
        rintro (rfl | ⟨-, hle⟩)
        · exact absurd hc.1 (by decide)
        · have hdigit : (48 : UInt8) ≤ 13 := UInt8.le_trans hc.1 hle
          exact absurd hdigit (by decide)
    rw [RangeSpec.text]
    cases hfirst : spec.2.first with
    | nil => exact List.dropWhile_cons_of_neg (hno 45 (.inl rfl))
    | cons c first =>
      refine List.dropWhile_cons_of_neg (hno c (.inr (spec.2.isDigit_first c ?_)))
      rw [hfirst]
      exact List.mem_cons_self
  have hdigits : spec.2.text.dropWhile isDigit = 45 :: spec.2.last := by
    rw [RangeSpec.text, List.dropWhile_append_of_pos spec.2.isDigit_first]
    exact List.dropWhile_cons_of_neg (by decide)
  have hfirst : spec.2.text.takeWhile isDigit = spec.2.first := by
    rw [RangeSpec.text, List.takeWhile_append_of_pos spec.2.isDigit_first,
      List.takeWhile_cons_of_neg (by decide), List.append_nil]
  have hlast : spec.2.last.all isDigit = true := List.all_eq_true.mpr spec.2.isDigit_last
  unfold matchRange
  rw [cStr_of_not_mem (not_mem_piece (by decide)), hspaces]
  simp only [hdigits, hfirst, hlast, if_true]

theorem parseRanges_pieces (specs : List (Nat × RangeSpec)) :
    parseRanges (specs.map piece) = .ok (specs.map fun spec => spec.2.read) := by
  induction specs with
  | nil => rfl
  | cons spec specs ih =>
    rw [List.map_cons, parseRanges, matchRange_piece]
    dsimp only
    rw [spec.2.parseRange_read, ih]
    rfl

/-! ### Reading the header -/

theorem intercalate_concat (ps : List Bytes) (last : Bytes) :
    [44].intercalate (ps ++ [last]) = ps.flatMap (· ++ [44]) ++ last := by
  induction ps with
  | nil => simp
  | cons p ps ih =>
    have hne : ps ++ [last] ≠ [] := List.append_ne_nil_of_right_ne_nil ps (List.cons_ne_nil last [])
    obtain ⟨q, qs, hq⟩ := List.exists_cons_of_ne_nil hne
    rw [List.cons_append, hq, List.intercalate_cons_cons, ← hq, ih]
    simp

/-- The pieces that are left of the value of a header. -/
def kept (specs : List (Nat × RangeSpec)) : List (Nat × RangeSpec) :=
  if specs.length = 1 then specs else specs.dropLast

theorem kept_singleton (spec : Nat × RangeSpec) : kept [spec] = [spec] := rfl

theorem rangePieces_eq {m : Headers} (hne : specs ≠ [])
    (h : m.lookup (ascii "Range") = some (rangeText specs)) :
    rangePieces m = (kept specs).map piece := by
  obtain ⟨init, last, rfl⟩ := (List.eq_nil_or_concat' specs).resolve_left hne
  have hpieces : ∀ q ∈ init.map piece, IsPiece q := by
    intro q hq
    obtain ⟨spec, -, rfl⟩ := List.mem_map.mp hq
    exact isPiece_piece
  let value := (init.map piece).flatMap (· ++ [44]) ++ piece last
  have htext : rangeText (init ++ [last]) = ascii "bytes=" ++ value := by
    rw [rangeText, List.map_append, List.map_singleton, intercalate_concat]
  -- the value has the characters of pieces in it, and commas
  have hvalue : ∀ c ∈ value, c = 44 ∨ c = 32 ∨ c = 45 ∨ isDigit c := by
    intro c hc
    rcases List.mem_append.mp hc with hc | hc
    · obtain ⟨q, hq, hc⟩ := List.mem_flatMap.mp hc
      obtain ⟨spec, -, rfl⟩ := List.mem_map.mp hq
      rcases List.mem_append.mp hc with hc | hc
      · exact .inr (mem_piece hc)
      · exact .inl (List.mem_singleton.mp hc)
    · exact .inr (mem_piece hc)
  have hnot : ∀ c : UInt8, c ≠ 44 → c ≠ 32 → c ≠ 45 → isDigit c = false → c ∉ value := by
    intro c h1 h2 h3 h4 hmem
    rcases hvalue c hmem with hc | hc | hc | hc
    · exact h1 hc
    · exact h2 hc
    · exact h3 hc
    · rw [h4] at hc
      cases hc
  have hzero : 0 ∉ ascii "bytes=" ++ value := by
    intro hmem
    rcases List.mem_append.mp hmem with hmem | hmem
    · exact absurd hmem (by decide)
    · exact hnot 0 (by decide) (by decide) (by decide) (by decide) hmem
  -- the expression matches everything but an end of line
  have hmatch : matchRangeHeader (ascii "bytes=" ++ value) = some value := by
    have hpre : (ascii "bytes=").isPrefixOf? (ascii "bytes=" ++ value) = some value :=
      List.isPrefixOf?_eq_some_iff_append_eq.mpr rfl
    unfold matchRangeHeader
    rw [cStr_of_not_mem hzero, hpre]
    dsimp only
    refine if_neg (not_or.mpr ⟨?_, ?_⟩)
    · exact hnot 10 (by decide) (by decide) (by decide) (by decide)
    · exact hnot 13 (by decide) (by decide) (by decide) (by decide)
  rw [rangePieces, h, htext]
  dsimp only
  rw [hmatch]
  dsimp only
  cases init with
  | nil =>
    have hsingle : value = piece last := by simp [value]
    rw [hsingle, split_of_not_mem isPiece_piece (not_mem_piece (by decide))]
    rfl
  | cons spec init =>
    have hkept : kept (spec :: init ++ [last]) = spec :: init := by
      rw [kept, if_neg (by simp), List.dropLast_concat]
    rw [hkept]
    exact split_pieces isPiece_piece hpieces (by simp)

/-- **The ranges that are read**: the only one, or all but the last. -/
theorem mRanges_eq {headers : Bytes} (hlen : headers.length ≤ maxSize) {request : HttpRequest}
    (hm : request.mHeaders = []) (hcl : request.mContentLength = -1)
    (hacc : ContentAccepted request.mType (headerFields headers)) (hne : specs ≠ [])
    (h : (headerFields headers).lookup (ascii "Range") = some (rangeText specs)) :
    ∃ request', parseHeaders headers request = .ok (some request') ∧
      request'.mRanges = request.mRanges ++ (kept specs).map fun spec => spec.2.read := by
  have hread := parseRanges_pieces (kept specs)
  rw [← rangePieces_eq hne h] at hread
  rcases parseHeaders_cases hlen request hm hcl with ⟨hno, -⟩ | ⟨-, -, request', hrun, -⟩ |
    ⟨-, hno, -⟩
  · exact absurd hacc hno
  · obtain ⟨rs, hrs, hr⟩ := parseHeaders_ok hlen hm hrun
    obtain rfl := Except.ok.inj (hread.symm.trans hrs)
    exact ⟨request', hrun, by rw [hr]⟩
  · rcases parseRanges_cases (rangePieces (headerFields headers)) with ⟨hb, -⟩ | ⟨-, herr⟩
    · exact absurd hb hno
    · rw [hread] at herr
      cases herr

/-- One range that is no suffix range is read as it was written. -/
def decode : ByteRange → Int × Int
  | .closed first last => (first, last)
  | .opened first => (first, -1)
  | .suffix n => (-1, n)

theorem decode_injective : Function.Injective decode := by
  intro r r' h
  cases r <;> cases r' <;> simp [decode] at h ⊢ <;> omega

/-- **The ranges are read as they were written** when there is one of them and it is no suffix
range, and not otherwise. -/
theorem faithful_iff {headers : Bytes} (hlen : headers.length ≤ maxSize) {request : HttpRequest}
    (hm : request.mHeaders = []) (hr : request.mRanges = []) (hcl : request.mContentLength = -1)
    (hacc : ContentAccepted request.mType (headerFields headers)) (hne : specs ≠ [])
    (h : (headerFields headers).lookup (ascii "Range") = some (rangeText specs)) :
    Faithful headers request specs ↔ specs.length = 1 ∧ ∀ spec ∈ specs, ¬ spec.2.IsSuffix := by
  obtain ⟨request', hrun, hranges⟩ := mRanges_eq hlen hm hcl hacc hne h
  rw [hr, List.nil_append] at hranges
  constructor
  · rintro ⟨request'', hrun', dec, hinj, hclosed, -, hdec⟩
    obtain rfl := Option.some.inj (Except.ok.inj (hrun.symm.trans hrun'))
    have heq := hranges.symm.trans hdec
    -- otherwise the last range is lost
    have hone : specs.length = 1 := by
      by_contra hmany
      have hcount := congrArg List.length heq
      rw [List.length_map, List.length_map, kept, if_neg hmany, List.length_dropLast] at hcount
      have hpos := List.length_pos_iff.mpr hne
      omega
    obtain ⟨spec, rfl⟩ := List.length_eq_one_iff.mp hone
    refine ⟨rfl, fun spec' hspec' hsuffix => ?_⟩
    obtain rfl := List.mem_singleton.mp hspec'
    rw [kept_singleton, List.map_singleton, List.map_singleton] at heq
    obtain ⟨spaces, spec⟩ := spec'
    cases spec with
    | suffix n =>
      -- the pair is that of the range from 0 to `n`
      have hpair := (List.cons.inj heq).1.symm.trans (hclosed 0 (digitsValue n.digits)).symm
      cases hinj hpair
    | closed first last => exact hsuffix
    | opened first => exact hsuffix
  · rintro ⟨hone, hno⟩
    obtain ⟨spec, rfl⟩ := List.length_eq_one_iff.mp hone
    have hspec := hno spec (List.mem_singleton_self spec)
    refine ⟨request', hrun, decode, decode_injective, fun _ _ => rfl, fun _ => rfl, ?_⟩
    rw [hranges, kept_singleton, List.map_singleton, List.map_singleton]
    obtain ⟨spaces, spec⟩ := spec
    cases spec with
    | suffix n => exact absurd trivial hspec
    | closed first last => rfl
    | opened first => rfl

end

/-! ### Two ranges -/

/-- The bytes 0 to 5. -/
def headRange : RangeSpec :=
  .closed ⟨ascii "0", by decide, List.all_eq_true.mp (by decide), by decide⟩
    ⟨ascii "5", by decide, List.all_eq_true.mp (by decide), by decide⟩

/-- The bytes from 7 on. -/
def tailRange : RangeSpec :=
  .opened ⟨ascii "7", by decide, List.all_eq_true.mp (by decide), by decide⟩

/-- The text of a header with ranges. -/
def rangeHeaders (specs : List (Nat × RangeSpec)) : Bytes :=
  block [ascii "Range: " ++ rangeText specs]

theorem faithful_iff_head :
    Faithful (rangeHeaders [(0, headRange)]) { HttpRequest.create with mType := .GET }
        [(0, headRange)] ↔
      [(0, headRange)].length = 1 ∧ ∀ spec ∈ [(0, headRange)], ¬ spec.2.IsSuffix :=
  faithful_iff (by decide +kernel) rfl rfl rfl (fun hget => absurd rfl hget) (by simp)
    (by decide +kernel)

/-- Of two ranges, the second is lost. -/
theorem not_faithful_two : ¬ ∀ (headers : Bytes) (request : HttpRequest)
    (specs : List (Nat × RangeSpec)), headers.length ≤ maxSize → request.mHeaders = [] →
      request.mRanges = [] → request.mContentLength = -1 →
        ContentAccepted request.mType (headerFields headers) → specs ≠ [] →
          (headerFields headers).lookup (ascii "Range") = some (rangeText specs) →
            Faithful headers request specs := by
  intro h
  let specs := [(0, headRange), (1, tailRange)]
  let request := { HttpRequest.create with mType := .GET }
  have hlen : (rangeHeaders specs).length ≤ maxSize := by decide +kernel
  have hacc : ContentAccepted request.mType (headerFields (rangeHeaders specs)) :=
    fun hget => absurd rfl hget
  have hlookup : (headerFields (rangeHeaders specs)).lookup (ascii "Range") =
      some (rangeText specs) := by decide +kernel
  have hne : specs ≠ [] := List.cons_ne_nil _ _
  obtain ⟨request₁, hrun, dec, -, -, -, hdec⟩ := h _ request specs hlen rfl rfl rfl hacc hne hlookup
  obtain ⟨request₂, hrun', hranges⟩ := mRanges_eq hlen rfl rfl hacc hne hlookup
  obtain rfl := Option.some.inj (Except.ok.inj (hrun.symm.trans hrun'))
  have hcount : (2 : Nat) = 1 := congrArg List.length (hdec.symm.trans hranges)
  exact absurd hcount (by decide)

end SimpleTcp
