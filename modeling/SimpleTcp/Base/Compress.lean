import SimpleTcp.Base.Bytes
import SimpleTcp.Base.Error

/-!
# Compression

The wrappers of `Compress.cpp` give zlib a buffer of the length of the input. An encoding that is
longer does not fit: `compress_deflate` returns what was written, and `compress_gzip` throws. The
functions for gzip cut the sizes that they give zlib to 32 bits.

zlib is a parameter. It is described by its complete streams, by what it does when there is room for
them, and by the codes that it returns when there is not.

## Main definitions

* `Zlib`: the functions of zlib that are called
* `Zlib.Lawful`: what the wrappers are promised
* `Zlib.compress_deflate`, `Zlib.uncompress_deflate`, `Zlib.compress_gzip`, `Zlib.uncompress_gzip`
* `Zlib.DeflateRoundTrip`, `Zlib.GzipRoundTrip`, `Zlib.RoundTrip`: what was compressed is
  uncompressed
* `Zlib.DeflateFits`, `Zlib.GzipFits`: the encoding is no longer than the input

## Main results

* `Zlib.compress_deflate_eq_iff`: the texts whose encoding is returned
* `Zlib.gzip_roundTrip_iff`: the texts that gzip brings back
* `Zlib.roundTrip_of_fits`: the texts that both bring back
-/

namespace SimpleTcp

/-! ## zlib -/

/-- The return codes of zlib. -/
inductive ZCode where
  | Z_OK
  | Z_STREAM_END
  | Z_STREAM_ERROR
  | Z_DATA_ERROR
  | Z_MEM_ERROR
  | Z_BUF_ERROR
  deriving DecidableEq, Repr

inductive ZFlush where
  | Z_NO_FLUSH
  | Z_FINISH
  deriving DecidableEq, Repr

/-- What `compress` or `uncompress` has written to the front of its destination, and the length that
it has stored. -/
structure ZResult where
  code : ZCode
  written : Bytes
  destLen : Nat
  deriving DecidableEq, Repr

/-- The fields of a `z_stream`: the input that is left, what has been written to the output, and the
room that is left there. -/
structure ZStream where
  next_in : Bytes
  written : Bytes
  avail_out : Nat
  deriving DecidableEq, Repr

/-- The functions of zlib, and its complete streams. The internal state of a stream is a `State`;
the initialisations have the arguments of the wrappers. -/
structure Zlib where
  zlibStream : Bytes → Bytes
  gzipStream : Bytes → Bytes
  compress : Nat → Bytes → ZResult
  uncompress : Nat → Bytes → ZResult
  State : Type
  deflateInit2 : ZCode × State
  deflate : State → ZFlush → ZStream → ZCode × State × ZStream
  deflateEnd : State → ZCode
  inflateInit2 : ZCode × State
  inflate : State → ZFlush → ZStream → ZCode × State × ZStream
  inflateEnd : State → ZCode

/-! ## The wrappers -/

/-- `static_cast<unsigned>`. -/
def toUnsigned (n : Nat) : Nat := n % 2 ^ 32

/-- A string of `size` zeros, to the front of which the bytes were written, resized to `len`. -/
def stored (size : Nat) (written : Bytes) (len : Nat) : Bytes :=
  Vec.resize (Vec.copyInto (Vec.resize [] size) 0 written) len

/-- `std::runtime_error` is thrown where the code is another. -/
def expect (cond : Prop) [Decidable cond] (what : String) : Except String Unit :=
  if cond then .ok () else .error what

namespace Zlib

variable (z : Zlib)

/-- The return code is not looked at. -/
def compress_deflate (src_buffer : Bytes) : Bytes :=
  let result := z.compress src_buffer.length src_buffer
  stored src_buffer.length result.written result.destLen

/-- The return code is not looked at. -/
def uncompress_deflate (src_buffer : Bytes) (dst_buffer_len : Nat) : Bytes :=
  let result := z.uncompress dst_buffer_len src_buffer
  stored dst_buffer_len result.written result.destLen

def compress_gzip (src_buffer : Bytes) : Except String Bytes := do
  let dst_buffer_len := src_buffer.length
  let (code, state) := z.deflateInit2
  expect (code = .Z_OK) "[Compress] deflateInit failed"
  let (code, state, stream) := z.deflate state .Z_NO_FLUSH
    ⟨src_buffer.take (toUnsigned src_buffer.length), [], toUnsigned dst_buffer_len⟩
  expect (code = .Z_OK) "[Compress] deflate Z_NO_FLUSH failed"
  let (code, state, stream) := z.deflate state .Z_FINISH stream
  expect (code = .Z_STREAM_END) "[Compress] deflate Z_FINISH failed"
  expect (z.deflateEnd state = .Z_OK) "[Compress] deflateEnd failed"
  .ok (stored dst_buffer_len stream.written (dst_buffer_len - stream.avail_out))

/-- `inflate` is called once more when it has reached the end of the stream. -/
def uncompress_gzip (src_buffer : Bytes) (dst_buffer_len : Nat) : Except String Bytes := do
  let (code, state) := z.inflateInit2
  expect (code = .Z_OK) "[Compress] inflateInit failed"
  let (code, state, stream) := z.inflate state .Z_NO_FLUSH
    ⟨src_buffer.take (toUnsigned src_buffer.length), [], toUnsigned dst_buffer_len⟩
  expect (code = .Z_STREAM_END) "[Compress] inflate Z_NO_FLUSH failed"
  let (code, state, stream) := z.inflate state .Z_FINISH stream
  expect (code = .Z_STREAM_END) "[Compress] inflate Z_FINISH failed"
  expect (z.inflateEnd state = .Z_OK) "[Compress] inflateEnd failed"
  .ok (stored dst_buffer_len stream.written (dst_buffer_len - stream.avail_out))

/-! ## What zlib promises -/

/-- The first call of `deflate`, with the input and the room. -/
def deflated (x : Bytes) (n : Nat) : ZCode × State z × ZStream :=
  z.deflate z.deflateInit2.2 .Z_NO_FLUSH ⟨x, [], n⟩

/-- The second. -/
def finished (x : Bytes) (n : Nat) : ZCode × State z × ZStream :=
  z.deflate (z.deflated x n).2.1 .Z_FINISH (z.deflated x n).2.2

/-- The first call of `inflate`. -/
def inflated (s : Bytes) (n : Nat) : ZCode × State z × ZStream :=
  z.inflate z.inflateInit2.2 .Z_NO_FLUSH ⟨s, [], n⟩

/-- Where there is memory enough, streams are written and read as a whole when there is room for
them; where there is no room for an encoding, a part of it is written, and the code says so. -/
structure Lawful (z : Zlib) : Prop where
  compress_fits : ∀ x n, (z.zlibStream x).length ≤ n →
    z.compress n x = ⟨.Z_OK, z.zlibStream x, (z.zlibStream x).length⟩
  compress_long : ∀ x n, n < (z.zlibStream x).length → (z.compress n x).code = .Z_BUF_ERROR ∧
    (z.compress n x).written <+: z.zlibStream x ∧ (z.compress n x).written.length ≤ n ∧
      (z.compress n x).destLen ≤ n
  uncompress_stream : ∀ x n, x.length ≤ n →
    z.uncompress n (z.zlibStream x) = ⟨.Z_OK, x, x.length⟩
  deflateInit2_ok : z.deflateInit2.1 = .Z_OK
  /-- Some input is read, or some output written. -/
  deflate_progress : ∀ x n, x ≠ [] → 0 < n → (z.deflated x n).1 = .Z_OK
  finish_fits : ∀ x n, x ≠ [] → (z.gzipStream x).length ≤ n → (z.finished x n).1 = .Z_STREAM_END ∧
    (z.finished x n).2.2.written = z.gzipStream x ∧
      (z.finished x n).2.2.avail_out = n - (z.gzipStream x).length ∧
        z.deflateEnd (z.finished x n).2.1 = .Z_OK
  finish_long : ∀ x n, n < (z.gzipStream x).length → (z.finished x n).1 ≠ .Z_STREAM_END
  /-- A header of ten bytes and a trailer of eight. -/
  gzip_header : ∀ x, 18 ≤ (z.gzipStream x).length
  inflateInit2_ok : z.inflateInit2.1 = .Z_OK
  inflate_stream : ∀ x n, x.length ≤ n → (z.inflated (z.gzipStream x) n).1 = .Z_STREAM_END ∧
    (z.inflated (z.gzipStream x) n).2.2.written = x ∧
      (z.inflated (z.gzipStream x) n).2.2.avail_out = n - x.length
  /-- Behind the end of a stream there is nothing left to do. -/
  inflate_end : ∀ x n, x.length ≤ n →
    let r := z.inflated (z.gzipStream x) n
    (z.inflate r.2.1 .Z_FINISH r.2.2).1 = .Z_STREAM_END ∧
      (z.inflate r.2.1 .Z_FINISH r.2.2).2.2 = r.2.2 ∧
        z.inflateEnd (z.inflate r.2.1 .Z_FINISH r.2.2).2.1 = .Z_OK

/-! ## Round trips -/

/-- The text comes back from `compress_deflate`. -/
def DeflateRoundTrip (x : Bytes) : Prop :=
  z.uncompress_deflate (z.compress_deflate x) x.length = x

/-- The text comes back from `compress_gzip`, and nothing is thrown. -/
def GzipRoundTrip (x : Bytes) : Prop :=
  ∃ medium, z.compress_gzip x = .ok medium ∧ z.uncompress_gzip medium x.length = .ok x

/-- The text comes back from both encodings. -/
def RoundTrip (x : Bytes) : Prop := z.DeflateRoundTrip x ∧ z.GzipRoundTrip x

/-- The encoding is no longer than the text. -/
def DeflateFits (x : Bytes) : Prop := (z.zlibStream x).length ≤ x.length

/-- The bytes that zlib is told of have an encoding that is no longer than they are, and the others
are zeros. -/
def GzipFits (x : Bytes) : Prop :=
  (z.gzipStream (x.take (toUnsigned x.length))).length ≤ toUnsigned x.length ∧
    ∀ c ∈ x.drop (toUnsigned x.length), c = 0

/-! ## Buffers -/

/-- What was written, and the zeros behind it. -/
theorem stored_eq {size len : Nat} {written : Bytes} (hwritten : written.length ≤ len)
    (hlen : len ≤ size) :
    stored size written len = written ++ List.replicate (len - written.length) 0 := by
  have hzeros : Vec.resize [] size = List.replicate size 0 := by simp [Vec.resize]
  rw [stored, hzeros, Vec.copyInto, List.take_zero, List.nil_append, Nat.zero_add,
    List.drop_replicate, Vec.resize, List.length_append, List.length_replicate,
    Nat.add_sub_cancel' (hwritten.trans hlen), Nat.sub_eq_zero_of_le hlen, List.replicate_zero,
    List.append_nil, List.take_append, List.take_of_length_le hwritten, List.take_replicate,
    Nat.min_eq_left (by omega)]

theorem stored_self {size : Nat} {written : Bytes} (h : written.length ≤ size) :
    stored size written written.length = written := by
  rw [stored_eq le_rfl h, Nat.sub_self, List.replicate_zero, List.append_nil]

theorem expect_pos {cond : Prop} [Decidable cond] {what : String} (h : cond) :
    expect cond what = .ok () := if_pos h

theorem of_expect_bind {cond : Prop} [Decidable cond] {what : String} {α : Type}
    {f : Unit → Except String α} {a : α} (h : expect cond what >>= f = .ok a) :
    cond ∧ f () = .ok a := by
  unfold expect at h
  split at h
  · next hc => exact ⟨hc, h⟩
  · cases h

theorem toUnsigned_le (n : Nat) : toUnsigned n ≤ n := Nat.mod_le n _

theorem toUnsigned_lt (n : Nat) : toUnsigned n < 2 ^ 32 := Nat.mod_lt n (by decide)

/-! ## Deflate -/

section

variable {z} {x : Bytes}

theorem compress_deflate_of_fits (hz : z.Lawful) (h : z.DeflateFits x) :
    z.compress_deflate x = z.zlibStream x := by
  rw [compress_deflate, hz.compress_fits x _ h]
  exact stored_self h

/-- **The encoding is returned** if it is no longer than the text, and only then. -/
theorem compress_deflate_eq_iff (hz : z.Lawful) :
    z.compress_deflate x = z.zlibStream x ↔ z.DeflateFits x := by
  refine ⟨fun heq => ?_, compress_deflate_of_fits hz⟩
  by_contra hlong
  have hlt : x.length < (z.zlibStream x).length := Nat.lt_of_not_le hlong
  obtain ⟨-, -, -, hlen⟩ := hz.compress_long x x.length hlt
  have hshort : (z.compress_deflate x).length ≤ x.length := by
    rw [compress_deflate, stored, Vec.length_resize]
    exact hlen
  rw [heq] at hshort
  exact hlong hshort

theorem deflate_roundTrip_of_fits (hz : z.Lawful) (h : z.DeflateFits x) :
    z.DeflateRoundTrip x := by
  rw [DeflateRoundTrip, compress_deflate_of_fits hz h, uncompress_deflate,
    hz.uncompress_stream x _ le_rfl]
  exact stored_self le_rfl

/-! ## Gzip -/

theorem compress_gzip_eq (z : Zlib) (x : Bytes) : z.compress_gzip x =
    let k := toUnsigned x.length
    (do
      expect (z.deflateInit2.1 = .Z_OK) "[Compress] deflateInit failed"
      expect ((z.deflated (x.take k) k).1 = .Z_OK) "[Compress] deflate Z_NO_FLUSH failed"
      let r := z.finished (x.take k) k
      expect (r.1 = .Z_STREAM_END) "[Compress] deflate Z_FINISH failed"
      expect (z.deflateEnd r.2.1 = .Z_OK) "[Compress] deflateEnd failed"
      .ok (stored x.length r.2.2.written (x.length - r.2.2.avail_out))) := rfl

theorem uncompress_gzip_eq (z : Zlib) (s : Bytes) (n : Nat) : z.uncompress_gzip s n =
    let r := z.inflated (s.take (toUnsigned s.length)) (toUnsigned n)
    (do
      expect (z.inflateInit2.1 = .Z_OK) "[Compress] inflateInit failed"
      expect (r.1 = .Z_STREAM_END) "[Compress] inflate Z_NO_FLUSH failed"
      let r := z.inflate r.2.1 .Z_FINISH r.2.2
      expect (r.1 = .Z_STREAM_END) "[Compress] inflate Z_FINISH failed"
      expect (z.inflateEnd r.2.1 = .Z_OK) "[Compress] inflateEnd failed"
      .ok (stored n r.2.2.written (n - r.2.2.avail_out))) := rfl

/-- The first `k` bytes have an encoding that fits, and the buffer keeps zeros behind it. -/
theorem compress_gzip_of_fits (hz : z.Lawful)
    (h : (z.gzipStream (x.take (toUnsigned x.length))).length ≤ toUnsigned x.length) :
    z.compress_gzip x = .ok (z.gzipStream (x.take (toUnsigned x.length)) ++
      List.replicate (x.length - toUnsigned x.length) 0) := by
  let k := toUnsigned x.length
  have hk : k ≤ x.length := toUnsigned_le _
  have hfits : (z.gzipStream (x.take k)).length ≤ k := h
  -- an encoding is never empty, so that what fits is not either
  have hheader := hz.gzip_header (x.take k)
  have hpos : 0 < k := by omega
  have hne : x.take k ≠ [] := by
    rw [Ne, List.take_eq_nil_iff, not_or]
    exact ⟨hpos.ne', List.ne_nil_of_length_pos (hpos.trans_le hk)⟩
  obtain ⟨hend, hwritten, havail, hfree⟩ := hz.finish_fits _ k hne hfits
  have hstored : stored x.length (z.gzipStream (x.take k))
      (x.length - (k - (z.gzipStream (x.take k)).length)) =
        z.gzipStream (x.take k) ++ List.replicate (x.length - k) 0 := by
    rw [stored_eq (by omega) (by omega)]
    congr 2
    omega
  rw [compress_gzip_eq]
  dsimp only
  rw [expect_pos hz.deflateInit2_ok, ok_bind, expect_pos (hz.deflate_progress _ k hne hpos),
    ok_bind, expect_pos hend, ok_bind, expect_pos hfree, ok_bind, hwritten, havail, hstored]

/-- A text whose encoding does not fit is not encoded. -/
theorem fits_of_compress_gzip (hz : z.Lawful) {medium : Bytes}
    (h : z.compress_gzip x = .ok medium) :
    (z.gzipStream (x.take (toUnsigned x.length))).length ≤ toUnsigned x.length := by
  rw [compress_gzip_eq] at h
  obtain ⟨-, h⟩ := of_expect_bind h
  obtain ⟨-, h⟩ := of_expect_bind h
  obtain ⟨hend, -⟩ := of_expect_bind h
  by_contra hlong
  exact hz.finish_long _ _ (Nat.lt_of_not_le hlong) hend

/-- The zeros that are left behind the encoding are not given to zlib, and those that are left in
the second buffer take the place of the other bytes. -/
theorem uncompress_gzip_medium (hz : z.Lawful)
    (h : (z.gzipStream (x.take (toUnsigned x.length))).length ≤ toUnsigned x.length) :
    z.uncompress_gzip (z.gzipStream (x.take (toUnsigned x.length)) ++
        List.replicate (x.length - toUnsigned x.length) 0) x.length =
      .ok (x.take (toUnsigned x.length) ++ List.replicate (x.length - toUnsigned x.length) 0) := by
  let k := toUnsigned x.length
  have hk : k ≤ x.length := toUnsigned_le _
  let s := z.gzipStream (x.take k)
  have hfits : s.length ≤ k := h
  have hlen : (x.take k).length = k := by
    rw [List.length_take]
    exact Nat.min_eq_left hk
  -- the length of the medium is that of the encoding, in 32 bits
  have hcut : toUnsigned (s ++ List.replicate (x.length - k) 0).length = s.length := by
    have hlt : k < 2 ^ 32 := toUnsigned_lt _
    -- the zeros are a multiple of `2 ^ 32`
    have hmod : k = x.length % 2 ^ 32 := rfl
    rw [List.length_append, List.length_replicate, toUnsigned]
    omega
  have htake : (s ++ List.replicate (x.length - k) 0).take s.length = s := List.take_left
  obtain ⟨hend, hwritten, havail⟩ := hz.inflate_stream (x.take k) k hlen.le
  obtain ⟨hagain, hsame, hfree⟩ := hz.inflate_end (x.take k) k hlen.le
  -- `uncompress_gzip` resizes its buffer by `avail_out`, which counts the first `k` bytes only
  have hstored : stored x.length (x.take k) x.length =
      x.take k ++ List.replicate (x.length - k) 0 := by
    rw [stored_eq (by omega) le_rfl, hlen]
  rw [uncompress_gzip_eq]
  dsimp only
  rw [hcut, htake, expect_pos hz.inflateInit2_ok, ok_bind, expect_pos hend, ok_bind,
    expect_pos hagain, ok_bind, expect_pos hfree, ok_bind, hsame, hwritten, havail, hlen,
    Nat.sub_self, Nat.sub_zero, hstored]

theorem take_append_zeros_eq_iff {k : Nat} :
    x.take k ++ List.replicate (x.length - k) 0 = x ↔ ∀ c ∈ x.drop k, c = 0 := by
  conv_lhs => rhs; rw [← List.take_append_drop k x]
  rw [List.append_cancel_left_eq, eq_comm, List.eq_replicate_iff, List.length_drop]
  exact and_iff_right rfl

/-- **Gzip brings a text back** exactly when the encoding of what zlib is told of fits, and the rest
is zeros. -/
theorem gzip_roundTrip_iff (hz : z.Lawful) : z.GzipRoundTrip x ↔ z.GzipFits x := by
  constructor
  · rintro ⟨medium, hmedium, hback⟩
    have hfits := fits_of_compress_gzip hz hmedium
    obtain rfl := Except.ok.inj ((compress_gzip_of_fits hz hfits).symm.trans hmedium)
    rw [uncompress_gzip_medium hz hfits, Except.ok.injEq, take_append_zeros_eq_iff] at hback
    exact ⟨hfits, hback⟩
  · rintro ⟨hfits, hzeros⟩
    refine ⟨_, compress_gzip_of_fits hz hfits, ?_⟩
    rw [uncompress_gzip_medium hz hfits, take_append_zeros_eq_iff.mpr hzeros]

/-- **A text comes back** from both encodings when they are no longer than it is, and from gzip only
then: a stream of `compress_deflate` that is cut off may still hold all of the text. -/
theorem roundTrip_of_fits (hz : z.Lawful) (x : Bytes) :
    (z.DeflateFits x → z.GzipFits x → z.RoundTrip x) ∧ (z.GzipRoundTrip x ↔ z.GzipFits x) :=
  ⟨fun hdeflate hgzip => ⟨deflate_roundTrip_of_fits hz hdeflate, (gzip_roundTrip_iff hz).mpr hgzip⟩,
    gzip_roundTrip_iff hz⟩

end

/-! ## Functions with given streams -/

section

variable (zlibStream gzipStream unzlib ungzip : Bytes → Bytes)

/-- Functions that write and read the streams. The header of a stream is written by the first call
of `deflate`, the rest by the second. -/
def ofStreams : Zlib where
  zlibStream := zlibStream
  gzipStream := gzipStream
  compress n x :=
    let s := zlibStream x
    if s.length ≤ n then ⟨.Z_OK, s, s.length⟩ else ⟨.Z_BUF_ERROR, s.take n, n⟩
  uncompress n s :=
    let x := unzlib s
    if s = [] then ⟨.Z_BUF_ERROR, [], 0⟩
    else if x.length ≤ n then ⟨.Z_OK, x, x.length⟩
    else ⟨.Z_BUF_ERROR, x.take n, n⟩
  State := Bytes
  deflateInit2 := (.Z_OK, [])
  deflate state flush stream :=
    match flush with
    | .Z_NO_FLUSH =>
      let s := gzipStream stream.next_in
      if stream.avail_out = 0 then (.Z_BUF_ERROR, s, stream)
      else
        let n := min 10 stream.avail_out
        (.Z_OK, s.drop n, ⟨[], stream.written ++ s.take n, stream.avail_out - n⟩)
    | .Z_FINISH =>
      let n := min state.length stream.avail_out
      (if state.length ≤ stream.avail_out then .Z_STREAM_END
        else if stream.avail_out = 0 then .Z_BUF_ERROR else .Z_OK,
        state.drop n, ⟨[], stream.written ++ state.take n, stream.avail_out - n⟩)
  deflateEnd state := if state = [] then .Z_OK else .Z_DATA_ERROR
  inflateInit2 := (.Z_OK, [])
  inflate state flush stream :=
    match flush with
    | .Z_NO_FLUSH =>
      let x := ungzip stream.next_in
      let n := min x.length stream.avail_out
      (if x.length ≤ stream.avail_out then .Z_STREAM_END else .Z_OK, x.drop n,
        ⟨[], stream.written ++ x.take n, stream.avail_out - n⟩)
    | .Z_FINISH => (if state = [] then .Z_STREAM_END else .Z_BUF_ERROR, state, stream)
  inflateEnd _ := .Z_OK

variable {zlibStream gzipStream unzlib ungzip}

theorem ofStreams_lawful (hne : ∀ x, zlibStream x ≠ []) (hzlib : ∀ x, unzlib (zlibStream x) = x)
    (hheader : ∀ x, 18 ≤ (gzipStream x).length) (hgzip : ∀ x, ungzip (gzipStream x) = x) :
    (ofStreams zlibStream gzipStream unzlib ungzip).Lawful where
  compress_fits x n h := if_pos h
  compress_long x n h := by
    have hnot : ¬ (zlibStream x).length ≤ n := Nat.not_le_of_lt h
    simp only [ofStreams, if_neg hnot]
    exact ⟨trivial, List.take_prefix _ _, List.length_take_le _ _, le_rfl⟩
  uncompress_stream x n h := by
    simp only [ofStreams, if_neg (hne x), hzlib, if_pos h]
  deflateInit2_ok := rfl
  deflate_progress x n hx hn := by
    simp only [deflated, ofStreams, if_neg hn.ne']
  finish_fits x n hx h := by
    have hlen := hheader x
    change (gzipStream x).length ≤ n at h
    have hgo : n ≠ 0 := by omega
    have hmin : min 10 n = 10 := by omega
    have hfirst : (gzipStream x).length - 10 ≤ n - 10 := by omega
    simp only [finished, deflated, ofStreams, if_neg hgo, hmin, List.length_drop, if_pos hfirst,
      Nat.min_eq_left hfirst, List.nil_append]
    refine ⟨trivial, ?_, by omega, if_pos ?_⟩
    · rw [← List.length_drop, List.take_length, List.take_append_drop]
    · rw [← List.length_drop, List.drop_length]
  finish_long x n h := by
    change n < (gzipStream x).length at h
    have hhead := hheader x
    simp only [finished, deflated, ofStreams]
    by_cases hgo : n = 0
    · -- nothing has been written
      rw [if_pos hgo]
      dsimp only
      rw [if_neg (by omega)]
      split <;> simp
    · rw [if_neg hgo]
      dsimp only
      rw [List.length_drop, if_neg (by omega)]
      split <;> simp
  gzip_header := hheader
  inflateInit2_ok := rfl
  inflate_stream x n h := by
    simp only [inflated, ofStreams, hgzip, if_pos h, Nat.min_eq_left h, List.take_length,
      List.nil_append, and_self]
  inflate_end x n h := by
    simp only [inflated, ofStreams, hgzip, Nat.min_eq_left h, List.drop_length, if_true, and_self]

/-- Forty letters. -/
def letters : Bytes := List.replicate 40 97

/-- The encodings of the letters and of the empty text, and a code for the other texts. -/
def sampleStream (lettersStream nilStream header x : Bytes) : Bytes :=
  if x = letters then lettersStream else if x = [] then nilStream else header ++ x

/-- A stream that starts with a zero has a header of the length. -/
def sampleText (lettersStream : Bytes) (header : Nat) (s : Bytes) : Bytes :=
  if s.head? = some 0 then s.drop header else if s = lettersStream then letters else []

theorem sampleText_sampleStream {lettersStream nilStream : Bytes} (header : Bytes)
    (hheader : header.head? = some 0) (hletters : lettersStream.head? ≠ some 0)
    (hnil : nilStream.head? ≠ some 0) (hne : nilStream ≠ lettersStream) (x : Bytes) :
    sampleText lettersStream header.length (sampleStream lettersStream nilStream header x) = x := by
  unfold sampleStream
  split
  · next hx => rw [sampleText, if_neg hletters, if_pos rfl, hx]
  · split
    · next hx => rw [sampleText, if_neg hnil, if_neg hne, hx]
    · have hhead : (header ++ x).head? = some 0 := by
        rw [List.head?_append, hheader]
        rfl
      rw [sampleText, if_pos hhead, List.drop_left]

def lettersZlib : Bytes := [120, 156, 75, 76, 36, 14, 0, 0, 54, 235, 15, 41]

def lettersGzip : Bytes :=
  [31, 139, 8, 0, 0, 0, 0, 0, 2, 3, 75, 76, 36, 14, 0, 0, 37, 138, 91, 201, 40, 0, 0, 0]

def nilZlib : Bytes := [120, 156, 3, 0, 0, 0, 0, 1]

def nilGzip : Bytes := [31, 139, 8, 0, 0, 0, 0, 0, 2, 3, 3, 0, 0, 0, 0, 0, 0, 0, 0, 0]

def sample : Zlib :=
  ofStreams (sampleStream lettersZlib nilZlib [0])
    (sampleStream lettersGzip nilGzip (List.replicate 18 0)) (sampleText lettersZlib 1)
    (sampleText lettersGzip 18)

theorem sample_lawful : sample.Lawful := by
  refine ofStreams_lawful (fun x => ?_) (fun x => ?_) (fun x => ?_) fun x => ?_
  · unfold sampleStream
    split
    · decide
    · split
      · decide
      · simp
  · exact sampleText_sampleStream [0] (by decide) (by decide) (by decide) (by decide) x
  · unfold sampleStream
    split
    · decide
    · split
      · decide
      · simp
  · exact sampleText_sampleStream (List.replicate 18 0) (by decide) (by decide) (by decide)
      (by decide) x

theorem roundTrip_letters : sample.RoundTrip letters :=
  (roundTrip_of_fits sample_lawful letters).1 (by unfold DeflateFits; decide)
    ⟨by decide +kernel, by decide +kernel⟩

/-- The empty text has no encoding that fits, and is thrown at. -/
theorem not_roundTrip_nil : ¬ ∀ (z : Zlib) (x : Bytes), z.Lawful → z.RoundTrip x := by
  intro h
  obtain ⟨-, medium, hmedium, -⟩ := h sample [] sample_lawful
  have hfits := fits_of_compress_gzip sample_lawful hmedium
  exact absurd hfits (by decide)

end

end Zlib

end SimpleTcp
