import SimpleTcp.Base.Bytes
import SimpleTcp.Library.Frames

/-!
# The requests of the chat

A chat client writes requests: a header with the length of the request and its type, and the data
behind it. The header is copied as it is in memory, with the lowest byte of a number first.

## Main definitions

* `RequestHdr`: the header, and its bytes
* `normalRequest`, `registerRequest`, `unregisterRequest`: the requests as a client writes them
* `Request`, `Request.decode`: a request with its data, and how it is read from a stream
* `requestCode`: the requests as a code of frames

## Main results

* `ofMemory_memory`: a number is read back from its bytes
* `request_eq`: a request is its header followed by its data
* `requests_iff`: which requests the first bytes of a stream are read as
-/

namespace SimpleTcp

/-! ### Numbers in memory -/

/-- The lowest `k` bytes of a number, the lowest first. -/
def lowBytes : Nat → Nat → Bytes
  | 0, _ => []
  | k + 1, n => n.toUInt8 :: lowBytes k (n / 256)

/-- The number with these bytes. -/
def ofLowBytes : Bytes → Nat
  | [] => 0
  | b :: bs => b.toNat + 256 * ofLowBytes bs

@[simp] theorem length_lowBytes (k n : Nat) : (lowBytes k n).length = k := by
  induction k generalizing n with
  | zero => rfl
  | succ k ih => rw [lowBytes, List.length_cons, ih]

theorem ofLowBytes_lowBytes (k n : Nat) : ofLowBytes (lowBytes k n) = n % 256 ^ k := by
  induction k generalizing n with
  | zero => simp [lowBytes, ofLowBytes, Nat.mod_one]
  | succ k ih =>
    rw [lowBytes, ofLowBytes, ih, Nat.pow_succ', Nat.mod_mul]
    congr 1

theorem lowBytes_ofLowBytes (bs : Bytes) : lowBytes bs.length (ofLowBytes bs) = bs := by
  induction bs with
  | nil => rfl
  | cons b bs ih =>
    have hb := b.toNat_lt
    have hlow : (b.toNat + 256 * ofLowBytes bs).toUInt8 = b := by
      apply UInt8.toNat_inj.mp
      rw [UInt8.toNat_ofNat']
      omega
    have hhigh : (b.toNat + 256 * ofLowBytes bs) / 256 = ofLowBytes bs := by omega
    rw [List.length_cons, ofLowBytes, lowBytes, hlow, hhigh, ih]

theorem ofLowBytes_lt (bs : Bytes) : ofLowBytes bs < 256 ^ bs.length := by
  induction bs with
  | nil => exact Nat.one_pos
  | cons b bs ih =>
    have hb := b.toNat_lt
    rw [ofLowBytes, List.length_cons, Nat.pow_succ']
    omega

/-- A `uint64_t` in memory. -/
def memory (n : UInt64) : Bytes := lowBytes 8 n.toNat

/-- The `uint64_t` that the bytes are in memory. -/
def ofMemory (bs : Bytes) : UInt64 := (ofLowBytes bs).toUInt64

@[simp] theorem length_memory (n : UInt64) : (memory n).length = 8 := length_lowBytes 8 _

@[simp] theorem ofMemory_memory (n : UInt64) : ofMemory (memory n) = n := by
  have hn : n.toNat % 256 ^ 8 = n.toNat := Nat.mod_eq_of_lt n.toNat_lt
  rw [ofMemory, memory, ofLowBytes_lowBytes, hn]
  simp

/-- Eight bytes are the memory of the number they are read as. -/
theorem memory_ofMemory {bs : Bytes} (h : bs.length = 8) : memory (ofMemory bs) = bs := by
  have hlt : ofLowBytes bs < 2 ^ 64 := by
    have := ofLowBytes_lt bs
    rw [h] at this
    exact this
  have hn : (ofMemory bs).toNat = ofLowBytes bs := by
    rw [ofMemory, UInt64.toNat_ofNat']
    exact Nat.mod_eq_of_lt hlt
  rw [memory, hn, ← h, lowBytes_ofLowBytes]

/-! ### The header -/

/-- `RequestType` of the chat, an enumeration over `uint64_t`: what a header holds need not be one
of its names. -/
abbrev ChatRequestType := UInt64

namespace ChatRequestType

def Message : ChatRequestType := 0xAAAAAA
def Register : ChatRequestType := 0xBBBBBB
def Unregister : ChatRequestType := 0xCCCCCC

end ChatRequestType

structure RequestHdr where
  mReqLength : UInt64
  mReqType : ChatRequestType
  deriving DecidableEq, Repr

namespace RequestHdr

/-- `sizeof(RequestHdr)`. -/
def size : Nat := 16

def toBytes (hdr : RequestHdr) : Bytes := memory hdr.mReqLength ++ memory hdr.mReqType

/-- The header whose memory the first bytes are copied to. -/
def ofBytes (bs : Bytes) : RequestHdr :=
  ⟨ofMemory (Vec.slice bs 0 8), ofMemory (Vec.slice bs 8 8)⟩

@[simp] theorem length_toBytes (hdr : RequestHdr) : hdr.toBytes.length = size := by
  simp [toBytes, size]

/-- The bytes between others. -/
theorem slice_between (front bs rest : Bytes) :
    Vec.slice (front ++ (bs ++ rest)) front.length bs.length = bs := by
  rw [Vec.slice, List.drop_left, List.take_left]

@[simp] theorem ofBytes_toBytes_append (hdr : RequestHdr) (rest : Bytes) :
    ofBytes (hdr.toBytes ++ rest) = hdr := by
  have hlength : Vec.slice (hdr.toBytes ++ rest) 0 8 = memory hdr.mReqLength := by
    have := slice_between [] (memory hdr.mReqLength) (memory hdr.mReqType ++ rest)
    simpa [toBytes] using this
  have htype : Vec.slice (hdr.toBytes ++ rest) 8 8 = memory hdr.mReqType := by
    have := slice_between (memory hdr.mReqLength) (memory hdr.mReqType) rest
    simpa [toBytes] using this
  rw [ofBytes, hlength, htype, ofMemory_memory, ofMemory_memory]

/-- A header is the memory of what it is read as. -/
theorem toBytes_ofBytes {bs : Bytes} (h : bs.length = size) : (ofBytes bs).toBytes = bs := by
  unfold size at h
  rw [toBytes, ofBytes, memory_ofMemory (Vec.length_slice (by omega)),
    memory_ofMemory (Vec.length_slice (by omega))]
  simp only [Vec.slice, List.drop_zero]
  rw [List.take_of_length_le (show (bs.drop 8).length ≤ 8 by rw [List.length_drop]; omega),
    List.take_append_drop]

end RequestHdr

/-! ### The requests of a client -/

/-- The request of a type. The sum of the lengths wraps around as the unsigned type does. -/
def typedRequest (mReqType : ChatRequestType) (sv : Bytes) : Bytes :=
  let hdr : RequestHdr := ⟨sv.length.toUInt64 + 16, mReqType⟩
  let result := Vec.resize [] (sv.length + RequestHdr.size)
  let result := Vec.copyInto result 0 hdr.toBytes
  Vec.copyInto result RequestHdr.size sv

def normalRequest (sv : Bytes) : Bytes := typedRequest .Message sv

def registerRequest (sv : Bytes) : Bytes := typedRequest .Register sv

/-- The data is copied to the front as well, over the header. -/
def unregisterRequest (sv : Bytes) : Bytes :=
  let hdr : RequestHdr := ⟨sv.length.toUInt64 + 16, .Unregister⟩
  let result := Vec.resize [] hdr.mReqLength.toNat
  let result := Vec.copyInto result 0 hdr.toBytes
  Vec.copyInto result 0 sv

theorem typedRequest_eq (mReqType : ChatRequestType) (sv : Bytes) :
    typedRequest mReqType sv =
      RequestHdr.toBytes ⟨sv.length.toUInt64 + 16, mReqType⟩ ++ sv := by
  have hlen (hdr : RequestHdr) : hdr.toBytes.length = 16 := hdr.length_toBytes
  simp only [typedRequest, Vec.copyInto, Vec.resize, RequestHdr.size]
  simp [hlen]

/-- A request whose length its header can say. -/
structure Request where
  mReqType : ChatRequestType
  data : Bytes
  fits : data.length + RequestHdr.size < 2 ^ 64
  deriving DecidableEq, Repr

namespace Request

variable (r : Request)

def hdr : RequestHdr := ⟨r.data.length.toUInt64 + 16, r.mReqType⟩

/-- The request as a client writes it. -/
def bytes : Bytes := typedRequest r.mReqType r.data

theorem bytes_eq : r.bytes = r.hdr.toBytes ++ r.data := typedRequest_eq _ _

@[simp] theorem length_bytes : r.bytes.length = r.data.length + RequestHdr.size := by
  rw [bytes_eq, List.length_append, RequestHdr.length_toBytes]
  omega

theorem mReqLength_hdr : r.hdr.mReqLength.toNat = r.bytes.length := by
  have hfits := r.fits
  have h16 : (16 : UInt64).toNat = 16 := rfl
  unfold RequestHdr.size at hfits
  rw [length_bytes, hdr, UInt64.toNat_add, UInt64.toNat_ofNat', h16, RequestHdr.size]
  omega

/-- The length tells the length of the data. -/
theorem hdr_eq_of_mReqLength {hdr : RequestHdr} (hlen : hdr.mReqLength.toNat = r.bytes.length)
    (htype : hdr.mReqType = r.mReqType) : r.hdr = hdr := by
  obtain ⟨mReqLength, mReqType⟩ := hdr
  obtain rfl : mReqType = r.mReqType := htype
  obtain rfl : r.hdr.mReqLength = mReqLength :=
    UInt64.toNat_inj.mp (r.mReqLength_hdr.trans hlen.symm)
  rfl

/-- The first request of a stream, once it is there as a whole, and what is behind it. A length
below that of the header is none of a request. -/
def decode (bs : Bytes) : Option (Request × Bytes) :=
  let hdr := RequestHdr.ofBytes bs
  let length := hdr.mReqLength.toNat
  if h : RequestHdr.size ≤ bs.length ∧ RequestHdr.size ≤ length ∧ length ≤ bs.length then
    some (⟨hdr.mReqType, Vec.slice bs RequestHdr.size (length - RequestHdr.size), by
      have hlt := hdr.mReqLength.toNat_lt
      have hle : (Vec.slice bs RequestHdr.size (length - RequestHdr.size)).length ≤
          length - RequestHdr.size := List.length_take_le _ _
      omega⟩, bs.drop length)
  else none

theorem decode_bytes_append (rest : Bytes) : decode (r.bytes ++ rest) = some (r, rest) := by
  have hlen := r.length_bytes
  have hhdr : RequestHdr.ofBytes (r.bytes ++ rest) = r.hdr := by
    rw [bytes_eq, List.append_assoc, RequestHdr.ofBytes_toBytes_append]
  have hdata : Vec.slice (r.bytes ++ rest) RequestHdr.size r.data.length = r.data := by
    have := RequestHdr.slice_between r.hdr.toBytes r.data rest
    rwa [RequestHdr.length_toBytes, ← List.append_assoc, ← bytes_eq] at this
  have hrest : (r.bytes ++ rest).drop (r.data.length + RequestHdr.size) = rest := by
    rw [← hlen, List.drop_left]
  unfold decode
  rw [dif_pos]
  · simp only [hhdr, r.mReqLength_hdr, hlen, Nat.add_sub_cancel, hdata, hrest]
    rfl
  · rw [hhdr, r.mReqLength_hdr, List.length_append]
    omega

/-- What is read as a request is one as a client writes it. -/
theorem eq_of_decode {r : Request} {bs rest : Bytes} (h : decode bs = some (r, rest)) :
    bs = r.bytes ++ rest := by
  simp only [decode] at h
  split at h
  · rename_i hle
    obtain ⟨hsize, hlen, hall⟩ := hle
    obtain ⟨hr, hrest⟩ := Prod.mk.inj (Option.some.inj h)
    have hdata : r.data = Vec.slice bs RequestHdr.size
        ((RequestHdr.ofBytes bs).mReqLength.toNat - RequestHdr.size) :=
      (congrArg Request.data hr).symm
    have hdatalen : r.data.length =
        (RequestHdr.ofBytes bs).mReqLength.toNat - RequestHdr.size := by
      rw [hdata]
      exact Vec.length_slice (by omega)
    have hhdr : r.hdr = RequestHdr.ofBytes bs := by
      refine r.hdr_eq_of_mReqLength ?_ (congrArg Request.mReqType hr)
      rw [r.length_bytes, hdatalen]
      omega
    -- the header is what the first bytes are read as, so these are its memory
    have hfront : (RequestHdr.ofBytes bs).toBytes = bs.take RequestHdr.size := by
      have hback : RequestHdr.ofBytes (bs.take RequestHdr.size) = RequestHdr.ofBytes bs := by
        simp only [RequestHdr.ofBytes, RequestHdr.size, Vec.slice, List.drop_take, List.take_take,
          List.drop_zero]
        rfl
      rw [← hback]
      exact RequestHdr.toBytes_ofBytes (by rw [List.length_take]; omega)
    have hslice : Vec.slice bs RequestHdr.size r.data.length = r.data := by
      rw [hdatalen]
      exact hdata.symm
    have hbehind := calc
      r.data ++ bs.drop (RequestHdr.size + r.data.length)
        = Vec.slice bs RequestHdr.size r.data.length ++
            (bs.drop RequestHdr.size).drop r.data.length := by rw [hslice, List.drop_drop]
      _ = bs.drop RequestHdr.size := by rw [Vec.slice, List.take_append_drop]
    have htotal : (RequestHdr.ofBytes bs).mReqLength.toNat = RequestHdr.size + r.data.length := by
      omega
    rw [← hrest, bytes_eq, hhdr, hfront, htotal, List.append_assoc, hbehind, List.take_append_drop]
  · cases h

theorem decode_short {bs : Bytes} (hpre : bs <+: r.bytes) (hne : bs ≠ r.bytes) :
    decode bs = none := by
  cases hd : decode bs with
  | none => rfl
  | some found =>
    obtain ⟨r', rest⟩ := found
    obtain ⟨later, hlater⟩ := hpre
    -- the request that is read would be this one, with nothing behind it
    have hbs := eq_of_decode hd
    have hagain := r.decode_bytes_append []
    rw [List.append_nil, ← hlater, hbs, List.append_assoc, decode_bytes_append] at hagain
    obtain ⟨rfl, hnil⟩ := Prod.mk.inj (Option.some.inj hagain)
    obtain ⟨rfl, rfl⟩ := List.append_eq_nil_iff.mp hnil
    exact absurd (by rw [← hlater, List.append_nil]) hne

end Request

/-- The requests as frames. -/
def requestCode : Frames.Code Request UInt8 where
  encode := Request.bytes
  decode := Request.decode
  encode_ne_nil r hnil := by
    have hlen := r.length_bytes
    rw [hnil, RequestHdr.size] at hlen
    simp at hlen
  decode_encode := Request.decode_bytes_append
  decode_short r _ := r.decode_short

/-! ### The request that is written over -/

theorem toNat_length_add (n : Nat) (hfits : n + RequestHdr.size < 2 ^ 64) :
    (n.toUInt64 + 16).toNat = n + RequestHdr.size := by
  have h16 : (16 : UInt64).toNat = 16 := rfl
  unfold RequestHdr.size at hfits ⊢
  rw [UInt64.toNat_add, UInt64.toNat_ofNat', h16]
  omega

/-- Two copies to the front of a vector. -/
theorem copyInto_copyInto_zero (front sv : Bytes) :
    Vec.copyInto (Vec.copyInto (Vec.resize [] (sv.length + front.length)) 0 front) 0 sv =
      sv ++ (front ++ List.replicate sv.length 0).drop sv.length := by
  simp [Vec.copyInto, Vec.resize]

/-- The data, and what it leaves of the header and of the zeros behind it. -/
theorem unregisterRequest_eq (sv : Bytes) (hfits : sv.length + RequestHdr.size < 2 ^ 64) :
    unregisterRequest sv = sv ++ (RequestHdr.toBytes ⟨sv.length.toUInt64 + 16, .Unregister⟩ ++
      List.replicate sv.length 0).drop sv.length := by
  rw [← copyInto_copyInto_zero, RequestHdr.length_toBytes, ← toNat_length_add _ hfits]
  rfl

/-- The first bytes of the header are not all zero. -/
theorem exists_ne_zero_of_header {n : Nat} (hfits : n + RequestHdr.size < 2 ^ 64) (hn : 0 < n) :
    ∃ b ∈ (RequestHdr.toBytes ⟨n.toUInt64 + 16, .Unregister⟩).take n, b ≠ 0 := by
  have hlength := toNat_length_add n hfits
  obtain ⟨k, rfl⟩ : ∃ k, n = k + 1 := ⟨n - 1, by omega⟩
  unfold RequestHdr.size at hlength hfits
  by_cases hsmall : k + 1 < 240
  · -- the length is a small number, and its lowest byte comes first
    refine ⟨(k + 1 + 16).toUInt8, ?_, ?_⟩
    · simp only [RequestHdr.toBytes, memory, hlength, lowBytes, List.cons_append,
        List.take_succ_cons]
      exact List.mem_cons_self
    · intro h
      have := congrArg UInt8.toNat h
      rw [UInt8.toNat_ofNat'] at this
      simp only [UInt8.toNat_zero] at this
      omega
  · -- the whole header is there, with the type
    refine ⟨0xCC, ?_, by decide⟩
    rw [List.take_of_length_le (by rw [RequestHdr.length_toBytes, RequestHdr.size]; omega),
      RequestHdr.toBytes, List.mem_append]
    exact .inr (show 0xCC ∈ memory ChatRequestType.Unregister by decide)

/-- Data that is the request itself would put the nonzero bytes it overwrites behind its end. -/
theorem unregisterRequest_eq_iff (sv : Bytes) (hfits : sv.length + RequestHdr.size < 2 ^ 64) :
    unregisterRequest sv = typedRequest .Unregister sv ↔ sv = [] := by
  rw [unregisterRequest_eq sv hfits, typedRequest_eq]
  constructor
  · intro h
    by_contra hne
    have hpos := List.length_pos_iff.mpr hne
    obtain ⟨b, hb, hb0⟩ := exists_ne_zero_of_header hfits hpos
    -- count the nonzero bytes of both sides
    have hcount := congrArg (List.countP (· ≠ 0)) h
    have hsplit := congrArg (List.countP (· ≠ 0)) (List.take_append_drop sv.length
      (RequestHdr.toBytes ⟨sv.length.toUInt64 + 16, .Unregister⟩))
    have hpositive : 0 < ((RequestHdr.toBytes ⟨sv.length.toUInt64 + 16, .Unregister⟩).take
        sv.length).countP (· ≠ 0) := List.countP_pos_iff.mpr ⟨b, hb, by simpa using hb0⟩
    rw [List.countP_append] at hsplit
    rw [List.drop_append, List.countP_append, List.countP_append, List.countP_append,
      List.drop_replicate] at hcount
    have hzeros (k : Nat) : (List.replicate k (0 : UInt8)).countP (· ≠ 0) = 0 := by simp
    rw [hzeros] at hcount
    omega
  · rintro rfl
    simp

/-- **The requests of a client and how a server reads them**: a message and a registration are read
as they were written, whatever is behind them; what unregisters a name is so only for the empty
name. -/
theorem requests_iff (sv rest : Bytes) (hfits : sv.length + RequestHdr.size < 2 ^ 64) :
    Request.decode (normalRequest sv ++ rest) = some (⟨.Message, sv, hfits⟩, rest) ∧
      Request.decode (registerRequest sv ++ rest) = some (⟨.Register, sv, hfits⟩, rest) ∧
      (Request.decode (unregisterRequest sv ++ rest) = some (⟨.Unregister, sv, hfits⟩, rest) ↔
        sv = []) := by
  refine ⟨Request.decode_bytes_append ⟨.Message, sv, hfits⟩ rest,
    Request.decode_bytes_append ⟨.Register, sv, hfits⟩ rest, ?_⟩
  rw [← unregisterRequest_eq_iff sv hfits]
  constructor
  · intro h
    have := Request.eq_of_decode h
    exact List.append_cancel_right this
  · intro h
    rw [h]
    exact Request.decode_bytes_append ⟨.Unregister, sv, hfits⟩ rest

theorem requests_hi : Request.decode (normalRequest [104, 105] ++ [0]) =
      some (⟨.Message, [104, 105], by decide⟩, [0]) ∧
    Request.decode (registerRequest [104, 105] ++ [0]) =
      some (⟨.Register, [104, 105], by decide⟩, [0]) ∧
    (Request.decode (unregisterRequest [104, 105] ++ [0]) =
      some (⟨.Unregister, [104, 105], by decide⟩, [0]) ↔ [104, 105] = ([] : Bytes)) :=
  requests_iff [104, 105] [0] (by decide)

end SimpleTcp
