import SimpleTcp.Base.Bytes
import SimpleTcp.Base.Error

/-!
# The TCP buffer

`TcpBuffer` is a vector with a read and a write position. `readFromSocket` and `appendToBuffer`
fill it behind the write position and grow the vector, `writeToSocket` and `extract` consume
from the read position and move the unread bytes to the front when the consumed prefix is longer
than they are. The sizes are computed as the source computes them, on an unsigned type.

## Main definitions

* `TcpBuffer`, `TcpBuffer.fresh`: the buffer and its constructor
* `readFromSocket`, `writeToSocket`, `appendToBuffer`, `read`, `extract`: its operations
* `TcpBuffer.Valid`: `mReadPos <= mWritePos <= mBuffer.size()`
* `TcpBuffer.CanAppend`, `TcpBuffer.CanRead`: the data for which an append and a read find room

## Main results

* `updateReadPos_spec`: consuming drops from the readable bytes
* `appendToBuffer_of_canAppend`, `appendToBuffer_of_not_canAppend`: what appending does
* `growLoop_hang_iff`: the loop that two iterations do not end never ends
-/

namespace SimpleTcp

/-- What `read(2)` gives: the bytes that have arrived, none once the peer has shut down, or an
error. The call takes at most as many as the length it is given. -/
inductive ReadResult where
  | bytes (arrived : Bytes)
  | failed (errno : Errno)
  deriving DecidableEq, Repr

/-- `read(2)` gave no bytes: an error, or the end of the input. -/
def ReadResult.Nothing : ReadResult → Prop
  | .bytes arrived => arrived = []
  | .failed _ => True

/-- What `write(2)` gives: how many bytes the kernel has room for, or an error. The call takes at
most as many as the length it is given. -/
inductive WriteResult where
  | accepted (room : Nat)
  | failed (errno : Errno)
  deriving DecidableEq, Repr

structure TcpBuffer where
  mBuffer : Bytes
  mReadPos : Nat
  mWritePos : Nat
  deriving DecidableEq, Repr

namespace TcpBuffer

/-- `TcpBuffer::TcpBuffer()`. -/
def fresh : TcpBuffer := ⟨Vec.resize [] 1024, 0, 0⟩

def writablebytes (b : TcpBuffer) : Nat := sizeSub b.mBuffer.length b.mWritePos

def readablebytes (b : TcpBuffer) : Nat := sizeSub b.mWritePos b.mReadPos

def size (b : TcpBuffer) : Nat := b.readablebytes

/-- The bytes `[mReadPos, mWritePos)`. -/
def readable (b : TcpBuffer) : Bytes := Vec.slice b.mBuffer b.mReadPos b.readablebytes

/-- `mBuffer.resize(n)`. -/
def resize (b : TcpBuffer) (n : Nat) : Except Stop TcpBuffer :=
  if n ≤ maxSize then .ok { b with mBuffer := Vec.resize b.mBuffer n } else .error .lengthError

/-- `data` is copied to `getWritePos()` and `mWritePos` moves behind it. -/
def copyToWritePos (b : TcpBuffer) (data : Bytes) : Except Stop TcpBuffer :=
  if b.mWritePos + data.length ≤ b.mBuffer.length then
    .ok { b with
      mBuffer := Vec.copyInto b.mBuffer b.mWritePos data
      mWritePos := b.mWritePos + data.length }
  else .error .outOfBounds

/-- The unread bytes move to the front when the consumed prefix is longer than they are, so the
two ranges of the `memcpy` do not overlap. -/
def shrink (b : TcpBuffer) : TcpBuffer :=
  if b.mReadPos > b.readablebytes then
    { mBuffer := Vec.copyInto b.mBuffer 0 b.readable
      mWritePos := b.readablebytes
      mReadPos := 0 }
  else b

def updateReadPos (b : TcpBuffer) (len : Nat) : Except Stop TcpBuffer := do
  assertTrue (b.mReadPos + len ≤ b.mWritePos)
  pure { b with mReadPos := b.mReadPos + len }.shrink

/-- `soError` is what `getSocketError()` returns when the exception is built. -/
def readFromSocket (b : TcpBuffer) (res : ReadResult) (soError : Errno) :
    Except Stop TcpBuffer :=
  match res with
  | .failed _ => .error (.networkException soError)
  | .bytes arrived =>
    let got := arrived.take b.writablebytes
    -- a read that fills the buffer is followed by a resize
    if got.length > 0 ∧ got.length = b.writablebytes then do
      let b ← b.copyToWritePos got
      b.resize (sizeMul b.mBuffer.length 2)
    else if got.length > 0 then b.copyToWritePos got
    else .error (.networkException soError)

/-- The bytes the kernel took, and the buffer without them. -/
def writeToSocket (b : TcpBuffer) (res : WriteResult) (soError : Errno) :
    Except Stop (Bytes × TcpBuffer) :=
  match res with
  | .failed _ => .error (.networkException soError)
  | .accepted room =>
    let taken := b.readable.take room
    -- a result of 0 counts as an error
    if taken.length > 0 then do
      let b ← b.updateReadPos taken.length
      pure (taken, b)
    else .error (.networkException soError)

/-- `while (writablebytes() < data.size()) mBuffer.resize(data.size() * 2)`, for a number of
iterations. -/
def growLoop : Nat → TcpBuffer → Nat → Except Stop TcpBuffer
  | 0, _, _ => .error .hang
  | fuel + 1, b, len =>
    if b.writablebytes < len then do
      let b ← b.resize (sizeMul len 2)
      growLoop fuel b len
    else .ok b

/-- The target of the resize does not depend on the buffer, so a loop that two iterations do not
end is in the same state for ever (`growLoop_hang_iff`). -/
def appendToBuffer (b : TcpBuffer) (data : Bytes) : Except Stop TcpBuffer := do
  let b ← growLoop 2 b data.length
  b.copyToWritePos data

/-- `read`, `readString` and `readU8String`: a view of the first readable bytes. -/
def read (b : TcpBuffer) (size : Nat) : Bytes :=
  if size < b.readablebytes then Vec.slice b.mBuffer b.mReadPos size
  else Vec.slice b.mBuffer b.mReadPos b.readablebytes

/-- `extract`, `extractString` and `extractU8String`. -/
def extract (b : TcpBuffer) (size : Nat) : Except Stop (Bytes × TcpBuffer) := do
  let result := b.read size
  let b ← b.updateReadPos result.length
  pure (result, b)

/-! ## Valid buffers -/

/-- `mReadPos <= mWritePos <= mBuffer.size()`. -/
structure Valid (b : TcpBuffer) : Prop where
  read_le : b.mReadPos ≤ b.mWritePos
  write_le : b.mWritePos ≤ b.mBuffer.length
  le_max : b.mBuffer.length ≤ maxSize

theorem fresh_valid : fresh.Valid where
  read_le := Nat.le_refl _
  write_le := Nat.zero_le _
  le_max := by simp [fresh, maxSize]

@[simp] theorem readable_fresh : fresh.readable = [] := Vec.slice_zero_right _ _

variable {b : TcpBuffer}

theorem Valid.readablebytes_eq (h : b.Valid) : b.readablebytes = b.mWritePos - b.mReadPos :=
  sizeSub_of_le h.read_le (h.write_le.trans h.le_max)

theorem Valid.writablebytes_eq (h : b.Valid) :
    b.writablebytes = b.mBuffer.length - b.mWritePos :=
  sizeSub_of_le h.write_le h.le_max

theorem Valid.length_readable (h : b.Valid) : b.readable.length = b.readablebytes := by
  refine Vec.length_slice ?_
  rw [h.readablebytes_eq]
  have := h.read_le
  have := h.write_le
  omega

theorem Valid.size_eq_zero_iff (h : b.Valid) : b.size = 0 ↔ b.readable = [] := by
  rw [size, ← h.length_readable, List.length_eq_zero_iff]

theorem Valid.read_eq (h : b.Valid) (n : Nat) : b.read n = b.readable.take n := by
  have hl := h.length_readable
  unfold read
  split
  · rename_i hn
    simp only [readable, Vec.slice, List.take_take, Nat.min_eq_left (Nat.le_of_lt hn)]
  · rename_i hn
    rw [List.take_of_length_le (by omega), readable]

theorem shrink_spec (h : b.Valid) :
    b.shrink.Valid ∧ b.shrink.readable = b.readable ∧
      b.shrink.mBuffer.length = b.mBuffer.length ∧ b.shrink.mWritePos ≤ b.mWritePos := by
  unfold shrink
  split
  · rename_i hgt
    have hn := h.readablebytes_eq
    have hlen := h.length_readable
    have hw := h.write_le
    have hfit : b.readable.length ≤ b.mBuffer.length := by omega
    have hcopy : (Vec.copyInto b.mBuffer 0 b.readable).length = b.mBuffer.length :=
      Vec.length_copyInto (by simpa using hfit)
    have hv : TcpBuffer.Valid ⟨Vec.copyInto b.mBuffer 0 b.readable, 0, b.readablebytes⟩ := by
      refine ⟨Nat.zero_le _, ?_, ?_⟩
      · change b.readablebytes ≤ (Vec.copyInto b.mBuffer 0 b.readable).length
        omega
      · change (Vec.copyInto b.mBuffer 0 b.readable).length ≤ maxSize
        rw [hcopy]
        exact h.le_max
    refine ⟨hv, ?_, hcopy, ?_⟩
    · have hnew := hv.readablebytes_eq.trans hlen.symm
      rw [readable, hnew]
      exact Vec.slice_copyInto_zero hfit
    · change b.readablebytes ≤ b.mWritePos
      omega
  · exact ⟨h, rfl, rfl, Nat.le_refl _⟩

/-- **Consuming** `len` readable bytes drops them, whether or not the others are moved to the
front. -/
theorem updateReadPos_spec (h : b.Valid) (len : Nat) (hlen : len ≤ b.readable.length) :
    ∃ b', b.updateReadPos len = .ok b' ∧ b'.Valid ∧ b'.readable = b.readable.drop len ∧
      b'.mBuffer.length = b.mBuffer.length ∧ b'.mWritePos ≤ b.mWritePos := by
  have hn := h.readablebytes_eq
  have hr := h.read_le
  rw [h.length_readable, hn] at hlen
  have hle : b.mReadPos + len ≤ b.mWritePos := by omega
  have hv : TcpBuffer.Valid { b with mReadPos := b.mReadPos + len } :=
    ⟨hle, h.write_le, h.le_max⟩
  obtain ⟨hsv, hsr, hsl, hsw⟩ := shrink_spec hv
  refine ⟨_, ?_, hsv, hsr.trans ?_, hsl, hsw⟩
  · rw [updateReadPos, assertTrue_pos hle, pure_bind]
    rfl
  · have hcn := hv.readablebytes_eq
    rw [show b.mWritePos - (b.mReadPos + len) = b.readablebytes - len by omega] at hcn
    rw [readable, hcn]
    exact Vec.slice_add _ _ _ _

/-! ## Appending -/

/-- The data for which `appendToBuffer` finds room: it fits behind `mWritePos`, or the resize,
whose target is twice its length, leaves enough room there. -/
def CanAppend (b : TcpBuffer) (data : Bytes) : Prop :=
  data.length ≤ b.mBuffer.length - b.mWritePos ∨
    (b.mWritePos ≤ data.length ∧ 2 * data.length ≤ maxSize)

instance (b : TcpBuffer) (data : Bytes) : Decidable (b.CanAppend data) :=
  inferInstanceAs (Decidable (_ ∨ _))

theorem growLoop_of_room {fuel len : Nat} (h : ¬ b.writablebytes < len) :
    growLoop (fuel + 1) b len = .ok b := by
  simp [growLoop, h]

theorem growLoop_of_not_room {fuel len : Nat} (h : b.writablebytes < len)
    (hmax : 2 * len ≤ maxSize) :
    growLoop (fuel + 1) b len =
      growLoop fuel { b with mBuffer := Vec.resize b.mBuffer (2 * len) } len := by
  have hmul : sizeMul len 2 = 2 * len := by
    rw [sizeMul_of_le (by omega)]
    omega
  simp only [growLoop, h, if_true, hmul, resize, hmax, ok_bind]

theorem copyToWritePos_spec (h : b.Valid) (data : Bytes)
    (hfit : b.mWritePos + data.length ≤ b.mBuffer.length) :
    ∃ b', b.copyToWritePos data = .ok b' ∧ b'.Valid ∧ b'.readable = b.readable ++ data ∧
      b'.mBuffer.length = b.mBuffer.length ∧ b'.mReadPos = b.mReadPos ∧
      b'.mWritePos = b.mWritePos + data.length := by
  have hlen := Vec.length_copyInto hfit
  have hr := h.read_le
  set c : TcpBuffer := { b with
    mBuffer := Vec.copyInto b.mBuffer b.mWritePos data
    mWritePos := b.mWritePos + data.length } with hc
  have hcv : c.Valid := by
    refine ⟨?_, ?_, ?_⟩
    · simp only [hc]
      omega
    · simp only [hc, hlen]
      exact hfit
    · simp only [hc, hlen]
      exact h.le_max
  refine ⟨c, by simp [copyToWritePos, hfit, hc], hcv, ?_, hlen, rfl, rfl⟩
  -- what is readable ends where the data does
  have hcn : c.readablebytes = (b.mWritePos - b.mReadPos) + data.length := by
    rw [hcv.readablebytes_eq]
    simp only [hc]
    omega
  have hw : b.mWritePos = b.mReadPos + (b.mWritePos - b.mReadPos) := by omega
  rw [readable, readable, hcn, h.readablebytes_eq]
  simp only [hc]
  conv_lhs => rw [hw]
  simp only [Nat.add_sub_cancel_left]
  exact Vec.slice_copyInto_append (by omega)

/-- The buffer after one resize of the loop. -/
theorem resize_valid (h : b.Valid) {n : Nat} (hw : b.mWritePos ≤ n) (hn : n ≤ maxSize) :
    ({ b with mBuffer := Vec.resize b.mBuffer n } : TcpBuffer).Valid ∧
      ({ b with mBuffer := Vec.resize b.mBuffer n } : TcpBuffer).readable = b.readable := by
  have hv : ({ b with mBuffer := Vec.resize b.mBuffer n } : TcpBuffer).Valid :=
    ⟨h.read_le, by simpa using hw, by simpa using hn⟩
  have hr := h.read_le
  have hle := h.write_le
  have hn' : TcpBuffer.readablebytes { b with mBuffer := Vec.resize b.mBuffer n } =
      b.mWritePos - b.mReadPos := hv.readablebytes_eq
  refine ⟨hv, ?_⟩
  rw [readable, readable, hn', h.readablebytes_eq]
  change Vec.slice (Vec.resize b.mBuffer n) b.mReadPos (b.mWritePos - b.mReadPos) = _
  exact Vec.slice_resize (by omega) (by omega)

/-- **Appending with room** puts the data behind the readable bytes. -/
theorem appendToBuffer_of_canAppend (h : b.Valid) {data : Bytes} (hd : b.CanAppend data) :
    ∃ b', b.appendToBuffer data = .ok b' ∧ b'.Valid ∧ b'.readable = b.readable ++ data := by
  have hw := h.write_le
  have hroom := h.writablebytes_eq
  by_cases hlt : b.writablebytes < data.length
  · obtain ⟨hwd, hmax⟩ : b.mWritePos ≤ data.length ∧ 2 * data.length ≤ maxSize := by
      rcases hd with hd | hd
      · omega
      · exact hd
    obtain ⟨hv, hread⟩ := resize_valid h (n := 2 * data.length) (by omega) hmax
    set c : TcpBuffer := { b with mBuffer := Vec.resize b.mBuffer (2 * data.length) } with hc
    have hcl : c.mBuffer.length = 2 * data.length := by simp [hc]
    have hcw : c.mWritePos = b.mWritePos := rfl
    have hcroom : ¬ c.writablebytes < data.length := by
      rw [hv.writablebytes_eq, hcl, hcw]
      omega
    have hgrow : growLoop 2 b data.length = .ok c := by
      rw [growLoop_of_not_room hlt hmax, ← hc, growLoop_of_room hcroom]
    obtain ⟨b', hb', hv', hr', -⟩ := copyToWritePos_spec hv data (by omega)
    refine ⟨b', ?_, hv', hr'.trans (by rw [hread])⟩
    rw [appendToBuffer, hgrow, ok_bind, hb']
  · obtain ⟨b', hb', hv', hr', -⟩ := copyToWritePos_spec h data (by omega)
    refine ⟨b', ?_, hv', hr'⟩
    rw [appendToBuffer, growLoop_of_room hlt, ok_bind, hb']

/-- How a buffer that grows ends when it does not return: its loop never ends, it copies past the
end of `mBuffer`, or the resize is refused. -/
def GrowStop (e : Stop) : Prop := e = .hang ∨ e = .outOfBounds ∨ e = .lengthError

/-- The loop leaves the positions alone, and the vector is the one it started from or has twice the
length of the data, computed on `size_type`. -/
theorem growLoop_cases (fuel : Nat) (b : TcpBuffer) (len : Nat) :
    growLoop fuel b len = .error .hang ∨ growLoop fuel b len = .error .lengthError ∨
      ∃ c, growLoop fuel b len = .ok c ∧ c.mWritePos = b.mWritePos ∧
        (c.mBuffer = b.mBuffer ∨ c.mBuffer.length = sizeMul len 2 ∧ sizeMul len 2 ≤ maxSize) := by
  induction fuel generalizing b with
  | zero => exact .inl rfl
  | succ fuel ih =>
    by_cases hlt : b.writablebytes < len
    · by_cases hmax : sizeMul len 2 ≤ maxSize
      · have hstep : growLoop (fuel + 1) b len =
            growLoop fuel { b with mBuffer := Vec.resize b.mBuffer (sizeMul len 2) } len := by
          simp only [growLoop, hlt, if_true, resize, hmax, ok_bind]
        rw [hstep]
        rcases ih { b with mBuffer := Vec.resize b.mBuffer (sizeMul len 2) } with h | h | h
        · exact .inl h
        · exact .inr (.inl h)
        · obtain ⟨c, hc, hw, hl⟩ := h
          refine .inr (.inr ⟨c, hc, hw, .inr ⟨?_, hmax⟩⟩)
          rcases hl with hl | hl
          · rw [hl]
            exact Vec.length_resize _ _
          · exact hl.1
      · exact .inr (.inl (by simp [growLoop, hlt, resize, hmax]))
    · exact .inr (.inr ⟨b, by simp [growLoop, hlt], rfl, .inl rfl⟩)

/-- **Appending without room** does not return: the loop resizes to the same size for ever, or the
resize cuts the vector below `mWritePos`, so that the unsigned free space hides that there is none
and the copy leaves the vector. -/
theorem appendToBuffer_of_not_canAppend (h : b.Valid) {data : Bytes} (hd : ¬ b.CanAppend data) :
    ∃ e, b.appendToBuffer data = .error e ∧ GrowStop e := by
  have hw := h.write_le
  obtain ⟨hfit, hgrow⟩ := not_or.mp hd
  rcases growLoop_cases 2 b data.length with hr | hr | ⟨c, hr, hcw, hcl⟩
  · exact ⟨.hang, by rw [appendToBuffer, hr, error_bind], .inl rfl⟩
  · exact ⟨.lengthError, by rw [appendToBuffer, hr, error_bind], .inr (.inr rfl)⟩
  · have hout : ¬ c.mWritePos + data.length ≤ c.mBuffer.length := by
      rw [hcw]
      rcases hcl with hcl | ⟨hcl, hmax⟩
      · rw [hcl]
        omega
      · rw [hcl]
        unfold sizeMul maxSize at *
        omega
    refine ⟨.outOfBounds, ?_, .inr (.inl rfl)⟩
    rw [appendToBuffer, hr, ok_bind, copyToWritePos, if_neg hout]

/-- An append that returns has put the data behind the readable bytes. -/
theorem appendToBuffer_eq_ok (h : b.Valid) {data : Bytes} {b' : TcpBuffer}
    (hb : b.appendToBuffer data = .ok b') :
    b'.Valid ∧ b'.readable = b.readable ++ data := by
  by_cases hd : b.CanAppend data
  · obtain ⟨c, hc, hv, hr⟩ := appendToBuffer_of_canAppend h hd
    rw [hc] at hb
    cases hb
    exact ⟨hv, hr⟩
  · obtain ⟨e, he, -⟩ := appendToBuffer_of_not_canAppend h hd
    rw [he] at hb
    cases hb

/-- Data that fits behind `mWritePos` takes as much of the room as it is long. -/
theorem appendToBuffer_of_room (h : b.Valid) {data : Bytes} (hd : data.length ≤ b.writablebytes) :
    ∃ b', b.appendToBuffer data = .ok b' ∧ b'.Valid ∧
      b'.writablebytes = b.writablebytes - data.length := by
  have hw := h.write_le
  have hroom := h.writablebytes_eq
  obtain ⟨b', hb', hv', -, hl, -, hw'⟩ := copyToWritePos_spec h data (by omega)
  refine ⟨b', ?_, hv', ?_⟩
  · rw [appendToBuffer, growLoop_of_room (Nat.not_lt.mpr hd), ok_bind, hb']
  · rw [hv'.writablebytes_eq, hroom, hl, hw']
    omega

/-- The loop of `appendToBuffer` after two iterations is where it was after one: if two do not end
it, none do. -/
theorem growLoop_hang_iff (b : TcpBuffer) (len : Nat) :
    growLoop 2 b len = .error .hang ↔ ∀ fuel, growLoop fuel b len = .error .hang := by
  refine ⟨fun h fuel => ?_, fun h => h 2⟩
  by_cases hlt : b.writablebytes < len
  · cases hr : b.resize (sizeMul len 2) with
    | error e =>
      have he : e = .lengthError := by
        unfold resize at hr
        split at hr
        · cases hr
        · cases hr
          rfl
      simp [growLoop, hlt, hr, he] at h
    -- every iteration resizes to the same length, so that the second changes nothing
    | ok c =>
      have hcl : c.mBuffer.length = sizeMul len 2 ∧ c.resize (sizeMul len 2) = .ok c := by
        unfold resize at hr
        split at hr
        · rename_i hmax
          cases hr
          simp [resize, hmax, Vec.resize_resize]
        · cases hr
      simp only [growLoop, hlt, if_true, hr, ok_bind] at h
      have hclt : c.writablebytes < len := by
        by_contra hclt
        simp [hclt] at h
      have hstay : ∀ k, growLoop k c len = .error .hang := by
        intro k
        induction k with
        | zero => rfl
        | succ k ih => simp only [growLoop, hclt, if_true, hcl.2, ok_bind, ih]
      cases fuel with
      | zero => rfl
      | succ k => simp only [growLoop, hlt, if_true, hr, ok_bind, hstay]
  · simp [growLoop, hlt] at h

/-! ## Reading and writing -/

/-- The kernel takes some of the readable bytes, and exactly those leave the buffer. -/
theorem writeToSocket_accepted (h : b.Valid) (room : Nat) (soError : Errno) :
    (b.readable.take room = [] ∧
        b.writeToSocket (.accepted room) soError = .error (.networkException soError)) ∨
      ∃ b', b.writeToSocket (.accepted room) soError = .ok (b.readable.take room, b') ∧
        b.readable.take room ≠ [] ∧ b'.Valid ∧ b'.readable = b.readable.drop room := by
  by_cases htake : b.readable.take room = []
  · left
    refine ⟨htake, ?_⟩
    simp [writeToSocket, htake]
  · right
    have hpos : 0 < (b.readable.take room).length := List.length_pos_iff.mpr htake
    obtain ⟨b', hb', hv', hr', -⟩ :=
      updateReadPos_spec h (b.readable.take room).length (List.length_take_le' _ _)
    refine ⟨b', ?_, htake, hv', hr'.trans (drop_length_take _ _)⟩
    simp only [writeToSocket, gt_iff_lt, hpos, if_true, hb', ok_bind]
    rfl

/-- Writing takes no room away. -/
theorem writeToSocket_room (h : b.Valid) {res : WriteResult} {soError : Errno} {taken : Bytes}
    {b' : TcpBuffer} (hrun : b.writeToSocket res soError = .ok (taken, b')) :
    b.writablebytes ≤ b'.writablebytes := by
  cases res with
  | failed errno => cases hrun
  | accepted room =>
    simp only [writeToSocket] at hrun
    split at hrun
    · obtain ⟨c, hc, hv, -, hl, hw⟩ :=
        updateReadPos_spec h (b.readable.take room).length (List.length_take_le' _ _)
      rw [hc, ok_bind] at hrun
      obtain ⟨-, rfl⟩ := Prod.mk.inj (Except.ok.inj hrun)
      rw [h.writablebytes_eq, hv.writablebytes_eq, hl]
      omega
    · cases hrun

/-- A buffer that `readFromSocket` can read into: there is room behind `mWritePos`. -/
structure HasRoom (b : TcpBuffer) : Prop extends b.Valid where
  room : b.mWritePos < b.mBuffer.length

theorem fresh_hasRoom : fresh.HasRoom := ⟨fresh_valid, by simp [fresh]⟩

theorem extract_spec (h : b.Valid) (n : Nat) :
    ∃ b', b.extract n = .ok (b.readable.take n, b') ∧ b'.Valid ∧
      b'.readable = b.readable.drop n ∧ (b.HasRoom → b'.HasRoom) := by
  obtain ⟨b', hb', hv', hr', hl', hw'⟩ :=
    updateReadPos_spec h (b.readable.take n).length (List.length_take_le' _ _)
  refine ⟨b', ?_, hv', hr'.trans (drop_length_take _ _), fun hroom => ⟨hv', ?_⟩⟩
  · simp only [extract, h.read_eq, hb', ok_bind]
    rfl
  · have := hroom.room
    omega

/-- Reading appends what arrived, as far as there is room, and doubles a vector it has filled. -/
theorem readFromSocket_spec (h : b.HasRoom) (res : ReadResult) (soError : Errno) :
    (res.Nothing ∧ b.readFromSocket res soError = .error (.networkException soError)) ∨
      (¬ res.Nothing ∧ b.readFromSocket res soError = .error .lengthError) ∨
      ∃ arrived b', res = .bytes arrived ∧ arrived ≠ [] ∧ b.readFromSocket res soError = .ok b' ∧
        b'.HasRoom ∧
        b'.readable = b.readable ++ arrived.take (b.mBuffer.length - b.mWritePos) := by
  cases res with
  | failed errno => exact .inl ⟨trivial, rfl⟩
  | bytes arrived =>
    by_cases harr : arrived = []
    · subst harr
      exact .inl ⟨rfl, by simp [readFromSocket]⟩
    right
    have hroom := h.room
    have hw := h.writablebytes_eq
    -- what arrives is cut off at the end of the vector
    set got := arrived.take b.writablebytes with hgot
    have hlen : got.length ≤ b.mBuffer.length - b.mWritePos := by
      rw [hgot, List.length_take]
      omega
    have hpos : 0 < got.length := by
      have := List.length_pos_iff.mpr harr
      rw [hgot, List.length_take]
      omega
    obtain ⟨c, hc, hcv, hcr, hcl, -, hcw⟩ := copyToWritePos_spec h.toValid got (by omega)
    have hread : b.readFromSocket (.bytes arrived) soError =
        if got.length = b.writablebytes then do
          let b ← b.copyToWritePos got
          b.resize (sizeMul b.mBuffer.length 2)
        else b.copyToWritePos got := by
      simp only [readFromSocket, ← hgot, gt_iff_lt, hpos, true_and, if_true]
    -- a vector that is full is doubled, unless that is too long for a vector
    by_cases hfull : got.length = b.writablebytes
    · by_cases hmax : sizeMul c.mBuffer.length 2 ≤ maxSize
      · have hcmax := hcv.le_max
        have hdouble : sizeMul c.mBuffer.length 2 = 2 * c.mBuffer.length := by
          unfold sizeMul maxSize at *
          omega
        rw [hdouble] at hmax
        obtain ⟨hdv, hdr⟩ := resize_valid hcv (n := 2 * c.mBuffer.length) (by omega) hmax
        refine .inr ⟨arrived, _, rfl, harr, ?_, ⟨hdv, ?_⟩, ?_⟩
        · rw [hread, if_pos hfull, hc, ok_bind, hdouble, resize, if_pos hmax]
        · change c.mWritePos < (Vec.resize c.mBuffer (2 * c.mBuffer.length)).length
          rw [Vec.length_resize]
          omega
        · rw [hdr, hcr, hgot, hw]
      · refine .inl ⟨harr, ?_⟩
        rw [hread, if_pos hfull, hc, ok_bind, resize, if_neg hmax]
    · refine .inr ⟨arrived, c, rfl, harr, ?_, ⟨hcv, ?_⟩, ?_⟩
      · rw [hread, if_neg hfull, hc]
      · omega
      · rw [hcr, hgot, hw]

/-- The results for which `readFromSocket` finds room: what arrives leaves some behind `mWritePos`,
or the vector can be twice as long. -/
def CanRead (b : TcpBuffer) : ReadResult → Prop
  | .failed _ => True
  | .bytes arrived =>
    arrived.length < b.mBuffer.length - b.mWritePos ∨ 2 * b.mBuffer.length ≤ maxSize

/-- **Reading without room** is refused the size of the vector. -/
theorem readFromSocket_lengthError_iff (h : b.HasRoom) (res : ReadResult) (soError : Errno) :
    b.readFromSocket res soError = .error .lengthError ↔ ¬ b.CanRead res := by
  cases res with
  | failed errno => simp [readFromSocket, CanRead]
  | bytes arrived =>
    have hroom := h.room
    have hmax := h.le_max
    have hw := h.writablebytes_eq
    rw [CanRead, not_or, Nat.not_lt, Nat.not_le]
    set got := arrived.take b.writablebytes with hgot
    have hlen : got.length = min (b.mBuffer.length - b.mWritePos) arrived.length := by
      rw [hgot, List.length_take, hw]
    obtain ⟨c, hc, -, -, hcl, -⟩ := copyToWritePos_spec h.toValid got (by omega)
    by_cases hfull : got.length > 0 ∧ got.length = b.writablebytes
    · have hdouble : sizeMul c.mBuffer.length 2 = 2 * b.mBuffer.length := by
        rw [hcl]
        unfold sizeMul maxSize at *
        omega
      simp only [readFromSocket, ← hgot, if_pos hfull, hc, ok_bind, resize, hdouble]
      by_cases hfit : 2 * b.mBuffer.length ≤ maxSize
      · rw [if_pos hfit]
        exact iff_of_false (by simp) fun hlong => by omega
      · rw [if_neg hfit]
        exact ⟨fun _ => ⟨by omega, by omega⟩, fun _ => rfl⟩
    · -- the vector is not filled, and stays as long as it is
      have hnot : ¬ b.mBuffer.length - b.mWritePos ≤ arrived.length := by omega
      refine iff_of_false (fun heq => ?_) fun hfull' => hnot hfull'.1
      simp only [readFromSocket, ← hgot, if_neg hfull] at heq
      split at heq
      · rw [hc] at heq
        cases heq
      · cases heq

end TcpBuffer

end SimpleTcp
