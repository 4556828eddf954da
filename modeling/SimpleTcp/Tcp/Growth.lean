import SimpleTcp.Library.Machine
import SimpleTcp.Tcp.Buffer

/-!
# The loop of `appendToBuffer`

`appendToBuffer` resizes the vector to twice the length of the data as long as the data does not fit
behind `mWritePos`. The target depends neither on the vector nor on `mWritePos`, so a second
iteration finds what the first has left: the loop ends in front of it or never.

## Main definitions

* `BufferCall`, `TcpBuffer.step`: the calls that fill and consume a buffer
* `TcpBuffer.Ends`: the loop ends for a length
* `TcpBuffer.GrowsEnough`: the lengths for which there is room, now or after one resize, or the
  resize throws, or the space is a difference that wraps around

## Main results

* `TcpBuffer.ends_iff`: the lengths for which the loop ends, in every reachable buffer
-/

namespace SimpleTcp

/-- `appendToBuffer`, `writeToSocket` with the result of its `write(2)`, or `extract` and its
variants. -/
inductive BufferCall where
  | append (data : Bytes)
  | write (res : WriteResult) (soError : Errno)
  | extract (size : Nat)

namespace TcpBuffer

/-- The buffer after a call. An exception of `writeToSocket` is left to the caller, and the buffer
is as it was. -/
def call (b : TcpBuffer) : BufferCall → Except Stop TcpBuffer
  | .append data => b.appendToBuffer data
  | .write res soError =>
    match b.writeToSocket res soError with
    | .ok (_, b') => .ok b'
    | .error (.networkException _) => .ok b
    | .error e => .error e
  | .extract size => (b.extract size).map Prod.snd

def step (i : BufferCall) : EStateM Stop TcpBuffer Unit := do
  match (← get).call i with
  | .ok b => set b
  | .error e => throw e

/-- The loop ends after a number of iterations. -/
def Ends (b : TcpBuffer) (len : Nat) : Prop := ∃ fuel, growLoop fuel b len ≠ .error .hang

/-- The data fits behind `mWritePos`, or the resize to twice its length is refused, or it cuts the
vector below `mWritePos`, or it leaves room for the data. -/
def GrowsEnough (b : TcpBuffer) (len : Nat) : Prop :=
  len ≤ b.mBuffer.length - b.mWritePos ∨ maxSize < sizeMul len 2 ∨
    sizeMul len 2 < b.mWritePos ∨ b.mWritePos + len ≤ sizeMul len 2

instance (b : TcpBuffer) (len : Nat) : Decidable (b.GrowsEnough len) :=
  inferInstanceAs (Decidable (_ ∨ _ ∨ _ ∨ _))

variable {b b' : TcpBuffer} {len : Nat}

/-! ### The loop -/

theorem ends_iff_two (b : TcpBuffer) (len : Nat) :
    b.Ends len ↔ growLoop 2 b len ≠ .error .hang := by
  rw [Ne, growLoop_hang_iff, not_forall, Ends]

/-- The space behind `mWritePos` after the resize. -/
theorem writablebytes_resize (h : b.Valid) (hlen : len < 2 ^ 64) (hmax : sizeMul len 2 ≤ maxSize) :
    writablebytes { b with mBuffer := Vec.resize b.mBuffer (sizeMul len 2) } < len ↔
      ¬ (sizeMul len 2 < b.mWritePos ∨ b.mWritePos + len ≤ sizeMul len 2) := by
  have hw := h.write_le.trans h.le_max
  change sizeSub (Vec.resize b.mBuffer (sizeMul len 2)).length b.mWritePos < len ↔ _
  rw [Vec.length_resize]
  rcases Nat.lt_or_ge (sizeMul len 2) b.mWritePos with hlt | hge
  · -- the difference wraps around, and is more than any length
    rw [sizeSub_of_lt hlt hw]
    refine iff_of_false ?_ (not_not.mpr (.inl hlt))
    unfold sizeMul maxSize at *
    omega
  · rw [sizeSub_of_le hge hmax]
    omega

theorem ends_iff_growsEnough (h : b.Valid) (hlen : len < 2 ^ 64) :
    b.Ends len ↔ b.GrowsEnough len := by
  rw [ends_iff_two, GrowsEnough, ← h.writablebytes_eq, ← Nat.not_lt]
  by_cases hroom : b.writablebytes < len
  · by_cases hmax : sizeMul len 2 ≤ maxSize
    · set c : TcpBuffer := { b with mBuffer := Vec.resize b.mBuffer (sizeMul len 2) }
      have hgrow : growLoop 2 b len = growLoop 1 c len := by
        simp only [growLoop, hroom, if_true, resize, hmax, ok_bind]
        rfl
      -- the second iteration resizes to the length that the vector has
      have hagain : growLoop 1 c len = .error .hang ↔ c.writablebytes < len := by
        by_cases hc : c.writablebytes < len
        · simp only [growLoop, hc, if_true, resize, hmax, ok_bind]
        · simp [growLoop, hc]
      rw [hgrow, Ne, hagain, writablebytes_resize h hlen hmax, not_not]
      simp [hroom, Nat.not_lt.mpr hmax]
    · have hthrow : growLoop 2 b len = .error .lengthError := by
        simp only [growLoop, hroom, if_true, resize, hmax, if_false, error_bind]
      rw [hthrow]
      exact iff_of_true (by simp) (.inr (.inl (Nat.not_le.mp hmax)))
  · rw [growLoop_of_room hroom]
    exact iff_of_true (by simp) (.inl hroom)

/-! ### Runs -/

theorem valid_call (h : b.Valid) {i : BufferCall} (hrun : b.call i = .ok b') : b'.Valid := by
  cases i with
  | append data => exact (appendToBuffer_eq_ok h hrun).1
  | write res soError =>
    cases res with
    | failed errno =>
      obtain rfl : b = b' := Except.ok.inj hrun
      exact h
    | accepted room =>
      rw [call] at hrun
      rcases writeToSocket_accepted h room soError with ⟨-, hw⟩ | ⟨c, hw, -, hv, -⟩ <;>
        rw [hw] at hrun
      · obtain rfl : b = b' := Except.ok.inj hrun
        exact h
      · obtain rfl : c = b' := Except.ok.inj hrun
        exact hv
  | extract size =>
    obtain ⟨c, hc, hv, -, -⟩ := extract_spec h size
    rw [call, hc] at hrun
    obtain rfl : c = b' := Except.ok.inj hrun
    exact hv

theorem step_ok {i : BufferCall} (h : b.call i = .ok b') : (step i).run b = .ok () b' := by
  simp [step, EStateM.run_bind, EStateM.run_get, h, EStateM.run_set]

theorem keeps_valid (i : BufferCall) : Machine.Keeps Valid (step i) := by
  intro b h
  cases hcall : b.call i with
  | ok b' =>
    rw [step_ok hcall]
    exact valid_call h hcall
  | error e =>
    have hrun : (step i).run b = .error e b := by
      simp [step, EStateM.run_bind, EStateM.run_get, hcall]
    rw [hrun]
    exact h

/-- **The loop of `appendToBuffer` ends**, in every buffer that calls lead to, for the lengths for
which there is room now or after one resize, or the resize throws, or cuts the vector below
`mWritePos`, and for no others. -/
theorem ends_iff (calls : List BufferCall) (b : TcpBuffer)
    (hrun : (Machine.exec step calls).run fresh = .ok () b) (len : Nat) (hlen : len < 2 ^ 64) :
    b.Ends len ↔ b.GrowsEnough len := by
  have hvalid := Machine.Keeps.exec keeps_valid calls fresh fresh_valid
  rw [hrun] at hvalid
  exact ends_iff_growsEnough hvalid hlen

/-- The buffer with 600 bytes in it. -/
def sixHundred : TcpBuffer := ⟨List.replicate 600 1 ++ List.replicate 424 0, 0, 600⟩

theorem run_sixHundred :
    (Machine.exec step [.append (List.replicate 600 1)]).run fresh = .ok () sixHundred :=
  (Machine.exec_singleton _ _).trans (step_ok (by decide +kernel))

theorem ends_iff_sixHundred : sixHundred.Ends 700 ↔ sixHundred.GrowsEnough 700 :=
  ends_iff [.append (List.replicate 600 1)] sixHundred run_sixHundred 700 (by decide)

/-- 500 bytes more make the loop resize to 1000 bytes for ever, of which 400 are free. -/
theorem not_ends_sixHundred : ¬ ∀ (calls : List BufferCall) (b : TcpBuffer),
    (Machine.exec step calls).run fresh = .ok () b → ∀ len < 2 ^ 64, b.Ends len := by
  intro h
  obtain ⟨fuel, hfuel⟩ := h _ _ run_sixHundred 500 (by decide)
  have hhang : growLoop 2 sixHundred 500 = .error .hang := by decide +kernel
  exact hfuel ((growLoop_hang_iff sixHundred 500).mp hhang fuel)

end TcpBuffer

end SimpleTcp
