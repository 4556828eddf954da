import SimpleTcp.Tcp.RecvBuffer

/-!
# The storage of the receive buffer

The vector of the receive buffer only grows when a read has filled it, to twice its size. The prefix
that was consumed is then no longer than the unread part, as extracting moves the unread bytes to
the front as soon as it is, so the vector is at most four times as long as the bytes that were
unread.

## Main definitions

* `TcpBuffer.Compact`: the consumed prefix is no longer than the unread part
* `RecvBuffer.peak`: the largest number of unread bytes of a run

## Main results

* `TcpBuffer.compact_updateReadPos`: consuming leaves the buffer compact
* `TcpBuffer.readFromSocket_length`: a vector that has grown is at most four times the unread part
* `RecvBuffer.proportional`: the storage is bounded by the peak
-/

namespace SimpleTcp

namespace TcpBuffer

/-- The consumed prefix is no longer than the unread part. -/
def Compact (b : TcpBuffer) : Prop := b.mReadPos ≤ b.mWritePos - b.mReadPos

variable {b b' : TcpBuffer}

theorem compact_shrink (h : b.Valid) : b.shrink.Compact := by
  have hn := h.readablebytes_eq
  unfold shrink
  split
  · exact Nat.zero_le _
  · next hle =>
    rw [hn] at hle
    exact Nat.not_lt.mp hle

/-- **Consuming leaves the buffer compact**, and the vector as long as it was. -/
theorem compact_updateReadPos (h : b.Valid) {len : Nat} (hrun : b.updateReadPos len = .ok b') :
    b'.Compact ∧ b'.mBuffer.length = b.mBuffer.length := by
  by_cases hle : b.mReadPos + len ≤ b.mWritePos
  · rw [updateReadPos, assertTrue_pos hle] at hrun
    obtain rfl := Except.ok.inj hrun
    have hv : TcpBuffer.Valid { b with mReadPos := b.mReadPos + len } :=
      ⟨hle, h.write_le, h.le_max⟩
    exact ⟨compact_shrink hv, (shrink_spec hv).2.2.1⟩
  · rw [updateReadPos, assertTrue_neg hle] at hrun
    cases hrun

theorem compact_extract (h : b.Valid) {size : Nat} {result : Bytes}
    (hrun : b.extract size = .ok (result, b')) :
    b'.Compact ∧ b'.mBuffer.length = b.mBuffer.length := by
  obtain ⟨c, hc, hpure⟩ := ok_of_bind hrun
  obtain rfl := (Prod.mk.inj (Except.ok.inj hpure)).2
  exact compact_updateReadPos h hc

/-- **A vector that a read has filled** is at most four times as long as the unread part. -/
theorem readFromSocket_length (h : b.HasRoom) (hc : b.Compact) {res : ReadResult} {soError : Errno}
    (hrun : b.readFromSocket res soError = .ok b') : b'.Compact ∧
      (b'.mBuffer.length = b.mBuffer.length ∨
        b'.mBuffer.length ≤ 4 * (b'.mWritePos - b'.mReadPos)) := by
  have hroom := h.room
  have hw := h.writablebytes_eq
  have hread := h.read_le
  unfold Compact at hc ⊢
  cases res with
  | failed errno => cases hrun
  | bytes arrived =>
    simp only [readFromSocket] at hrun
    set got := arrived.take b.writablebytes with hgot
    have hlen : got.length ≤ b.mBuffer.length - b.mWritePos := by
      rw [hgot, List.length_take]
      omega
    obtain ⟨c, hcopy, -, -, hcl, hcr, hcw⟩ := copyToWritePos_spec h.toValid got (by omega)
    rw [hcopy] at hrun
    split at hrun
    · next hfull =>
      -- the write position is at the end of the vector when it is doubled
      rw [ok_bind, resize] at hrun
      split at hrun
      · obtain rfl := Except.ok.inj hrun
        have htwice : sizeMul c.mBuffer.length 2 ≤ c.mBuffer.length * 2 := Nat.mod_le _ _
        dsimp only
        rw [Vec.length_resize]
        omega
      · cases hrun
    · split at hrun
      · obtain rfl := Except.ok.inj hrun
        omega
      · cases hrun

theorem compact_fresh : fresh.Compact := Nat.le_refl 0

end TcpBuffer

namespace RecvBuffer

/-- The largest number of unread bytes at any moment of the run. -/
def peak : RecvBuffer → List RecvCall → Nat
  | s, [] => s.buffer.readablebytes
  | s, call :: calls =>
    match (step call).run s with
    | .ok _ s' => max s.buffer.readablebytes (peak s' calls)
    | .error _ _ => s.buffer.readablebytes

variable {s s' : RecvBuffer}

/-- What the calls keep, with a bound on the unread bytes of the run so far. -/
structure Bounded (bound : Nat) (s : RecvBuffer) : Prop where
  inv : s.Inv
  compact : s.buffer.Compact
  unread : s.buffer.readablebytes ≤ bound
  length : s.buffer.mBuffer.length ≤ max 1024 (4 * bound)

theorem fresh_bounded : Bounded 0 fresh where
  inv := fresh_inv
  compact := TcpBuffer.compact_fresh
  unread := by decide
  length := by simp [fresh, TcpBuffer.fresh]

theorem Bounded.mono {m n : Nat} (h : s.Bounded m) (hle : m ≤ n) : s.Bounded n where
  inv := h.inv
  compact := h.compact
  unread := h.unread.trans hle
  length := h.length.trans (by omega)

/-- What a call does to the buffer. -/
theorem buffer_cases {call : RecvCall} (hrun : (step call).run s = .ok () s') :
    s'.buffer = s.buffer ∨ (∃ res soError, s.buffer.readFromSocket res soError = .ok s'.buffer) ∨
      ∃ size result, s.buffer.extract size = .ok (result, s'.buffer) := by
  cases call with
  | readFromSocket res soError =>
    cases hread : s.buffer.readFromSocket res soError with
    | ok b =>
      simp only [step, EStateM.run_bind, EStateM.run_get, hread, EStateM.run_set] at hrun
      cases hrun
      exact .inr (.inl ⟨res, soError, hread⟩)
    | error e =>
      -- the exception of the network is caught, and the others go on
      cases e <;> simp [step, EStateM.run_bind, EStateM.run_get, hread] at hrun
      exact .inl (by rw [hrun])
  -- these only look at the buffer
  | read size | readString size | readU8String size =>
    cases hrun
    exact .inl rfl
  | extract size | extractString size | extractU8String size =>
    cases hextract : s.buffer.extract size with
    | ok result =>
      obtain ⟨result, b⟩ := result
      have htake : (take (TcpBuffer.extract · size)).run s = .ok () { s with
          buffer := b, extracted := s.extracted ++ result, result := result } :=
        run_take_ok hextract
      cases htake.symm.trans hrun
      exact .inr (.inr ⟨size, result, hextract⟩)
    | error e =>
      have hthrow : (take (TcpBuffer.extract · size)).run s = .error e s := by
        simp [take, EStateM.run_bind, EStateM.run_get, hextract]
      cases hthrow.symm.trans hrun

theorem bounded_step {bound : Nat} (h : s.Bounded bound) (call : RecvCall)
    (hrun : (step call).run s = .ok () s') :
    s'.Bounded (max bound s'.buffer.readablebytes) := by
  have hinv : s'.Inv := by
    rcases step_outcome h.inv call with ⟨t, ht, hi⟩ | ⟨hstop, -⟩
    · cases ht.symm.trans hrun
      exact hi
    · cases hstop.symm.trans hrun
  have hunread := hinv.hasRoom.readablebytes_eq
  have hlength := h.length
  refine ⟨hinv, ?_, Nat.le_max_right _ _, ?_⟩
  · rcases buffer_cases hrun with hsame | ⟨res, soError, hread⟩ | ⟨size, result, hextract⟩
    · exact hsame ▸ h.compact
    · exact (TcpBuffer.readFromSocket_length h.inv.hasRoom h.compact hread).1
    · exact (TcpBuffer.compact_extract h.inv.hasRoom.toValid hextract).1
  · rcases buffer_cases hrun with hsame | ⟨res, soError, hread⟩ | ⟨size, result, hextract⟩
    · rw [hsame]
      omega
    · have hgrown := (TcpBuffer.readFromSocket_length h.inv.hasRoom h.compact hread).2
      omega
    · rw [(TcpBuffer.compact_extract h.inv.hasRoom.toValid hextract).2]
      omega

theorem readablebytes_le_peak (s : RecvBuffer) (calls : List RecvCall) :
    s.buffer.readablebytes ≤ s.peak calls := by
  cases calls with
  | nil => exact le_rfl
  | cons call calls =>
    rw [peak]
    split
    · exact Nat.le_max_left _ _
    · exact le_rfl

theorem bounded_run {bound : Nat} (h : s.Bounded bound) (calls : List RecvCall)
    (hrun : (Machine.exec step calls).run s = .ok () s') :
    s'.Bounded (max bound (s.peak calls)) := by
  induction calls generalizing s bound with
  | nil =>
    cases hrun
    exact h.mono (Nat.le_max_left _ _)
  | cons call calls ih =>
    obtain ⟨s₁, hs₁, hrest⟩ := Machine.exec_cons_eq_ok hrun
    refine (ih (bounded_step h call hs₁) hrest).mono ?_
    have hhead := s₁.readablebytes_le_peak calls
    rw [peak, hs₁]
    dsimp only
    omega

/-- **The storage stays proportional to the backlog**: in every state of every run, the consumed
prefix is no longer than the unread part, and the vector has its first length or at most four times
the largest number of bytes that were unread. -/
theorem proportional (calls : List RecvCall) (s : RecvBuffer)
    (hrun : (Machine.exec step calls).run fresh = .ok () s) :
    s.buffer.mReadPos ≤ s.buffer.mWritePos - s.buffer.mReadPos ∧
      s.buffer.mBuffer.length ≤ max 1024 (4 * fresh.peak calls) := by
  have hbounded := bounded_run fresh_bounded calls hrun
  rw [Nat.zero_max] at hbounded
  exact ⟨hbounded.compact, hbounded.length⟩

/-- A read fills the vector, five more bytes arrive behind it, and the first thousand are
extracted. -/
def filled : List RecvCall :=
  [.readFromSocket (.bytes (List.replicate 1024 0)) 0, .readFromSocket (.bytes [1, 2, 3, 4, 5]) 0,
    .extract 1000]

theorem proportional_filled : ∃ s, (Machine.exec step filled).run fresh = .ok () s ∧
    s.buffer.mBuffer.length = 2048 ∧
    s.buffer.mReadPos ≤ s.buffer.mWritePos - s.buffer.mReadPos ∧
      s.buffer.mBuffer.length ≤ max 1024 (4 * fresh.peak filled) := by
  obtain ⟨s, hs, hgrown⟩ : ∃ s ∈ Machine.returned ((Machine.exec step filled).run fresh),
      s.buffer.mBuffer.length = 2048 := by decide +kernel
  have hrun := Machine.eq_ok_of_mem_returned hs
  exact ⟨s, hrun, hgrown, proportional filled s hrun⟩

end RecvBuffer

end SimpleTcp
