import SimpleTcp.Tcp.Delivery
import SimpleTcp.Tcp.RecvBuffer

/-!
# Two connections and the stream between them

A client and a server hold the two ends of a stream. Each end is a connection of the library, run by
its loop one step at a time with any callbacks; between them is the network, which delivers the
bytes that one side has written in order, in pieces of any length, and may end or fail a stream at
any time. Whatever the order of the steps of the two sides, what one side has accepted for sending
is what the other has read, followed by what is on the wire and what waits in the send buffer.

## Main definitions

* `Endpoint`, `Link`: the two ends, and what is on the wire in each direction
* `Link.step`: a step of one side
* `Link.Streams`: no byte is lost, duplicated or put out of order

## Main results

* `Invocation.recv`: a step takes bytes from the front of the receive buffer, and adds what it read
* `streams_always`: the bytes of both directions, in every state of every run
-/

namespace SimpleTcp

open TcpConnection Machine

inductive Side where
  | client
  | server
  deriving DecidableEq, Repr

def Side.other : Side → Side
  | .client => .server
  | .server => .client

theorem Side.eq_other_of_ne {a b : Side} (h : b ≠ a) : b = a.other := by
  cases a <;> cases b <;> simp_all [Side.other]

@[simp] theorem Side.other_ne (a : Side) : a.other ≠ a := by cases a <;> simp [Side.other]

@[simp] theorem Side.other_other (a : Side) : a.other.other = a := by cases a <;> rfl

/-- A connection, and the bytes that `read(2)` has stored for it. -/
structure Endpoint where
  ctx : Ctx
  received : Bytes

structure Link where
  ends : Side → Endpoint
  /-- The bytes that a side has written and the other has not read. -/
  wire : Side → Bytes

namespace Link

def start : Link := ⟨fun _ => ⟨Ctx.start, []⟩, fun _ => []⟩

/-- What `read(2)` may give: what comes first on the wire, the end of the stream or an error. -/
def CanArrive (wire : Bytes) : Invocation → Prop
  | .handleRead io =>
    match io.res with
    | .bytes arrived => arrived <+: wire
    | .failed _ => True
  | _ => True

instance (wire : Bytes) (i : Invocation) : Decidable (CanArrive wire i) := by
  unfold CanArrive
  split
  · split <;> infer_instance
  · infer_instance

/-- The bytes that the step stores in the receive buffer. -/
def arrived (c : Ctx) : Invocation → Bytes
  | .handleRead io => c.conn.mRecvBuffer.stored io.res
  | _ => []

/-- The bytes that `write(2)` has taken between two states. -/
def departed (c k : Ctx) : Bytes := writtenBytes (k.trace.drop c.trace.length)

/-- A step of one side. -/
def step : Side × Invocation → EStateM Stop Link Unit
  | (a, i) => do
    let l ← get
    let c := (l.ends a).ctx
    if CanArrive (l.wire a.other) i then
      match i.run.run c with
      | .ok _ k =>
        set { l with
          ends := Function.update l.ends a ⟨k, (l.ends a).received ++ arrived c i⟩
          wire := fun b =>
            if b = a then l.wire a ++ departed c k else (l.wire b).drop (arrived c i).length }
      | .error e _ => throw e

end Link

/-! ### The receive buffer -/

section Recv

variable {c k : Ctx} {J : TcpBuffer → Prop}

/-- The receive buffer is in `J`. -/
def OnRecv (J : TcpBuffer → Prop) (c : Ctx) : Prop := J c.conn.mRecvBuffer

/-- What an extraction keeps, the calls of a user keep. -/
theorem callsKeep_recv (hJ : ∀ b n r b', b.extract n = .ok (r, b') → J b → J b') :
    CallsKeep (OnRecv J) where
  append _ _ _ _ := id
  channel _ _ _ _ := id
  extract _ _ _ _ hb h := hJ _ _ _ _ hb h
  shutdown _ := id

theorem keeps_assertTrue_recv (p : Prop) [Decidable p] :
    Keeps (OnRecv J) (assertTrue p : ConnM Unit) := by
  by_cases hp : p
  · rw [assertTrue_pos hp]
    exact .pure ()
  · rw [assertTrue_neg hp]
    exact .throw _

theorem keeps_call_recv {α : Type} (r : Except Stop α) : Keeps (OnRecv J) (call r) := by
  cases r with
  | ok a => exact .pure a
  | error e => exact .throw e

theorem keeps_channel_recv : Keeps (OnRecv J) channel := by
  refine .bind .get fun s => ?_
  cases s.conn.mpChannel with
  | some ch => exact .pure ch
  | none => exact .throw _

theorem keeps_effect_recv (e : Effect) : Keeps (OnRecv J) (effect e) := .modify fun _ => id

theorem keeps_disableWrite_recv : Keeps (OnRecv J) disableWrite :=
  .bind keeps_channel_recv fun _ => .ite
    (fun _ => .bind (.modify fun _ => id) fun _ => keeps_effect_recv _) fun _ => .pure _

theorem keeps_writeSendBuffer_recv (res : WriteResult) (soError : Errno) :
    Keeps (OnRecv J) (writeSendBuffer res soError) :=
  .bind .get fun _ => .bind (keeps_call_recv _) fun _ =>
    .bind (.modify fun _ => id) fun _ => keeps_effect_recv _

theorem keeps_handleClose_recv (hcalls : CallsKeep (OnRecv J)) (cs : List UserCall) :
    Keeps (OnRecv J) (TcpConnection.handleClose cs) :=
  .bind (keeps_effect_recv _) fun _ => .bind .get fun _ =>
    .bind (keeps_assertTrue_recv _) fun _ => .bind (.bind (.modify fun _ => id) fun _ =>
      keeps_effect_recv _) fun _ => .bind (.modify fun _ => id) fun _ => hcalls.runCalls cs

theorem keeps_handleWrite_recv (hcalls : CallsKeep (OnRecv J)) (io : WriteIo) :
    Keeps (OnRecv J) (TcpConnection.handleWrite io) := by
  have hend : Keeps (OnRecv J) (do
      if (← get).conn.mSendBuffer.size = 0 then
        runCalls io.onWriteComplete
        disableWrite : ConnM Unit) :=
    .bind .get fun _ => .ite (fun _ => .bind (hcalls.runCalls _) fun _ => keeps_disableWrite_recv)
      fun _ => .pure _
  refine .bind (keeps_effect_recv _) fun _ => .bind .get fun _ =>
    .bind (keeps_assertTrue_recv _) fun _ => .bind .get fun _ => .ite (fun _ => ?_) fun _ => hend
  exact .bind (keeps_writeSendBuffer_recv _ _) fun _ => hend

theorem keeps_shutdownInLoop_recv (res : WriteResult) (soError : Errno) :
    Keeps (OnRecv J) (shutdownInLoop res soError) := by
  have hend : Keeps (OnRecv J) (do
      setState .halfClosed
      disableWrite
      effect .shutWr : ConnM Unit) :=
    .bind (.bind (.modify fun _ => id) fun _ => keeps_effect_recv _) fun _ =>
      .bind keeps_disableWrite_recv fun _ => keeps_effect_recv _
  refine .tryCatch ?_ fun e => .ite (fun _ => .pure _) fun _ => .throw _
  refine .bind .get fun _ => .ite (fun _ => .bind .get fun _ => .ite (fun _ => ?_) fun _ => hend)
    fun _ => .pure _
  exact .bind (keeps_writeSendBuffer_recv _ _) fun _ => hend

/-- Every step but a read keeps what the extractions keep. -/
theorem keeps_run_recv (hcalls : CallsKeep (OnRecv J)) {i : Invocation}
    (hi : ∀ io, i ≠ .handleRead io) : Keeps (OnRecv J) i.run := by
  cases i with
  | handleRead io => exact absurd rfl (hi io)
  | handleWrite io => exact keeps_handleWrite_recv hcalls io
  | handleClose cs => exact keeps_handleClose_recv hcalls cs
  | handleError => exact keeps_effect_recv _
  | calls cs => exact hcalls.runCalls cs
  | task t io =>
    cases t with
    | send data => exact hcalls.sendInLoop data (hcalls.runCalls io.onHighWater)
    | shutdown => exact keeps_shutdownInLoop_recv io.res io.soError
    | close =>
      refine .bind (keeps_effect_recv _) fun _ => .bind .get fun _ =>
        .bind (keeps_assertTrue_recv _) fun _ => .bind .get fun s => ?_
      cases s.conn.mpChannel with
      | some ch => exact .modify fun _ => id
      | none => exact .pure _

/-- The buffer holds the end of `r`. -/
def EndOf (r : Bytes) (b : TcpBuffer) : Prop := b.Valid ∧ b.readable <:+ r

theorem EndOf.extract {r : Bytes} (b : TcpBuffer) (n : Nat) (result : Bytes) (b' : TcpBuffer)
    (hb : b.extract n = .ok (result, b')) (h : EndOf r b) : EndOf r b' := by
  obtain ⟨hv, hr⟩ := h
  obtain ⟨b₁, hb₁, hv₁, hr₁, -⟩ := TcpBuffer.extract_spec hv n
  rw [hb₁] at hb
  cases hb
  refine ⟨hv₁, ?_⟩
  rw [hr₁]
  exact (List.drop_suffix _ _).trans hr

theorem stored_eq_nil {b : TcpBuffer} {res : ReadResult} (h : res.Nothing) : b.stored res = [] := by
  cases res with
  | bytes arrived =>
    obtain rfl : arrived = [] := h
    exact List.take_nil
  | failed errno => rfl

/-- **A step** takes bytes from the front of the receive buffer only, and adds what it has read. -/
theorem Invocation.recv {i : Invocation} (hs : c.Sound) (hrun : i.run.run c = .ok () k) :
    k.conn.mRecvBuffer.readable <:+ c.conn.mRecvBuffer.readable ++ Link.arrived c i := by
  have hcalls (r : Bytes) : CallsKeep (OnRecv (EndOf r)) := callsKeep_recv EndOf.extract
  have hkeep {r : Bytes} {x : ConnM Unit} {c₁ : Ctx} (hx : Keeps (OnRecv (EndOf r)) x)
      (h : EndOf r c₁.conn.mRecvBuffer) (hrun : x.run c₁ = .ok () k) :
      k.conn.mRecvBuffer.readable <:+ r := by
    have hend := hx c₁ h
    rw [hrun] at hend
    exact hend.2
  by_cases hi : ∀ io, i ≠ .handleRead io
  · have hnone : Link.arrived c i = [] := by
      cases i with
      | handleRead io => exact absurd rfl (hi io)
      | _ => rfl
    rw [hnone, List.append_nil]
    exact hkeep (keeps_run_recv (hcalls _) hi) ⟨hs.recv.toValid, List.suffix_refl _⟩ hrun
  · obtain ⟨io, hio⟩ := not_forall.mp hi
    obtain rfl := not_not.mp hio
    have hopen : c.conn.mState ≠ .disConnected := by
      intro hst
      have hfatal := (run_handleRead_of_disConnected hst io).symm.trans hrun
      cases hfatal
    show _ <:+ _ ++ c.conn.mRecvBuffer.stored io.res
    have hsame : EndOf c.conn.mRecvBuffer.readable
        (c.note [.entered .handleRead]).conn.mRecvBuffer :=
      ⟨hs.recv.toValid, List.suffix_refl _⟩
    rcases handleRead_cases hs hopen io with
      ⟨⟨hn, -⟩, hr⟩ | ⟨hn, -, hr⟩ | ⟨-, -, hr⟩ | ⟨hn, b, hb, hread, hr⟩
    · rw [stored_eq_nil hn, List.append_nil]
      exact hkeep (keeps_handleClose_recv (hcalls _) _) hsame (hr.symm.trans hrun)
    · rw [stored_eq_nil hn, List.append_nil]
      obtain rfl : _ = k := (EStateM.Result.ok.inj (hr.symm.trans hrun)).2
      exact List.suffix_refl _
    · have hstop := hr.symm.trans hrun
      cases hstop
    · have hend : b.readable = c.conn.mRecvBuffer.readable ++ c.conn.mRecvBuffer.stored io.res := by
        rcases TcpBuffer.readFromSocket_spec hs.recv io.res io.soError with
          ⟨hno, -⟩ | ⟨-, hlen⟩ | ⟨arrived, b', hres, -, hok, -, hread'⟩
        · exact absurd hno hn
        · rw [hlen] at hread
          cases hread
        · rw [hok] at hread
          cases hread
          rw [hread', hres, TcpBuffer.stored, hs.recv.writablebytes_eq]
      exact hkeep ((hcalls _).runCalls _) ⟨hb.toValid, hend ▸ List.suffix_refl _⟩
        (hr.symm.trans hrun)

end Recv

/-! ### The stream -/

namespace Link

variable {l l' : Link}

/-- From `a` to the other side: what was accepted for sending is what was read, followed by what is
on the wire and what waits in the send buffer; and what the user of the other side has not extracted
is the end of what was read. -/
structure Streams (l : Link) (a : Side) : Prop where
  all_eq : appendedBytes (l.ends a).ctx.trace = (l.ends a.other).received ++ l.wire a ++
    (l.ends a).ctx.conn.mSendBuffer.readable
  waiting : (l.ends a.other).ctx.conn.mRecvBuffer.readable <:+ (l.ends a.other).received

/-- What the steps keep. -/
structure Inv (l : Link) : Prop where
  sound : ∀ a, (l.ends a).ctx.Sound
  balanced : ∀ a, (l.ends a).ctx.Balanced
  wire : ∀ a, writtenBytes (l.ends a).ctx.trace = (l.ends a.other).received ++ l.wire a
  waiting : ∀ a, (l.ends a).ctx.conn.mRecvBuffer.readable <:+ (l.ends a).received

theorem start_inv : start.Inv where
  sound _ := Ctx.start_sound
  balanced _ := Ctx.start_pending.balanced
  wire _ := rfl
  waiting _ := by
    show TcpBuffer.fresh.readable <:+ []
    rw [TcpBuffer.readable_fresh]

theorem Inv.streams (h : l.Inv) (a : Side) : l.Streams a where
  all_eq := by
    rw [← h.wire a]
    exact h.balanced a
  waiting := h.waiting a.other

/-- A step arrives with bytes that come first on the wire. -/
theorem arrived_prefix {wire : Bytes} {c : Ctx} {i : Invocation} (h : CanArrive wire i) :
    arrived c i <+: wire := by
  cases i with
  | handleRead io =>
    obtain ⟨res, soError, onMessage, onConnection⟩ := io
    cases res with
    | bytes arrived => exact (List.take_prefix _ _).trans h
    | failed errno => exact List.nil_prefix
  | _ => exact List.nil_prefix

theorem writtenBytes_departed {c k : Ctx} (h : c.trace <+: k.trace) :
    writtenBytes k.trace = writtenBytes c.trace ++ departed c k := by
  obtain ⟨es, hes⟩ := h
  rw [departed, ← hes, List.drop_left, writtenBytes_append]

/-- What a step of a side does. -/
theorem step_ok {a : Side} {i : Invocation} (h : (step (a, i)).run l = .ok () l') :
    l' = l ∨ CanArrive (l.wire a.other) i ∧ ∃ k, i.run.run (l.ends a).ctx = .ok () k ∧
      l' = { l with
        ends := Function.update l.ends a ⟨k, (l.ends a).received ++ arrived (l.ends a).ctx i⟩
        wire := fun b => if b = a then l.wire a ++ departed (l.ends a).ctx k
          else (l.wire b).drop (arrived (l.ends a).ctx i).length } := by
  simp only [step, EStateM.run_bind, EStateM.run_get] at h
  split at h
  · rename_i hcan
    cases hrun : i.run.run (l.ends a).ctx with
    | ok u k =>
      rw [hrun] at h
      cases h
      exact .inr ⟨hcan, k, rfl, rfl⟩
    | error e k =>
      rw [hrun] at h
      cases h
  · cases h
    exact .inl rfl

theorem Inv.step {e : Side × Invocation} (h : l.Inv) (hrun : (Link.step e).run l = .ok () l') :
    l'.Inv := by
  obtain ⟨a, i⟩ := e
  rcases step_ok hrun with rfl | ⟨hcan, k, hk, rfl⟩
  · exact h
  obtain ⟨hsound, hbalanced, htrace⟩ := Invocation.balanced (h.sound a) (h.balanced a) hk
  have hrecv := Invocation.recv (h.sound a) hk
  have hwritten := writtenBytes_departed htrace
  obtain ⟨rest, hrest⟩ := arrived_prefix (c := (l.ends a).ctx) hcan
  refine ⟨fun b => ?_, fun b => ?_, fun b => ?_, fun b => ?_⟩ <;> dsimp only <;>
    by_cases hb : b = a
  · rw [hb, Function.update_self]
    exact hsound
  · rw [Function.update_of_ne hb]
    exact h.sound b
  · rw [hb, Function.update_self]
    exact hbalanced
  · rw [Function.update_of_ne hb]
    exact h.balanced b
  · -- what this side has written is on the wire
    subst hb
    rw [Function.update_self, Function.update_of_ne b.other_ne, if_pos rfl, hwritten, h.wire b,
      List.append_assoc]
  · -- what this side has read has left the wire
    obtain rfl := Side.eq_other_of_ne hb
    rw [Function.update_of_ne hb, Side.other_other, Function.update_self, if_neg hb, h.wire,
      Side.other_other, ← hrest, List.drop_left, List.append_assoc]
  · subst hb
    rw [Function.update_self]
    obtain ⟨pre, hpre⟩ := h.waiting b
    refine hrecv.trans ⟨pre, ?_⟩
    rw [← List.append_assoc, hpre]
  · rw [Function.update_of_ne hb]
    exact h.waiting b

/-- **No byte is lost, duplicated or put out of order** between the two users, in either direction,
in any state of any run. -/
theorem streams_always (events : List (Side × Invocation)) :
    Machine.Always step (fun r => ∀ l, r = .ok () l → ∀ a, l.Streams a) start events := by
  refine Machine.always_of_invariant (I := Inv) ?_ ?_ ?_ start_inv events
  · intro l h l' hl a
    cases hl
    exact h.streams a
  · exact fun l e l' h hrun => h.step hrun
  · intro l e err l' _ _ l'' hl
    cases hl

end Link

end SimpleTcp
