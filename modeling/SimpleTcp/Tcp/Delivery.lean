import SimpleTcp.Tcp.Output

/-!
# Sending and writing

A server whose callbacks only send does two things to the output of a connection: it appends to the
send buffer, and the loop writes from it. What was accepted is always what was written, followed
by what the send buffer still holds; and while the connection is connected, what the buffer holds is
watched. No write-complete and no high-water-mark callback is set here.

## Main definitions

* `Ctx.sent`: the messages accepted for a connection
* `Ctx.Pending`: what was accepted and not written is in the send buffer, and watched
* `Delivered`: what a connection looks like after messages were appended for it

## Main results

* `sendInLoop_delivers`: sending appends the message
* `handleWrite_delivers`: writing sends nothing new
-/

namespace SimpleTcp

open TcpConnection

/-- The message that the entry says was accepted. -/
def Effect.message : Effect → Option Bytes
  | .appended data => some data
  | _ => none

/-- The messages that were accepted for the connection. -/
def Ctx.sent (c : Ctx) : List Bytes := c.trace.filterMap Effect.message

/-- What was accepted is what was written, followed by what is in the send buffer. -/
def Ctx.Balanced (c : Ctx) : Prop :=
  appendedBytes c.trace = writtenBytes c.trace ++ c.conn.mSendBuffer.readable

/-- What was accepted and not written is in the send buffer, and watched while the connection is
connected. -/
structure Ctx.Pending (c : Ctx) : Prop where
  balanced : c.Balanced
  watched : c.Unforgotten

/-- After `ms` were appended for the connection, and nothing else that its users look at has
changed. -/
structure Delivered (c k : Ctx) (ms : List Bytes) : Prop where
  sound : k.Sound
  mState : k.conn.mState = c.conn.mState
  readable : k.conn.mRecvBuffer.readable = c.conn.mRecvBuffer.readable
  sent : k.sent = c.sent ++ ms
  tasks : ∀ t ∈ k.mPendingTasks, t ∈ c.mPendingTasks
  pending : c.Pending → k.Pending

/-- The connection has stayed in its state, and no task was queued for it. -/
structure Kept (c k : Ctx) : Prop where
  sound : k.Sound
  mState : k.conn.mState = c.conn.mState
  tasks : ∀ t ∈ k.mPendingTasks, t ∈ c.mPendingTasks
  pending : c.Pending → k.Pending

section

variable {c k k' : Ctx} {ms ms' : List Bytes}

/-! ### The balance -/

theorem Ctx.flatten_sent (c : Ctx) : c.sent.flatten = appendedBytes c.trace := by
  unfold Ctx.sent appendedBytes
  induction c.trace with
  | nil => rfl
  | cons e t ih =>
    rw [List.flatMap_cons, ← ih]
    cases e <;> rfl

/-- New entries keep the balance when what they append to the send buffer, and write from it, is
what happens to it. -/
theorem Ctx.Balanced.of_append (h : c.Balanced) (es : List Effect) (hk : k.trace = c.trace ++ es)
    (heq : c.conn.mSendBuffer.readable ++ appendedBytes es =
      writtenBytes es ++ k.conn.mSendBuffer.readable) : k.Balanced := by
  unfold Ctx.Balanced at h ⊢
  rw [hk, appendedBytes_append, writtenBytes_append, h, List.append_assoc, heq, List.append_assoc]

theorem Ctx.Balanced.of_quiet (h : c.Balanced) (es : List Effect) (hk : k.trace = c.trace ++ es)
    (hes : ∀ e ∈ es, e.Quiet)
    (hreadable : k.conn.mSendBuffer.readable = c.conn.mSendBuffer.readable) : k.Balanced := by
  apply h.of_append es hk
  rw [appendedBytes_of_quiet hes, writtenBytes_of_quiet hes, hreadable, List.append_nil,
    List.nil_append]

theorem Ctx.Balanced.wrote (h : c.Balanced) {room : Nat} {b : TcpBuffer}
    (hread : b.readable = c.conn.mSendBuffer.readable.drop room) :
    (c.wrote (c.conn.mSendBuffer.readable.take room) b).Balanced := by
  apply h.of_append [.written (c.conn.mSendBuffer.readable.take room)] rfl
  show _ ++ [] = (c.conn.mSendBuffer.readable.take room ++ []) ++ b.readable
  rw [hread, List.append_nil, List.append_nil, List.take_append_drop]

theorem Ctx.Balanced.writeOff (h : c.Balanced) : c.writeOff.Balanced := by
  rcases c.writeOff_cases with ⟨hsame, -⟩ | ⟨ch, -, -, hsame⟩
  · rw [hsame]
    exact h
  · rw [hsame]
    apply h.of_append [.writeDisabled] rfl
    exact List.append_nil _

theorem Ctx.sent_concat {e : Effect} (hk : k.trace = c.trace ++ [e]) :
    k.sent = c.sent ++ e.message.toList := by
  rw [Ctx.sent, hk, List.filterMap_append]
  cases e <;> rfl

theorem Ctx.sent_of_quiet (es : List Effect) (hk : k.trace = c.trace ++ es)
    (hes : ∀ e ∈ es, e.Quiet) : k.sent = c.sent := by
  have hnone : es.filterMap Effect.message = [] := by
    apply List.filterMap_eq_nil_iff.mpr
    intro e he
    have := hes e he
    cases e <;> simp_all [Effect.Quiet, Effect.message]
  rw [Ctx.sent, hk, List.filterMap_append, hnone, List.append_nil, Ctx.sent]

/-- Entries that say nothing of the output leave what is pending. -/
theorem Ctx.Pending.of_quiet (h : c.Pending) (es : List Effect) (hk : k.trace = c.trace ++ es)
    (hes : ∀ e ∈ es, e.Quiet)
    (hreadable : k.conn.mSendBuffer.readable = c.conn.mSendBuffer.readable)
    (hwatched : k.Unforgotten) : k.Pending where
  balanced := h.balanced.of_quiet es hk hes hreadable
  watched := hwatched

theorem Ctx.Pending.closing (h : c.Pending) : c.closing.Pending := by
  apply h.of_quiet [.entered .handleClose, .state .disConnected] rfl
  · simp [Effect.Quiet]
  · rfl
  · exact unforgotten_of_not_connected (by simp [Ctx.closing])

theorem Ctx.created_pending : Ctx.created.Pending where
  balanced := by
    show ([] : Bytes) = [] ++ TcpBuffer.fresh.readable
    rw [TcpBuffer.readable_fresh, List.append_nil]
  watched := unforgotten_of_not_connected (by simp [Ctx.created, create])

theorem Ctx.start_pending : Ctx.start.Pending := by
  apply Ctx.created_pending.of_quiet [.state .connected] rfl
  · simp [Effect.Quiet]
  · rfl
  · intro _ hsize
    exact absurd (Ctx.start_sound.send.size_eq_zero_iff.mpr TcpBuffer.readable_fresh) hsize

/-- What was read is in the receive buffer. -/
theorem Kept.received (h : c.Sound) {b : TcpBuffer} (hb : b.HasRoom) :
    Kept c { c with conn.mRecvBuffer := b } :=
  ⟨h.received hb, rfl, fun _ => id, fun hp => ⟨hp.balanced, hp.watched⟩⟩

theorem Delivered.refl (h : c.Sound) : Delivered c c [] :=
  ⟨h, rfl, rfl, (List.append_nil _).symm, fun _ => id, id⟩

theorem Delivered.trans (h : Delivered c k ms) (h' : Delivered k k' ms') :
    Delivered c k' (ms ++ ms') where
  sound := h'.sound
  mState := h'.mState.trans h.mState
  readable := h'.readable.trans h.readable
  sent := by rw [h'.sent, h.sent, List.append_assoc]
  tasks := fun t ht => h.tasks t (h'.tasks t ht)
  pending := fun hp => h'.pending (h.pending hp)

theorem Delivered.kept (h : Delivered c k ms) : Kept c k := ⟨h.sound, h.mState, h.tasks, h.pending⟩

theorem Delivered.note (h : c.Sound) {es : List Effect} (hes : ∀ e ∈ es, e.Quiet) :
    Delivered c (c.note es) [] where
  sound := h.note es
  mState := rfl
  readable := rfl
  sent := by rw [Ctx.sent_of_quiet es rfl hes, List.append_nil]
  tasks _ := id
  pending hp := hp.of_quiet es rfl hes rfl hp.watched

/-- A task of the connection was taken from the queue. -/
theorem Delivered.unqueued (h : c.Sound) (task : ConnTask) :
    Delivered c { c with mPendingTasks := c.mPendingTasks.erase task } [] where
  sound := ⟨h.send, h.recv, h.channel⟩
  mState := rfl
  readable := rfl
  sent := (List.append_nil _).symm
  tasks _ := List.mem_of_mem_erase
  pending hp := ⟨hp.balanced, hp.watched⟩

/-- A connection that is closed already, whose channel is gone. -/
theorem Delivered.destroyed (h : c.Sound) (hst : c.conn.mState = .disConnected) :
    Delivered c c.destroyed [] where
  sound := ⟨h.send, h.recv, fun hopen => absurd hst hopen⟩
  mState := rfl
  readable := rfl
  sent := by
    rw [Ctx.sent_of_quiet [.entered .destroyConnection] rfl (by simp [Effect.Quiet]),
      List.append_nil]
  tasks _ := id
  pending hp := by
    apply hp.of_quiet [.entered .destroyConnection] rfl
    · simp [Effect.Quiet]
    · rfl
    · exact unforgotten_of_not_connected (by simp [Ctx.destroyed, hst])

/-- Write interest goes off when there is nothing left to write. -/
theorem Delivered.writeOff (h : c.Sound) (hempty : c.conn.mSendBuffer.readable = []) :
    Delivered c c.writeOff [] := by
  have hsound := h.writeOff
  have hwatched : c.writeOff.Unforgotten := by
    intro _ hsize
    rw [Ctx.writeOff_mSendBuffer] at hsize
    exact absurd (h.send.size_eq_zero_iff.mpr hempty) hsize
  rcases c.writeOff_cases with ⟨hsame, -⟩ | ⟨ch, -, -, hsame⟩
  · rw [hsame]
    exact .refl h
  · rw [hsame] at hsound hwatched ⊢
    refine ⟨hsound, rfl, rfl, Ctx.sent_concat (c := c) (e := .writeDisabled) rfl, fun _ => id,
      fun hp => ⟨?_, hwatched⟩⟩
    rw [← hsame]
    exact hp.balanced.writeOff

/-- Bytes were written from the front of the send buffer, and write interest stays on for the
rest. -/
theorem Delivered.wrote (h : c.Sound) {room : Nat} {b : TcpBuffer} (hb : b.Valid)
    (hne : c.conn.mSendBuffer.readable ≠ [])
    (hread : b.readable = c.conn.mSendBuffer.readable.drop room) :
    Delivered c (c.wrote (c.conn.mSendBuffer.readable.take room) b) [] where
  sound := h.wrote _ hb
  mState := rfl
  readable := rfl
  sent := Ctx.sent_concat (c := c) (e := .written _) rfl
  tasks _ := id
  pending hp := by
    refine ⟨hp.balanced.wrote hread, fun hconn _ => hp.watched hconn fun h0 => hne ?_⟩
    exact h.send.size_eq_zero_iff.mp h0

/-- **Sending** to a connected connection appends the message, or stops where the buffer grows. -/
theorem sendInLoop_delivers (h : c.Sound) (hconn : c.conn.mState = .connected) (data : Bytes) :
    (∃ k, (sendInLoop data (pure ())).run c = .ok () k ∧ Delivered c k [data]) ∨
      ∃ e, (sendInLoop data (pure ())).run c = .error e c ∧ TcpBuffer.GrowStop e ∧
        ¬ c.conn.mSendBuffer.CanAppend data := by
  by_cases hd : c.conn.mSendBuffer.CanAppend data
  · left
    obtain ⟨b, hb, hv, hr⟩ := TcpBuffer.appendToBuffer_of_canAppend h.send hd
    obtain ⟨ch, hch⟩ := h.channel (by simp [hconn])
    have hrun : (sendInLoop data (pure ())).run c = (do
        if b.size > TCP_HIGH_WATER_MARK then pure ()
        if ¬ (← channel).isWriting then enableWrite : ConnM Unit).run (appended c data b) := by
      simp [sendInLoop, EStateM.run_bind, EStateM.run_get, hconn, hb, appended]
    have hskip : (do
        if b.size > TCP_HIGH_WATER_MARK then pure ()
        if ¬ (← channel).isWriting then enableWrite : ConnM Unit) = (do
          if ¬ (← channel).isWriting then enableWrite : ConnM Unit) := by
      split <;> rfl
    have hch' : (appended c data b).conn.mpChannel = some ch := hch
    refine ⟨_, hrun.trans ((congrArg (EStateM.run · _) hskip).trans
      (run_enableWrite_of_off hch')), ⟨hv, h.recv, fun _ => ⟨_, rfl⟩⟩, rfl, rfl,
      Ctx.sent_concat (c := c) (e := .appended data) rfl, fun _ => id,
      fun hp => ⟨?_, fun _ _ => ⟨_, rfl, ch.isWriting_enableWrite⟩⟩⟩
    apply hp.balanced.of_append [.appended data] rfl
    show c.conn.mSendBuffer.readable ++ (data ++ []) = [] ++ b.readable
    rw [hr, List.append_nil, List.nil_append]
  · right
    obtain ⟨e, he, hstop⟩ := TcpBuffer.appendToBuffer_of_not_canAppend h.send hd
    refine ⟨e, ?_, hstop, hd⟩
    simp [sendInLoop, EStateM.run_bind, EStateM.run_get, hconn, he]

/-- **Writing** on a connected connection sends nothing new, or throws because `write(2)` took
nothing. -/
theorem handleWrite_delivers (h : c.Sound) (hconn : c.conn.mState = .connected)
    (res : WriteResult) (soError : Errno) :
    (∃ k, (TcpConnection.handleWrite ⟨res, soError, []⟩).run c = .ok () k ∧ Delivered c k []) ∨
      ∃ k, (TcpConnection.handleWrite ⟨res, soError, []⟩).run c =
        .error (.networkException soError) k ∧ res.Nothing := by
  have hentered : Delivered c (c.note [.entered .handleWrite]) [] :=
    .note h (by simp [Effect.Quiet])
  have hcomplete : ∀ k : Ctx, Delivered c k [] → k.conn.mSendBuffer.readable = [] →
      ∃ k', (writeComplete []).run k = .ok () k' ∧ Delivered c k' [] := by
    intro k hk hempty
    obtain ⟨ch, hch⟩ := hk.sound.channel (by simp [hk.mState, hconn])
    refine ⟨k.writeOff, ?_, hk.trans (.writeOff hk.sound hempty)⟩
    rw [writeComplete, runCalls, EStateM.run_bind, EStateM.run_pure]
    exact run_disableWrite hch
  rcases handleWrite_cases h hconn ⟨res, soError, []⟩ with
    ⟨hempty, hr⟩ | ⟨-, hn, hr⟩ | ⟨room, b, hne, -, -, hv, hb, -, -, hr⟩ |
    ⟨room, b, hne, -, -, hv, hb, hall, -, hr⟩
  · left
    rw [hr]
    exact hcomplete _ hentered hempty
  · exact .inr ⟨_, hr, hn⟩
  · exact .inl ⟨_, hr, hentered.trans (.wrote hentered.sound hv hne hb)⟩
  · left
    -- the whole buffer was written
    have htake : c.conn.mSendBuffer.readable.take room = c.conn.mSendBuffer.readable :=
      List.take_of_length_le (List.drop_eq_nil_iff.mp hall)
    have hwrote := hentered.trans (.wrote hentered.sound hv hne (hb.trans hall.symm))
    rw [hr]
    apply hcomplete _ _ hb
    rw [← htake]
    exact hwrote

/-! ### Any step -/

theorem Quietly.balanced (hq : Quietly c k) (h : c.Balanced) : k.Balanced := by
  obtain ⟨es, hk, hes⟩ := hq.trace
  exact h.of_quiet es hk hes (by rw [hq.send])

theorem Called.balanced (hc : Called c k ms) (h : c.Balanced) : k.Balanced := by
  apply h.of_append _ hc.trace
  rw [appendedBytes_appended, writtenBytes_appended, hc.readable, List.nil_append]

theorem Ctx.prefix_writeOff (c : Ctx) : c.trace <+: c.writeOff.trace := by
  rcases c.writeOff_cases with ⟨hsame, -⟩ | ⟨ch, -, -, hsame⟩ <;> rw [hsame]
  exact List.prefix_append _ _

theorem Ctx.prefix_shut (c : Ctx) : c.trace <+: c.shut.trace := by
  have hoff := Ctx.prefix_writeOff
    { c with conn.mState := .halfClosed, trace := c.trace ++ [.state .halfClosed] }
  exact ((List.prefix_append _ _).trans hoff).trans (List.prefix_append _ _)

/-- The write that leaves nothing. -/
theorem Completing.balanced {io : WriteIo} (hcomp : Completing c io k) (h : c.Balanced) :
    k.Balanced ∧ c.trace <+: k.trace := by
  rcases hcomp.trace with ⟨hk, hempty⟩ | hk <;> rw [hk]
  · refine ⟨h.of_quiet _ hk (by simp [Effect.Quiet]) ?_, List.prefix_append _ _⟩
    rw [hcomp.readable, hempty]
  · refine ⟨h.of_append _ hk ?_, List.prefix_append _ _⟩
    rw [hcomp.readable]
    simp [appendedBytes, writtenBytes]

theorem Ctx.Balanced.shut (h : c.Balanced) : c.shut.Balanced := by
  have hhalf : Ctx.Balanced
      { c with conn.mState := .halfClosed, trace := c.trace ++ [.state .halfClosed] } := by
    apply h.of_quiet [.state .halfClosed] rfl
    · simp [Effect.Quiet]
    · rfl
  apply hhalf.writeOff.of_append [.shutWr] rfl
  exact List.append_nil _

/-- **Every step** of a connection keeps the balance, and adds to the trace. -/
theorem Invocation.balanced {i : Invocation} (hs : c.Sound) (h : c.Balanced)
    (hrun : i.run.run c = .ok () k) : k.Sound ∧ k.Balanced ∧ c.trace <+: k.trace := by
  have hout := i.outcome hs
  rw [hrun] at hout
  cases hout with
  | quiet _ hq hc =>
    obtain ⟨es, hes, -⟩ := hq.trace
    refine ⟨hc.sound, hc.balanced (hq.balanced h), ?_⟩
    rw [hc.trace, hes, List.append_assoc]
    exact List.prefix_append _ _
  | wrote _ _ hv hb =>
    have hentered : (c.note [.entered .handleWrite]).Balanced :=
      h.of_quiet [.entered .handleWrite] rfl (by simp [Effect.Quiet]) rfl
    refine ⟨(hs.note _).wrote _ hv, hentered.wrote hb, ?_⟩
    exact (List.prefix_append _ _).trans (List.prefix_append _ _)
  | completed hcomp hc _ =>
    obtain ⟨hb, htr⟩ := hcomp.balanced h
    refine ⟨hc.sound.writeOff, (hc.balanced hb).writeOff, htr.trans ?_⟩
    refine List.IsPrefix.trans ?_ (Ctx.prefix_writeOff _)
    rw [hc.trace]
    exact List.prefix_append _ _
  | shut hopen _ => exact ⟨hs.shut hopen, h.shut, c.prefix_shut⟩
  | wroteShut hopen _ _ _ hv hb =>
    refine ⟨(hs.wrote _ hv).shut hopen, (h.wrote hb).shut, ?_⟩
    refine List.IsPrefix.trans ?_ (Ctx.prefix_shut _)
    exact List.prefix_append _ _

end

end SimpleTcp
