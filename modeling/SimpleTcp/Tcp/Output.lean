import SimpleTcp.Library.Trace
import SimpleTcp.Tcp.Invocation

/-!
# Pending output

Two properties of the output of a connection are followed through its runs: a connected connection
with bytes to send has write interest on, and a shutdown loses none of the bytes that were
accepted before it. The only step that endangers the first is the end of `handleWrite`, which
turns write interest off after the write-complete callback; the second is also lost by a shutdown
task whose write takes only a part.

## Main definitions

* `Ctx.Unforgotten`: a connected connection with bytes to send has write interest on
* `CompletesQuietly`: the write-complete callback sends nothing when it is reached
* `Graceful`: nothing accepted is left unwritten where the output is shut or no longer watched
* `WritesAll`: the write of a shutdown task takes all or nothing

## Main results

* `unforgotten_iff`: the runs in which no pending output is forgotten
* `graceful_iff`: the runs in which no shutdown loses accepted data
-/

namespace SimpleTcp

open TcpConnection

section

variable {s s' : Ctx} {ds : List Bytes}

/-- When `handleWrite` has nothing left to write, its write-complete callback sends no bytes, or
stops in an append that finds no room. -/
def CompletesQuietly (s : Ctx) (io : WriteIo) : Prop :=
  s.conn.mState = .connected → ∀ b, CompletesWith s io b →
    SendsNothing io.onWriteComplete ∨ ∃ e, sendCalls io.onWriteComplete b = .error e

/-! ### No pending output is forgotten -/

/-- A connected connection with bytes to send has write interest on. -/
def Ctx.Unforgotten (s : Ctx) : Prop :=
  s.conn.mState = .connected → s.conn.mSendBuffer.size ≠ 0 → s.Writing

theorem Called.unforgotten (hc : Called s s' ds) (hs : s.Sound) (h : s.Unforgotten) :
    s'.Unforgotten := by
  intro hconn hsize
  by_cases hds : ds = []
  · have hr : s'.conn.mSendBuffer.readable = s.conn.mSendBuffer.readable := by
      rw [hc.readable, hds, List.flatten_nil, List.append_nil]
    refine hc.writing_of_writing (h (hc.mState ▸ hconn) fun h0 => hsize ?_)
    rw [hc.sound.send.size_eq_zero_iff, hr]
    exact hs.send.size_eq_zero_iff.mp h0
  · exact hc.writing hds

theorem Quietly.unforgotten (hq : Quietly s s') (h : s.Unforgotten) : s'.Unforgotten := by
  intro hconn hsize
  obtain ⟨hconn', hch⟩ := hq.channel hconn
  obtain ⟨ch, hch', hw⟩ := h hconn' (hq.send ▸ hsize)
  exact ⟨ch, hch.trans hch', hw⟩

theorem unforgotten_of_not_connected (h : s.conn.mState ≠ .connected) : s.Unforgotten :=
  fun hconn => absurd hconn h

/-- After the write-complete callback nothing is forgotten exactly when nothing was sent. -/
theorem Called.unforgotten_writeOff_iff (hc : Called s s' ds) (hconn : s.conn.mState = .connected) :
    s'.writeOff.Unforgotten ↔ s'.conn.mSendBuffer.readable = [] := by
  have hoff : ¬ s'.writeOff.Writing := by
    rcases s'.writeOff_cases with ⟨hsame, hw⟩ | ⟨ch, -, -, hsame⟩
    · rwa [hsame]
    · rw [hsame]
      rintro ⟨ch', hch', hw⟩
      cases hch'
      exact ch.not_isWriting_disableWrite hw
  have hsize := hc.sound.send.size_eq_zero_iff
  unfold Ctx.Unforgotten
  rw [Ctx.writeOff_mState, Ctx.writeOff_mSendBuffer, hc.mState, ← hsize]
  tauto

/-- The steps that put no pending output at risk. -/
def WriteCompletesQuietly (s : Ctx) : Invocation → Prop
  | .handleWrite io => CompletesQuietly s io
  | _ => True

theorem Ctx.shut_unforgotten (s : Ctx) : s.shut.Unforgotten :=
  unforgotten_of_not_connected (by simp [Ctx.shut, Ctx.note])

/-- One step that puts no pending output at risk, when it returns. -/
theorem Invocation.unforgotten (hs : s.Sound) (hu : s.Unforgotten) {i : Invocation}
    (hi : WriteCompletesQuietly s i) (hrun : i.run.run s = .ok () s') :
    s'.Sound ∧ s'.Unforgotten := by
  have hout := i.outcome hs
  rw [hrun] at hout
  cases hout with
  | quiet _ hq hc => exact ⟨hc.sound, hc.unforgotten hq.sound (hq.unforgotten hu)⟩
  | wrote _ hne hv hb =>
    exact ⟨(hs.note _).wrote _ hv, fun hconn _ =>
      hu hconn fun h0 => hne (hs.send.size_eq_zero_iff.mp h0)⟩
  | completed hcomp hc hsend =>
    refine ⟨hc.sound.writeOff, (hc.unforgotten_writeOff_iff hcomp.connected).mpr ?_⟩
    by_cases hconn : s.conn.mState = .connected
    · rcases hi hconn _ hcomp.completes with hnothing | ⟨e, he⟩
      · exact (sendsNothing_iff hcomp.sound.send hcomp.readable hsend).mp hnothing
      · rw [he] at hsend
        cases hsend
    · -- the assertion has failed, and the step did not return
      have hfatal := (run_handleWrite_of_not_connected hconn _).symm.trans hrun
      cases hfatal
  | shut hopen _ => exact ⟨hs.shut hopen, s.shut_unforgotten⟩
  | wroteShut hopen _ _ _ hv _ => exact ⟨(hs.wrote _ hv).shut hopen, Ctx.shut_unforgotten _⟩

/-- A write-complete callback that sends makes `handleWrite` forget what it sent. -/
theorem completesQuietly_of_unforgotten (hs : s.Sound) {io : WriteIo}
    (h : ∀ s', (handleWrite io).run s = .ok () s' → s'.Unforgotten) : CompletesQuietly s io := by
  intro hconn b hb
  have hout := Invocation.outcome hs (.handleWrite io)
  change Invocation.Outcome s _ ((handleWrite io).run s) at hout
  cases hrun : (handleWrite io).run s with
  | ok u s' =>
    rw [hrun] at hout
    cases hout with
    | quiet hi => exact hi.elim
    | wrote hnot => exact absurd hb (hnot b)
    | completed hcomp hc hsend =>
      rw [hcomp.unique hb]
      have hu := (hc.unforgotten_writeOff_iff hcomp.connected).mp (h _ hrun)
      exact .inl ((sendsNothing_iff hcomp.sound.send hcomp.readable hsend).mpr hu)
  | error e s' =>
    rw [hrun] at hout
    cases hout with
    | stopped hi => exact absurd hb (hi hconn b)
    | completeStopped hcomp _ hsend => exact .inr ⟨e, hcomp.unique hb ▸ hsend⟩

/-- At the end of a handler, a task or another step, no pending output is forgotten. -/
def NothingForgotten (r : EStateM.Result Stop Ctx Unit) : Prop :=
  ∀ s', r = .ok () s' → s'.Unforgotten

end

/-- **No pending output is forgotten** in the runs whose write-complete callbacks send nothing,
and in no others. -/
theorem unforgotten_iff (is : List Invocation) :
    Machine.Always Invocation.run NothingForgotten Ctx.start is ↔
      Machine.Along Invocation.run WriteCompletesQuietly Ctx.start is := by
  refine Machine.always_iff_along (I := fun s => s.Sound ∧ s.Unforgotten) ?_ ?_ ?_ ?_ ?_
  · rintro s ⟨-, hu⟩ s' hs'
    cases hs'
    exact hu
  · rintro s i s' ⟨hs, hu⟩ hi hrun
    exact Invocation.unforgotten hs hu hi hrun
  · intro s i e s' _ _ _ s'' hs''
    cases hs''
  · rintro s i ⟨hs, -⟩ hkept
    cases i with
    | handleWrite io => exact completesQuietly_of_unforgotten hs hkept
    | _ => trivial
  · refine ⟨Ctx.start_sound, fun _ hsize => absurd ?_ hsize⟩
    exact Ctx.start_sound.send.size_eq_zero_iff.mpr TcpBuffer.readable_fresh

/-- A write-complete callback sends one byte after the only byte was written. -/
theorem not_unforgotten_send_on_complete :
    ¬ ∀ is : List Invocation, Machine.Always Invocation.run NothingForgotten Ctx.start is := by
  intro h
  have hlast := h
    [.calls [.send [1] []], .handleWrite ⟨.accepted 1, 0, [.send [2] []]⟩] _ (List.prefix_refl _)
  obtain ⟨s, hs, hconn, hsize, hoff⟩ : ∃ s ∈ Machine.returned ((Machine.exec Invocation.run
      [.calls [.send [1] []], .handleWrite ⟨.accepted 1, 0, [.send [2] []]⟩]).run Ctx.start),
        s.conn.mState = .connected ∧ s.conn.mSendBuffer.size ≠ 0 ∧
          ∀ ch ∈ s.conn.mpChannel, ¬ ch.isWriting := by
    decide +kernel
  obtain ⟨ch, hch, hw⟩ := hlast s (Machine.eq_ok_of_mem_returned hs) hconn hsize
  exact hoff ch hch hw

/-! ### Graceful shutdown -/

/-- The entry says that the output of the connection is shut, or no longer watched. That a closed
connection gives up its channel with all that was left is no such entry. -/
def Effect.Mark : Effect → Prop
  | .shutWr | .writeDisabled => True
  | _ => False

/-- The bytes that `sendInLoop` has accepted. -/
def appendedBytes (t : List Effect) : Bytes :=
  t.flatMap fun
    | .appended data => data
    | _ => []

/-- The bytes that `write(2)` has taken. -/
def writtenBytes (t : List Effect) : Bytes :=
  t.flatMap fun
    | .written data => data
    | _ => []

/-- Wherever the output is shut or no longer watched, all bytes accepted before have been
written. -/
def Graceful (t : List Effect) : Prop :=
  Trace.Each (fun pre e => e.Mark → writtenBytes pre = appendedBytes pre) t

theorem appendedBytes_append (t es : List Effect) :
    appendedBytes (t ++ es) = appendedBytes t ++ appendedBytes es := List.flatMap_append

theorem writtenBytes_append (t es : List Effect) :
    writtenBytes (t ++ es) = writtenBytes t ++ writtenBytes es := List.flatMap_append

theorem graceful_append {t es : List Effect} (hes : ∀ e ∈ es, ¬ e.Mark) :
    Graceful (t ++ es) ↔ Graceful t :=
  Trace.each_append fun _ e he hmark => absurd hmark (hes e he)

theorem Effect.Quiet.not_mark {e : Effect} (h : e.Quiet) : ¬ e.Mark := by
  cases e <;> simp_all [Quiet, Mark]

theorem appendedBytes_of_quiet {es : List Effect} (hes : ∀ e ∈ es, e.Quiet) :
    appendedBytes es = [] :=
  List.flatMap_eq_nil_iff.mpr fun e he => by
    have := hes e he
    cases e <;> simp_all [Effect.Quiet]

theorem writtenBytes_of_quiet {es : List Effect} (hes : ∀ e ∈ es, e.Quiet) :
    writtenBytes es = [] :=
  List.flatMap_eq_nil_iff.mpr fun e he => by
    have := hes e he
    cases e <;> simp_all [Effect.Quiet]

theorem appendedBytes_appended (ds : List Bytes) :
    appendedBytes (ds.map .appended) = ds.flatten := by
  induction ds with
  | nil => rfl
  | cons d ds ih =>
    rw [List.map_cons, List.flatten_cons, ← ih]
    rfl

theorem writtenBytes_appended (ds : List Bytes) : writtenBytes (ds.map .appended) = [] := by
  simp [writtenBytes, List.flatMap_map]

theorem not_mark_appended (ds : List Bytes) : ∀ e ∈ ds.map Effect.appended, ¬ e.Mark := by
  intro e he
  obtain ⟨d, -, rfl⟩ := List.mem_map.mp he
  exact id

/-- The bytes accepted are the bytes written followed by the readable ones, and no byte was lost so
far. -/
structure Ctx.Accounted (s : Ctx) : Prop where
  sound : s.Sound
  bytes : appendedBytes s.trace = writtenBytes s.trace ++ s.conn.mSendBuffer.readable
  graceful : Graceful s.trace

section

variable {s s' : Ctx} {ds : List Bytes}

theorem Ctx.Accounted.written_iff (h : s.Accounted) :
    writtenBytes s.trace = appendedBytes s.trace ↔ s.conn.mSendBuffer.readable = [] := by
  rw [h.bytes]
  exact List.self_eq_append_right

/-- Quiet entries keep the account. -/
theorem Ctx.Accounted.of_quiet (h : s.Accounted) (hs' : s'.Sound)
    (hr : s'.conn.mSendBuffer.readable = s.conn.mSendBuffer.readable) {es : List Effect}
    (htr : s'.trace = s.trace ++ es) (hes : ∀ e ∈ es, e.Quiet) : s'.Accounted where
  sound := hs'
  bytes := by
    rw [htr, appendedBytes_append, writtenBytes_append, appendedBytes_of_quiet hes,
      writtenBytes_of_quiet hes, List.append_nil, List.append_nil, hr, h.bytes]
  graceful := by
    rw [htr, graceful_append fun e he => (hes e he).not_mark]
    exact h.graceful

theorem Quietly.accounted (hq : Quietly s s') (h : s.Accounted) : s'.Accounted := by
  obtain ⟨es, htr, hes⟩ := hq.trace
  exact h.of_quiet hq.sound (by rw [hq.send]) htr hes

theorem Called.accounted (hc : Called s s' ds) (h : s.Accounted) : s'.Accounted where
  sound := hc.sound
  bytes := by
    rw [hc.trace, appendedBytes_append, writtenBytes_append, appendedBytes_appended,
      writtenBytes_appended, List.append_nil, hc.readable, h.bytes, List.append_assoc]
  graceful := by
    rw [hc.trace, graceful_append (not_mark_appended ds)]
    exact h.graceful

theorem CallStopped.graceful (hc : CallStopped s s') (h : Graceful s.trace) :
    Graceful s'.trace := by
  obtain ⟨ds, htr⟩ := hc.trace
  rwa [htr, graceful_append (not_mark_appended ds)]

/-- Bytes that were readable have been written. -/
theorem Ctx.Accounted.wrote (h : s.Accounted) {room : Nat} {b : TcpBuffer} (hv : b.Valid)
    (hb : b.readable = s.conn.mSendBuffer.readable.drop room) :
    (s.wrote (s.conn.mSendBuffer.readable.take room) b).Accounted where
  sound := h.sound.wrote _ hv
  bytes := by
    change appendedBytes (s.trace ++ [_]) = writtenBytes (s.trace ++ [_]) ++ b.readable
    rw [appendedBytes_append, writtenBytes_append, hb, h.bytes]
    simp [appendedBytes, writtenBytes, List.append_assoc]
  graceful := Trace.each_concat.mpr ⟨h.graceful, fun hmark => hmark.elim⟩

theorem Ctx.Accounted.writeOff (h : s.Accounted) (hr : s.conn.mSendBuffer.readable = []) :
    s.writeOff.Accounted := by
  have hsound := h.sound.writeOff
  rcases s.writeOff_cases with ⟨hsame, -⟩ | ⟨ch, -, -, hsame⟩
  · rwa [hsame]
  · rw [hsame] at hsound ⊢
    refine ⟨hsound, ?_, Trace.each_concat.mpr ⟨h.graceful, fun _ => h.written_iff.mpr hr⟩⟩
    change appendedBytes (s.trace ++ [_]) = writtenBytes (s.trace ++ [_]) ++ _
    rw [appendedBytes_append, writtenBytes_append, h.bytes]
    simp [appendedBytes, writtenBytes]

/-- Write interest can be turned off gracefully only where nothing is left to write. -/
theorem Ctx.Accounted.readable_of_writeOff (h : s.Accounted) (hw : s.Writing)
    (hg : Graceful s.writeOff.trace) : s.conn.mSendBuffer.readable = [] := by
  rcases s.writeOff_cases with ⟨-, hnot⟩ | ⟨ch, -, -, hsame⟩
  · exact absurd hw hnot
  · rw [hsame] at hg
    exact h.written_iff.mp ((Trace.each_concat.mp hg).2 trivial)

theorem Ctx.Accounted.shut (h : s.Accounted) (hopen : s.conn.mState ≠ .disConnected)
    (hr : s.conn.mSendBuffer.readable = []) : s.shut.Accounted := by
  have hhalf : Ctx.Accounted
      { s with conn.mState := .halfClosed, trace := s.trace ++ [.state .halfClosed] } :=
    h.of_quiet ⟨h.sound.send, h.sound.recv, fun _ => h.sound.channel hopen⟩ rfl rfl
      fun e he => by
        obtain rfl := List.mem_singleton.mp he
        trivial
  have hoff := hhalf.writeOff hr
  refine ⟨hoff.sound.note _, ?_, Trace.each_concat.mpr ⟨hoff.graceful, fun _ =>
    hoff.written_iff.mpr (by simpa using hr)⟩⟩
  change appendedBytes (_ ++ [Effect.shutWr]) = writtenBytes (_ ++ [Effect.shutWr]) ++ _
  rw [appendedBytes_append, writtenBytes_append, hoff.bytes]
  simp [appendedBytes, writtenBytes, Ctx.shut, Ctx.note]

/-- The socket can be shut gracefully only where nothing is left to write. -/
theorem Ctx.Accounted.readable_of_shut (h : s.Accounted) (hg : Graceful s.shut.trace) :
    s.conn.mSendBuffer.readable = [] := by
  have hmark := (Trace.each_concat.mp hg).2 trivial
  rcases Ctx.writeOff_cases
    { s with conn.mState := .halfClosed, trace := s.trace ++ [.state .halfClosed] } with
    ⟨hsame, -⟩ | ⟨ch, -, -, hsame⟩ <;> rw [hsame] at hmark <;>
    simp only [appendedBytes_append, writtenBytes_append] at hmark <;>
    exact h.written_iff.mp (by simpa [appendedBytes, writtenBytes] using hmark)

/-! ### Runs that lose nothing -/

/-- The write of a shutdown task on an open connection takes all that is left, or throws. -/
def WritesAll (s : Ctx) (io : TaskIo) : Prop :=
  s.conn.mState ≠ .disConnected → s.conn.mSendBuffer.readable = [] ∨ io.res.Nothing ∨
    ∃ room, io.res = .accepted room ∧ s.conn.mSendBuffer.readable.length ≤ room

/-- The steps that lose nothing. -/
def LosesNothing (s : Ctx) : Invocation → Prop
  | .handleWrite io => CompletesQuietly s io
  | .task .shutdown io => WritesAll s io
  | _ => True

theorem Ctx.Accounted.note_entered (h : s.Accounted) (handler : Handler) :
    (s.note [.entered handler]).Accounted :=
  h.of_quiet (h.sound.note _) rfl rfl fun e he => by
    obtain rfl := List.mem_singleton.mp he
    trivial

/-- The account at the write-complete callback. -/
theorem Completing.accounted {io : WriteIo} {s₁ : Ctx} (hcomp : Completing s io s₁)
    (h : s.Accounted) : s₁.Accounted := by
  rcases hcomp.trace with ⟨htr, hr⟩ | htr
  · refine h.of_quiet hcomp.sound (hcomp.readable.trans hr.symm) htr fun e he => ?_
    obtain rfl := List.mem_singleton.mp he
    trivial
  · refine ⟨hcomp.sound, ?_, ?_⟩
    · rw [htr, appendedBytes_append, writtenBytes_append, h.bytes, hcomp.readable]
      simp [appendedBytes, writtenBytes]
    · rw [htr, graceful_append fun e he => ?_]
      · exact h.graceful
      · rcases List.mem_pair.mp he with rfl | rfl <;> exact id

/-- One step that loses nothing. -/
theorem Invocation.accounted (h : s.Accounted) {i : Invocation} (hi : LosesNothing s i) :
    (∀ s', i.run.run s = .ok () s' → s'.Accounted) ∧
      ∀ e s', i.run.run s = .error e s' → Graceful s'.trace := by
  have hout := i.outcome h.sound
  constructor
  · intro s' hrun
    rw [hrun] at hout
    cases hout with
    | quiet _ hq hc => exact hc.accounted (hq.accounted h)
    | wrote _ _ hv hb => exact (h.note_entered .handleWrite).wrote hv hb
    | completed hcomp hc hsend =>
      refine (hc.accounted (hcomp.accounted h)).writeOff ?_
      by_cases hconn : s.conn.mState = .connected
      · rcases hi hconn _ hcomp.completes with hnothing | ⟨e, he⟩
        · exact (sendsNothing_iff hcomp.sound.send hcomp.readable hsend).mp hnothing
        · rw [he] at hsend
          cases hsend
      · have hfatal := (run_handleWrite_of_not_connected hconn _).symm.trans hrun
        cases hfatal
    | shut hopen hr => exact h.shut hopen hr
    | wroteShut hopen hne hres hroom hv hb =>
      refine (h.wrote hv hb).shut hopen ?_
      -- the write has taken some bytes, so it must have had room for all
      rcases hi hopen with hr | hn | ⟨room', hres', hlen⟩
      · exact absurd hr hne
      · rw [hres] at hn
        exact absurd hn hroom
      · rw [hres] at hres'
        cases hres'
        exact hb.trans (List.drop_eq_nil_of_le hlen)
  · intro e s' hrun
    rw [hrun] at hout
    cases hout with
    | stopped _ hq hc =>
      obtain ⟨es, htr, hes⟩ := hq
      refine hc.graceful ?_
      rw [htr, graceful_append fun e he => (hes e he).not_mark]
      exact h.graceful
    | completeStopped hcomp hc _ => exact hc.graceful (hcomp.accounted h).graceful

/-- A step that leaves the trace graceful loses nothing. -/
theorem losesNothing_of_graceful (h : s.Accounted) {i : Invocation}
    (hg : Graceful (Machine.final (i.run.run s)).trace) : LosesNothing s i := by
  have hout := i.outcome h.sound
  cases i with
  | handleWrite io =>
    intro hconn b hb
    cases hrun : (Invocation.handleWrite io).run.run s with
    | ok u s' =>
      rw [hrun] at hout hg
      cases hout with
      | quiet hi => exact hi.elim
      | wrote hnot => exact absurd hb (hnot b)
      | @completed _ _ s₂ ds hcomp hc hsend =>
        rw [hcomp.unique hb]
        left
        refine (sendsNothing_iff hcomp.sound.send hcomp.readable hsend).mpr ?_
        by_cases hds : ds = []
        · rw [hc.readable, hcomp.readable, hds]
          rfl
        · -- a send has turned write interest on, so turning it off left a mark
          exact (hc.accounted (hcomp.accounted h)).readable_of_writeOff (hc.writing hds) hg
    | error e s' =>
      rw [hrun] at hout
      cases hout with
      | stopped hi => exact absurd hb (hi hconn b)
      | completeStopped hcomp _ hsend => exact .inr ⟨e, hcomp.unique hb ▸ hsend⟩
  | task t io =>
    cases t with
    | shutdown =>
      intro hopen
      cases hrun : (Invocation.task .shutdown io).run.run s with
      | ok u s' =>
        rw [hrun] at hout hg
        cases hout with
        | quiet hi =>
          rcases hi with hst | ⟨-, hn⟩
          · exact absurd hst hopen
          · exact .inr (.inl hn)
        | shut _ hr => exact .inl hr
        | wroteShut _ _ hres _ hv hb =>
          have hr := (h.wrote hv hb).readable_of_shut hg
          exact .inr (.inr ⟨_, hres, List.drop_eq_nil_iff.mp (hb.symm.trans hr)⟩)
      | error e s' =>
        rw [hrun] at hout
        cases hout with
        | stopped hi => exact hi.elim
    | _ => trivial
  | _ => trivial

/-- Nothing accepted was left unwritten where the output was shut or no longer watched. -/
def NothingLost (r : EStateM.Result Stop Ctx Unit) : Prop := Graceful (Machine.final r).trace

end

theorem Ctx.start_accounted : Ctx.start.Accounted where
  sound := Ctx.start_sound
  bytes := TcpBuffer.readable_fresh.symm
  graceful := (Trace.each_concat (t := [])).mpr ⟨Trace.each_nil, fun hmark => hmark.elim⟩

/-- **A shutdown loses no accepted data** in the runs whose write-complete callbacks send nothing
and whose shutdown tasks write all or nothing, and in no others. -/
theorem graceful_iff (is : List Invocation) :
    Machine.Always Invocation.run NothingLost Ctx.start is ↔
      Machine.Along Invocation.run LosesNothing Ctx.start is := by
  refine Machine.always_iff_along (I := Ctx.Accounted) (fun s hs => hs.graceful) ?_ ?_ ?_
    Ctx.start_accounted
  · intro s i s' hs hi hrun
    exact (Invocation.accounted hs hi).1 s' hrun
  · intro s i e s' hs hi hrun
    exact (Invocation.accounted hs hi).2 e s' hrun
  · intro s i hs hg
    exact losesNothing_of_graceful hs hg

/-- The shutdown task writes one of two bytes and shuts the socket. -/
theorem not_graceful_partial_shutdown :
    ¬ ∀ is : List Invocation, Machine.Always Invocation.run NothingLost Ctx.start is := by
  intro h
  have hlast := h
    [.calls [.send [1, 2] [], .shutdownConnection], .task .shutdown ⟨.accepted 1, 0, []⟩] _
    (List.prefix_refl _)
  have htrace : (Machine.final ((Machine.exec Invocation.run
      [.calls [.send [1, 2] [], .shutdownConnection],
        .task .shutdown ⟨.accepted 1, 0, []⟩]).run Ctx.start)).trace =
      [.state .connected, .appended [1, 2], .written [1], .state .halfClosed, .writeDisabled] ++
        .shutWr :: [] := by
    decide +kernel
  have hbytes := hlast _ _ _ htrace trivial
  revert hbytes
  decide

end SimpleTcp
