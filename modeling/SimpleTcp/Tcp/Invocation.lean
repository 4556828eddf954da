import SimpleTcp.Tcp.Handlers

/-!
# The steps of a connection

A connection that has been established is run by its loop one handler, task or callback of another
connection at a time, in any order. What such a step can do to the output of the connection is
said once, by cases; the invariants of whole runs are derived from the cases.

## Main definitions

* `Invocation`: what the loop makes a connection do
* `Ctx.created`, `Ctx.start`: a connection just built, and one just established
* `CompletesWith`: `handleWrite` reaches the write-complete callback
* `Invocation.Outcome`: what a step can do, guards included

## Main results

* `handleWrite_completes`: how a write ends
* `Invocation.outcome`: every step ends as one of the cases
-/

namespace SimpleTcp

open TcpConnection

/-- What the loop makes a connection do: a callback of its channel, the calls that a callback of
another connection makes on it, or a task. -/
inductive Invocation where
  | handleRead (io : ReadIo)
  | handleWrite (io : WriteIo)
  | handleClose (onConnection : List UserCall)
  | handleError
  | calls (cs : List UserCall)
  | task (t : ConnTask) (io : TaskIo)

namespace Invocation

def run : Invocation → ConnM Unit
  | .handleRead io => TcpConnection.handleRead io
  | .handleWrite io => TcpConnection.handleWrite io
  | .handleClose onConnection => TcpConnection.handleClose onConnection
  | .handleError => TcpConnection.handleError
  | .calls cs => runCalls cs
  | .task t io => runConnTask io t

end Invocation

/-- A connection just built. -/
def Ctx.created : Ctx := ⟨TcpConnection.create, [], []⟩

theorem Ctx.created_sound : Ctx.created.Sound :=
  ⟨TcpBuffer.fresh_valid, TcpBuffer.fresh_hasRoom, fun h => absurd rfl h⟩

/-- A connection in `establishConnect`, before the calls of its connection callback. -/
def Ctx.start : Ctx := Ctx.created.established Channel.create

theorem Ctx.start_sound : Ctx.start.Sound := Ctx.created_sound.established _

section

variable {s s' : Ctx} {ds : List Bytes}

/-! ### The steps, in common -/

/-- `handleWrite` leaves the empty send buffer `b` to the write-complete callback. -/
def CompletesWith (s : Ctx) (io : WriteIo) (b : TcpBuffer) : Prop :=
  (s.conn.mSendBuffer.size = 0 ∧ b = s.conn.mSendBuffer) ∨
    ∃ taken, s.conn.mSendBuffer.size ≠ 0 ∧
      s.conn.mSendBuffer.writeToSocket io.res io.soError = .ok (taken, b) ∧ b.size = 0

/-- `handleWrite` up to the write-complete callback, when that is reached. -/
structure Completing (s : Ctx) (io : WriteIo) (s₁ : Ctx) : Prop where
  completes : CompletesWith s io s₁.conn.mSendBuffer
  sound : s₁.Sound
  connected : s₁.conn.mState = .connected
  readable : s₁.conn.mSendBuffer.readable = []
  trace : s₁.trace = s.trace ++ [.entered .handleWrite] ∧ s.conn.mSendBuffer.readable = [] ∨
    s₁.trace = s.trace ++ [.entered .handleWrite, .written s.conn.mSendBuffer.readable]
  run : (handleWrite io).run s = (writeComplete io.onWriteComplete).run s₁

/-- **How a write ends**: the write-complete callback is reached, or the write throws or leaves
something to write and there is no callback. -/
theorem handleWrite_completes (h : s.Sound) (hconn : s.conn.mState = .connected) (io : WriteIo) :
    (∃ s₁, Completing s io s₁) ∨
    ((∀ b, ¬ CompletesWith s io b) ∧
      ((handleWrite io).run s =
          .error (.networkException io.soError) (s.note [.entered .handleWrite]) ∨
        ∃ room b, s.conn.mSendBuffer.readable ≠ [] ∧ b.Valid ∧
          b.readable = s.conn.mSendBuffer.readable.drop room ∧
          (handleWrite io).run s = .ok () ((s.note [.entered .handleWrite]).wrote
            (s.conn.mSendBuffer.readable.take room) b))) := by
  have hsize := h.send.size_eq_zero_iff
  rcases handleWrite_cases h hconn io with ⟨hr, hrun⟩ | ⟨hr, hn, hrun⟩ |
    ⟨room, b, hr, hres, hne, hv, hb, hdrop, hw, hrun⟩ |
    ⟨room, b, hr, hres, hne, hv, hb, hdrop, hw, hrun⟩
  · refine .inl ⟨s.note [.entered .handleWrite], ?_⟩
    exact {
      completes := .inl ⟨hsize.mpr hr, rfl⟩
      sound := h.note _
      connected := hconn
      readable := hr
      trace := .inl ⟨rfl, hr⟩
      run := hrun }
  · -- a write that throws leaves no buffer to any callback
    refine .inr ⟨fun b => ?_, .inl hrun⟩
    rintro (⟨h0, -⟩ | ⟨taken, -, hok, -⟩)
    · exact hr (hsize.mp h0)
    · cases hres : io.res with
      | failed errno =>
        rw [hres] at hok
        cases hok
      | accepted room =>
        rw [hres] at hn hok
        obtain rfl : room = 0 := hn
        simp [TcpBuffer.writeToSocket] at hok
  · -- neither does a write that takes only a part
    refine .inr ⟨fun c => ?_, .inr ⟨room, b, hr, hv, hb, hrun⟩⟩
    rintro (⟨h0, -⟩ | ⟨taken, -, hok, hc⟩)
    · exact hr (hsize.mp h0)
    · rw [hw] at hok
      cases hok
      exact hdrop (hb ▸ hv.size_eq_zero_iff.mp hc)
  · refine .inl ⟨(s.note [.entered .handleWrite]).wrote s.conn.mSendBuffer.readable b, ?_⟩
    exact {
      completes := .inr ⟨_, fun h0 => hr (hsize.mp h0), hw, hv.size_eq_zero_iff.mpr hb⟩
      sound := (h.note _).wrote _ hv
      connected := hconn
      readable := hb
      trace := .inr (by simp [Ctx.wrote, Ctx.note])
      run := hrun }

/-! ### What a step can do -/

/-- The entry carries no data and is no mark. -/
def Effect.Quiet : Effect → Prop
  | .entered _ | .state _ => True
  | _ => False

/-- The send buffer is as it was, the trace says nothing of the output, and a connection that is
still connected has kept its channel. -/
structure Quietly (s s₁ : Ctx) : Prop where
  sound : s₁.Sound
  send : s₁.conn.mSendBuffer = s.conn.mSendBuffer
  trace : ∃ es, s₁.trace = s.trace ++ es ∧ ∀ e ∈ es, e.Quiet
  channel : s₁.conn.mState = .connected →
    s.conn.mState = .connected ∧ s₁.conn.mpChannel = s.conn.mpChannel

theorem Quietly.refl (hs : s.Sound) : Quietly s s :=
  ⟨hs, rfl, ⟨[], by simp⟩, fun hconn => ⟨hconn, rfl⟩⟩

theorem Quietly.note (hs : s.Sound) {es : List Effect} (hes : ∀ e ∈ es, e.Quiet) :
    Quietly s (s.note es) := ⟨hs.note es, rfl, ⟨es, rfl, hes⟩, fun hconn => ⟨hconn, rfl⟩⟩

theorem Quietly.closing (hq : Quietly s s') : Quietly s s'.closing where
  sound := hq.sound.closing
  send := hq.send
  trace := by
    obtain ⟨es, hes, hquiet⟩ := hq.trace
    refine ⟨es ++ [.entered .handleClose, .state .disConnected], ?_, ?_⟩
    · simp [Ctx.closing, hes]
    · intro e he
      rcases List.mem_append.mp he with he | he
      · exact hquiet e he
      · rcases List.mem_pair.mp he with rfl | rfl <;> trivial
  channel := fun hconn => by cases hconn

/-- A step that does not reach the output: no write, and no shutdown of an open connection but one
whose write throws. -/
def Invocation.Harmless (s : Ctx) : Invocation → Prop
  | .handleWrite _ => False
  | .task .shutdown io => s.conn.mState = .disConnected ∨
      s.conn.mSendBuffer.readable ≠ [] ∧ io.res.Nothing
  | _ => True

/-- A step that does not stop in the output: no shutdown, and no write that reaches the
write-complete callback. -/
def Invocation.StopsEarly (s : Ctx) : Invocation → Prop
  | .handleWrite io => s.conn.mState = .connected → ∀ b, ¬ CompletesWith s io b
  | .task .shutdown _ => False
  | _ => True

/-- What a step can do, guards included. -/
inductive Invocation.Outcome (s : Ctx) : Invocation → EStateM.Result Stop Ctx Unit → Prop
  | quiet {i s₁ s' ds} (hi : i.Harmless s) (hq : Quietly s s₁) (hc : Called s₁ s' ds) :
      Outcome s i (.ok () s')
  | stopped {i s₁ s' e} (hi : i.StopsEarly s) (hq : ∃ es, s₁.trace = s.trace ++ es ∧
      ∀ e ∈ es, e.Quiet) (hc : CallStopped s₁ s') : Outcome s i (.error e s')
  | wrote {io room b} (hnot : ∀ b, ¬ CompletesWith s io b)
      (hne : s.conn.mSendBuffer.readable ≠ []) (hv : b.Valid)
      (hb : b.readable = s.conn.mSendBuffer.readable.drop room) :
      Outcome s (.handleWrite io) (.ok ()
        ((s.note [.entered .handleWrite]).wrote (s.conn.mSendBuffer.readable.take room) b))
  | completed {io s₁ s' ds} (hcomp : Completing s io s₁) (hc : Called s₁ s' ds)
      (hsend : sendCalls io.onWriteComplete s₁.conn.mSendBuffer = .ok s'.conn.mSendBuffer) :
      Outcome s (.handleWrite io) (.ok () s'.writeOff)
  | completeStopped {io s₁ s' e} (hcomp : Completing s io s₁) (hc : CallStopped s₁ s')
      (hsend : sendCalls io.onWriteComplete s₁.conn.mSendBuffer = .error e) :
      Outcome s (.handleWrite io) (.error e s')
  | shut {io} (hopen : s.conn.mState ≠ .disConnected) (hr : s.conn.mSendBuffer.readable = []) :
      Outcome s (.task .shutdown io) (.ok () s.shut)
  | wroteShut {io room b} (hopen : s.conn.mState ≠ .disConnected)
      (hne : s.conn.mSendBuffer.readable ≠ []) (hres : io.res = .accepted room) (hroom : room ≠ 0)
      (hv : b.Valid) (hb : b.readable = s.conn.mSendBuffer.readable.drop room) :
      Outcome s (.task .shutdown io)
        (.ok () (s.wrote (s.conn.mSendBuffer.readable.take room) b).shut)

/-- Calls on a state reached quietly. -/
theorem Invocation.Outcome.of_calls {i : Invocation} {s₁ : Ctx} {cs : List UserCall}
    (hi : i.Harmless s) (hi' : i.StopsEarly s) (hq : Quietly s s₁) :
    i.Outcome s ((runCalls cs).run s₁) := by
  have hout := runCalls_outcome cs hq.sound
  cases hrun : (runCalls cs).run s₁ with
  | ok u s₂ =>
    rw [hrun] at hout
    obtain ⟨⟨ds, hc⟩, -⟩ := hout
    exact .quiet hi hq hc
  | error e s₂ =>
    rw [hrun] at hout
    exact .stopped hi' hq.trace hout.1

theorem CallStopped.refl (s : Ctx) : CallStopped s s := ⟨rfl, [], by simp⟩

/-- A handler that fails its assertion. -/
theorem Invocation.Outcome.of_fatal {i : Invocation} (hi : i.StopsEarly s) (h : Handler) :
    i.Outcome s (.error .fatal (s.note [.entered h])) := by
  refine .stopped hi ⟨[.entered h], rfl, fun e he => ?_⟩ (.refl _)
  obtain rfl := List.mem_singleton.mp he
  trivial

/-- `handleClose` on an open connection, reached quietly. -/
theorem Invocation.Outcome.of_close {i : Invocation} {s₁ : Ctx} {cs : List UserCall}
    (hi : i.Harmless s) (hq : Quietly s s₁) (hopen : s₁.conn.mState ≠ .disConnected) :
    i.Outcome s ((TcpConnection.handleClose cs).run s₁) := by
  obtain ⟨s₂, hs₂, hc⟩ := run_handleClose hq.sound hopen cs
  rw [hs₂]
  exact .quiet hi hq.closing hc

theorem Invocation.outcome_handleRead (hs : s.Sound) (io : ReadIo) :
    (Invocation.handleRead io).Outcome s ((TcpConnection.handleRead io).run s) := by
  have hentered : Quietly s (s.note [.entered .handleRead]) :=
    .note hs fun e he => by
      obtain rfl := List.mem_singleton.mp he
      trivial
  by_cases hst : s.conn.mState = .disConnected
  · rw [run_handleRead_of_disConnected hst]
    exact .of_fatal (by trivial) _
  · rcases handleRead_cases hs hst io with ⟨-, hr⟩ | ⟨-, -, hr⟩ | ⟨-, -, hr⟩ |
      ⟨-, b, hb, -, hr⟩ <;>
      rw [hr]
    · exact .of_close trivial hentered hst
    · refine .quiet trivial (.note hs fun e he => ?_) (.refl (hs.note _))
      rcases List.mem_pair.mp he with rfl | rfl <;> trivial
    · exact .stopped trivial hentered.trace (.refl _)
    · exact .of_calls trivial trivial
        ⟨hentered.sound.received hb, rfl, hentered.trace, fun hconn => ⟨hconn, rfl⟩⟩

theorem Invocation.outcome_handleWrite (hs : s.Sound) (io : WriteIo) :
    (Invocation.handleWrite io).Outcome s ((TcpConnection.handleWrite io).run s) := by
  by_cases hconn : s.conn.mState = .connected
  · rcases handleWrite_completes hs hconn io with
      ⟨s₁, hcomp⟩ | ⟨hnot, hr | ⟨room, b, hne, hv, hb, hr⟩⟩
    · rw [hcomp.run]
      rcases writeComplete_cases hcomp.sound hcomp.connected io.onWriteComplete with
        ⟨ds, s₂, hc, hsend, hr⟩ | ⟨e, s₂, hc, -, hsend, hr⟩ <;> rw [hr]
      · exact .completed hcomp hc hsend
      · exact .completeStopped hcomp hc hsend
    · rw [hr]
      refine .stopped (fun _ => hnot) ⟨[.entered .handleWrite], rfl, fun e he => ?_⟩ (.refl _)
      obtain rfl := List.mem_singleton.mp he
      trivial
    · rw [hr]
      exact .wrote hnot hne hv hb
  · rw [run_handleWrite_of_not_connected hconn]
    refine .of_fatal ?_ _
    exact fun h => absurd h hconn

theorem Invocation.outcome_task (hs : s.Sound) (t : ConnTask) (io : TaskIo) :
    (Invocation.task t io).Outcome s ((runConnTask io t).run s) := by
  cases t with
  | send data =>
    have hout := sendInLoop_outcome hs data fun s' hs' => runCalls_outcome io.onHighWater hs'
    change Invocation.Outcome s _ ((sendInLoop data (runCalls io.onHighWater)).run s)
    cases hrun : (sendInLoop data (runCalls io.onHighWater)).run s with
    | ok u s' =>
      rw [hrun] at hout
      obtain ⟨⟨ds, hc⟩, -⟩ := hout
      exact .quiet trivial (.refl hs) hc
    | error e s' =>
      rw [hrun] at hout
      exact .stopped trivial ⟨[], by simp⟩ hout.1
  -- closed already, shut at once, left alone by an exception, or written and shut
  | shutdown =>
    change Invocation.Outcome s _ ((shutdownInLoop io.res io.soError).run s)
    rcases shutdownInLoop_cases hs io.res io.soError with ⟨hst, hr⟩ | ⟨hst, hempty, hr⟩ |
      ⟨-, hne, hn, hr⟩ | ⟨room, b, hst, hne, hres, hroom, hv, hb, hr⟩ <;> rw [hr]
    · exact .quiet (.inl hst) (.refl hs) (.refl hs)
    · exact .shut hst hempty
    · exact .quiet (.inr ⟨hne, hn⟩) (.refl hs) (.refl hs)
    · exact .wroteShut hst hne hres hroom hv hb
  | close =>
    change Invocation.Outcome s _ (destroyConnection.run s)
    by_cases hst : s.conn.mState = .disConnected
    · -- the channel of a closed connection goes
      rw [run_destroyConnection hst]
      have hsound : s.destroyed.Sound := ⟨hs.send, hs.recv, fun h => absurd hst h⟩
      refine .quiet trivial ⟨hsound, rfl, ⟨_, rfl, fun e he => ?_⟩, fun hconn => ?_⟩ (.refl hsound)
      · obtain rfl := List.mem_singleton.mp he
        trivial
      · exact absurd (hst.symm.trans hconn) (by decide)
    · -- `assertTrue` fails
      rw [run_destroyConnection_of_open hst]
      exact .of_fatal (by trivial) _

/-- **What a step can do.** -/
theorem Invocation.outcome (hs : s.Sound) (i : Invocation) : i.Outcome s (i.run.run s) := by
  cases i with
  | handleRead io => exact outcome_handleRead hs io
  | handleWrite io => exact outcome_handleWrite hs io
  | handleClose cs =>
    change Invocation.Outcome s _ ((TcpConnection.handleClose cs).run s)
    by_cases hst : s.conn.mState = .disConnected
    · rw [run_handleClose_of_disConnected hst]
      exact .of_fatal (by trivial) _
    · exact .of_close trivial (.refl hs) hst
  | handleError =>
    refine .quiet trivial (.note hs fun e he => ?_) (.refl (hs.note [.entered .handleError]))
    obtain rfl := List.mem_singleton.mp he
    trivial
  | calls cs => exact .of_calls trivial trivial (.refl hs)
  | task t io => exact outcome_task hs t io

/-- The buffer left to the write-complete callback is unique. -/
theorem Completing.unique {io : WriteIo} {s₁ : Ctx} (hcomp : Completing s io s₁) {b : TcpBuffer}
    (hb : CompletesWith s io b) : b = s₁.conn.mSendBuffer := by
  rcases hb with ⟨h0, rfl⟩ | ⟨taken, h0, hw, -⟩ <;>
    rcases hcomp.completes with ⟨h0', hb'⟩ | ⟨taken', h0', hw', -⟩
  · exact hb'.symm
  · exact absurd h0 h0'
  · exact absurd h0' h0
  · rw [hw] at hw'
    cases hw'
    rfl

end

end SimpleTcp
