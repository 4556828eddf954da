import SimpleTcp.Tcp.Life

/-!
# What a read does to its connection

`handleRead` learns that `read(2)` gave nothing from an exception, which carries the error pending
on the socket and not `errno`. No pending error stands for the end of the input, so a read that was
interrupted, or that would have blocked, closes the connection like one that found its end.

## Main definitions

* `Errno.Transient`: the errors after which the connection is as it was
* `ReadIo.Reported`: what the kernel promises of the pending error
* `ReadIo.Classified`: a read closes exactly the connections that are closed or failed
* `ReadIo.Told`: the reads whose outcome the pending error tells

## Main results

* `ReadIo.classified_iff`: in every state of a run, a read is classified when the pending error
  tells its outcome, and only then
-/

namespace SimpleTcp

open TcpConnection

/-- The read may be tried again. `EWOULDBLOCK` is `EAGAIN`. -/
def Errno.Transient (err : Errno) : Prop := err = EAGAIN ∨ err = EINTR

namespace TcpConnection.ReadIo

/-- The pending error after a failed read: none after a transient error, and none after an error
that `read(2)` has reported itself. -/
def Reported (io : ReadIo) : Prop := ∀ errno, io.res = .failed errno → io.soError = 0

/-- `handleRead` enters `handleClose`. -/
def EntersClose (io : ReadIo) (s : Ctx) : Prop :=
  .entered .handleClose ∈ (Machine.final ((handleRead io).run s)).trace.drop s.trace.length

/-- The peer has closed the connection, or it has failed. -/
def Gone (io : ReadIo) : Prop :=
  io.res = .bytes [] ∨ ∃ errno, io.res = .failed errno ∧ ¬ errno.Transient

/-- The connection is closed when it is gone and only then, and a transient error leaves the
connection alone and calls nobody. -/
structure Classified (io : ReadIo) (s : Ctx) : Prop where
  closes : io.EntersClose s ↔ io.Gone
  untouched : ∀ errno, io.res = .failed errno → errno.Transient →
    (Machine.final ((handleRead io).run s)).conn = s.conn ∧
      ∀ onMessage onConnection, (handleRead { io with onMessage, onConnection }).run s =
        (handleRead io).run s

/-- The read has not failed with a transient error, and no error is pending at the end of the
input. -/
def Told (io : ReadIo) : Prop :=
  (∀ errno, io.res = .failed errno → ¬ errno.Transient) ∧ (io.res = .bytes [] → io.soError = 0)

section

variable {s : Ctx} {io : ReadIo}

theorem entersClose_of_closes (h : s.Sound) (hopen : s.conn.mState ≠ .disConnected)
    (hio : io.Closes) : io.EntersClose s := by
  rcases handleRead_cases h hopen io with ⟨-, hr⟩ | ⟨-, hne, -⟩ | ⟨hn, -⟩ | ⟨hn, -⟩
  · obtain ⟨s', hs', hc⟩ := run_handleClose (h.note [.entered .handleRead]) hopen io.onConnection
    have htr : s'.trace = s.trace ++
        [.entered .handleRead, .entered .handleClose, .state .disConnected] := by
      simpa [Ctx.closing, Ctx.note] using hc.trace
    rw [EntersClose, hr, hs']
    change _ ∈ s'.trace.drop s.trace.length
    rw [htr, List.drop_left]
    exact List.mem_cons_of_mem _ List.mem_cons_self
  · exact absurd hio.2 hne
  · exact absurd hio.1 hn
  · exact absurd hio.1 hn

/-- A read that does not close the connection leaves calm entries only. -/
theorem not_entersClose (h : s.Sound) (hopen : s.conn.mState ≠ .disConnected)
    (hio : ¬ io.Closes) : ¬ io.EntersClose s := by
  have hstays := handleRead_stays h hopen hio
  have htrace : ∃ es, (Machine.final ((handleRead io).run s)).trace = s.trace ++ es ∧
      ∀ e ∈ es, e.Calm := by
    cases hrun : (handleRead io).run s with
    | ok u s' =>
      rw [hrun] at hstays
      exact hstays.trace
    | error e s' =>
      rw [hrun] at hstays
      exact hstays.2
  obtain ⟨es, htr, hcalm⟩ := htrace
  rw [EntersClose, htr, List.drop_left]
  exact fun hmem => hcalm _ hmem

theorem entersClose_iff (h : s.Sound) (hopen : s.conn.mState ≠ .disConnected) (io : ReadIo) :
    io.EntersClose s ↔ io.Closes :=
  ⟨fun hmem => by_contra fun hio => not_entersClose h hopen hio hmem,
    entersClose_of_closes h hopen⟩

/-- The pending error tells the end of the input, and nothing else. -/
theorem closes_iff_gone (hkernel : io.Reported) : (io.Closes ↔ io.Gone) ↔ io.Told := by
  cases hres : io.res with
  | bytes arrived =>
    have hclosed : io.Gone ↔ arrived = [] := by simp [Gone, hres]
    have hcloses : io.Closes ↔ arrived = [] ∧ io.soError = 0 := by
      simp [Closes, hres, ReadResult.Nothing]
    have htold : io.Told ↔ (arrived = [] → io.soError = 0) := by simp [Told, hres]
    rw [hclosed, hcloses, htold]
    exact and_iff_left_iff_imp
  | failed errno =>
    have hcloses : io.Closes := by
      refine ⟨?_, hkernel errno hres⟩
      rw [hres]
      trivial
    have hgone : io.Gone ↔ ¬ errno.Transient := by simp [Gone, hres]
    have htold : io.Told ↔ ¬ errno.Transient := by simp [Told, hres]
    rw [hgone, htold]
    exact iff_true_left hcloses

end

end TcpConnection.ReadIo

theorem Session.inv_of_run {is : List SessionEvent} {s : Session}
    (hrun : (Machine.exec step is).run created = .ok () s) : s.Inv :=
  Machine.persists_of_run (I := fun _ => True) (B := Inv) (fun _ _ _ _ _ => trivial)
    (fun _ i _ _ h => inv_step h i) trivial created_inv hrun

namespace TcpConnection.ReadIo

/-- **The outcome of a read**: in every state of a run, a read closes the connections that are gone,
and those only, and leaves the others alone after a transient error, when the pending error tells
its outcome, and not otherwise. -/
theorem classified_iff (is : List SessionEvent) (s : Session)
    (hrun : (Machine.exec Session.step is).run Session.created = .ok () s)
    (hopen : s.ctx.conn.mState ≠ .disConnected) (io : ReadIo) (hkernel : io.Reported) :
    io.Classified s.ctx ↔ io.Told := by
  have hsound := (Session.inv_of_run hrun).sound
  rw [← closes_iff_gone hkernel, ← entersClose_iff hsound hopen]
  refine ⟨fun h => h.closes, fun h => ⟨h, fun errno hres htransient => ?_⟩⟩
  -- the failed read closes the connection, which is not gone
  have hnothing : io.res.Nothing := by
    rw [hres]
    trivial
  have hgone := h.mp (entersClose_of_closes hsound hopen ⟨hnothing, hkernel errno hres⟩)
  rcases hgone with hbytes | ⟨errno', hres', hnot⟩
  · rw [hres] at hbytes
    cases hbytes
  · obtain rfl : errno = errno' := ReadResult.failed.inj (hres.symm.trans hres')
    exact absurd htransient hnot

/-- An established connection. -/
def accepted : List SessionEvent := [.establish []]

theorem run_accepted : ∃ s, (Machine.exec Session.step accepted).run Session.created = .ok () s ∧
    s.ctx.conn.mState ≠ .disConnected := ⟨_, rfl, by decide⟩

theorem classified_iff_endOfInput :
    ∃ s, (Machine.exec Session.step accepted).run Session.created = .ok () s ∧
      (Classified ⟨.bytes [], 0, [], []⟩ s.ctx ↔ Told ⟨.bytes [], 0, [], []⟩) := by
  obtain ⟨s, hrun, hopen⟩ := run_accepted
  exact ⟨s, hrun, classified_iff accepted s hrun hopen _ fun errno hres => by cases hres⟩

/-- A read that would have blocked closes the connection. -/
theorem not_classified_eagain : ¬ ∀ (is : List SessionEvent) (s : Session),
    (Machine.exec Session.step is).run Session.created = .ok () s →
    s.ctx.conn.mState ≠ .disConnected →
    ∀ io : ReadIo, io.Reported → io.Classified s.ctx := by
  intro h
  obtain ⟨s, hrun, hopen⟩ := run_accepted
  have hclassified := h accepted s hrun hopen ⟨.failed Errno.EAGAIN, 0, [], []⟩ fun _ _ => rfl
  have hcloses : EntersClose ⟨.failed Errno.EAGAIN, 0, [], []⟩ s.ctx :=
    entersClose_of_closes (Session.inv_of_run hrun).sound hopen ⟨trivial, rfl⟩
  rcases hclassified.closes.mp hcloses with hbytes | ⟨errno, hres, hnot⟩
  · cases hbytes
  · obtain rfl : Errno.EAGAIN = errno := ReadResult.failed.inj hres
    exact hnot (.inl rfl)

end TcpConnection.ReadIo

end SimpleTcp
