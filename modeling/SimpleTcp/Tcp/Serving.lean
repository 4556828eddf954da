import SimpleTcp.Net.PoolLoops
import SimpleTcp.Tcp.ConnectionSet
import SimpleTcp.Tcp.Survival

/-!
# A server that keeps serving

The loop of a server accepts connections. It serves them itself, or it acquires a loop of the pool
for each of them, whose thread serves it. What a handler or a task throws goes through the channel
and `EventLoop::startLoop` uncaught, on whichever thread it runs, and ends the process.

A server serves as long as nothing is thrown, no assertion fails and every call returns, and every
open connection is registered to be read by a loop that runs, and is in the connection set or about
to be inserted.

## Main definitions

* `ThreadedServer`, `ServingEvent`, `ThreadedServer.step`: a server with its pool, and its steps
* `ThreadedServer.Served`: every open connection is served
* `ThreadedServer.Survives`: the steps whose results the server handles

## Main results

* `PooledServer.conn_frame`: a step of one connection leaves the other connections alone
* `PooledServer.returns_iff`: the steps of the connections that return
* `ThreadedServer.returns_iff`, `ThreadedServer.inv_step`: the steps that return, and what they keep
* `ThreadedServer.serves_iff`: the runs in which the server serves throughout
-/

namespace SimpleTcp

open TcpConnection Machine Positions

/-! ### Events before the connection is established -/

section

variable {c : Ctx} {mRevent : EventMask} {io : EventIo}

/-- Of a connection that is not open, the handlers but `handleError` fail their assertions. -/
theorem handleEvent_of_disConnected (hst : c.conn.mState = .disConnected) (mRevent : EventMask)
    (io : EventIo) :
    ((¬ Channel.Closes mRevent ∧ ¬ Channel.Reads mRevent ∧ ¬ Channel.Writes mRevent) ∧
      ∃ es, (∀ e ∈ es, e.Calm) ∧ (Session.handleEvent mRevent io).run c = .ok () (c.note es)) ∨
    (¬ (¬ Channel.Closes mRevent ∧ ¬ Channel.Reads mRevent ∧ ¬ Channel.Writes mRevent) ∧
      ∃ c', (Session.handleEvent mRevent io).run c = .error .fatal c') := by
  have hconn : c.conn.mState ≠ .connected := by simp [hst]
  rcases Channel.closes_or_errors_or_ready mRevent with hcl | herr | hready
  · refine .inr ⟨fun h => h.1 hcl, c.note [.entered .handleClose], ?_⟩
    rw [Session.handleEvent, Channel.handleEvent_of_closes _ _ _ _ hcl]
    exact run_handleClose_of_disConnected hst io.onConnection
  · have hnot : ¬ Channel.Ready mRevent := fun hready => hready.2 herr.2
    refine .inl ⟨⟨herr.1, fun hr => hnot hr.1, fun hw => hnot hw.1⟩, [.entered .handleError],
      fun e he => ?_, ?_⟩
    · obtain rfl := List.mem_singleton.mp he
      trivial
    · rw [Session.handleEvent, Channel.handleEvent_of_errors _ _ _ _ herr]
      exact run_handleError
  · by_cases hr : Channel.Reads mRevent
    · refine .inr ⟨fun h => h.2.1 hr, c.note [.entered .handleRead], ?_⟩
      by_cases hw : Channel.Writes mRevent
      · rw [handleEvent_of_reads_writes hr hw, EStateM.run_bind,
          run_handleRead_of_disConnected hst]
      · rw [handleEvent_of_reads hr hw, run_handleRead_of_disConnected hst]
    · by_cases hw : Channel.Writes mRevent
      · refine .inr ⟨fun h => h.2.2 hw, c.note [.entered .handleWrite], ?_⟩
        rw [handleEvent_of_writes hr hw]
        exact run_handleWrite_of_not_connected hconn io.write
      · refine .inl ⟨⟨hready.1, hr, hw⟩, [], by simp, ?_⟩
        rw [handleEvent_of_none hready hr hw]
        simp [Ctx.note]

end

namespace Session

variable {t t' : Session}

/-- An event before `establishConnect`: it may only be an error, or nothing. -/
def SurvivesEarly (t : Session) (mRevent : EventMask) : Prop :=
  t.established = false ∧ t.dispatched = false ∧ t.batch = none →
    ¬ Channel.Closes mRevent ∧ ¬ Channel.Reads mRevent ∧ ¬ Channel.Writes mRevent

theorem run_early_of_not {mRevent : EventMask} {io : EventIo}
    (hnot : ¬ (t.established = false ∧ t.dispatched = false ∧ t.batch = none)) :
    (early mRevent io).run t = .ok () t := by
  simp [early, EStateM.run_bind, EStateM.run_get, hnot]

theorem run_early {mRevent : EventMask} {io : EventIo}
    (hcan : t.established = false ∧ t.dispatched = false ∧ t.batch = none) :
    (early mRevent io).run t =
      (onCtx (handleEvent mRevent io)).run { t with dispatched := true } := by
  simp [early, EStateM.run_bind, EStateM.run_get, hcan]

/-- A connection that is not established is closed, and has done nothing but log errors. -/
theorem fresh_of_not_established (h : t.Inv) (hnew : t.established = false) :
    t.ctx.conn.mState = .disConnected ∧ (∃ ch, t.ctx.conn.mpChannel = some ch) ∧
      (∀ e ∈ t.ctx.trace, e.Calm) ∧ t.NoClose := by
  cases h.mode with
  | fresh _ hst hch htr hno => exact ⟨hst, hch, htr, hno⟩
  | opened hs => exact absurd (hs.established.symm.trans hnew) (by decide)
  | closing hest => exact absurd (hest.symm.trans hnew) (by decide)
  | closed hest => exact absurd (hest.symm.trans hnew) (by decide)

theorem early_returns_iff (h : t.Inv) (mRevent : EventMask) (io : EventIo) :
    (∃ t', (early mRevent io).run t = .ok () t') ↔ t.SurvivesEarly mRevent := by
  by_cases hcan : t.established = false ∧ t.dispatched = false ∧ t.batch = none
  · have hst := (fresh_of_not_established h hcan.1).1
    rw [run_early hcan, onCtx_returns_iff]
    rcases handleEvent_of_disConnected hst mRevent io with ⟨hm, es, -, hr⟩ | ⟨hm, c', hr⟩
    · exact iff_of_true ⟨_, hr⟩ fun _ => hm
    · rw [hr]
      exact iff_of_false error_not_ok fun hearly => hm (hearly hcan)
  · rw [run_early_of_not hcan]
    exact iff_of_true ⟨t, rfl⟩ fun hcan' => absurd hcan' hcan

theorem inv_early (h : t.Inv) {mRevent : EventMask} {io : EventIo}
    (hrun : (early mRevent io).run t = .ok () t') : t'.Inv := by
  by_cases hcan : t.established = false ∧ t.dispatched = false ∧ t.batch = none
  · obtain ⟨hst, hch, htr, hno⟩ := fresh_of_not_established h hcan.1
    rw [run_early hcan] at hrun
    obtain rfl := run_onCtx_eq_ok hrun
    rcases handleEvent_of_disConnected hst mRevent io with ⟨-, es, hcalm, hr⟩ | ⟨-, c', hr⟩
    · have horderly := h.orderly.append (fun hmem => htr _ hmem) hcalm
      have hfinal : final ((handleEvent mRevent io).run t.ctx) = t.ctx.note es := by
        rw [hr]
        rfl
      rw [show ({ t with dispatched := true } : Session).ctx = t.ctx from rfl, hfinal]
      refine ⟨h.sound.note es, horderly.1, .fresh hcan.1 hst hch (fun e he => ?_) hno⟩
      exact (List.mem_append.mp he).elim (htr e) (hcalm e)
    · have hstop : (onCtx (handleEvent mRevent io)).run { t with dispatched := true } =
          .error .fatal ⟨c', t.established, true, t.batch⟩ := run_onCtx_error hr
      rw [hstop] at hrun
      cases hrun
  · rw [run_early_of_not hcan] at hrun
    cases hrun
    exact h

end Session

/-! ### The connections of the server -/

namespace PooledServer

variable {s s' : PooledServer} {pos : Nat}

/-- The steps that return: `accept4` gives a peer of a server on IPv4, and the connection survives
what is done to it. -/
def Survives (s : PooledServer) : PooledEvent → Prop
  | .accept res => s.MayAccept → res = .peer ∧ s.server.mIpProtocol = .ipv4
  | .establish onConnection => ∀ pos t, s.accepting = .created pos →
      s.server.sessions[pos]? = some t → t.Survives (.establish onConnection)
  | .early pos mRevent _ => s.maxThreadNum ≠ 0 → ∀ t, s.server.sessions[pos]? = some t →
      t.SurvivesEarly mRevent
  | .conn pos i => s.MayRun i → ∀ t, s.server.sessions[pos]? = some t → t.Survives i
  | .insert | .erase _ => True

/-- Every session keeps its invariant. -/
def SessionsInv (s : PooledServer) : Prop := ∀ t ∈ s.server.sessions, t.Inv

theorem onSession_returns_iff (s : PooledServer) (pos : Nat) (x : EStateM Stop Session Unit) :
    (∃ s', (onSession pos x).run s = .ok () s') ↔
      ∀ t, s.server.sessions[pos]? = some t → ∃ t', x.run t = .ok () t' := by
  cases ht : s.server.sessions[pos]? with
  | none =>
    rw [run_onSession_none ht]
    exact iff_of_true ⟨s, rfl⟩ fun t ht' => by cases ht'
  | some t =>
    rw [run_onSession ht]
    cases hrun : x.run t with
    | ok u t' =>
      refine iff_of_true ⟨_, rfl⟩ fun u hu => ?_
      obtain rfl := Option.some.inj hu
      exact ⟨t', hrun⟩
    | error e t' =>
      refine iff_of_false error_not_ok fun hall => ?_
      obtain ⟨t'', ht''⟩ := hall t rfl
      rw [hrun] at ht''
      cases ht''

/-- A program followed by one that always returns. -/
theorem bind_returns_iff {x y : EStateM Stop PooledServer Unit}
    (hy : ∀ s, ∃ s', y.run s = .ok () s') :
    (∃ s', (do x; y : EStateM Stop PooledServer Unit).run s = .ok () s') ↔
      ∃ s', x.run s = .ok () s' := by
  rw [EStateM.run_bind]
  cases hx : x.run s with
  | ok u s₁ => exact iff_of_true (hy s₁) ⟨s₁, rfl⟩
  | error e s₁ => exact iff_of_false error_not_ok error_not_ok

theorem accept_returns_iff (s : PooledServer) (res : AcceptResult) :
    (∃ s', (accept res).run s = .ok () s') ↔ res = .peer ∧ s.server.mIpProtocol = .ipv4 := by
  unfold accept
  dsimp only [EStateM.run]
  cases res with
  | failed errno => exact iff_of_false error_not_ok fun h => by cases h.1
  | peer =>
    cases hip : s.server.mIpProtocol with
    | ipv4 => exact iff_of_true ⟨s, rfl⟩ ⟨rfl, rfl⟩
    | ipv6 => exact iff_of_false error_not_ok fun h => by cases h.2

theorem step_accept_returns_iff (s : PooledServer) (res : AcceptResult) :
    (∃ s', (step (.accept res)).run s = .ok () s') ↔ s.Survives (.accept res) := by
  by_cases hmay : s.MayAccept
  · have hstep : (step (.accept res)).run s =
        (do
          accept res
          if (← get).server.mConnectionSet.length ≠ TcpServer.MAX_CONNECTION_NUMS then
            modify fun s => { s with
              server.sessions := s.server.sessions ++ [Session.created]
              accepting := .created s.server.sessions.length } :
          EStateM Stop PooledServer Unit).run s := by
      simp [step, EStateM.run_bind, EStateM.run_get, hmay]
    rw [hstep, bind_returns_iff, accept_returns_iff]
    · exact ⟨fun hres _ => hres, fun hres => hres hmay⟩
    · -- at the limit the new connection is dropped
      intro s₁
      rw [EStateM.run_bind, EStateM.run_get]
      dsimp only
      split <;> exact ⟨_, rfl⟩
  · have hsame : (step (.accept res)).run s = .ok () s := by
      simp [step, EStateM.run_bind, EStateM.run_get, hmay]
    exact iff_of_true ⟨s, hsame⟩ fun hmay' => absurd hmay' hmay

theorem step_establish_returns_iff (h : s.SessionsInv) (cs : List UserCall) :
    (∃ s', (step (.establish cs)).run s = .ok () s') ↔ s.Survives (.establish cs) := by
  cases hacc : s.accepting with
  | created pos =>
    have hstep : (step (.establish cs)).run s =
        (do
          onSession pos (Session.step (.establish cs))
          modify fun s => { s with accepting := .established pos } :
          EStateM Stop PooledServer Unit).run s := by
      simp [step, EStateM.run_bind, EStateM.run_get, hacc]
    rw [hstep, bind_returns_iff, onSession_returns_iff]
    · constructor
      · intro hall pos' t hacc' ht
        obtain rfl := Accepting.created.inj (hacc.symm.trans hacc')
        exact (Session.returns_iff (h t (List.mem_of_getElem? ht)) _).mp (hall t ht)
      · exact fun hall t ht =>
          (Session.returns_iff (h t (List.mem_of_getElem? ht)) _).mpr (hall pos t hacc ht)
    · exact fun s₁ => ⟨_, rfl⟩
  | _ =>
    have hsame : (step (.establish cs)).run s = .ok () s := by
      simp [step, EStateM.run_bind, EStateM.run_get, hacc]
    exact iff_of_true ⟨s, hsame⟩ fun pos t hacc' => by simp [hacc] at hacc'

theorem step_early_returns_iff (h : s.SessionsInv) (pos : Nat) (mRevent : EventMask)
    (io : EventIo) :
    (∃ s', (step (.early pos mRevent io)).run s = .ok () s') ↔
      s.Survives (.early pos mRevent io) := by
  by_cases hmax : s.maxThreadNum = 0
  · have hsame : (step (.early pos mRevent io)).run s = .ok () s := by
      simp [step, EStateM.run_bind, EStateM.run_get, hmax]
    exact iff_of_true ⟨s, hsame⟩ fun hmax' => absurd hmax hmax'
  · have hstep : (step (.early pos mRevent io)).run s =
        (onSession pos (Session.early mRevent io)).run s := by
      simp [step, EStateM.run_bind, EStateM.run_get, hmax]
    rw [hstep, onSession_returns_iff]
    refine ⟨fun hall _ t ht => ?_, fun hall t ht => ?_⟩
    · exact (Session.early_returns_iff (h t (List.mem_of_getElem? ht)) _ _).mp (hall t ht)
    · exact (Session.early_returns_iff (h t (List.mem_of_getElem? ht)) _ _).mpr (hall hmax t ht)

theorem step_conn_returns_iff (h : s.SessionsInv) (pos : Nat) (i : SessionEvent) :
    (∃ s', (step (.conn pos i)).run s = .ok () s') ↔ s.Survives (.conn pos i) := by
  by_cases hmay : s.MayRun i
  · have hstep : (step (.conn pos i)).run s =
        (do
          onSession pos (Session.step i)
          if ∃ t ∈ s.server.sessions[pos]?, TcpServer.RunsClose t i then
            modify fun s => { s with erasing := s.erasing ++ [pos] } :
          EStateM Stop PooledServer Unit).run s := by
      simp [step, EStateM.run_bind, EStateM.run_get, hmay]
    rw [hstep, bind_returns_iff, onSession_returns_iff]
    · refine ⟨fun hall _ t ht => ?_, fun hall t ht => ?_⟩
      · exact (Session.returns_iff (h t (List.mem_of_getElem? ht)) _).mp (hall t ht)
      · exact (Session.returns_iff (h t (List.mem_of_getElem? ht)) _).mpr (hall hmay t ht)
    · intro s₁
      split <;> exact ⟨_, rfl⟩
  · have hsame : (step (.conn pos i)).run s = .ok () s := by
      simp [step, EStateM.run_bind, EStateM.run_get, hmay]
    exact iff_of_true ⟨s, hsame⟩ fun hmay' => absurd hmay' hmay

/-- **The steps of the connections that return.** -/
theorem returns_iff (h : s.SessionsInv) (i : PooledEvent) :
    (∃ s', (step i).run s = .ok () s') ↔ s.Survives i := by
  cases i with
  | accept res => exact step_accept_returns_iff s res
  | establish cs => exact step_establish_returns_iff h cs
  | early pos mRevent io => exact step_early_returns_iff h pos mRevent io
  | conn pos i => exact step_conn_returns_iff h pos i
  | insert | erase pos => exact iff_of_true ⟨_, rfl⟩ trivial

/-! ### What a completed step keeps -/

theorem sessionsInv_set (h : s.SessionsInv) {t' : Session} (ht' : t'.Inv) :
    ∀ t ∈ s.server.sessions.set pos t', t.Inv := by
  intro t ht
  rcases List.mem_or_eq_of_mem_set ht with hold | rfl
  · exact h t hold
  · exact ht'

theorem Moves.sessionsInv {i : PooledEvent} (hm : Moves s i s') (h : s.SessionsInv) :
    s'.SessionsInv := by
  cases hm with
  | none => exact h
  | accepted =>
    intro t ht
    rcases List.mem_append.mp ht with hold | hnew
    · exact h t hold
    · rw [List.mem_singleton.mp hnew]
      exact Session.created_inv
  | established hacc ht hok =>
    exact sessionsInv_set h (Session.inv_step (h _ (List.mem_of_getElem? ht)) _ hok)
  | inserted => exact h
  | early ht hok => exact sessionsInv_set h (Session.inv_early (h _ (List.mem_of_getElem? ht)) hok)
  | conn hmay ht hok =>
    exact sessionsInv_set h (Session.inv_step (h _ (List.mem_of_getElem? ht)) _ hok)
  | erased => exact h

/-- Only accepting makes a new connection. -/
theorem Moves.length {i : PooledEvent} (hm : Moves s i s') :
    s'.server.sessions.length = s.server.sessions.length ∨
      (∃ res, i = .accept res) ∧
        s'.server.sessions.length = s.server.sessions.length + 1 := by
  cases hm with
  | accepted => exact .inr ⟨⟨_, rfl⟩, by simp⟩
  | established | early | conn => exact .inl List.length_set
  | _ => exact .inl rfl

/-- An open connection is registered to be read, and is in the set or about to be inserted. -/
theorem open_served (h : s.Inv) (hs : s.SessionsInv) {t : Session}
    (ht : s.server.sessions[pos]? = some t) (hopen : t.ctx.conn.mState ≠ .disConnected) :
    t.ctx.Reading ∧ (pos ∈ s.server.mConnectionSet ∨ s.accepting = .established pos) := by
  have ho := Session.open_of_mState (hs t (List.mem_of_getElem? ht)) hopen
  refine ⟨ho.reading, ?_⟩
  by_cases hacc : s.accepting = .established pos
  · exact .inr hacc
  · obtain ⟨ch, hch, -⟩ := ho.reading
    have hlive : t.Live := ⟨ho.established, by simp [Session.Alive, hch]⟩
    exact .inl (h.live pos ⟨t, ht, hlive⟩ hacc)

/-- **A step of one connection leaves the other connections alone.** -/
theorem conn_frame {i : SessionEvent} (hm : Moves s (.conn pos i) s') {pos' : Nat}
    (hne : pos' ≠ pos) :
    s'.server.sessions[pos']? = s.server.sessions[pos']? ∧
      s'.server.mConnectionSet = s.server.mConnectionSet ∧ s'.accepting = s.accepting ∧
      (pos' ∈ s'.erasing ↔ pos' ∈ s.erasing) := by
  cases hm with
  | none => exact ⟨rfl, rfl, rfl, Iff.rfl⟩
  | conn hmay ht hok =>
    refine ⟨List.getElem?_set_ne hne.symm, rfl, rfl, ?_⟩
    dsimp only
    split
    · simp [hne]
    · exact Iff.rfl

end PooledServer

/-! ### A server with its pool of loops -/

/-- `mpEventLoop` is the loop of the pool that serves the connection at a position, or none where
the loop of the server does. -/
structure ThreadedServer where
  pooled : PooledServer
  mEventLoopPool : EventLoopPool
  mpEventLoop : ℕ → Option ℕ

inductive ServingEvent where
  /-- `epoll_wait` has failed, in one of the loops. -/
  | pollFailed (errno : Errno)
  /-- `epoll_wait` has reported the mask for the listen socket, and `accept4` gives the result. -/
  | listen (mRevent : EventMask) (res : AcceptResult)
  /-- A step of a thread of the pool. -/
  | pool (i : PoolStep)
  /-- A step of the accepting thread, of a connection, or of a close task. -/
  | server (i : PooledEvent)

namespace ThreadedServer

open Function (update)

def start (maxThreadNum : Nat) (mIpProtocol : IpProtocol) : ThreadedServer where
  pooled := PooledServer.start maxThreadNum mIpProtocol
  mEventLoopPool := EventLoopPool.create maxThreadNum
  mpEventLoop := fun _ => none

/-- The loop that serves the connection is in `startLoop`. The loop of the server is. -/
def InLoop (s : ThreadedServer) (pos : Nat) : Prop :=
  ∀ loop ∈ s.mpEventLoop pos, s.mEventLoopPool.mSubThreads loop = .looping

/-- The step is one that its thread can take. Accepting is left to the listen socket, and a loop
that is not started handles no events and runs no tasks. -/
def MayTake (s : ThreadedServer) : PooledEvent → Prop
  | .accept _ => False
  | .establish _ | .insert | .erase _ => True
  | .early pos _ _ => s.InLoop pos
  | .conn pos i => PooledServer.Foreign i ∨ s.InLoop pos

instance (s : ThreadedServer) (pos : Nat) : Decidable (s.InLoop pos) :=
  inferInstanceAs (Decidable (∀ _ ∈ _, _))

instance (s : ThreadedServer) : ∀ i, Decidable (s.MayTake i)
  | .accept _ => inferInstanceAs (Decidable False)
  | .establish _ | .insert | .erase _ => inferInstanceAs (Decidable True)
  | .early pos _ _ => inferInstanceAs (Decidable (s.InLoop pos))
  | .conn _ _ => inferInstanceAs (Decidable (_ ∨ _))

/-- A step of the server and its connections. -/
def onPooled (x : EStateM Stop PooledServer Unit) : EStateM Stop ThreadedServer Unit := fun s =>
  match x.run s.pooled with
  | .ok _ pooled => .ok () { s with pooled }
  | .error e pooled => .error e { s with pooled }

/-- `EventLoopPool::acquireLoop`. The remainder of a division by `mSubLoops.size()` is the
position. -/
def acquireLoop : EStateM Stop ThreadedServer (Option ℕ) := do
  let pool := (← get).mEventLoopPool
  if pool.mMaxThreadNum = 0 then pure none
  else
    match pool.nextLoop with
    | some loop =>
      modify fun s => { s with mEventLoopPool := pool.acquire loop }
      pure (some loop)
    | none => throw .divideByZero

/-- `createNewConnection`, and `createNewConnectionInSubLoop` up to the creation of the connection,
in the thread of the listen socket. Both handlers of the source log the exception of `accept` and
throw it again. -/
def createNewConnection (res : AcceptResult) : EStateM Stop ThreadedServer Unit := do
  let newLoop ← acquireLoop
  modify fun s => { s with
    mpEventLoop := update s.mpEventLoop s.pooled.server.sessions.length newLoop }
  onPooled (PooledServer.step (.accept res))

def step : ServingEvent → EStateM Stop ThreadedServer Unit
  | .pollFailed errno => throw (.systemException errno)
  | .listen mRevent res => do
    -- the listen socket is polled by the loop that accepts
    if (← get).pooled.MayAccept then
      Channel.handleEvent mRevent (throw .fatal) (throw .fatal) (createNewConnection res) (pure ())
  | .pool i => modify fun s =>
    if i.OfThread then { s with mEventLoopPool := (s.mEventLoopPool.step i).getD s.mEventLoopPool }
    else s
  | .server i => do
    if (← get).MayTake i then onPooled (PooledServer.step i)

/-! ### The property -/

/-- Every open connection is registered to be read, and in the set or about to be inserted, and the
loop that serves it runs. -/
def Served (s : ThreadedServer) : Prop :=
  ∀ (pos : Nat) (t : Session), s.pooled.server.sessions[pos]? = some t →
    t.ctx.conn.mState ≠ .disConnected →
      t.ctx.Reading ∧
        (pos ∈ s.pooled.server.mConnectionSet ∨ s.pooled.accepting = .established pos) ∧
        ∀ loop ∈ s.mpEventLoop pos, s.mEventLoopPool.Runs loop

/-- Nothing has ended the server, and every open connection is served. -/
def Serves (r : EStateM.Result Stop ThreadedServer Unit) : Prop :=
  match r with
  | .ok _ s => s.Served
  | .error _ _ => False

/-- The steps whose results the server handles: no poll fails; the listen socket has no error, and
when it is readable there is a loop to acquire and `accept4` gives a peer of a server on IPv4; and
the connections survive what is done to them. -/
def Survives (s : ThreadedServer) : ServingEvent → Prop
  | .pollFailed _ => False
  | .listen mRevent res => s.pooled.MayAccept →
      ¬ Channel.Closes mRevent ∧ ¬ Channel.Errors mRevent ∧
        (Channel.Reads mRevent →
          (s.mEventLoopPool.mMaxThreadNum = 0 ∨ s.mEventLoopPool.mSubLoops ≠ []) ∧
            res = .peer ∧ s.pooled.server.mIpProtocol = .ipv4)
  | .pool _ => True
  | .server i => s.MayTake i → s.pooled.Survives i

/-- The invariant of a server with its pool. -/
structure Inv (s : ThreadedServer) : Prop where
  pooled : s.pooled.Inv
  sessions : s.pooled.SessionsInv
  lively : s.mEventLoopPool.Lively
  loops : ∀ pos < s.pooled.server.sessions.length, ∀ loop ∈ s.mpEventLoop pos,
    s.mEventLoopPool.mSubLoopStates loop = some .Running

variable {s s' : ThreadedServer}

theorem Inv.served (h : s.Inv) : s.Served := by
  intro pos t ht hopen
  obtain ⟨hreading, hmem⟩ := PooledServer.open_served h.pooled h.sessions ht hopen
  have hpos := (List.getElem?_eq_some_iff.mp ht).1
  exact ⟨hreading, hmem, fun loop hloop => h.lively.running loop (h.loops pos hpos loop hloop)⟩

theorem start_inv (maxThreadNum : Nat) (mIpProtocol : IpProtocol) :
    (start maxThreadNum mIpProtocol).Inv where
  pooled := PooledServer.inv_start maxThreadNum mIpProtocol
  sessions := by
    intro t ht
    cases ht
  lively := EventLoopPool.create_lively maxThreadNum
  loops := by
    intro pos hpos
    cases hpos

/-! ### Steps -/

theorem onPooled_returns_iff (s : ThreadedServer) (x : EStateM Stop PooledServer Unit) :
    (∃ s', (onPooled x).run s = .ok () s') ↔ ∃ pooled, x.run s.pooled = .ok () pooled := by
  have hrun : (onPooled x).run s =
      match x.run s.pooled with
      | .ok _ pooled => .ok () { s with pooled }
      | .error e pooled => .error e { s with pooled } := rfl
  rw [hrun]
  cases x.run s.pooled with
  | ok u pooled => exact iff_of_true ⟨_, rfl⟩ ⟨pooled, rfl⟩
  | error e pooled =>
    exact iff_of_false error_not_ok error_not_ok

theorem onPooled_eq_ok {x : EStateM Stop PooledServer Unit} (h : (onPooled x).run s = .ok () s') :
    ∃ pooled, x.run s.pooled = .ok () pooled ∧ s' = { s with pooled } := by
  have hrun : (onPooled x).run s =
      match x.run s.pooled with
      | .ok _ pooled => .ok () { s with pooled }
      | .error e pooled => .error e { s with pooled } := rfl
  rw [hrun] at h
  cases hx : x.run s.pooled with
  | ok u pooled =>
    rw [hx] at h
    cases h
    exact ⟨pooled, rfl, rfl⟩
  | error e pooled =>
    rw [hx] at h
    cases h

/-- The loop that a new connection gets. -/
theorem acquireLoop_cases (h : s.mEventLoopPool.Lively) :
    (s.mEventLoopPool.mMaxThreadNum = 0 ∧ acquireLoop.run s = .ok none s) ∨
    (s.mEventLoopPool.mMaxThreadNum ≠ 0 ∧ s.mEventLoopPool.mSubLoops = [] ∧
      acquireLoop.run s = .error .divideByZero s) ∨
    (∃ loop pool, s.mEventLoopPool.mSubLoops ≠ [] ∧ pool.Lively ∧
      pool.mSubLoopStates loop = some .Running ∧
      (∀ j, s.mEventLoopPool.mSubLoopStates j = some .Running →
        pool.mSubLoopStates j = some .Running) ∧
      acquireLoop.run s = .ok (some loop) { s with mEventLoopPool := pool }) := by
  by_cases hmax : s.mEventLoopPool.mMaxThreadNum = 0
  · exact .inl ⟨hmax, by simp [acquireLoop, EStateM.run_bind, EStateM.run_get, hmax]⟩
  right
  cases hnext : s.mEventLoopPool.nextLoop with
  | none =>
    refine .inl ⟨hmax, ?_, by simp [acquireLoop, EStateM.run_bind, EStateM.run_get, hmax, hnext]⟩
    -- the position is below the number of the loops, if there are any
    by_contra hne
    have hpos := List.length_pos_iff.mpr hne
    have hge := List.getElem?_eq_none_iff.mp hnext
    exact absurd (Nat.mod_lt _ hpos) hge.not_gt
  | some loop =>
    have hmem := EventLoopPool.nextLoop_mem hnext
    obtain ⟨hlively, hrunning, hothers⟩ := EventLoopPool.lively_acquire h hmem
    refine .inr ⟨loop, s.mEventLoopPool.acquire loop, List.ne_nil_of_mem hmem, hlively, hrunning,
      hothers, ?_⟩
    simp [acquireLoop, EStateM.run_bind, EStateM.run_get, hmax, hnext]

/-- A connection is accepted, with a loop that runs. -/
theorem inv_accepted (h : s.Inv) {pool : EventLoopPool} {newLoop : Option ℕ}
    (hlively : pool.Lively) (hnew : ∀ loop ∈ newLoop, pool.mSubLoopStates loop = some .Running)
    (hold : ∀ j, s.mEventLoopPool.mSubLoopStates j = some .Running →
      pool.mSubLoopStates j = some .Running) {res : AcceptResult}
    (hrun : (onPooled (PooledServer.step (.accept res))).run { s with
      mEventLoopPool := pool
      mpEventLoop := update s.mpEventLoop s.pooled.server.sessions.length newLoop } = .ok () s') :
    s'.Inv := by
  obtain ⟨pooled, hstep, rfl⟩ := onPooled_eq_ok hrun
  have hmoves := PooledServer.moves_of_ok h.pooled.created hstep
  refine ⟨PooledServer.inv_step h.pooled hstep, hmoves.sessionsInv h.sessions, hlively,
    fun pos hpos loop hloop => ?_⟩
  change loop ∈ update s.mpEventLoop s.pooled.server.sessions.length newLoop pos at hloop
  by_cases hlast : pos = s.pooled.server.sessions.length
  · rw [hlast, Function.update_self] at hloop
    exact hnew loop hloop
  · rw [Function.update_of_ne hlast] at hloop
    have hlen := hmoves.length
    have hlt : pos < s.pooled.server.sessions.length := by
      have hpos' : pos < pooled.server.sessions.length := hpos
      omega
    exact hold loop (h.loops pos hlt loop hloop)

theorem createNewConnection_returns_iff (h : s.Inv) (hmay : s.pooled.MayAccept)
    (res : AcceptResult) :
    (∃ s', (createNewConnection res).run s = .ok () s') ↔
      (s.mEventLoopPool.mMaxThreadNum = 0 ∨ s.mEventLoopPool.mSubLoops ≠ []) ∧
        res = .peer ∧ s.pooled.server.mIpProtocol = .ipv4 := by
  have haccept : (∃ pooled, (PooledServer.step (.accept res)).run s.pooled = .ok () pooled) ↔
      res = .peer ∧ s.pooled.server.mIpProtocol = .ipv4 :=
    (PooledServer.returns_iff h.sessions _).trans ⟨fun hres => hres hmay, fun hres _ => hres⟩
  rw [createNewConnection, EStateM.run_bind]
  rcases acquireLoop_cases h.lively with
    ⟨hmax, hacq⟩ | ⟨hmax, hnone, hacq⟩ | ⟨loop, pool, hne, -, -, -, hacq⟩
  · rw [hacq]
    exact (onPooled_returns_iff _ _).trans (haccept.trans (and_iff_right (.inl hmax)).symm)
  · -- there is no loop yet
    rw [hacq]
    exact iff_of_false error_not_ok fun ⟨hloops, _⟩ =>
      hloops.elim hmax fun hne => hne hnone
  · rw [hacq]
    exact (onPooled_returns_iff _ _).trans (haccept.trans (and_iff_right (.inr hne)).symm)

theorem inv_createNewConnection (h : s.Inv) {res : AcceptResult}
    (hrun : (createNewConnection res).run s = .ok () s') : s'.Inv := by
  rw [createNewConnection, EStateM.run_bind] at hrun
  rcases acquireLoop_cases h.lively with
    ⟨-, hacq⟩ | ⟨-, -, hacq⟩ | ⟨loop, pool, -, hlively, hrunning, hold, hacq⟩
  · rw [hacq] at hrun
    exact inv_accepted h h.lively (by simp) (fun _ => id) hrun
  · rw [hacq] at hrun
    cases hrun
  · rw [hacq] at hrun
    refine inv_accepted h hlively (fun loop' hloop' => ?_) hold hrun
    obtain rfl := Option.some.inj hloop'
    exact hrunning

theorem run_listen (hmay : s.pooled.MayAccept) (mRevent : EventMask) (res : AcceptResult) :
    (step (.listen mRevent res)).run s =
      (Channel.handleEvent mRevent (throw .fatal) (throw .fatal) (createNewConnection res)
        (pure ()) : EStateM Stop ThreadedServer Unit).run s := by
  simp [step, EStateM.run_bind, EStateM.run_get, hmay]

/-- Without an error or a hang-up, the listen socket is readable or nothing is done. -/
theorem run_listen_of_ready (hmay : s.pooled.MayAccept) {mRevent : EventMask}
    (hready : Channel.Ready mRevent) (res : AcceptResult) :
    (step (.listen mRevent res)).run s =
      if Channel.Reads mRevent then (createNewConnection res).run s else .ok () s := by
  rw [run_listen hmay, Channel.handleEvent_of_ready _ _ _ _ hready]
  by_cases hr : mRevent.Meets (EPOLLIN ||| EPOLLPRI ||| EPOLLRDHUP)
  · have hreads : Channel.Reads mRevent := ⟨hready, hr⟩
    simp [hr, hreads]
  · have hnot : ¬ Channel.Reads mRevent := fun hreads => hr hreads.2
    simp [hr, hnot]

theorem run_listen_of_not (hnot : ¬ s.pooled.MayAccept) (mRevent : EventMask)
    (res : AcceptResult) : (step (.listen mRevent res)).run s = .ok () s := by
  simp [step, EStateM.run_bind, EStateM.run_get, hnot]

theorem run_server (s : ThreadedServer) (i : PooledEvent) :
    (step (.server i)).run s =
      if s.MayTake i then (onPooled (PooledServer.step i)).run s else .ok () s := by
  by_cases hmay : s.MayTake i <;> simp [step, EStateM.run_bind, EStateM.run_get, hmay]

theorem listen_returns_iff (h : s.Inv) (mRevent : EventMask) (res : AcceptResult) :
    (∃ s', (step (.listen mRevent res)).run s = .ok () s') ↔ s.Survives (.listen mRevent res) := by
  by_cases hmay : s.pooled.MayAccept
  · rcases Channel.closes_or_errors_or_ready mRevent with hcl | herr | hready
    · rw [run_listen hmay, Channel.handleEvent_of_closes _ _ _ _ hcl]
      exact iff_of_false error_not_ok fun hi => (hi hmay).1 hcl
    · rw [run_listen hmay, Channel.handleEvent_of_errors _ _ _ _ herr]
      exact iff_of_false error_not_ok fun hi => (hi hmay).2.1 herr
    · have hnot : ¬ Channel.Errors mRevent := fun herr => hready.2 herr.2
      rw [run_listen_of_ready hmay hready]
      split
      · next hr =>
        rw [createNewConnection_returns_iff h hmay]
        exact ⟨fun hres _ => ⟨hready.1, hnot, fun _ => hres⟩, fun hi => (hi hmay).2.2 hr⟩
      · next hr =>
        exact iff_of_true ⟨s, rfl⟩ fun _ => ⟨hready.1, hnot, fun hr' => absurd hr' hr⟩
  · rw [run_listen_of_not hmay]
    exact iff_of_true ⟨s, rfl⟩ fun hmay' => absurd hmay' hmay

/-- **The steps that return.** -/
theorem returns_iff (h : s.Inv) (i : ServingEvent) :
    (∃ s', (step i).run s = .ok () s') ↔ s.Survives i := by
  cases i with
  | pollFailed errno => exact iff_of_false error_not_ok id
  | listen mRevent res => exact listen_returns_iff h mRevent res
  | pool i => exact iff_of_true ⟨_, rfl⟩ trivial
  | server i =>
    rw [run_server]
    split
    · next hmay =>
      rw [onPooled_returns_iff, PooledServer.returns_iff h.sessions]
      exact ⟨fun hi _ => hi, fun hi => hi hmay⟩
    · next hmay => exact iff_of_true ⟨s, rfl⟩ fun hmay' => absurd hmay' hmay

/-- A step of the threads of the pool. -/
theorem inv_pool (h : s.Inv) {i : PoolStep} (hi : i.OfThread) :
    Inv { s with mEventLoopPool := (s.mEventLoopPool.step i).getD s.mEventLoopPool } := by
  cases hstep : s.mEventLoopPool.step i with
  | none => exact h
  | some pool =>
    obtain ⟨hlively, hrunning⟩ := EventLoopPool.lively_step h.lively hi hstep
    exact ⟨h.pooled, h.sessions, hlively,
      fun pos hpos loop hloop => hrunning loop (h.loops pos hpos loop hloop)⟩

/-- A step of the server and its connections that accepts none. -/
theorem inv_server (h : s.Inv) {i : PooledEvent} (hi : ∀ res, i ≠ .accept res)
    (hrun : (onPooled (PooledServer.step i)).run s = .ok () s') : s'.Inv := by
  obtain ⟨pooled, hstep, rfl⟩ := onPooled_eq_ok hrun
  have hmoves := PooledServer.moves_of_ok h.pooled.created hstep
  refine ⟨PooledServer.inv_step h.pooled hstep, hmoves.sessionsInv h.sessions, h.lively,
    fun pos hpos => h.loops pos ?_⟩
  rcases hmoves.length with hlen | ⟨⟨res, hres⟩, -⟩
  · exact hlen ▸ hpos
  · exact absurd hres (hi res)

/-- **A step that returns keeps the invariant.** -/
theorem inv_step {i : ServingEvent} (h : s.Inv) (hrun : (step i).run s = .ok () s') : s'.Inv := by
  cases i with
  | pollFailed errno => cases hrun
  | listen mRevent res =>
    by_cases hmay : s.pooled.MayAccept
    · obtain ⟨hcl, herr, -⟩ := (listen_returns_iff h mRevent res).mp ⟨s', hrun⟩ hmay
      have hready : Channel.Ready mRevent :=
        ((Channel.closes_or_errors_or_ready mRevent).resolve_left hcl).resolve_left herr
      rw [run_listen_of_ready hmay hready] at hrun
      split at hrun
      · exact inv_createNewConnection h hrun
      · cases hrun
        exact h
    · rw [run_listen_of_not hmay] at hrun
      cases hrun
      exact h
  | pool i =>
    have hstep : (step (.pool i)).run s = .ok () (if i.OfThread then { s with
        mEventLoopPool := (s.mEventLoopPool.step i).getD s.mEventLoopPool } else s) := rfl
    obtain rfl := (EStateM.Result.ok.inj (hstep.symm.trans hrun)).2
    split
    · exact inv_pool h ‹_›
    · exact h
  | server i =>
    rw [run_server] at hrun
    split at hrun
    · next hmay =>
      refine inv_server h ?_ hrun
      rintro res rfl
      exact hmay
    · cases hrun
      exact h

/-! ### Runs -/

/-- **The server serves** throughout the runs whose results it handles, and no others. -/
theorem serves_iff (maxThreadNum : Nat) (mIpProtocol : IpProtocol) (is : List ServingEvent) :
    Always step Serves (start maxThreadNum mIpProtocol) is ↔
      Along step Survives (start maxThreadNum mIpProtocol) is := by
  refine always_iff_along (I := Inv) (fun s h => h.served) (fun s i s' h _ hrun => inv_step h hrun)
    ?_ ?_ (start_inv maxThreadNum mIpProtocol)
  · intro s i e s' h hi hrun
    obtain ⟨s₁, hok⟩ := (returns_iff h i).mpr hi
    rw [hrun] at hok
    cases hok
  · intro s i h hserves
    cases hrun : (step i).run s with
    | ok u s' => exact (returns_iff h i).mp ⟨s', hrun⟩
    | error e s' =>
      rw [hrun] at hserves
      exact hserves.elim

/-- A connection attempt that is gone when `accept4` looks for it ends the server. -/
theorem not_serves_accept_failed :
    ¬ ∀ (maxThreadNum : Nat) (mIpProtocol : IpProtocol) (is : List ServingEvent),
      Always step Serves (start maxThreadNum mIpProtocol) is := by
  intro h
  have hstop := (h 0 .ipv4 [.listen EPOLLIN (.failed Errno.ECONNABORTED)]).head
  have hrun : ∃ s, (step (.listen EPOLLIN (.failed Errno.ECONNABORTED))).run (start 0 .ipv4) =
      .error (.networkException Errno.ECONNABORTED) s := ⟨_, rfl⟩
  obtain ⟨s, hs⟩ := hrun
  rw [hs] at hstop
  exact hstop

end ThreadedServer

end SimpleTcp
