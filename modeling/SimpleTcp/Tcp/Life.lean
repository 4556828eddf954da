import SimpleTcp.Library.Trace
import SimpleTcp.Tcp.Session

/-!
# The life of a connection

A server-side connection is established once, delivers events to its handlers, is closed by one of
them and is destroyed by the task that `handleClose` queues. The trace of a session records the
states and the handlers; it is orderly when the states follow the documented edges and no handler
is entered after `handleClose`.

## Main definitions

* `Follows`, `Orderly`: the documented edges, and the orderly traces
* `Session.Mode`, `Session.Inv`: where a session is in its life, and the invariant of its runs
* `Session.WritesInOrder`: the events whose write callback finds the connection connected

## Main results

* `Session.step_outcome`: one step keeps the invariant, or stops where its event does
* `Session.inv_step`: a step that returns keeps the invariant
* `Session.orderly_iff`: the runs in which no assertion fails and the trace is orderly
-/

namespace SimpleTcp

open TcpConnection

/-! ### Orderly traces -/

/-- The documented edges, and the assignment of the state it already has. -/
inductive Follows : ConnState → ConnState → Prop
  | same (s : ConnState) : Follows s s
  | connect : Follows .disConnected .connected
  | shutdown : Follows .connected .halfClosed
  | close : Follows .connected .disConnected
  | closeHalf : Follows .halfClosed .disConnected

/-- The state assigned last. -/
def lastState (t : List Effect) : ConnState :=
  t.foldl (fun s e =>
    match e with
    | .state s' => s'
    | _ => s) .disConnected

/-- The entry may follow the entries `pre`. -/
def AllowedAfter (pre : List Effect) : Effect → Prop
  | .state s => Follows (lastState pre) s
  | .entered h => .entered .handleClose ∈ pre → h = .destroyConnection
  | _ => True

/-- `mState` takes the documented edges only, and after `handleClose` was entered no handler is
entered but `destroyConnection`. -/
def Orderly (t : List Effect) : Prop := Trace.Each AllowedAfter t

@[simp] theorem lastState_concat_state (t : List Effect) (s : ConnState) :
    lastState (t ++ [.state s]) = s := by simp [lastState]

theorem lastState_concat_entered (t : List Effect) (h : Handler) :
    lastState (t ++ [.entered h]) = lastState t := by simp [lastState]

theorem lastState_append {t es : List Effect} (hes : ∀ e ∈ es, e.Calm) :
    lastState (t ++ es) = lastState t := by
  induction es generalizing t with
  | nil => rw [List.append_nil]
  | cons e es ih =>
    rw [List.append_cons, ih fun e' he' => hes e' (List.mem_cons_of_mem _ he')]
    have he := hes e List.mem_cons_self
    cases e <;> simp_all [lastState, Effect.Calm]

/-- Calm entries keep a trace orderly as long as the connection is not closed. -/
theorem Orderly.append {t es : List Effect} (h : Orderly t) (hclose : .entered .handleClose ∉ t)
    (hes : ∀ e ∈ es, e.Calm) : Orderly (t ++ es) ∧ .entered .handleClose ∉ t ++ es := by
  induction es generalizing t with
  | nil =>
    rw [List.append_nil]
    exact ⟨h, hclose⟩
  | cons e es ih =>
    have he := hes e List.mem_cons_self
    rw [List.append_cons]
    refine ih (Trace.each_concat.mpr ⟨h, ?_⟩) ?_ fun e' he' => hes e' (List.mem_cons_of_mem _ he')
    · cases e with
      | state s => exact he.elim
      | entered h => exact fun hmem => absurd hmem hclose
      | _ => trivial
    · intro hmem
      rcases List.mem_append.mp hmem with hmem | hmem
      · exact hclose hmem
      · obtain rfl := List.mem_singleton.mp hmem
        exact he

/-! ### The life of a session -/

namespace Session

/-- No close task is waiting. -/
def NoClose (s : Session) : Prop :=
  .close ∉ s.ctx.mPendingTasks ∧ ∀ ts ∈ s.batch, .close ∉ ts

/-- The event of the channel is handled, and the close task runs before the next poll. -/
def CloseWaits (s : Session) : Prop :=
  s.dispatched = true ∧ (s.batch = none ∧ .close ∈ s.ctx.mPendingTasks ∨
    ∃ ts, s.batch = some ts ∧ .close ∈ ts)

/-- The connection is established and not closed. -/
structure Open (s : Session) : Prop where
  established : s.established = true
  mState : s.ctx.conn.mState ≠ .disConnected
  close : .entered .handleClose ∉ s.ctx.trace
  last : lastState s.ctx.trace = s.ctx.conn.mState
  reading : s.ctx.Reading
  noClose : s.NoClose

/-- Where a session is in its life. -/
inductive Mode (s : Session) : Prop
  | fresh (hnew : s.established = false) (hst : s.ctx.conn.mState = .disConnected)
      (hch : ∃ ch, s.ctx.conn.mpChannel = some ch) (htr : ∀ e ∈ s.ctx.trace, e.Calm)
      (hno : s.NoClose)
  | opened (h : s.Open)
  | closing (hest : s.established = true) (hst : s.ctx.conn.mState = .disConnected)
      (hwait : s.CloseWaits)
  | closed (hest : s.established = true) (hst : s.ctx.conn.mState = .disConnected)
      (hch : s.ctx.conn.mpChannel = none)

/-- The invariant of a session. -/
structure Inv (s : Session) : Prop where
  sound : s.ctx.Sound
  orderly : Orderly s.ctx.trace
  mode : s.Mode

/-- A step keeps the invariant, or stops as `E` allows with an orderly trace. -/
def StepOutcome (E : Stop → Prop) : EStateM.Result Stop Session Unit → Prop
  | .ok _ s' => s'.Inv
  | .error e s' => E e ∧ Orderly s'.ctx.trace

theorem created_inv : created.Inv where
  sound := ⟨TcpBuffer.fresh_valid, TcpBuffer.fresh_hasRoom, fun h => absurd rfl h⟩
  orderly := Trace.each_nil
  mode := .fresh rfl rfl ⟨_, rfl⟩ (by simp [created]) ⟨by simp [created], by simp [created]⟩

variable {E : Stop → Prop} {s : Session} {c : Ctx}

theorem NoClose.of_tasks {b : Option (List ConnTask)} (hno : s.NoClose)
    (hb : ∀ ts ∈ b, .close ∉ ts) {n : Nat}
    (htasks : c.mPendingTasks = s.ctx.mPendingTasks ++ List.replicate n .shutdown)
    (d e : Bool) : NoClose ⟨c, e, d, b⟩ := by
  refine ⟨?_, hb⟩
  change .close ∉ c.mPendingTasks
  rw [htasks]
  intro hmem
  rcases List.mem_append.mp hmem with hmem | hmem
  · exact hno.1 hmem
  · cases List.eq_of_mem_replicate hmem

/-- An open connection that stays open. -/
theorem inv_of_stays (ho : Orderly s.ctx.trace) (hs : s.Open) (h : Stays s.ctx c) (d : Bool)
    {b : Option (List ConnTask)} (hb : ∀ ts ∈ b, .close ∉ ts) : Inv ⟨c, true, d, b⟩ := by
  obtain ⟨es, htr, hcalm⟩ := h.trace
  obtain ⟨horderly, hnot⟩ := ho.append hs.close hcalm
  obtain ⟨n, hn⟩ := h.tasks
  have horderly' : Orderly c.trace := by rwa [htr]
  exact ⟨h.sound, horderly', .opened {
    established := rfl
    mState := h.mState ▸ hs.mState
    close := by
      change _ ∉ c.trace
      rwa [htr]
    last := by
      change lastState c.trace = c.conn.mState
      rw [htr, lastState_append hcalm, hs.last, h.mState]
    reading := h.reading hs.reading
    noClose := hs.noClose.of_tasks hb hn d true }⟩

/-- A connection that is not connected, after calls on it. -/
theorem inv_of_called (h : s.Inv) (hc : Called s.ctx c [])
    (hst : s.ctx.conn.mState = .disConnected) : Inv { s with ctx := c } := by
  have htr : c.trace = s.ctx.trace := by simpa using hc.trace
  obtain ⟨n, hn⟩ := hc.tasks
  have hst' : c.conn.mState = .disConnected := hc.mState.trans hst
  refine ⟨hc.sound, ?_, ?_⟩
  · change Orderly c.trace
    rw [htr]
    exact h.orderly
  · cases h.mode with
    | fresh hnew _ hch htr₀ hno =>
      refine .fresh hnew hst' ?_ (htr ▸ htr₀) (hno.of_tasks hno.2 hn _ _)
      obtain ⟨ch, hch⟩ := hch
      rcases hc.channel with hsame | ⟨ch', -, hen⟩
      · exact ⟨ch, hsame.trans hch⟩
      · exact ⟨_, hen⟩
    | opened hs => exact absurd hst hs.mState
    | closing hest _ hwait =>
      -- the calls queue behind the close task
      refine .closing hest hst' ⟨hwait.1, hwait.2.imp_left fun ⟨hb, hmem⟩ => ⟨hb, ?_⟩⟩
      change _ ∈ c.mPendingTasks
      rw [hn]
      exact List.mem_append_left _ hmem
    | closed hest _ hch => exact .closed hest hst' (hc.stays.channel hch)

/-- A task other than a close is queued. -/
theorem inv_of_queued (h : s.Inv) {t : ConnTask} (ht : t ≠ .close) :
    Inv { s with ctx.mPendingTasks := s.ctx.mPendingTasks ++ [t] } := by
  refine ⟨⟨h.sound.send, h.sound.recv, h.sound.channel⟩, h.orderly, ?_⟩
  have hno : s.NoClose → NoClose { s with ctx.mPendingTasks := s.ctx.mPendingTasks ++ [t] } := by
    refine fun hno => ⟨fun hmem => ?_, hno.2⟩
    rcases List.mem_append.mp hmem with hmem | hmem
    · exact hno.1 hmem
    · exact ht (List.mem_singleton.mp hmem).symm
  cases h.mode with
  | fresh hnew hst hch htr hn => exact .fresh hnew hst hch htr (hno hn)
  | opened hs =>
    exact .opened ⟨hs.established, hs.mState, hs.close, hs.last, hs.reading, hno hs.noClose⟩
  | closing hest hst hwait =>
    exact .closing hest hst ⟨hwait.1, hwait.2.imp_left fun ⟨hb, hmem⟩ =>
      ⟨hb, List.mem_append_left _ hmem⟩⟩
  | closed hest hst hch => exact .closed hest hst hch

/-- An open connection whose last handler was `handleClose`. -/
theorem inv_of_closing (ho : Orderly s.ctx.trace) (hs : s.Open) {c₁ : Ctx} (h : Stays s.ctx c₁)
    (hc : Called c₁.closing c []) : Inv ⟨c, true, true, none⟩ := by
  obtain ⟨es, htr, hcalm⟩ := h.trace
  obtain ⟨horderly, hnot⟩ := ho.append hs.close hcalm
  obtain ⟨n, hn⟩ := hc.tasks
  have htrace : c.trace = ((s.ctx.trace ++ es) ++ [.entered .handleClose]) ++
      [.state .disConnected] := by
    rw [hc.trace]
    simp [Ctx.closing, htr]
  have hfollows : Follows s.ctx.conn.mState .disConnected := by
    cases hst : s.ctx.conn.mState with
    | connected => exact .close
    | halfClosed => exact .closeHalf
    | disConnected => exact absurd hst hs.mState
  -- The close callback has queued the task, and the channel is not polled before it runs.
  refine ⟨hc.sound, ?_, .closing rfl hc.mState ⟨rfl, .inl ⟨rfl, ?_⟩⟩⟩
  · change Orderly c.trace
    rw [htrace]
    refine Trace.each_concat.mpr ⟨Trace.each_concat.mpr ⟨horderly, fun h => absurd h hnot⟩, ?_⟩
    change Follows (lastState _) _
    rwa [lastState_concat_entered, lastState_append hcalm, hs.last]
  · change _ ∈ c.mPendingTasks
    rw [hn]
    exact List.mem_append_left _ (List.mem_append_right _ (List.mem_singleton_self _))

/-- The shutdown task leaves an open connection open. -/
theorem stays_of_shut (h : c.Sound) (hopen : c.conn.mState ≠ .disConnected) :
    Stays { c with conn.mState := .halfClosed, trace := c.trace ++ [.state .halfClosed] }
      c.shut := by
  have hhalf : Ctx.Sound
      { c with conn.mState := .halfClosed, trace := c.trace ++ [.state .halfClosed] } :=
    ⟨h.send, h.recv, fun _ => h.channel hopen⟩
  refine (Stays.writeOff hhalf).trans (.note hhalf.writeOff fun e he => ?_)
  obtain rfl := List.mem_singleton.mp he
  trivial

theorem inv_of_shut (ho : Orderly s.ctx.trace) (hs : s.Open) (h : Stays s.ctx c) (d : Bool)
    {b : Option (List ConnTask)} (hb : ∀ ts ∈ b, .close ∉ ts) : Inv ⟨c.shut, true, d, b⟩ := by
  obtain ⟨es, htr, hcalm⟩ := h.trace
  obtain ⟨horderly, hnot⟩ := ho.append hs.close hcalm
  obtain ⟨n, hn⟩ := h.tasks
  have hopen : c.conn.mState ≠ .disConnected := h.mState ▸ hs.mState
  have hfollows : Follows s.ctx.conn.mState .halfClosed := by
    cases hst : s.ctx.conn.mState with
    | connected => exact .shutdown
    | halfClosed => exact .same _
    | disConnected => exact absurd hst hs.mState
  -- `mState` is assigned first; then write interest goes and the socket is shut down.
  let s₁ : Session := ⟨{ c with
    conn.mState := .halfClosed
    trace := c.trace ++ [.state .halfClosed] }, true, d, b⟩
  have horderly₁ : Orderly s₁.ctx.trace := by
    change Orderly (c.trace ++ [.state .halfClosed])
    rw [htr]
    refine Trace.each_concat.mpr ⟨horderly, ?_⟩
    change Follows (lastState _) _
    rwa [lastState_append hcalm, hs.last]
  have hs₁ : s₁.Open := {
    established := rfl
    mState := fun h => by cases h
    close := by
      change _ ∉ c.trace ++ [.state .halfClosed]
      rw [htr]
      intro hmem
      rcases List.mem_append.mp hmem with hmem | hmem
      · exact hnot hmem
      · cases List.mem_singleton.mp hmem
    last := lastState_concat_state _ _
    reading := h.reading hs.reading
    noClose := hs.noClose.of_tasks hb hn d true }
  exact inv_of_stays horderly₁ hs₁ (stays_of_shut h.sound hopen) d hb

/-! ### One step -/

theorem run_onCtx_ok {x : ConnM Unit} (h : x.run s.ctx = .ok () c) :
    (onCtx x).run s = .ok () { s with ctx := c } := by
  change onCtx x s = _
  unfold onCtx
  rw [h]

theorem run_onCtx_error {x : ConnM Unit} {e : Stop} (h : x.run s.ctx = .error e c) :
    (onCtx x).run s = .error e { s with ctx := c } := by
  change onCtx x s = _
  unfold onCtx
  rw [h]

theorem run_establish_of_established (hest : s.established = true) (cs : List UserCall) :
    (step (.establish cs)).run s = .ok () s := by
  simp [step, EStateM.run_bind, EStateM.run_get, hest]

theorem batch_cases (s : Session) :
    s.batch.getD [] = [] ∨ ∃ t ts, s.batch = some (t :: ts) := by
  cases hb : s.batch with
  | none => exact .inl rfl
  | some batch =>
    cases batch with
    | nil => exact .inl rfl
    | cons t ts => exact .inr ⟨t, ts, rfl⟩

theorem run_task_of_empty (hb : s.batch.getD [] = []) (io : TaskIo) :
    (step (.task io)).run s = .ok () s := by
  rcases Option.getD_eq_iff.mp hb with hb | ⟨hb, -⟩ <;>
    simp [step, EStateM.run_bind, EStateM.run_get, hb]

theorem run_task_cons {t : ConnTask} {ts : List ConnTask} (hb : s.batch = some (t :: ts))
    (io : TaskIo) :
    (step (.task io)).run s = (onCtx (runConnTask io t)).run { s with batch := some ts } := by
  simp [step, EStateM.run_bind, EStateM.run_get, hb]

theorem doPendingTasks_cases {s' : Session} (hrun : (step .doPendingTasks).run s = .ok () s') :
    s' = s ∨ s.batch = none ∧
      s' = { s with batch := some s.ctx.mPendingTasks, ctx.mPendingTasks := [] } := by
  simp only [step, EStateM.run_modify, EStateM.Result.ok.injEq, true_and] at hrun
  subst hrun
  cases hb : s.batch with
  | none => exact .inr ⟨rfl, rfl⟩
  | some ts => exact .inl rfl

theorem poll_cases {s' : Session} (hrun : (step .poll).run s = .ok () s') :
    s' = s ∨ s.batch = some [] ∧ s' = { s with batch := none, dispatched := false } := by
  simp only [step, EStateM.run_modify, EStateM.Result.ok.injEq, true_and] at hrun
  subst hrun
  split
  · exact .inr ⟨‹_›, rfl⟩
  · exact .inl rfl

/-- A stop of an open connection keeps its trace orderly. -/
theorem orderly_of_stopped (ho : Orderly s.ctx.trace) (hs : s.Open)
    (h : ∃ es, c.trace = s.ctx.trace ++ es ∧ ∀ e ∈ es, e.Calm) : Orderly c.trace := by
  obtain ⟨es, htr, hcalm⟩ := h
  rw [htr]
  exact (ho.append hs.close hcalm).1

/-- A program that keeps an open connection open. -/
theorem outcome_of_stays (h : s.Inv) (hs : s.Open) {x : ConnM Unit} {s₁ : Session}
    (hctx : s₁.ctx = s.ctx) (hest : s₁.established = s.established)
    (hb : ∀ ts ∈ s₁.batch, .close ∉ ts) (hx : StaysOutcome E s.ctx (x.run s.ctx)) :
    StepOutcome E ((onCtx x).run s₁) := by
  rw [← hctx] at hx
  cases hrun : x.run s₁.ctx with
  | ok u c =>
    rw [hrun, hctx] at hx
    rw [run_onCtx_ok hrun]
    have hinv := inv_of_stays h.orderly hs hx s₁.dispatched hb
    have hest' : s₁.established = true := hest.trans hs.established
    change Inv ⟨c, s₁.established, s₁.dispatched, s₁.batch⟩
    rwa [hest']
  | error e c =>
    rw [hrun, hctx] at hx
    rw [run_onCtx_error hrun]
    exact ⟨hx.1, orderly_of_stopped h.orderly hs hx.2⟩

theorem outcome_establish (h : s.Inv) (hE : ∀ e, TcpBuffer.GrowStop e → E e)
    (cs : List UserCall) : StepOutcome E ((step (.establish cs)).run s) := by
  by_cases hnew : s.established = false
  · -- the first call finds a connection that is only created
    have hmode := h.mode
    cases hmode with
    | fresh _ hst hch htr hno =>
      obtain ⟨ch, hch⟩ := hch
      let s₁ : Session := ⟨s.ctx.established ch, true, s.dispatched, s.batch⟩
      have hlast : lastState s.ctx.trace = .disConnected := by
        rw [← s.ctx.trace.nil_append, lastState_append htr]
        rfl
      -- its state goes to `connected`, and the channel reads
      have hinv₁ : Orderly s₁.ctx.trace := by
        refine Trace.each_concat.mpr ⟨h.orderly, ?_⟩
        change Follows (lastState _) _
        rw [hlast]
        exact Follows.connect
      have hs₁ : s₁.Open := {
        established := rfl
        mState := fun h => by cases h
        close := by
          intro hmem
          rcases List.mem_append.mp hmem with hmem | hmem
          · exact htr _ hmem
          · cases List.mem_singleton.mp hmem
        last := lastState_concat_state _ _
        reading := ⟨_, rfl, ch.isReading_enableRead⟩
        noClose := hno }
      -- the rest of the step is the user's callback
      have hrun : (step (.establish cs)).run s = (onCtx (runCalls cs)).run s₁ := by
        have hest : (establishConnect cs).run s.ctx = (runCalls cs).run s₁.ctx :=
          run_establishConnect hch cs
        simp only [step, EStateM.run_bind, EStateM.run_get, hnew, if_true, EStateM.run_modify]
        change onCtx (establishConnect cs) _ = onCtx (runCalls cs) s₁
        unfold onCtx
        rw [hest]
      rw [hrun]
      have hsound : s₁.Inv := ⟨h.sound.established ch, hinv₁, .opened hs₁⟩
      refine outcome_of_stays hsound hs₁ rfl rfl hno.2 ?_
      exact (runCalls_outcome cs hsound.sound).stays hE
    -- an established connection is in no other mode
    | opened hs => exact absurd (hs.established.symm.trans hnew) (by decide)
    | closing hest => exact absurd (hest.symm.trans hnew) (by decide)
    | closed hest => exact absurd (hest.symm.trans hnew) (by decide)
  · rw [run_establish_of_established (by simpa using hnew)]
    exact h

/-- The connection can be dispatched only while it is open. -/
theorem open_of_canDispatch (h : s.Inv) (hcan : s.CanDispatch) : s.Open := by
  obtain ⟨hest, hdis, hb, hch⟩ := hcan
  cases h.mode with
  | fresh hnew => exact absurd (hest.symm.trans hnew) (by decide)
  | opened hs => exact hs
  | closing _ _ hwait => exact absurd (hwait.1.symm.trans hdis) (by decide)
  | closed _ _ hnone => exact absurd hnone hch

theorem run_event_of_not_canDispatch (hcan : ¬ s.CanDispatch) (mRevent : EventMask) (io : EventIo) :
    (step (.event mRevent io)).run s = .ok () s := by
  simp [step, EStateM.run_bind, EStateM.run_get, hcan]

theorem run_event (hcan : s.CanDispatch) (mRevent : EventMask) (io : EventIo) :
    (step (.event mRevent io)).run s =
      (onCtx (handleEvent mRevent io)).run { s with dispatched := true } := by
  simp [step, EStateM.run_bind, EStateM.run_get, hcan]

theorem outcome_event (h : s.Inv) {mRevent : EventMask} {io : EventIo}
    (hev : s.CanDispatch → EventOutcome E s.ctx ((handleEvent mRevent io).run s.ctx)) :
    StepOutcome E ((step (.event mRevent io)).run s) := by
  by_cases hcan : s.CanDispatch
  · have hs := open_of_canDispatch h hcan
    have hout := hev hcan
    rw [run_event hcan]
    cases hrun : (handleEvent mRevent io).run s.ctx with
    | ok u c =>
      rw [hrun] at hout
      have hstep : (onCtx (handleEvent mRevent io)).run { s with dispatched := true } =
          .ok () ⟨c, s.established, true, s.batch⟩ := run_onCtx_ok hrun
      rw [hstep, hs.established]
      rcases hout with hstay | ⟨c₁, hstay, hc⟩
      · exact inv_of_stays h.orderly hs hstay true hs.noClose.2
      · rw [hcan.2.2.1]
        exact inv_of_closing h.orderly hs hstay hc
    | error e c =>
      rw [hrun] at hout
      have hstep : (onCtx (handleEvent mRevent io)).run { s with dispatched := true } =
          .error e ⟨c, s.established, true, s.batch⟩ := run_onCtx_error hrun
      rw [hstep]
      exact ⟨hout.1, orderly_of_stopped h.orderly hs hout.2⟩
  · rw [run_event_of_not_canDispatch hcan]
    exact h

theorem open_of_mState (h : s.Inv) (hst : s.ctx.conn.mState ≠ .disConnected) : s.Open := by
  cases h.mode with
  | opened hs => exact hs
  | fresh _ hst' => exact absurd hst' hst
  | closing _ hst' => exact absurd hst' hst
  | closed _ hst' => exact absurd hst' hst

theorem outcome_calls (h : s.Inv) (hE : ∀ e, TcpBuffer.GrowStop e → E e) (cs : List UserCall) :
    StepOutcome E ((step (.calls cs)).run s) := by
  change StepOutcome E ((onCtx (runCalls cs)).run s)
  by_cases hst : s.ctx.conn.mState = .disConnected
  · obtain ⟨c, hrun, hc⟩ := runCalls_of_not_connected h.sound (by simp [hst]) cs
    rw [run_onCtx_ok hrun]
    exact inv_of_called h hc hst
  · have hs := open_of_mState h hst
    exact outcome_of_stays h hs rfl rfl hs.noClose.2 ((runCalls_outcome cs h.sound).stays hE)

/-- A task other than a close leaves the batch. -/
theorem inv_of_popped (h : s.Inv) {t : ConnTask} {ts : List ConnTask}
    (hb : s.batch = some (t :: ts)) (ht : t ≠ .close) : Inv { s with batch := some ts } := by
  have hno : s.NoClose → NoClose { s with batch := some ts } := by
    refine fun hno => ⟨hno.1, fun ts' hts' => ?_⟩
    obtain rfl : ts = ts' := Option.some.inj hts'
    exact fun hmem => hno.2 _ hb (List.mem_cons_of_mem _ hmem)
  refine ⟨h.sound, h.orderly, ?_⟩
  cases h.mode with
  | fresh hnew hst hch htr hn => exact .fresh hnew hst hch htr (hno hn)
  | opened hs =>
    exact .opened ⟨hs.established, hs.mState, hs.close, hs.last, hs.reading, hno hs.noClose⟩
  | closing hest hst hwait =>
    refine .closing hest hst ⟨hwait.1, .inr ⟨ts, rfl, ?_⟩⟩
    rcases hwait.2 with ⟨hnone, -⟩ | ⟨ts', hts', hmem⟩
    · rw [hb] at hnone
      cases hnone
    · obtain rfl : t :: ts = ts' := Option.some.inj (hb.symm.trans hts')
      rcases List.mem_cons.mp hmem with hmem | hmem
      · exact absurd hmem.symm ht
      · exact hmem
  | closed hest hst hch => exact .closed hest hst hch

theorem outcome_send (h : s.Inv) (hE : ∀ e, TcpBuffer.GrowStop e → E e) (data : Bytes)
    (cs : List UserCall) : StepOutcome E ((onCtx (sendInLoop data (runCalls cs))).run s) := by
  have hout := sendInLoop_outcome h.sound data fun s' hs' => runCalls_outcome cs hs'
  by_cases hst : s.ctx.conn.mState = .disConnected
  · cases hrun : (sendInLoop data (runCalls cs)).run s.ctx with
    | ok u c =>
      rw [hrun] at hout
      obtain ⟨⟨ds, hc⟩, -⟩ := hout
      obtain rfl : ds = [] := by
        by_contra hds
        exact absurd (hst.symm.trans (hc.connected hds)) (by decide)
      rw [run_onCtx_ok hrun]
      exact inv_of_called h hc hst
    | error e c =>
      rw [hrun] at hout
      exact absurd (hst.symm.trans hout.2.2.1) (by decide)
  · have hs := open_of_mState h hst
    exact outcome_of_stays h hs rfl rfl hs.noClose.2 (hout.stays hE)

theorem outcome_shutdown (h : s.Inv) (res : WriteResult) (soError : Errno) :
    StepOutcome E ((onCtx (shutdownInLoop res soError)).run s) := by
  rcases shutdownInLoop_cases h.sound res soError with ⟨-, hr⟩ | ⟨hst, -, hr⟩ | ⟨-, -, -, hr⟩ |
    ⟨room, b, hst, -, -, -, hv, -, hr⟩ <;> rw [run_onCtx_ok hr]
  · exact h
  · have hs := open_of_mState h hst
    have hinv := inv_of_shut h.orderly hs (.refl h.sound) s.dispatched hs.noClose.2
    change Inv ⟨s.ctx.shut, s.established, s.dispatched, s.batch⟩
    rwa [hs.established]
  · exact h
  · have hs := open_of_mState h hst
    have hwrote := Stays.wrote h.sound (s.ctx.conn.mSendBuffer.readable.take room) hv
    have hinv := inv_of_shut h.orderly hs hwrote s.dispatched hs.noClose.2
    change Inv ⟨Ctx.shut _, s.established, s.dispatched, s.batch⟩
    rwa [hs.established]

/-- A close task waits for a closed connection only. -/
theorem closed_of_close (h : s.Inv) {ts : List ConnTask} (hb : s.batch = some (.close :: ts)) :
    s.established = true ∧ s.ctx.conn.mState = .disConnected := by
  cases h.mode with
  | fresh _ _ _ _ hno => exact absurd List.mem_cons_self (hno.2 _ hb)
  | opened hs => exact absurd List.mem_cons_self (hs.noClose.2 _ hb)
  | closing hest hst => exact ⟨hest, hst⟩
  | closed hest hst => exact ⟨hest, hst⟩

/-- The close task finds the connection closed, and releases its channel. -/
theorem outcome_close (h : s.Inv) {ts : List ConnTask} (hb : s.batch = some (.close :: ts)) :
    StepOutcome E ((onCtx destroyConnection).run { s with batch := some ts }) := by
  obtain ⟨hest, hst⟩ := closed_of_close h hb
  have hrun : (onCtx destroyConnection).run { s with batch := some ts } =
      .ok () { s with batch := some ts, ctx := s.ctx.destroyed } :=
    run_onCtx_ok (run_destroyConnection hst)
  rw [hrun]
  refine ⟨⟨h.sound.send, h.sound.recv, fun hne => absurd hst hne⟩, ?_, .closed hest hst rfl⟩
  exact Trace.each_concat.mpr ⟨h.orderly, fun _ => rfl⟩

theorem outcome_task (h : s.Inv) (hE : ∀ e, TcpBuffer.GrowStop e → E e) (io : TaskIo) :
    StepOutcome E ((step (.task io)).run s) := by
  rcases s.batch_cases with hb | ⟨t, ts, hb⟩
  · rw [run_task_of_empty hb]
    exact h
  · rw [run_task_cons hb]
    cases t with
    | send data => exact outcome_send (inv_of_popped h hb (by simp)) hE data io.onHighWater
    | shutdown => exact outcome_shutdown (inv_of_popped h hb (by simp)) io.res io.soError
    | close => exact outcome_close h hb

theorem inv_doPendingTasks (h : s.Inv) {s' : Session}
    (hrun : (step .doPendingTasks).run s = .ok () s') : s'.Inv := by
  rcases doPendingTasks_cases hrun with rfl | ⟨hb, rfl⟩
  · exact h
  have hno : s.NoClose → NoClose
      { s with batch := some s.ctx.mPendingTasks, ctx.mPendingTasks := [] } := by
    refine fun hno => ⟨List.not_mem_nil, fun ts hts => ?_⟩
    obtain rfl : s.ctx.mPendingTasks = ts := Option.some.inj hts
    exact hno.1
  refine ⟨⟨h.sound.send, h.sound.recv, h.sound.channel⟩, h.orderly, ?_⟩
  cases h.mode with
  | fresh hnew hst hch htr hn => exact .fresh hnew hst hch htr (hno hn)
  | opened hs =>
    exact .opened ⟨hs.established, hs.mState, hs.close, hs.last, hs.reading, hno hs.noClose⟩
  | closing hest hst hwait =>
    -- The close task goes from the queue to the batch.
    refine .closing hest hst ⟨hwait.1, .inr ⟨_, rfl, ?_⟩⟩
    rcases hwait.2 with ⟨-, hmem⟩ | ⟨ts, hts, -⟩
    · exact hmem
    · rw [hb] at hts
      cases hts
  | closed hest hst hch => exact .closed hest hst hch

/-- When the loop polls again, a close task that was waiting has run. -/
theorem inv_poll (h : s.Inv) {s' : Session} (hrun : (step .poll).run s = .ok () s') : s'.Inv := by
  rcases poll_cases hrun with rfl | ⟨hb, rfl⟩
  · exact h
  have hno : s.NoClose → NoClose { s with batch := none, dispatched := false } :=
    fun hno => ⟨hno.1, by simp⟩
  refine ⟨h.sound, h.orderly, ?_⟩
  cases h.mode with
  | fresh hnew hst hch htr hn => exact .fresh hnew hst hch htr (hno hn)
  | opened hs =>
    exact .opened ⟨hs.established, hs.mState, hs.close, hs.last, hs.reading, hno hs.noClose⟩
  | closing _ _ hwait =>
    -- The batch is there and empty, so no close task waits in it or before it.
    rcases hwait.2 with ⟨hnone, -⟩ | ⟨ts, hts, hmem⟩
    · rw [hb] at hnone
      cases hnone
    · obtain rfl : [] = ts := Option.some.inj (hb.symm.trans hts)
      cases hmem
  | closed hest hst hch => exact .closed hest hst hch

/-- **One step of a session** keeps the invariant or stops as `E` allows, when its event does. -/
theorem step_outcome (h : s.Inv) (hE : ∀ e, TcpBuffer.GrowStop e → E e) (i : SessionEvent)
    (hev : ∀ mRevent io, i = .event mRevent io → s.CanDispatch →
      EventOutcome E s.ctx ((handleEvent mRevent io).run s.ctx)) :
    StepOutcome E ((step i).run s) := by
  cases i with
  | establish cs => exact outcome_establish h hE cs
  | event mRevent io => exact outcome_event h (hev mRevent io rfl)
  | calls cs => exact outcome_calls h hE cs
  | queueSend data => exact inv_of_queued h (t := .send data) (by simp)
  | queueShutdown => exact inv_of_queued h (t := .shutdown) (by simp)
  | doPendingTasks => exact inv_doPendingTasks h rfl
  | task io => exact outcome_task h hE io
  | poll => exact inv_poll h rfl

/-! ### Runs -/

/-- The events whose write callback finds the connection connected. -/
def WritesInOrder (s : Session) : SessionEvent → Prop
  | .event mRevent io => s.CanDispatch → WritesConnected s.ctx mRevent io
  | _ => True

/-- No assertion has failed, and the trace is orderly. -/
def InOrder (r : EStateM.Result Stop Session Unit) : Prop :=
  Orderly (Machine.final r).ctx.trace ∧ ∀ s, r ≠ .error .fatal s

theorem step_inOrder (h : s.Inv) {i : SessionEvent} (hi : WritesInOrder s i) :
    StepOutcome (· ≠ .fatal) ((step i).run s) := by
  have hgrow : ∀ e, TcpBuffer.GrowStop e → e ≠ .fatal := by
    rintro e (rfl | rfl | rfl) <;> decide
  refine step_outcome h hgrow i fun mRevent io heq hcan => ?_
  subst heq
  have hs := open_of_canDispatch h hcan
  have hout := handleEvent_outcome h.sound hs.mState (hi hcan)
  cases hrun : (handleEvent mRevent io).run s.ctx with
  | ok u c =>
    rw [hrun] at hout
    exact hout
  | error e c =>
    rw [hrun] at hout
    refine ⟨?_, hout.2⟩
    rcases hout.1 with he | ⟨-, rfl, -⟩
    · exact hgrow e he
    · exact fun h => by cases h

theorem writesInOrder_of_inOrder (h : s.Inv) {i : SessionEvent} (hi : InOrder ((step i).run s)) :
    WritesInOrder s i := by
  cases i with
  | event mRevent io =>
    intro hcan
    by_contra hnot
    have hs := open_of_canDispatch h hcan
    obtain ⟨c, hc⟩ := handleEvent_fatal h.sound hs.mState hnot
    refine hi.2 ⟨c, s.established, true, s.batch⟩ ?_
    rw [run_event hcan]
    exact run_onCtx_error hc
  | _ => trivial

/-- A step that returns keeps the invariant. -/
theorem inv_step {s' : Session} (h : s.Inv) (i : SessionEvent) (hrun : (step i).run s = .ok () s') :
    s'.Inv := by
  by_cases hi : WritesInOrder s i
  · have hout := step_inOrder h hi
    rwa [hrun] at hout
  · cases i with
    | event mRevent io =>
      -- the event stops at the assertion of `handleWrite`
      obtain ⟨hcan, hnot⟩ := Classical.not_imp.mp hi
      obtain ⟨c, hc⟩ := handleEvent_fatal h.sound (open_of_canDispatch h hcan).mState hnot
      have hstop : (onCtx (handleEvent mRevent io)).run { s with dispatched := true } =
          .error .fatal ⟨c, s.established, true, s.batch⟩ := run_onCtx_error hc
      rw [run_event hcan, hstop] at hrun
      cases hrun
    | _ => exact absurd trivial hi

/-- **The life of a connection is orderly**, and no assertion fails, in the runs whose write
callbacks find the connection connected, and in no others. -/
theorem orderly_iff (is : List SessionEvent) :
    Machine.Always step InOrder created is ↔ Machine.Along step WritesInOrder created is := by
  refine Machine.always_iff_along (I := Inv) ?_ ?_ ?_ ?_ created_inv
  · exact fun s hs => ⟨hs.orderly, fun s' h => by cases h⟩
  · intro s i s' hs hi hrun
    have hout := step_inOrder hs hi
    rwa [hrun] at hout
  · intro s i e s' hs hi hrun
    have hout := step_inOrder hs hi
    rw [hrun] at hout
    exact ⟨hout.2, fun s'' h => hout.1 (by cases h; rfl)⟩
  · intro s i hs hi
    exact writesInOrder_of_inOrder hs hi

/-- The mask `EPOLLIN | EPOLLOUT`, with a read that finds the end of the input, enters
`handleWrite` after `handleClose`. -/
theorem not_orderly_read_write :
    ¬ ∀ is : List SessionEvent, Machine.Always step InOrder created is := by
  intro h
  have hlast := h [.establish [.send [1] []], .event (EPOLLIN ||| EPOLLOUT)
    ⟨⟨.bytes [], 0, [], []⟩, ⟨.accepted 1, 0, []⟩, []⟩] _ (List.prefix_refl _)
  have htrace : (Machine.final ((Machine.exec step
      [.establish [.send [1] []], .event (EPOLLIN ||| EPOLLOUT)
        ⟨⟨.bytes [], 0, [], []⟩, ⟨.accepted 1, 0, []⟩, []⟩]).run created)).ctx.trace =
      [.state .connected, .appended [1], .entered .handleRead, .entered .handleClose,
        .state .disConnected] ++ .entered .handleWrite :: [] := by
    decide +kernel
  have hallowed := hlast.1 _ _ _ htrace (by decide)
  cases hallowed

end Session

end SimpleTcp
