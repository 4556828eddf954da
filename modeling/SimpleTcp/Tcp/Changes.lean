import SimpleTcp.Tcp.Teardown

/-!
# The changes of state of a client

A step of a client that completes either asks for a change of state, which its guard admits or
refuses, or is one of the few other steps that concern connecting: `disconnect` queues its change,
an event of the connecting socket queues a retry or a change, and a queued retry starts its timer.
Every other step leaves the client alone, apart from its connections and their tasks.

## Main definitions

* `TcpClient.asks`, `TcpClient.Admits`: the change of state that a step asks for, and the guards
* `TcpClient.Enters`: the step assigns the state
* `TcpClient.Idle`: only connections and their tasks change
* `TcpClient.Dialed`: what `doConnecting` leaves behind
* `TcpClient.Moves`: what a completed step does

## Main results

* `TcpClient.mState_step`: a step assigns the state that it enters, and no other
* `TcpClient.moves_of_ok`: a completed step is one of the moves
-/

namespace SimpleTcp

open TcpConnection Machine

namespace TcpClient

/-- A call of `transStateInLoop`. -/
structure Ask where
  mIsLoopingNow : Bool
  io : TransIo
  newState : ClientState

/-- The call of `transStateInLoop` that the step makes, if any. -/
def asks (s : TcpClient) : ClientEvent → Option Ask
  | .connect mIsLoopingNow io => some ⟨mIsLoopingNow, io, .connecting⟩
  | .timer io => if 0 < s.timers then some ⟨true, io, .connecting⟩ else none
  | .task io _ =>
    match s.mPendingTasks.head? with
    | some (.transState newState) => some ⟨false, io, newState⟩
    | some (.conn _ .close) => some ⟨false, io, .disconnect⟩
    | _ => none
  | _ => none

/-- The client when the timer has fired or the task has left the queue. -/
def taken (s : TcpClient) : ClientEvent → TcpClient
  | .timer _ => { s with timers := s.timers - 1 }
  | .task _ _ => { s with mPendingTasks := s.mPendingTasks.tail }
  | _ => s

/-- The guards of `transStateInLoop`. -/
def Admits (oldState : ClientState) : ClientState → Prop
  | .disconnect => oldState = .connected
  | .connecting => oldState ≠ .connected
  | .connected => oldState = .connecting
  | .forceDisconnected => oldState ≠ .disconnect ∧ oldState ≠ .forceDisconnected

instance (oldState : ClientState) : ∀ newState, Decidable (Admits oldState newState)
  | .disconnect => inferInstanceAs (Decidable (_ = _))
  | .connecting => inferInstanceAs (Decidable (_ ≠ _))
  | .connected => inferInstanceAs (Decidable (_ = _))
  | .forceDisconnected => inferInstanceAs (Decidable (_ ∧ _))

/-- The step assigns the state to `mState`. -/
def Enters (s : TcpClient) (i : ClientEvent) (st : ClientState) : Prop :=
  ∃ a ∈ s.asks i, a.newState = st ∧ Admits s.mState st

/-- The function behind a state. -/
def enter (a : Ask) : ClientM Unit :=
  match a.newState with
  | .disconnect => doDisconnected a.io
  | .connecting => doConnecting a.mIsLoopingNow a.io
  | .connected => doConnected a.io
  | .forceDisconnected => doForceDisconnected

variable {s s' : TcpClient} {i : ClientEvent} {a : Ask}

theorem run_transStateInLoop (a : Ask) :
    (transStateInLoop a.mIsLoopingNow a.io a.newState).run s =
      if Admits s.mState a.newState then (enter a).run { s with mState := a.newState }
      else .ok () s := by
  obtain ⟨mIsLoopingNow, io, newState⟩ := a
  by_cases hadm : Admits s.mState newState
  · rw [if_pos hadm]
    cases newState <;> exact congrArg (EStateM.run · s) (if_pos hadm)
  · rw [if_neg hadm]
    have hpure : (pure () : ClientM Unit).run s = .ok () s := rfl
    cases newState <;> exact (congrArg (EStateM.run · s) (if_neg hadm)).trans hpure

theorem run_step_of_asks (h : s.asks i = some a) :
    (step i).run s = (transStateInLoop a.mIsLoopingNow a.io a.newState).run (s.taken i) := by
  cases i with
  | connect mIsLoopingNow io =>
    cases h
    rfl
  -- the timer is spent
  | timer io =>
    rw [asks, Option.ite_none_right_eq_some] at h
    obtain ⟨htimer, ha⟩ := h
    cases ha
    simp only [step, EStateM.run_bind, EStateM.run_get, htimer, if_true, EStateM.run_modify, taken]
  | task io taskIo =>
    cases hts : s.mPendingTasks with
    | nil => simp [asks, hts] at h
    | cons t ts =>
      -- the task is taken off the queue
      have htaken : s.taken (.task io taskIo) = { s with mPendingTasks := ts } := by
        simp [taken, hts]
      rw [run_task hts, htaken]
      rw [asks, hts, List.head?_cons] at h
      cases t with
      | transState newState =>
        cases h
        rfl
      -- a close task calls the close callback, which is the client's
      | conn pos task =>
        cases task with
        | close =>
          cases h
          rfl
        | _ => cases h
      | _ => cases h
  | _ => cases h

/-- A change of state is asked for by `connect`, by a timer, or by a task: one that was queued for
it or that of a close callback. -/
theorem asks_cases (h : s.asks i = some a) :
    (∃ mIsLoopingNow io, i = .connect mIsLoopingNow io ∧ a.newState = .connecting) ∨
      (∃ io, i = .timer io ∧ 0 < s.timers ∧ a.newState = .connecting) ∨
      ∃ io taskIo t ts, i = .task io taskIo ∧ s.mPendingTasks = t :: ts ∧
        (t = .transState a.newState ∨ a.newState = .disconnect ∧ ∃ pos, t = .conn pos .close) := by
  cases i with
  | connect mIsLoopingNow io =>
    cases h
    exact .inl ⟨mIsLoopingNow, io, rfl, rfl⟩
  | timer io =>
    rw [asks, Option.ite_none_right_eq_some] at h
    obtain ⟨htimer, ha⟩ := h
    cases ha
    exact .inr (.inl ⟨io, rfl, htimer, rfl⟩)
  | task io taskIo =>
    cases hts : s.mPendingTasks with
    | nil => simp [asks, hts] at h
    | cons t ts =>
      refine .inr (.inr ⟨io, taskIo, t, ts, rfl, rfl, ?_⟩)
      rw [asks, hts, List.head?_cons] at h
      cases t with
      | transState newState =>
        cases h
        exact .inl rfl
      | conn pos task =>
        cases task with
        | close =>
          cases h
          exact .inr ⟨rfl, pos, rfl⟩
        | _ => cases h
      | _ => cases h
  | _ => cases h

/-- A change to another state than `Connecting` is asked for by a task. -/
theorem task_of_asks_ne (h : s.asks i = some a) (hst : a.newState ≠ .connecting) :
    ∃ io taskIo t ts, i = .task io taskIo ∧ s.mPendingTasks = t :: ts ∧
      (t = .transState a.newState ∨ a.newState = .disconnect ∧ ∃ pos, t = .conn pos .close) := by
  rcases asks_cases h with ⟨-, -, -, hnew⟩ | ⟨-, -, -, hnew⟩ | htask
  · exact absurd hnew hst
  · exact absurd hnew hst
  · exact htask

/-! ### What is left alone -/

def IsConn (t : ClientTask) : Prop := ∃ pos task, t = .conn pos task

/-- Only connections and their tasks change. -/
structure Idle (s s' : TcpClient) : Prop where
  mState : s'.mState = s.mState
  mConnection : s'.mConnection = s.mConnection
  mConnSocket : s'.mConnSocket = s.mConnSocket
  mConnChannel : s'.mConnChannel = s.mConnChannel
  mConnRetryDelay : s'.mConnRetryDelay = s.mConnRetryDelay
  mConnRandomDelay : s'.mConnRandomDelay = s.mConnRandomDelay
  timers : s'.timers = s.timers
  tasks : ∃ us, s'.mPendingTasks = s.mPendingTasks ++ us ∧ ∀ t ∈ us, IsConn t

theorem Idle.refl (s : TcpClient) : Idle s s :=
  ⟨rfl, rfl, rfl, rfl, rfl, rfl, rfl, [], by simp⟩

theorem Idle.countP (h : Idle s s') {p : ClientTask → Bool} (hp : ∀ t, p t = true → ¬ IsConn t) :
    s'.mPendingTasks.countP p = s.mPendingTasks.countP p := by
  obtain ⟨us, hus, hconn⟩ := h.tasks
  have hnone : us.countP p = 0 :=
    List.countP_eq_zero.mpr fun t hmem ht => hp t ht (hconn t hmem)
  rw [hus, List.countP_append, hnone, Nat.add_zero]

theorem Idle.count (h : Idle s s') {t : ClientTask} (ht : ¬ IsConn t) :
    s'.mPendingTasks.count t = s.mPendingTasks.count t := by
  refine h.countP fun u hu => ?_
  rwa [eq_of_beq hu]

theorem idle_after (s : TcpClient) (pos : Nat) (c : Ctx) : Idle s (s.after pos c) := by
  refine ⟨rfl, rfl, rfl, rfl, rfl, rfl, rfl, c.mPendingTasks.map (.conn pos), rfl, fun t ht => ?_⟩
  obtain ⟨task, -, rfl⟩ := List.mem_map.mp ht
  exact ⟨pos, task, rfl⟩

theorem idle_onConn (s : TcpClient) (pos : Nat) (x : ConnM Unit) :
    Idle s (final ((onConn pos x).run s)) := by
  by_cases halive : s.Alive pos
  · obtain ⟨conn, hconn⟩ := halive
    rw [final_onConn hconn]
    exact idle_after s pos _
  · rw [final_onConn_of_not_alive halive]
    exact Idle.refl s

theorem idle_of_onConn {pos : Nat} {x : ConnM Unit} (h : (onConn pos x).run s = .ok () s') :
    Idle s s' := by
  have hidle := idle_onConn s pos x
  rwa [h] at hidle

/-! ### The functions behind the states -/

/-- A completed retry queues its timer. -/
def retried (s : TcpClient) : TcpClient :=
  { s with
    mConnRetryDelay := s.mConnRetryDelay * 2
    mPendingTasks := s.mPendingTasks ++ [.addTimer (s.mConnRetryDelay + s.mConnRandomDelay)] }

theorem retry_of_ok {errno : Errno} (h : (retry errno).run s = .ok () s') :
    s.mConnRetryDelay < TCP_MAX_RETRY_TIMEOUT ∧ s' = s.retried := by
  simp only [retry, EStateM.run_bind, EStateM.run_get] at h
  split at h
  · cases h
    exact ⟨‹_›, rfl⟩
  · cases h

/-- The client at the start of `doConnecting`: it has dropped the old channel and socket. -/
def cleared (s : TcpClient) : TcpClient := { s with mConnChannel := none, mConnSocket := false }

/-- `doConnecting` has met the result. -/
inductive Dialed (s : TcpClient) : ConnectResult → TcpClient → Prop
  | failed : Dialed s .failed s.cleared.retried
  | watched {errCode : Errno} :
    errCode = Errno.EINPROGRESS ∨ errCode = Errno.EINTR ∨ errCode = Errno.EISCONN →
    Dialed s (.socket errCode) { s with
      mConnChannel := some Channel.create.enableWrite
      mConnSocket := true }
  | atOnce : Dialed s (.socket 0) { s with
      mConnChannel := none
      mConnSocket := true
      mPendingTasks := s.mPendingTasks ++ [.transState .connected] }
  | refused {errCode : Errno} : errCode ≠ 0 →
    Dialed s (.socket errCode) { s.cleared.retried with mConnSocket := true }

theorem dialed_of_ok {mIsLoopingNow : Bool} {io : TransIo}
    (h : (doConnecting mIsLoopingNow io).run s = .ok () s') : Dialed s io.connect s' := by
  have hreset : (resetConnChannel mIsLoopingNow).run s = .ok () { s with mConnChannel := none } ∨
      (resetConnChannel mIsLoopingNow).run s = .error .fatal s := by
    by_cases hc : s.mConnChannel = none ∨ mIsLoopingNow = false
    · simp [resetConnChannel, EStateM.run_bind, EStateM.run_get, assertTrue_pos hc]
    · simp [resetConnChannel, EStateM.run_bind, EStateM.run_get, assertTrue_neg hc]
  rw [doConnecting, EStateM.run_bind] at h
  rcases hreset with hreset | hreset <;> simp only [hreset] at h
  · -- the branches of the result of connecting, in the order of the source
    simp only [EStateM.run_bind, EStateM.run_modify] at h
    change EStateM.run _ s.cleared = _ at h
    cases hio : io.connect with
    | noSocket errno =>
      simp [hio] at h
    | failed =>
      simp only [hio] at h
      obtain ⟨-, rfl⟩ := retry_of_ok h
      exact .failed
    | socket errCode =>
      simp only [hio, EStateM.run_bind, EStateM.run_modify] at h
      split at h
      · cases h
        exact .watched ‹_›
      · split at h
        · subst errCode
          cases h
          exact .atOnce
        · obtain ⟨-, rfl⟩ := retry_of_ok h
          exact .refused ‹_›
  · cases h

/-- The client in `doConnected`, before `establishConnect`. -/
def joined (s : TcpClient) : TcpClient :=
  { s with
    mConnChannel := none
    mConnRetryDelay := TCP_INIT_RETRY_TIMEOUT
    mConnSocket := false
    mConnection := some s.conns.length
    conns := s.conns ++ [some TcpConnection.create] }

theorem doConnected_of_ok {io : TransIo} (h : (doConnected io).run s = .ok () s') :
    s.mConnSocket = true ∧ Idle s.joined s' := by
  by_cases hsocket : s.mConnSocket = true
  · refine ⟨hsocket, ?_⟩
    by_cases herr : io.soError = 0
    · simp only [doConnected, EStateM.run_bind, EStateM.run_get, assertTrue_pos hsocket,
        EStateM.run_pure, assertTrue_pos herr, resetConnChannel, or_true, assertTrue_pos,
        EStateM.run_modify] at h
      exact idle_of_onConn h
    · simp [doConnected, EStateM.run_bind, EStateM.run_get, assertTrue_pos hsocket,
        assertTrue_neg herr] at h
  · simp [doConnected, EStateM.run_bind, EStateM.run_get, assertTrue_neg hsocket] at h

theorem doDisconnected_of_ok {io : TransIo} (h : (doDisconnected io).run s = .ok () s') :
    ∃ s₁, Idle s s₁ ∧ s' = { s₁ with
      mConnection := none
      mConnRetryDelay := TCP_INIT_RETRY_TIMEOUT * 2
      mPendingTasks := s₁.mPendingTasks ++
        [.addTimer (TCP_INIT_RETRY_TIMEOUT + s₁.mConnRandomDelay)] } := by
  cases hc : s.mConnection with
  | none =>
    -- the assertion fails, and nothing has returned
    simp [doDisconnected, EStateM.run_bind, EStateM.run_get, assertTrue_neg, hc] at h
  | some pos =>
    rw [run_doDisconnected hc] at h
    cases hon : (onConn pos destroyConnection).run s with
    | ok u s₁ =>
      rw [hon] at h
      cases h
      exact ⟨s₁, idle_of_onConn hon, rfl⟩
    | error e s₁ =>
      rw [hon] at h
      cases h

/-! ### The state that a step assigns -/

section

variable {st : ClientState}

theorem keeps_mState_modify {f : TcpClient → TcpClient} (h : ∀ s, (f s).mState = s.mState) :
    Keeps (fun s => s.mState = st) (modify f : ClientM PUnit) :=
  .modify fun s hs => (h s).trans hs

theorem keeps_mState_assertTrue (c : Prop) [Decidable c] :
    Keeps (fun s => s.mState = st) (assertTrue c : ClientM Unit) :=
  .ite (fun _ => .pure _) fun _ => .throw _

theorem keeps_mState_onConn (pos : Nat) (x : ConnM Unit) :
    Keeps (fun s => s.mState = st) (onConn pos x) :=
  fun s hs => (idle_onConn s pos x).mState.trans hs

theorem keeps_mState_queueInLoop (t : ClientTask) :
    Keeps (fun s => s.mState = st) (queueInLoop t) := keeps_mState_modify fun _ => rfl

theorem keeps_mState_connection : Keeps (fun s => s.mState = st) connection := by
  refine .bind .get fun s => ?_
  cases s.mConnection with
  | some pos => exact .pure pos
  | none => exact .throw _

theorem keeps_mState_retry (errno : Errno) : Keeps (fun s => s.mState = st) (retry errno) := by
  refine .bind .get fun _ => .ite (fun _ => ?_) fun _ => .throw _
  exact .bind (keeps_mState_queueInLoop _) fun _ => keeps_mState_modify fun _ => rfl

theorem keeps_mState_resetConnChannel (mIsLoopingNow : Bool) :
    Keeps (fun s => s.mState = st) (resetConnChannel mIsLoopingNow) := by
  refine .bind .get fun _ => .bind (keeps_mState_assertTrue _) fun _ => ?_
  exact keeps_mState_modify fun _ => rfl

theorem keeps_mState_enter (a : Ask) : Keeps (fun s => s.mState = st) (enter a) := by
  obtain ⟨mIsLoopingNow, io, newState⟩ := a
  cases newState with
  | disconnect =>
    refine .bind .get fun _ => .bind (keeps_mState_assertTrue _) fun _ => ?_
    refine .bind keeps_mState_connection fun _ => .bind (keeps_mState_onConn _ _) fun _ => ?_
    exact .bind (keeps_mState_modify fun _ => rfl) fun _ => keeps_mState_retry _
  | connecting =>
    refine .bind (keeps_mState_resetConnChannel _) fun _ => ?_
    refine .bind (keeps_mState_modify fun _ => rfl) fun _ => ?_
    dsimp only
    cases io.connect with
    | noSocket errno => exact .throw _
    | failed => exact keeps_mState_retry _
    | socket errCode =>
      refine .bind (keeps_mState_modify fun _ => rfl) fun _ => .ite (fun _ => ?_) fun _ => ?_
      · exact keeps_mState_modify fun _ => rfl
      · exact .ite (fun _ => keeps_mState_queueInLoop _) fun _ => keeps_mState_retry _
  | connected =>
    refine .bind .get fun _ => .bind (keeps_mState_assertTrue _) fun _ => ?_
    refine .bind (keeps_mState_assertTrue _) fun _ => ?_
    refine .bind (keeps_mState_resetConnChannel _) fun _ => .bind .get fun _ => ?_
    exact .bind (keeps_mState_modify fun _ => rfl) fun _ => keeps_mState_onConn _ _
  | forceDisconnected => exact keeps_mState_queueInLoop _

theorem keeps_mState_handleConnEvent (mRevent : EventMask) (errno : Errno) :
    Keeps (fun s => s.mState = st) (handleConnEvent mRevent errno) := by
  have hwrite : Keeps (fun s : TcpClient => s.mState = st) (do
      if mRevent.Meets EPOLLOUT then queueInLoop (.transState .connected)) :=
    .ite (fun _ => keeps_mState_queueInLoop _) fun _ => .pure _
  refine .ite (fun _ => .pure _) fun _ => .ite (fun _ => keeps_mState_retry _) fun _ => ?_
  exact .ite (fun _ => .bind (.pure _) fun _ => hwrite) fun _ => hwrite

/-- A step that does not call `transStateInLoop`. -/
theorem keeps_mState_step (h : s.asks i = none) : (final ((step i).run s)).mState = s.mState := by
  have hkeeps : ∀ {x : ClientM Unit}, Keeps (fun s' => s'.mState = s.mState) x →
      (final (x.run s)).mState = s.mState := fun hx => hx s rfl
  cases i with
  | connect mIsLoopingNow io => cases h
  | disconnect =>
    exact hkeeps (.bind .get fun _ => .ite (fun _ => keeps_mState_queueInLoop _) fun _ => .pure _)
  | timer io =>
    -- no timer is running
    rw [asks, ite_eq_right_iff] at h
    have hnot : ¬ 0 < s.timers := fun hpos => by cases h hpos
    simp [step, EStateM.run_bind, EStateM.run_get, hnot, final]
  | connEvent mRevent errno =>
    refine hkeeps (.bind .get fun _ => .ite (fun _ => ?_) fun _ => .pure _)
    exact keeps_mState_handleConnEvent _ _
  | event pos mRevent io =>
    exact hkeeps (.bind .get fun _ => .ite (fun _ => keeps_mState_onConn _ _) fun _ => .pure _)
  | calls pos cs =>
    exact hkeeps (.bind .get fun _ => .ite (fun _ => keeps_mState_onConn _ _) fun _ => .pure _)
  | queue pos task =>
    exact hkeeps (.bind .get fun _ => .ite (fun _ => keeps_mState_queueInLoop _) fun _ => .pure _)
  | release pos =>
    refine hkeeps (.bind .get fun _ => .ite (fun _ => ?_) fun _ => .pure _)
    exact keeps_mState_modify fun _ => rfl
  | task io taskIo =>
    cases hts : s.mPendingTasks with
    | nil => simp [step, EStateM.run_bind, EStateM.run_get, hts, final]
    | cons t ts =>
      rw [run_task hts]
      rw [asks, hts, List.head?_cons] at h
      cases t with
      | transState newState => cases h
      | shutdownConnection =>
        have hx : Keeps (fun s' => s'.mState = s.mState)
            (do queueInLoop (.conn (← connection) .shutdown)) :=
          .bind keeps_mState_connection fun _ => keeps_mState_queueInLoop _
        exact hx { s with mPendingTasks := ts } rfl
      | addTimer delay => rfl
      | conn pos task =>
        cases task with
        | close => cases h
        | send data => exact keeps_mState_onConn pos _ { s with mPendingTasks := ts } rfl
        | shutdown => exact keeps_mState_onConn pos _ { s with mPendingTasks := ts } rfl

theorem taken_mState (s : TcpClient) (i : ClientEvent) : (s.taken i).mState = s.mState := by
  cases i <;> rfl

theorem taken_mConnChannel (s : TcpClient) (i : ClientEvent) :
    (s.taken i).mConnChannel = s.mConnChannel := by
  cases i <;> rfl

/-- **A step assigns the state that it enters**, and no other. -/
theorem mState_step (s : TcpClient) (i : ClientEvent) :
    (∀ st, s.Enters i st → (final ((step i).run s)).mState = st) ∧
      ((∀ st, ¬ s.Enters i st) → (final ((step i).run s)).mState = s.mState) := by
  cases hask : s.asks i with
  | none =>
    refine ⟨?_, fun _ => keeps_mState_step hask⟩
    rintro st ⟨a, ha, -⟩
    rw [hask] at ha
    cases ha
  | some a =>
    rw [run_step_of_asks hask, run_transStateInLoop, taken_mState]
    constructor
    · rintro st ⟨b, hb, rfl, hadm⟩
      obtain rfl : a = b := by simpa [hask] using hb
      rw [if_pos hadm]
      exact keeps_mState_enter a { s.taken i with mState := a.newState } rfl
    · intro hnot
      rw [if_neg fun hadm => hnot a.newState ⟨a, hask, rfl, hadm⟩]
      exact taken_mState s i

end

/-! ### What a completed step does -/

/-- The step does not concern connecting. -/
def Aside (s : TcpClient) : ClientEvent → Prop
  | .connect _ _ => False
  | .timer _ => s.timers = 0
  | .connEvent mRevent _ =>
    s.mConnChannel ≠ none → ¬ Channel.Errors mRevent ∧ ¬ Channel.Writes mRevent
  | .task _ _ => ∀ t ∈ s.mPendingTasks.head?,
    t = .shutdownConnection ∨ ∃ pos task, task ≠ .close ∧ t = .conn pos task
  | _ => True

/-- What `doConnecting` meets, if the step runs it. -/
def dial (s : TcpClient) (i : ClientEvent) : Option ConnectResult :=
  (s.asks i).bind fun a =>
    if a.newState = .connecting ∧ s.mState ≠ .connected then some a.io.connect else none

/-- The changes to `Connected` in the queue. -/
def promised (s : TcpClient) : Nat := s.mPendingTasks.count (.transState .connected)

/-- What a completed step does: it asks for a change of state, which is refused or made, or it is
one of the other steps that concern connecting, or it stands aside. -/
inductive Moves (s : TcpClient) : ClientEvent → TcpClient → Prop
  | refused {i : ClientEvent} {a : Ask} : s.asks i = some a → ¬ Admits s.mState a.newState →
    Moves s i (s.taken i)
  | disconnect {i : ClientEvent} {a : Ask} {s₁ : TcpClient} : s.asks i = some a →
    a.newState = .disconnect → s.mState = .connected →
    Idle { s.taken i with mState := .disconnect } s₁ →
    Moves s i { s₁ with
      mConnection := none
      mConnRetryDelay := TCP_INIT_RETRY_TIMEOUT * 2
      mPendingTasks := s₁.mPendingTasks ++
        [.addTimer (TCP_INIT_RETRY_TIMEOUT + s₁.mConnRandomDelay)] }
  | connecting {i : ClientEvent} {a : Ask} {s' : TcpClient} : s.asks i = some a →
    a.newState = .connecting → s.mState ≠ .connected →
    Dialed { s.taken i with mState := .connecting } a.io.connect s' → Moves s i s'
  | connected {i : ClientEvent} {a : Ask} {s' : TcpClient} : s.asks i = some a →
    a.newState = .connected → s.mState = .connecting → (s.taken i).mConnSocket = true →
    Idle (joined { s.taken i with mState := .connected }) s' → Moves s i s'
  | forceDisconnected {i : ClientEvent} {a : Ask} : s.asks i = some a →
    a.newState = .forceDisconnected → Admits s.mState .forceDisconnected →
    Moves s i { s.taken i with
      mState := .forceDisconnected
      mPendingTasks := (s.taken i).mPendingTasks ++ [.shutdownConnection] }
  | asked : s.mConnection ≠ none → Moves s .disconnect { s with
    mPendingTasks := s.mPendingTasks ++ [.transState .forceDisconnected] }
  | failed {mRevent : EventMask} {errno : Errno} : s.mConnChannel ≠ none → Channel.Errors mRevent →
    s.mConnRetryDelay < TCP_MAX_RETRY_TIMEOUT → Moves s (.connEvent mRevent errno) s.retried
  | written {mRevent : EventMask} {errno : Errno} : s.mConnChannel ≠ none → Channel.Writes mRevent →
    Moves s (.connEvent mRevent errno) { s with
      mPendingTasks := s.mPendingTasks ++ [.transState .connected] }
  | started {io : TransIo} {taskIo : TaskIo} {delay : Nat} {ts : List ClientTask} :
    s.mPendingTasks = .addTimer delay :: ts →
    Moves s (.task io taskIo) { s with timers := s.timers + 1, mPendingTasks := ts }
  | aside {i : ClientEvent} {s' : TcpClient} : s.Aside i → Idle (s.taken i) s' → Moves s i s'

theorem moves_of_asks (ha : s.asks i = some a) (h : (step i).run s = .ok () s') : Moves s i s' := by
  rw [run_step_of_asks ha, run_transStateInLoop, taken_mState] at h
  split at h
  · rename_i hadm
    -- the guard has let the change pass, and the function behind the new state has run
    unfold enter at h
    cases hst : a.newState with
    | disconnect =>
      rw [hst] at hadm
      simp only [hst] at h
      obtain ⟨s₁, hidle, rfl⟩ := doDisconnected_of_ok h
      exact .disconnect ha hst hadm hidle
    | connecting =>
      rw [hst] at hadm
      simp only [hst] at h
      exact .connecting ha hst hadm (dialed_of_ok h)
    | connected =>
      rw [hst] at hadm
      simp only [hst] at h
      obtain ⟨hsocket, hidle⟩ := doConnected_of_ok h
      exact .connected ha hst hadm hsocket hidle
    | forceDisconnected =>
      rw [hst] at hadm
      simp only [hst] at h
      cases h
      exact .forceDisconnected ha hst hadm
  · cases h
    exact .refused ha ‹_›

theorem moves_connEvent {mRevent : EventMask} {errno : Errno}
    (h : (step (.connEvent mRevent errno)).run s = .ok () s') :
    Moves s (.connEvent mRevent errno) s' := by
  by_cases hch : s.mConnChannel = none
  · have hsame : s = s' := by simpa [step, EStateM.run_bind, EStateM.run_get, hch] using h
    subst hsame
    exact .aside (fun hne => absurd hch hne) (Idle.refl s)
  · have hrun : (step (.connEvent mRevent errno)).run s =
        (handleConnEvent mRevent errno).run s := by
      simp [step, EStateM.run_bind, EStateM.run_get, hch]
    rw [hrun, handleConnEvent] at h
    rcases Channel.closes_or_errors_or_ready mRevent with hm | hm | hm
    · -- the default close callback only logs
      rw [Channel.handleEvent_of_closes _ _ _ _ hm] at h
      cases h
      exact .aside (fun _ => ⟨fun he => he.1 hm, fun hw => hw.1.1 hm⟩) (Idle.refl s)
    · rw [Channel.handleEvent_of_errors _ _ _ _ hm] at h
      obtain ⟨hdelay, rfl⟩ := retry_of_ok h
      exact .failed hch hm hdelay
    · rw [Channel.handleEvent_of_ready _ _ _ _ hm] at h
      by_cases hout : mRevent.Meets EPOLLOUT
      · simp only [hout, if_true, pure_bind, ite_self] at h
        cases h
        exact .written hch ⟨hm, hout⟩
      · simp only [hout, if_false, pure_bind, ite_self] at h
        cases h
        exact .aside (fun _ => ⟨fun he => hm.2 he.2, fun hw => hout hw.2⟩) (Idle.refl s)

theorem moves_task {io : TransIo} {taskIo : TaskIo} (hask : s.asks (.task io taskIo) = none)
    (h : (step (.task io taskIo)).run s = .ok () s') : Moves s (.task io taskIo) s' := by
  cases hts : s.mPendingTasks with
  | nil =>
    have hsame : s = s' := by simpa [step, EStateM.run_bind, EStateM.run_get, hts] using h
    subst hsame
    have htaken : s.taken (.task io taskIo) = s := by
      simp only [taken, hts, List.tail_nil]
      rw [← hts]
    exact .aside (by simp [Aside, hts]) (htaken.symm ▸ Idle.refl s)
  | cons t ts =>
    have htaken : s.taken (.task io taskIo) = { s with mPendingTasks := ts } := by
      simp [taken, hts]
    rw [run_task hts, ← htaken] at h
    rw [asks, hts, List.head?_cons] at hask
    -- a change of state and a close task would have asked
    cases t with
    | transState newState => cases hask
    | shutdownConnection =>
      refine .aside (by simp [Aside, hts]) ?_
      rw [runTask, EStateM.run_bind] at h
      cases hc : connection.run (s.taken (.task io taskIo)) with
      | ok pos s₁ =>
        have hsame : s₁ = s.taken (.task io taskIo) := by
          simp only [connection, EStateM.run_bind, EStateM.run_get] at hc
          split at hc <;> cases hc
          rfl
        rw [hc] at h
        cases h
        subst hsame
        exact ⟨rfl, rfl, rfl, rfl, rfl, rfl, rfl, _, rfl, by simp [IsConn]⟩
      | error e s₁ =>
        rw [hc] at h
        cases h
    | addTimer delay =>
      rw [htaken] at h
      cases h
      exact .started hts
    | conn pos task =>
      cases task with
      | close => cases hask
      | send data => exact .aside (by simp [Aside, hts]) (idle_of_onConn h)
      | shutdown => exact .aside (by simp [Aside, hts]) (idle_of_onConn h)

/-- A guard that is a condition of the state. -/
theorem idle_of_guard {c : Prop} [Decidable c] {x : ClientM Unit}
    (hx : ∀ {s'}, x.run s = .ok () s' → Idle s s')
    (h : (if c then x else pure ()).run s = .ok () s') : Idle s s' := by
  split at h
  · exact hx h
  · cases h
    exact Idle.refl s

/-- **Every completed step is one of the moves.** -/
theorem moves_of_ok (h : (step i).run s = .ok () s') : Moves s i s' := by
  cases hask : s.asks i with
  | some a => exact moves_of_asks hask h
  | none =>
    -- the steps that do not call `transStateInLoop`
    cases i with
    | connect mIsLoopingNow io => cases hask
    | disconnect =>
      by_cases hc : s.mConnection = none
      · have hsame : s = s' := by
          simpa [step, TcpClient.disconnect, EStateM.run_bind, EStateM.run_get, hc] using h
        subst hsame
        exact .aside trivial (Idle.refl s)
      · have hrun : (step .disconnect).run s =
            (queueInLoop (.transState .forceDisconnected)).run s := by
          simp [step, TcpClient.disconnect, EStateM.run_bind, EStateM.run_get, hc]
        rw [hrun] at h
        cases h
        exact .asked hc
    | timer io =>
      rw [asks, ite_eq_right_iff] at hask
      have htimers : s.timers = 0 := by
        by_contra hne
        cases hask (Nat.pos_of_ne_zero hne)
      have hsame : s = s' := by simpa [step, EStateM.run_bind, EStateM.run_get, htimers] using h
      subst hsame
      have htaken : s.taken (.timer io) = s := by
        rw [taken, show s.timers - 1 = s.timers by omega]
      exact .aside htimers (htaken.symm ▸ Idle.refl s)
    | connEvent mRevent errno => exact moves_connEvent h
    | event pos mRevent io => exact .aside trivial (idle_of_guard idle_of_onConn h)
    | calls pos cs => exact .aside trivial (idle_of_guard idle_of_onConn h)
    | queue pos task =>
      refine .aside trivial (idle_of_guard (fun hx => ?_) h)
      cases hx
      exact ⟨rfl, rfl, rfl, rfl, rfl, rfl, rfl, _, rfl, by simp [IsConn]⟩
    | release pos =>
      refine .aside trivial (idle_of_guard (fun hx => ?_) h)
      cases hx
      exact ⟨rfl, rfl, rfl, rfl, rfl, rfl, rfl, [], by simp, by simp⟩
    | task io taskIo => exact moves_task hask h

/-! ### Running `doConnecting`, and the queued changes to `Connected` -/

theorem dial_of_asks_none (h : s.asks i = none) : s.dial i = none := by
  rw [dial, h]
  rfl

theorem dial_of_ne (ha : s.asks i = some a) (hst : a.newState ≠ .connecting) : s.dial i = none := by
  rw [dial, ha]
  exact if_neg fun h => hst h.1

theorem dial_of_not_admits (ha : s.asks i = some a) (hadm : ¬ Admits s.mState a.newState) :
    s.dial i = none := by
  rw [dial, ha]
  refine if_neg fun h => hadm ?_
  rw [h.1]
  exact h.2

theorem dial_of_connecting (ha : s.asks i = some a) (hst : a.newState = .connecting)
    (hold : s.mState ≠ .connected) : s.dial i = some a.io.connect := by
  rw [dial, ha]
  exact if_pos ⟨hst, hold⟩

theorem asks_of_aside (h : s.Aside i) : s.asks i = none := by
  cases i with
  | connect mIsLoopingNow io => exact h.elim
  | timer io => exact if_neg (by rw [show s.timers = 0 from h]; simp)
  | task io taskIo =>
    rw [asks]
    cases hhead : s.mPendingTasks.head? with
    | none => rfl
    | some t =>
      rcases h t hhead with rfl | ⟨pos, task, htask, rfl⟩
      · rfl
      · cases task with
        | close => exact absurd rfl htask
        | _ => rfl
  | _ => rfl

theorem taken_mConnSocket (s : TcpClient) (i : ClientEvent) :
    (s.taken i).mConnSocket = s.mConnSocket := by
  cases i <;> rfl

theorem taken_mConnection (s : TcpClient) (i : ClientEvent) :
    (s.taken i).mConnection = s.mConnection := by
  cases i <;> rfl

theorem promised_taken_le (s : TcpClient) (i : ClientEvent) :
    (s.taken i).promised ≤ s.promised := by
  cases i with
  | task io taskIo => exact (List.tail_sublist _).count_le _
  | _ => exact le_rfl

theorem promised_of_idle (h : Idle s s') : s'.promised = s.promised :=
  h.count (by simp [IsConn])

theorem promised_append {t : ClientTask} {q : List ClientTask} (hq : s.mPendingTasks = q ++ [t])
    (ht : t ≠ .transState .connected) : s.promised = q.count (.transState .connected) := by
  simp [promised, hq, ht]

end TcpClient

end SimpleTcp
