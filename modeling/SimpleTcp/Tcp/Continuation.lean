import SimpleTcp.Tcp.Final

/-!
# How a connecting client goes on

A client in `Connecting` waits for one thing: a change to `Connected` that is queued, the first
report of `epoll_wait` on the socket that it watches, or a retry. The loop handles the events of a
poll, each channel at most once, and then runs the tasks that were queued until then. The channel of
the connecting socket is level-triggered and stays registered after an error: it is reported again,
and a hang-up without input reaches only its close callback, which does nothing.

## Main definitions

* `ClientLoop`, `ClientLoop.step`: a client and the iterations of its loop
* `ClientLoop.continuations`: the ways in which a connecting client goes on
* `ClientLoop.Continued`: at the end of an iteration a connecting client goes on in one way
* `ClientLoop.Decides`: the first report decides the connect, and later reports are ignored

## Main results

* `ClientLoop.inv_step`: a step that decides keeps the number of continuations
* `ClientLoop.continued_of_decides`: the runs in which every connecting client goes on in one way
-/

namespace SimpleTcp

open TcpConnection Machine

/-- The connecting socket is reported once its channel is registered and `epoll_wait` has reported
it; `batch` counts the tasks still to run of those that `doPendingTasks` has swapped out. -/
structure ClientLoop where
  client : TcpClient
  called : Bool
  reported : Bool
  dispatched : Bool
  batch : Option Nat
  deriving DecidableEq

inductive ClientLoopEvent where
  /-- A step of the client. -/
  | client (i : ClientEvent)
  /-- The events of the poll are handled, and the pending tasks are swapped out. -/
  | doPendingTasks
  /-- The tasks have run, and the loop polls again. -/
  | poll

namespace ClientLoop

open TcpClient

def start (mConnRandomDelay : Nat) : ClientLoop :=
  ⟨TcpClient.create mConnRandomDelay, false, false, false, none⟩

/-- The mask reports something that the channel of a connecting socket is registered for. -/
def Reports (mRevent : EventMask) : Prop :=
  mRevent.Meets EPOLLOUT ∨ mRevent.Meets EPOLLERR ∨ mRevent.Meets EPOLLHUP

instance (mRevent : EventMask) : Decidable (Reports mRevent) := inferInstanceAs (Decidable (_ ∨ _))

/-- The loop is ready for the step. -/
def CanRun (l : ClientLoop) : ClientEvent → Prop
  | .timer _ | .event _ _ _ => l.batch = none
  | .connEvent _ _ => l.batch = none ∧ l.dispatched = false
  | .task _ _ => 0 < l.batch.getD 0
  | _ => True

instance (l : ClientLoop) : ∀ i, Decidable (l.CanRun i)
  | .timer _ | .event _ _ _ => inferInstanceAs (Decidable (_ = _))
  | .connEvent _ _ => inferInstanceAs (Decidable (_ ∧ _))
  | .task _ _ => inferInstanceAs (Decidable (_ < _))
  | .connect _ _ | .disconnect | .calls _ _ | .queue _ _ | .release _ =>
    inferInstanceAs (Decidable True)

/-- The report on the connecting socket, after the step. -/
def reportedAfter (l : ClientLoop) (i : ClientEvent) : Bool :=
  if l.client.dial i ≠ none then false
  else
    match i with
    | .connEvent mRevent _ => l.reported || decide (Reports mRevent)
    | _ => l.reported

/-- The step has taken the client to `s`. -/
def after (l : ClientLoop) (i : ClientEvent) (s : TcpClient) : ClientLoop where
  client := s
  called := match i with | .connect _ _ => true | _ => l.called
  reported := l.reportedAfter i
  dispatched := match i with | .connEvent _ _ => true | _ => l.dispatched
  batch := match i with | .task _ _ => l.batch.map (· - 1) | _ => l.batch

/-- A step that the loop is not ready for does nothing. -/
def step : ClientLoopEvent → EStateM Stop ClientLoop Unit
  | .client i => fun l =>
    if l.CanRun i then
      match (TcpClient.step i).run l.client with
      | .ok _ s => .ok () (l.after i s)
      | .error e s => .error e { l with client := s }
    else .ok () l
  | .doPendingTasks => modify fun l =>
    match l.batch with
    | none => { l with batch := some l.client.mPendingTasks.length }
    | some _ => l
  | .poll => modify fun l =>
    match l.batch with
    | some 0 => { l with batch := none, dispatched := false }
    | _ => l

/-- The retries that are outstanding: their timers are running or about to be started. -/
def retries (s : TcpClient) : Nat := s.timers + s.mPendingTasks.countP ClientTask.startsTimer

/-- The connecting socket is watched, and not reported yet. -/
def undecided (l : ClientLoop) : Nat :=
  if l.client.mConnChannel ≠ none ∧ l.reported = false then 1 else 0

/-- The ways in which a connecting client goes on. -/
def continuations (l : ClientLoop) : Nat := l.client.promised + l.undecided + retries l.client

/-- At the end of an iteration, a connecting client goes on in exactly one way. -/
def Continued (l : ClientLoop) : Prop :=
  l.batch = some 0 → l.client.mState = .connecting → l.continuations = 1

def Continues (r : EStateM.Result Stop ClientLoop Unit) : Prop :=
  match r with
  | .ok _ l => l.Continued
  | .error _ _ => True

/-- `connect` is called once. -/
def Once (l : ClientLoop) : ClientLoopEvent → Prop
  | .client (.connect _ _) => l.called = false
  | _ => True

/-- The first report on a connecting socket reaches the error or the write callback of its channel.
A later one reaches neither, or reaches the error callback when the retry gives up. -/
def Decides (l : ClientLoop) : ClientLoopEvent → Prop
  | .client (.connEvent mRevent errno) => l.CanRun (.connEvent mRevent errno) →
    l.client.mConnChannel ≠ none → Reports mRevent →
      (l.reported = false → Channel.Errors mRevent ∨ Channel.Writes mRevent) ∧
        (l.reported = true → ¬ Channel.Writes mRevent ∧
          (Channel.Errors mRevent → TCP_MAX_RETRY_TIMEOUT ≤ l.client.mConnRetryDelay))
  | _ => True

variable {l l' : ClientLoop} {i : ClientEvent} {s s' : TcpClient} {a : Ask}

/-! ### Counting -/

theorem continuations_after (l : ClientLoop) (i : ClientEvent) (s : TcpClient) :
    (l.after i s).continuations =
      s.promised + (if s.mConnChannel ≠ none ∧ l.reportedAfter i = false then 1 else 0) +
        retries s := rfl

theorem retries_taken_le (s : TcpClient) (i : ClientEvent) : retries (s.taken i) ≤ retries s := by
  cases i with
  | timer io => exact Nat.add_le_add_right (Nat.sub_le _ _) _
  | task io taskIo => exact Nat.add_le_add_left ((List.tail_sublist _).countP_le) _
  | _ => exact le_rfl

theorem retries_of_idle (h : Idle s s') : retries s' = retries s := by
  have hp : ∀ t, ClientTask.startsTimer t = true → ¬ IsConn t := by
    rintro t ht ⟨pos, task, rfl⟩
    cases ht
  rw [retries, retries, h.timers, h.countP hp]

theorem retries_append {t : ClientTask} {q : List ClientTask} (hq : s.mPendingTasks = q ++ [t])
    (ht : t.startsTimer = false) :
    retries s = s.timers + q.countP ClientTask.startsTimer := by
  simp [retries, hq, ht]

theorem reportedAfter_of_asks (ha : l.client.asks i = some a) (hd : l.client.dial i = none) :
    l.reportedAfter i = l.reported := by
  unfold reportedAfter
  rw [if_neg (not_not.mpr hd)]
  cases i with
  | connEvent mRevent errno => cases ha
  | _ => rfl

theorem reportedAfter_connEvent (l : ClientLoop) (mRevent : EventMask) (errno : Errno) :
    l.reportedAfter (.connEvent mRevent errno) = (l.reported || decide (Reports mRevent)) :=
  if_neg (not_not.mpr rfl)

theorem reportedAfter_of_asks_none (h : l.client.asks i = none)
    (hi : ∀ mRevent errno, i ≠ .connEvent mRevent errno) : l.reportedAfter i = l.reported := by
  unfold reportedAfter
  rw [if_neg (not_not.mpr (dial_of_asks_none h))]
  cases i with
  | connEvent mRevent errno => exact absurd rfl (hi mRevent errno)
  | _ => rfl

/-- A task that is not counted leaves the counts alone. -/
theorem counts_task {t : ClientTask} {ts : List ClientTask} {io : TransIo} {taskIo : TaskIo}
    (hts : s.mPendingTasks = t :: ts) (h : t ≠ .transState .connected ∧ t.startsTimer = false) :
    (s.taken (.task io taskIo)).promised = s.promised ∧
      retries (s.taken (.task io taskIo)) = retries s := by
  simp [promised, retries, taken, hts, h.1, h.2]

/-- A step that does not concern connecting. -/
theorem counts_of_aside (h : s.Aside i) :
    (s.taken i).promised = s.promised ∧ retries (s.taken i) = retries s := by
  cases i with
  | timer io =>
    have htimers : s.timers = 0 := h
    simp [promised, retries, taken, htimers]
  | task io taskIo =>
    cases hts : s.mPendingTasks with
    | nil => simp [promised, retries, taken, hts]
    | cons t ts =>
      rw [Aside, hts] at h
      refine counts_task hts ?_
      rcases h t rfl with rfl | ⟨pos, task, -, rfl⟩ <;> simp
  | _ => exact ⟨rfl, rfl⟩

/-- A change to `Connected` leaves the queue. -/
theorem counts_connected (ha : s.asks i = some a) (hst : a.newState = .connected) :
    (s.taken i).promised + 1 = s.promised ∧ retries (s.taken i) = retries s := by
  obtain ⟨io, taskIo, t, ts, rfl, hts, ht⟩ := task_of_asks_ne ha (by simp [hst])
  rw [hst] at ht
  rcases ht with rfl | ⟨hnew, -⟩
  · simp [promised, retries, taken, hts]
  · cases hnew

/-- A change to `Disconnect` is asked for by the task of a close callback. -/
theorem counts_disconnect (hstray : s.NoStray) (ha : s.asks i = some a)
    (hst : a.newState = .disconnect) :
    (s.taken i).promised = s.promised ∧ retries (s.taken i) = retries s := by
  obtain ⟨io, taskIo, t, ts, rfl, hts, ht⟩ := task_of_asks_ne ha (by simp [hst])
  rw [hst] at ht
  rcases ht with rfl | ⟨-, pos, rfl⟩
  · -- the client never queues this change itself
    exact absurd (.inr rfl) (hstray _ (hts ▸ List.mem_cons_self))
  · exact counts_task hts (by simp)

/-! ### The invariant -/

/-- One continuation while the client is connecting, none while it is connected, and never two. -/
structure Inv (l : ClientLoop) : Prop where
  noStray : l.client.NoStray
  fresh : l.called = false →
    l.client.mState = .disconnect ∧ l.client.mConnChannel = none ∧ l.continuations = 0
  atMost : l.continuations ≤ 1
  connecting : l.client.mState = .connecting → l.continuations = 1
  connected : l.client.mState = .connected → l.continuations = 0

/-- A run of `doConnecting` comes when nothing else is left to wait for. -/
theorem counts_connecting (h : Inv l) (ho : l.Once (.client i)) (ha : l.client.asks i = some a)
    (hst : a.newState = .connecting) :
    (l.client.taken i).promised = 0 ∧ retries (l.client.taken i) = 0 ∧
      (l.after i s).called = true := by
  have hmost := h.atMost
  -- `connect` comes first; a timer is the one continuation; no task asks for `Connecting`
  rcases asks_cases ha with ⟨b, io, rfl, -⟩ | ⟨io, rfl, htimer, -⟩ | ⟨-, -, t, ts, -, hts, ht⟩
  · have hzero := (h.fresh ho).2.2
    rw [continuations] at hzero
    refine ⟨?_, ?_, rfl⟩
    · exact Nat.le_zero.mp ((promised_taken_le _ _).trans (by omega))
    · exact Nat.le_zero.mp ((retries_taken_le _ _).trans (by omega))
  · have hretries : retries (l.client.taken (.timer io)) + 1 = retries l.client := by
      simp only [retries, taken]
      omega
    have hpromised : (l.client.taken (.timer io)).promised = l.client.promised := rfl
    rw [continuations] at hmost
    refine ⟨by omega, by omega, ?_⟩
    show l.called = true
    by_contra hcalled
    have hzero := (h.fresh (by simpa using hcalled)).2.2
    rw [continuations] at hzero
    omega
  · rw [hst] at ht
    rcases ht with rfl | ⟨hnew, -⟩
    · exact absurd (.inl rfl) (h.noStray _ (hts ▸ List.mem_cons_self))
    · cases hnew

theorem continuations_eq (hp : s.promised = l.client.promised) (hr : retries s = retries l.client)
    (hchan : s.mConnChannel = l.client.mConnChannel) (hrep : l.reportedAfter i = l.reported) :
    (l.after i s).continuations = l.continuations := by
  rw [continuations_after, hp, hr, hchan, hrep]
  rfl

theorem called_after_of_ne (h : ∀ mIsLoopingNow io, i ≠ .connect mIsLoopingNow io) :
    (l.after i s).called = l.called := by
  cases i with
  | connect mIsLoopingNow io => exact absurd rfl (h mIsLoopingNow io)
  | _ => rfl

/-- Only `connect` is the call that makes the client called, and it asks for `Connecting`. -/
theorem called_after_of_asks (ha : l.client.asks i = some a) (hst : a.newState ≠ .connecting) :
    (l.after i s).called = l.called := by
  obtain ⟨io, taskIo, -, -, rfl, -⟩ := task_of_asks_ne ha hst
  rfl

/-- The number of continuations has not grown, and the state is the same or one in which it is not
counted. -/
theorem inv_of_le (h : Inv l) (hstray : s.NoStray)
    (hle : (l.after i s).continuations ≤ l.continuations)
    (hst : s.mState = .forceDisconnected ∧ l.client.mState ≠ .disconnect ∨
      s.mState = l.client.mState ∧ s.mConnChannel = l.client.mConnChannel ∧
        (s.mState = .connecting → (l.after i s).continuations = l.continuations))
    (hcalled : (l.after i s).called = false → l.called = false) : Inv (l.after i s) := by
  have hmost := h.atMost
  refine ⟨hstray, fun hc => ?_, hle.trans hmost, fun hnew => ?_, fun hnew => ?_⟩
  · obtain ⟨hold, hch, hzero⟩ := h.fresh (hcalled hc)
    rcases hst with ⟨-, hne⟩ | ⟨hsame, hchan, -⟩
    · exact absurd hold hne
    · exact ⟨hsame.trans hold, hchan.trans hch, Nat.le_zero.mp (hle.trans hzero.le)⟩
  · rcases hst with ⟨hforce, -⟩ | ⟨hsame, -, heq⟩
    · exact absurd (hforce.symm.trans hnew) (by simp)
    · exact (heq hnew).trans (h.connecting (hsame.symm.trans hnew))
  · rcases hst with ⟨hforce, -⟩ | ⟨hsame, -, -⟩
    · exact absurd (hforce.symm.trans hnew) (by simp)
    · exact Nat.le_zero.mp (hle.trans (h.connected (hsame.symm.trans hnew)).le)

theorem inv_refused (h : Inv l) (hstray : (l.client.taken i).NoStray)
    (ha : l.client.asks i = some a) (hadm : ¬ Admits l.client.mState a.newState) :
    Inv (l.after i (l.client.taken i)) := by
  have hreported := reportedAfter_of_asks ha (dial_of_not_admits ha hadm)
  have hle := promised_taken_le l.client i
  have hle' := retries_taken_le l.client i
  have hcount : (l.after i (l.client.taken i)).continuations =
      (l.client.taken i).promised + l.undecided + retries (l.client.taken i) := by
    rw [continuations_after, hreported, taken_mConnChannel]
    rfl
  refine inv_of_le h hstray ?_ (.inr ⟨taken_mState _ _, taken_mConnChannel _ _, fun hst => ?_⟩) ?_
  · rw [hcount, continuations]
    omega
  · -- only `Disconnect` is refused in `Connecting`
    rw [taken_mState] at hst
    have hnew : a.newState = .disconnect := by
      rw [hst] at hadm
      cases hnew : a.newState with
      | disconnect => rfl
      | _ => exact absurd (by simp [hnew, Admits]) hadm
    obtain ⟨hp, hr⟩ := counts_disconnect h.noStray ha hnew
    rw [hcount, hp, hr, continuations]
  · intro hcalled
    cases i with
    | connect mIsLoopingNow io => cases hcalled
    | _ => exact hcalled

theorem inv_disconnect {s₁ : TcpClient} (h : Inv l) (hold : l.client.mState = .connected)
    (ha : l.client.asks i = some a) (hst : a.newState = .disconnect)
    (hs : Idle { l.client.taken i with mState := .disconnect } s₁)
    (hnew : s.mState = s₁.mState ∧ s.mConnChannel = s₁.mConnChannel ∧ s.timers = s₁.timers ∧
      ∃ delay, s.mPendingTasks = s₁.mPendingTasks ++ [.addTimer delay]) (hstray : s.NoStray) :
    Inv (l.after i s) := by
  -- A connected client has nothing to wait for, so the retry is the one thing.
  have hzero := h.connected hold
  rw [continuations] at hzero
  have hreported := reportedAfter_of_asks ha (dial_of_ne ha (by simp [hst]))
  obtain ⟨delay, htasks⟩ := hnew.2.2.2
  have hp : s.promised = 0 := by
    rw [promised_append htasks (by simp), hs.count (by simp [IsConn])]
    exact Nat.le_zero.mp ((promised_taken_le _ _).trans (by omega))
  have hr : retries s = 1 := by
    have hle : retries s₁ ≤ retries l.client :=
      (retries_of_idle hs).le.trans (retries_taken_le l.client i)
    rw [retries] at hle
    rw [retries, hnew.2.2.1, htasks, List.countP_append,
      show [ClientTask.addTimer delay].countP ClientTask.startsTimer = 1 from rfl]
    omega
  have hchan : s.mConnChannel = l.client.mConnChannel :=
    hnew.2.1.trans (hs.mConnChannel.trans (taken_mConnChannel _ _))
  have hone : (l.after i s).continuations = 1 := by
    rw [continuations_after, hreported, hchan, hp, hr]
    show 0 + l.undecided + 1 = 1
    omega
  have hout : s.mState = .disconnect := hnew.1.trans hs.mState
  refine ⟨hstray, fun hcalled => ?_, hone.le, fun _ => hone, fun hcon => ?_⟩
  · rw [called_after_of_asks ha (by simp [hst])] at hcalled
    exact absurd ((h.fresh hcalled).1.symm.trans hold) (by simp)
  · exact absurd (hout.symm.trans hcon) (by simp)

theorem inv_connecting (h : Inv l) (ho : l.Once (.client i)) (ha : l.client.asks i = some a)
    (hst : a.newState = .connecting) (hold : l.client.mState ≠ .connected)
    (hs : Dialed { l.client.taken i with mState := .connecting } a.io.connect s)
    (hstray : s.NoStray) : Inv (l.after i s) := by
  obtain ⟨hp, hr, hcalled⟩ := counts_connecting (s := s) h ho ha hst
  -- The new socket is not reported yet: it is watched, promised at once, or given up for a retry.
  have hreported : l.reportedAfter i = false :=
    if_pos (by simp [dial_of_connecting ha hst hold])
  rw [promised] at hp
  rw [retries] at hr
  have hone : (l.after i s).continuations = 1 := by
    rw [continuations_after, hreported]
    generalize a.io.connect = r at hs
    cases hs <;> simp [promised, retries, retried, cleared] <;> omega
  have hconn : s.mState = .connecting := by
    generalize a.io.connect = r at hs
    cases hs <;> rfl
  refine ⟨hstray, fun hc => ?_, hone.le, fun _ => hone, fun hc => ?_⟩
  · rw [hcalled] at hc
    cases hc
  · exact absurd (hconn.symm.trans hc) (by simp)

theorem inv_connected (h : Inv l) (ha : l.client.asks i = some a) (hst : a.newState = .connected)
    (hold : l.client.mState = .connecting)
    (hs : Idle (joined { l.client.taken i with mState := .connected }) s) (hstray : s.NoStray) :
    Inv (l.after i s) := by
  -- The change that is run was the one continuation.
  have hone := h.connecting hold
  rw [continuations] at hone
  obtain ⟨hp, hr⟩ := counts_connected ha hst
  have hp' := (promised_of_idle hs).trans (rfl : _ = (l.client.taken i).promised)
  have hr' := (retries_of_idle hs).trans (rfl : _ = retries (l.client.taken i))
  have hnone : s.mConnChannel = none := hs.mConnChannel
  have hzero : (l.after i s).continuations = 0 := by
    rw [continuations_after, hnone, hp', hr']
    simp only [ne_eq, not_true_eq_false, false_and, if_false]
    omega
  have hconn : s.mState = .connected := hs.mState
  refine ⟨hstray, fun hcalled => ?_, hzero.le.trans (Nat.zero_le _), fun hc => ?_, fun _ => hzero⟩
  · rw [called_after_of_asks ha (by simp [hst])] at hcalled
    exact absurd ((h.fresh hcalled).1.symm.trans hold) (by simp)
  · exact absurd (hconn.symm.trans hc) (by simp)

/-- A change to `ForceDisconnected` queues neither a change to `Connected` nor a retry. -/
theorem inv_forceDisconnected (h : Inv l) (ha : l.client.asks i = some a)
    (hst : a.newState = .forceDisconnected) (hold : Admits l.client.mState .forceDisconnected)
    (hstray : NoStray { l.client.taken i with
      mState := .forceDisconnected
      mPendingTasks := (l.client.taken i).mPendingTasks ++ [.shutdownConnection] }) :
    Inv (l.after i { l.client.taken i with
      mState := .forceDisconnected
      mPendingTasks := (l.client.taken i).mPendingTasks ++ [.shutdownConnection] }) := by
  have hreported := reportedAfter_of_asks ha (dial_of_ne ha (by simp [hst]))
  have hle := promised_taken_le l.client i
  have hle' := retries_taken_le l.client i
  refine inv_of_le h hstray ?_ (.inl ⟨rfl, hold.1⟩) fun hcalled => ?_
  · rw [continuations_after, hreported, promised_append rfl (by simp),
      retries_append rfl (by simp)]
    show (l.client.taken i).promised + (if (l.client.taken i).mConnChannel ≠ none ∧ _ then 1
      else 0) + retries (l.client.taken i) ≤ _
    rw [taken_mConnChannel, continuations]
    show _ + l.undecided + _ ≤ _
    omega
  · rwa [called_after_of_asks ha (by simp [hst])] at hcalled

/-- A report on the connecting socket that queues a retry or a change to `Connected` is the first
one. -/
theorem inv_reported (h : Inv l) {mRevent : EventMask} {errno : Errno}
    (hfirst : l.reported = false) (hm : Reports mRevent) (hch : l.client.mConnChannel ≠ none)
    (hstray : s.NoStray) (hst : s.mState = l.client.mState)
    (hchan : s.mConnChannel = l.client.mConnChannel)
    (hcount : s.promised + retries s = l.client.promised + retries l.client + 1) :
    Inv (l.after (.connEvent mRevent errno) s) := by
  have hreported : l.reportedAfter (.connEvent mRevent errno) = true := by
    rw [reportedAfter_connEvent, decide_eq_true hm, Bool.or_true]
  have hundecided : l.undecided = 1 := if_pos ⟨hch, hfirst⟩
  have hsame : (l.after (.connEvent mRevent errno) s).continuations = l.continuations := by
    rw [continuations_after, hreported, continuations, hundecided]
    simp only [Bool.true_eq_false, and_false, if_false]
    omega
  exact inv_of_le h hstray hsame.le (.inr ⟨hst, hchan, fun _ => hsame⟩) id

theorem reports_of_errors {mRevent : EventMask} (h : Channel.Errors mRevent) : Reports mRevent :=
  .inr (.inl h.2)

theorem reports_of_writes {mRevent : EventMask} (h : Channel.Writes mRevent) : Reports mRevent :=
  .inl h.2

theorem inv_aside (h : Inv l) (hd : l.Decides (.client i)) (hrun : l.CanRun i)
    (ha : l.client.Aside i) (hs : Idle (l.client.taken i) s) (hstray : s.NoStray) :
    Inv (l.after i s) := by
  obtain ⟨hp, hr⟩ := counts_of_aside ha
  have hp' := (promised_of_idle hs).trans hp
  have hr' := (retries_of_idle hs).trans hr
  have hchan := hs.mConnChannel.trans (taken_mConnChannel _ _)
  have hst := hs.mState.trans (taken_mState _ _)
  -- A channel that is still watched has had no first report in this step.
  have hreported : s.mConnChannel ≠ none → l.reportedAfter i = l.reported := by
    intro hch
    cases i with
    | connEvent mRevent errno =>
      rw [reportedAfter_connEvent]
      by_cases hm : Reports mRevent
      · -- the first report is not ignored
        obtain ⟨hfirst, -⟩ := hd hrun (hchan ▸ hch) hm
        obtain ⟨hne, hnw⟩ := ha (hchan ▸ hch)
        cases hrep : l.reported with
        | false => exact ((hfirst hrep).elim hne hnw).elim
        | true => rfl
      · rw [decide_eq_false hm, Bool.or_false]
    | _ => exact reportedAfter_of_asks_none (asks_of_aside ha) (by simp)
  have hsame : (l.after i s).continuations = l.continuations := by
    rw [continuations_after, continuations, hp', hr', undecided, ← hchan]
    by_cases hch : s.mConnChannel = none
    · simp [hch]
    · rw [hreported hch]
  refine inv_of_le h hstray hsame.le (.inr ⟨hst, hchan, fun _ => hsame⟩) fun hcalled => ?_
  rwa [called_after_of_ne] at hcalled
  rintro mIsLoopingNow io rfl
  exact ha

/-- **A step that decides keeps the invariant.** -/
theorem inv_after (h : Inv l) (ho : l.Once (.client i)) (hd : l.Decides (.client i))
    (hrun : l.CanRun i) (hok : (TcpClient.step i).run l.client = .ok () s) : Inv (l.after i s) := by
  have hstray : s.NoStray := noStray_of_ok h.noStray hok
  cases moves_of_ok hok with
  | refused ha hadm => exact inv_refused h hstray ha hadm
  | disconnect ha hst hold hs =>
    exact inv_disconnect h hold ha hst hs ⟨rfl, rfl, rfl, _, rfl⟩ hstray
  | connecting ha hst hold hs => exact inv_connecting h ho ha hst hold hs hstray
  | connected ha hst hold hsocket hs => exact inv_connected h ha hst hold hs hstray
  | forceDisconnected ha hst hold => exact inv_forceDisconnected h ha hst hold hstray
  | asked hc =>
    have hsame := continuations_eq (l := l) (i := .disconnect) (s := { l.client with
      mPendingTasks := l.client.mPendingTasks ++ [.transState .forceDisconnected] })
      (promised_append rfl (by simp)) (retries_append rfl (by simp)) rfl rfl
    exact inv_of_le h hstray hsame.le (.inr ⟨rfl, rfl, fun _ => hsame⟩) id
  | @failed mRevent errno hch hm hdelay =>
    -- a later report would find that the retry gives up, and this one does not
    obtain ⟨-, hlater⟩ := hd hrun hch (reports_of_errors hm)
    have hfirst : l.reported = false := by
      by_contra hrep
      exact absurd hdelay ((hlater (by simpa using hrep)).2 hm).not_gt
    refine inv_reported h hfirst (reports_of_errors hm) hch hstray rfl rfl ?_
    simp [promised, retries, retried, Nat.add_assoc]
  | @written mRevent errno hch hm =>
    obtain ⟨-, hlater⟩ := hd hrun hch (reports_of_writes hm)
    have hfirst : l.reported = false := by
      by_contra hrep
      exact (hlater (by simpa using hrep)).1 hm
    refine inv_reported h hfirst (reports_of_writes hm) hch hstray rfl rfl ?_
    simp only [promised, retries, List.count_append, List.count_singleton_self,
      List.countP_append, List.countP_singleton, ClientTask.startsTimer_transState,
      Bool.false_eq_true, if_false]
    omega
  | @started io taskIo delay ts hts =>
    -- the retry goes from the queue to the timers
    have hcount : l.client.mPendingTasks.countP ClientTask.startsTimer =
        ts.countP ClientTask.startsTimer + 1 := by
      rw [hts, List.countP_cons_of_pos (ClientTask.startsTimer_addTimer delay)]
    have hsame := continuations_eq (l := l) (i := .task io taskIo)
      (s := { l.client with timers := l.client.timers + 1, mPendingTasks := ts })
      (by simp [promised, hts]) (by simp only [retries, hcount]; omega) rfl
      (reportedAfter_of_asks_none (by simp [asks, hts]) (by simp))
    exact inv_of_le h hstray hsame.le (.inr ⟨rfl, rfl, fun _ => hsame⟩) id
  | aside ha hs => exact inv_aside h hd hrun ha hs hstray

/-! ### Runs -/

/-- A step of the client, if the loop is ready for it. -/
theorem client_cases {i : ClientEvent} (hrun : (step (.client i)).run l = .ok () l') :
    l' = l ∨ l.CanRun i ∧ ∃ s, (TcpClient.step i).run l.client = .ok () s ∧ l' = l.after i s := by
  by_cases hcan : l.CanRun i
  · cases hok : (TcpClient.step i).run l.client with
    | ok u s =>
      have hstep : (step (.client i)).run l = .ok () (l.after i s) := by
        simp [step, EStateM.run, hcan, show TcpClient.step i l.client = _ from hok]
      exact .inr ⟨hcan, s, rfl, (EStateM.Result.ok.inj (hstep.symm.trans hrun)).2.symm⟩
    | error e s =>
      have hstep : (step (.client i)).run l = .error e { l with client := s } := by
        simp [step, EStateM.run, hcan, show TcpClient.step i l.client = _ from hok]
      cases hstep.symm.trans hrun
  · have hstep : (step (.client i)).run l = .ok () l := by
      simp [step, EStateM.run, hcan]
    exact .inl (EStateM.Result.ok.inj (hstep.symm.trans hrun)).2.symm

/-- The tasks that are queued become the batch. -/
theorem doPendingTasks_cases (hrun : (step .doPendingTasks).run l = .ok () l') :
    l' = l ∨ l.batch = none ∧ l' = { l with batch := some l.client.mPendingTasks.length } := by
  simp only [step, EStateM.run_modify, EStateM.Result.ok.injEq, true_and] at hrun
  subst hrun
  cases hbatch : l.batch with
  | none => exact .inr ⟨rfl, rfl⟩
  | some n => exact .inl rfl

/-- The loop polls again when the batch has run. -/
theorem poll_cases (hrun : (step .poll).run l = .ok () l') :
    l' = l ∨ l.batch = some 0 ∧ l' = { l with batch := none, dispatched := false } := by
  simp only [step, EStateM.run_modify, EStateM.Result.ok.injEq, true_and] at hrun
  subst hrun
  split
  · exact .inr ⟨‹_›, rfl⟩
  · exact .inl rfl

theorem inv_step (h : Inv l) {j : ClientLoopEvent} (ho : l.Once j) (hd : l.Decides j)
    (hrun : (step j).run l = .ok () l') : Inv l' := by
  cases j with
  | client i =>
    obtain rfl | ⟨hcan, s, hok, rfl⟩ := client_cases hrun
    · exact h
    · exact inv_after h ho hd hcan hok
  | doPendingTasks =>
    obtain rfl | ⟨-, rfl⟩ := doPendingTasks_cases hrun
    · exact h
    · exact ⟨h.noStray, h.fresh, h.atMost, h.connecting, h.connected⟩
  | poll =>
    obtain rfl | ⟨-, rfl⟩ := poll_cases hrun
    · exact h
    · exact ⟨h.noStray, h.fresh, h.atMost, h.connecting, h.connected⟩

theorem start_inv (mConnRandomDelay : Nat) : Inv (start mConnRandomDelay) :=
  ⟨fun t ht => absurd ht List.not_mem_nil, fun _ => ⟨rfl, rfl, rfl⟩, Nat.zero_le 1,
    fun hst => absurd hst (by simp [start, TcpClient.create]), fun _ => rfl⟩

/-- **A connecting client goes on in exactly one way** at the end of every iteration, when the first
report on each connecting socket decides its connect and later reports are ignored. -/
theorem continued_of_decides {mConnRandomDelay : Nat} {js : List ClientLoopEvent}
    (ho : Along step Once (start mConnRandomDelay) js)
    (hd : Along step Decides (start mConnRandomDelay) js) :
    Always step Continues (start mConnRandomDelay) js := by
  refine always_of_along (I := Inv) ?_ ?_ ?_ (start_inv mConnRandomDelay) (ho.and hd)
  · intro l h _ hst
    exact h.connecting hst
  · intro l j l' h hj hrun
    exact inv_step h hj.1 hj.2 hrun
  · intro l j e l' h hj hrun
    trivial

/-- The connect is refused: the error callback asks for a timer, and the task that starts it ends
the iteration. -/
def refusedOnce : List ClientLoopEvent :=
  [.client (.connect false ⟨.socket Errno.EINPROGRESS, 0, [], 0⟩),
    .client (.connEvent EPOLLERR 111), .doPendingTasks,
    .client (.task ⟨.failed, 0, [], 0⟩ ⟨.accepted 0, 0, []⟩)]

theorem continued_refusedOnce : ∃ l ∈ returned ((exec step refusedOnce).run (start 250)),
    l.batch = some 0 ∧ l.client.mState = .connecting ∧ l.continuations = 1 := by
  have hrun : ∃ l ∈ returned ((exec step refusedOnce).run (start 250)),
      l.batch = some 0 ∧ l.client.mState = .connecting := by
    decide +kernel
  obtain ⟨l, hl, hbatch, hst⟩ := hrun
  have hdecides : Along step Decides (start 250) refusedOnce := by
    refine ⟨trivial, fun l₁ hl₁ => ⟨fun _ _ _ => ?_, fun _ _ => ⟨trivial, fun _ _ =>
      ⟨trivial, fun _ _ => trivial⟩⟩⟩⟩
    -- the first report is one of an error
    obtain rfl := (EStateM.Result.ok.inj hl₁).2
    refine ⟨fun _ => .inl ?_, fun hreported => by cases hreported⟩
    unfold Channel.Errors Channel.Closes EventMask.Meets
    decide
  have honce : Along step Once (start 250) refusedOnce :=
    ⟨rfl, fun _ _ => ⟨trivial, fun _ _ => ⟨trivial, fun _ _ => ⟨trivial, fun _ _ => trivial⟩⟩⟩⟩
  have hlast := continued_of_decides honce hdecides refusedOnce (List.prefix_refl _)
  rw [eq_ok_of_mem_returned hl] at hlast
  exact ⟨l, hl, hbatch, hst, hlast hbatch hst⟩

/-- The connect fails, and the kernel reports the error together with a hang-up: only the close
callback of the channel runs. -/
theorem not_continued_hangUp : ¬ ∀ (mConnRandomDelay : Nat) (js : List ClientLoopEvent),
    Along step Once (start mConnRandomDelay) js →
      Always step Continues (start mConnRandomDelay) js := by
  intro h
  let js : List ClientLoopEvent := [.client (.connect false ⟨.socket Errno.EINPROGRESS, 0, [], 0⟩),
    .client (.connEvent (EPOLLOUT ||| EPOLLERR ||| EPOLLHUP) 0), .doPendingTasks]
  have honce : Along step Once (start 0) js :=
    ⟨rfl, fun _ _ => ⟨trivial, fun _ _ => ⟨trivial, fun _ _ => trivial⟩⟩⟩
  have hlast := h 0 js honce js (List.prefix_refl _)
  have hrun : ∃ l ∈ returned ((exec step js).run (start 0)), l.batch = some 0 ∧
      l.client.mState = .connecting ∧ l.continuations = 0 := by
    decide +kernel
  obtain ⟨l, hl, hbatch, hst, hzero⟩ := hrun
  rw [eq_ok_of_mem_returned hl] at hlast
  have hone : l.continuations = 1 := hlast hbatch hst
  omega

end ClientLoop

end SimpleTcp
