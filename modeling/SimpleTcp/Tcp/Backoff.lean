import SimpleTcp.Tcp.Presence

/-!
# Waiting before the next attempt

When an attempt to connect has failed, the client waits before the next one: 100 ms at first, and
twice as long each time, and a random part that its constructor has drawn on top. A connection
starts this over, and so does its loss. After twelve waits in a row the client gives up.

## Main definitions

* `TcpClient.Fails`: the step is an attempt that fails
* `TcpClient.timersQueued`: the delays that a step has given to `runAfter`
* `Backoff`: a client and the delays since it was last connected

## Main results

* `TcpClient.waited_step`: the delays that a step gives to `runAfter`, and the one that it leaves
* `Backoff.doubling_run`: the delays double throughout a run
* `Backoff.backsOff`: and the client gives up when they are used up, and only then
-/

namespace SimpleTcp

open TcpConnection Machine

/-- The delay of the timer that the task starts. -/
def ClientTask.delay : ClientTask → Option Nat
  | .addTimer delay => some delay
  | .transState _ | .shutdownConnection | .conn _ _ => none

theorem ClientTask.delay_of_isConn {t : ClientTask} (h : TcpClient.IsConn t) : t.delay = none := by
  obtain ⟨pos, task, rfl⟩ := h
  rfl

/-- The attempt has failed at once. -/
def ConnectResult.Fails : ConnectResult → Prop
  | .noSocket _ => False
  | .failed => True
  | .socket errCode => errCode ≠ 0 ∧
    ¬ (errCode = Errno.EINPROGRESS ∨ errCode = Errno.EINTR ∨ errCode = Errno.EISCONN)

instance : ∀ connect : ConnectResult, Decidable connect.Fails
  | .noSocket _ => inferInstanceAs (Decidable False)
  | .failed => inferInstanceAs (Decidable True)
  | .socket _ => inferInstanceAs (Decidable (_ ∧ _))

namespace TcpClient

/-- The step is an attempt that fails: at once, or by an event of the connecting socket. -/
def Fails (s : TcpClient) (i : ClientEvent) : Prop :=
  match i with
  | .connEvent mRevent _ => s.mConnChannel ≠ none ∧ Channel.Errors mRevent
  | i => ∃ a ∈ s.asks i, a.newState = .connecting ∧ s.mState ≠ .connected ∧
    (s.mConnChannel = none ∨ a.mIsLoopingNow = false) ∧ a.io.connect.Fails

instance (mRevent : EventMask) : Decidable (Channel.Errors mRevent) :=
  inferInstanceAs (Decidable (¬ (_ ∧ ¬ _) ∧ _))

instance (s : TcpClient) : ∀ i, Decidable (s.Fails i)
  | .connEvent _ _ => inferInstanceAs (Decidable (_ ∧ _))
  | .connect _ _ => inferInstanceAs (Decidable (∃ _ ∈ _, _))
  | .timer _ => inferInstanceAs (Decidable (∃ _ ∈ _, _))
  | .task _ _ => inferInstanceAs (Decidable (∃ _ ∈ _, _))
  | .disconnect => inferInstanceAs (Decidable (∃ _ ∈ _, _))
  | .event _ _ _ => inferInstanceAs (Decidable (∃ _ ∈ _, _))
  | .calls _ _ => inferInstanceAs (Decidable (∃ _ ∈ _, _))
  | .queue _ _ => inferInstanceAs (Decidable (∃ _ ∈ _, _))
  | .release _ => inferInstanceAs (Decidable (∃ _ ∈ _, _))

/-- The delays that the step from `s` to `s'` has given to `runAfter`, in the tasks it has
queued. -/
def timersQueued (s : TcpClient) (i : ClientEvent) (s' : TcpClient) : List Nat :=
  (s'.mPendingTasks.drop (s.taken i).mPendingTasks.length).filterMap ClientTask.delay

/-- The step has left the next delay at `next`, and has given the delays `timers` to `runAfter`. -/
structure Waited (s : TcpClient) (i : ClientEvent) (s' : TcpClient) (next : Nat)
    (timers : List Nat) : Prop where
  mConnRetryDelay : s'.mConnRetryDelay = next
  mConnRandomDelay : s'.mConnRandomDelay = s.mConnRandomDelay
  timersQueued : s.timersQueued i s' = timers

section

variable {s s' : TcpClient} {i : ClientEvent} {a : Ask} {mIsLoopingNow : Bool} {io : TransIo}

/-- A step that makes a change of state fails where the change is one to `Connecting` that fails. -/
theorem fails_iff_of_asks (ha : s.asks i = some a) : s.Fails i ↔
    a.newState = .connecting ∧ s.mState ≠ .connected ∧
      (s.mConnChannel = none ∨ a.mIsLoopingNow = false) ∧ a.io.connect.Fails := by
  cases i with
  | connEvent mRevent errno => cases ha
  | _ => simp [Fails, ha]

theorem not_enters_of_asks_none (ha : s.asks i = none) (st : ClientState) : ¬ s.Enters i st := by
  rintro ⟨a, hmem, -⟩
  rw [ha] at hmem
  cases hmem

theorem enters_iff_of_asks (ha : s.asks i = some a) (st : ClientState) :
    s.Enters i st ↔ a.newState = st ∧ Admits s.mState st := by
  simp [Enters, ha]

theorem Enters.unique {st st' : ClientState} (h : s.Enters i st) (h' : s.Enters i st') :
    st = st' := by
  obtain ⟨a, ha, rfl, -⟩ := h
  exact ((enters_iff_of_asks ha st').mp h').1

/-- An attempt that fails is one to enter `Connecting`. -/
theorem not_enters_of_fails {st : ClientState} (h : s.Fails i) (hst : st ≠ .connecting) :
    ¬ s.Enters i st := by
  rintro ⟨a, ha, rfl, -⟩
  exact hst ((fails_iff_of_asks ha).mp h).1

/-! ### The function that waits -/

theorem run_retry (errno : Errno) : (retry errno).run s =
    if s.mConnRetryDelay < TCP_MAX_RETRY_TIMEOUT then .ok () s.retried
    else .error (.networkException errno) s := by
  by_cases h : s.mConnRetryDelay < TCP_MAX_RETRY_TIMEOUT
  · simp [retry, EStateM.run_bind, EStateM.run_get, h]
    rfl
  · simp [retry, EStateM.run_bind, EStateM.run_get, h]

/-- The old channel is dropped, or the process ends. -/
theorem run_doConnecting : (doConnecting mIsLoopingNow io).run s =
    if s.mConnChannel = none ∨ mIsLoopingNow = false then
      match io.connect with
      | .noSocket errno => .error (.systemException errno) s.cleared
      | .failed => (retry io.errno).run s.cleared
      | .socket errCode =>
        if errCode = Errno.EINPROGRESS ∨ errCode = Errno.EINTR ∨ errCode = Errno.EISCONN then
          .ok () { s with mConnSocket := true, mConnChannel := some Channel.create.enableWrite }
        else if errCode = 0 then .ok () { s.cleared with
          mConnSocket := true
          mPendingTasks := s.mPendingTasks ++ [.transState .connected] }
        else (retry io.errno).run { s.cleared with mConnSocket := true }
    else .error .fatal s := by
  by_cases hc : s.mConnChannel = none ∨ mIsLoopingNow = false
  · rw [if_pos hc]
    have hreset : (resetConnChannel mIsLoopingNow).run s =
        .ok () { s with mConnChannel := none } := by
      simp [resetConnChannel, EStateM.run_bind, EStateM.run_get, assertTrue_pos hc]
    rw [doConnecting, EStateM.run_bind, hreset]
    simp only [EStateM.run_bind, EStateM.run_modify]
    cases hio : io.connect with
    | noSocket errno => rfl
    | failed => rfl
    | socket errCode =>
      simp only [EStateM.run_bind, EStateM.run_modify]
      split
      · rfl
      · split
        · rfl
        · rfl
  · rw [if_neg hc]
    have hreset : (resetConnChannel mIsLoopingNow).run s = .error .fatal s := by
      simp [resetConnChannel, EStateM.run_bind, EStateM.run_get, assertTrue_neg hc]
    rw [doConnecting, EStateM.run_bind, hreset]

theorem taken_mConnRetryDelay (s : TcpClient) (i : ClientEvent) :
    (s.taken i).mConnRetryDelay = s.mConnRetryDelay := by
  cases i <;> rfl

theorem taken_mConnRandomDelay (s : TcpClient) (i : ClientEvent) :
    (s.taken i).mConnRandomDelay = s.mConnRandomDelay := by
  cases i <;> rfl

/-! ### The delays of a step -/

theorem Waited.of_tasks (us : List ClientTask) {next : Nat}
    (htasks : s'.mPendingTasks = (s.taken i).mPendingTasks ++ us)
    (hnext : s'.mConnRetryDelay = next) (hrandom : s'.mConnRandomDelay = s.mConnRandomDelay) :
    Waited s i s' next (us.filterMap ClientTask.delay) :=
  ⟨hnext, hrandom, by rw [TcpClient.timersQueued, htasks, List.drop_left]⟩

/-- The tasks of a connection start no timer. -/
theorem Waited.of_idle {s₁ : TcpClient} (hidle : Idle s₁ s')
    (htasks : s₁.mPendingTasks = (s.taken i).mPendingTasks)
    (hrandom : s₁.mConnRandomDelay = s.mConnRandomDelay) :
    Waited s i s' s₁.mConnRetryDelay [] := by
  obtain ⟨us, hus, hconn⟩ := hidle.tasks
  have hnone : us.filterMap ClientTask.delay = [] :=
    List.filterMap_eq_nil_iff.mpr fun t ht => ClientTask.delay_of_isConn (hconn t ht)
  rw [← hnone]
  exact .of_tasks us (htasks ▸ hus) hidle.mConnRetryDelay (hidle.mConnRandomDelay.trans hrandom)

/-- A retry gives the delay with the random part to `runAfter`, and doubles it. -/
theorem Waited.of_retried {s₁ : TcpClient}
    (htasks : s₁.mPendingTasks = (s.taken i).mPendingTasks)
    (hrandom : s₁.mConnRandomDelay = s.mConnRandomDelay) :
    Waited s i s₁.retried (s₁.mConnRetryDelay * 2)
      [s₁.mConnRetryDelay + s.mConnRandomDelay] := by
  rw [← hrandom]
  exact .of_tasks [.addTimer (s₁.mConnRetryDelay + s₁.mConnRandomDelay)]
    (by rw [retried, htasks]) rfl hrandom

/-- An attempt that fails asks for a timer, or gives up. -/
theorem run_of_fails (h : s.Fails i) : ∃ errno s₁, s₁.mConnRetryDelay = s.mConnRetryDelay ∧
    s₁.mConnRandomDelay = s.mConnRandomDelay ∧
      s₁.mPendingTasks = (s.taken i).mPendingTasks ∧ (step i).run s = (retry errno).run s₁ := by
  cases hask : s.asks i with
  | none =>
    cases i with
    | connEvent mRevent errno =>
      refine ⟨errno, s, rfl, rfl, rfl, ?_⟩
      simp only [step, EStateM.run_bind, EStateM.run_get, h.1, ne_eq, not_false_eq_true, if_true]
      rw [handleConnEvent, Channel.handleEvent_of_errors _ _ _ _ h.2]
    | _ => simp [Fails, hask] at h
  | some a =>
    obtain ⟨hst, hold, hreset, hfails⟩ := (fails_iff_of_asks hask).mp h
    let s₀ : TcpClient := { s.taken i with mState := .connecting }
    have hreset₀ : s₀.mConnChannel = none ∨ a.mIsLoopingNow = false := by
      rw [← taken_mConnChannel s i] at hreset
      exact hreset
    have hdelay : s₀.mConnRetryDelay = s.mConnRetryDelay := taken_mConnRetryDelay s i
    have hrandom : s₀.mConnRandomDelay = s.mConnRandomDelay := taken_mConnRandomDelay s i
    have hrun : (step i).run s = (doConnecting a.mIsLoopingNow a.io).run s₀ := by
      have hadm : Admits (s.taken i).mState a.newState := by
        rw [taken_mState, hst]
        exact hold
      rw [run_step_of_asks hask, run_transStateInLoop, if_pos hadm, enter, hst]
    rw [hrun, run_doConnecting, if_pos hreset₀]
    cases hio : a.io.connect with
    | noSocket errno =>
      rw [hio] at hfails
      exact absurd hfails id
    | failed => exact ⟨a.io.errno, s₀.cleared, hdelay, hrandom, rfl, rfl⟩
    | socket errCode =>
      rw [hio] at hfails
      refine ⟨a.io.errno, { s₀.cleared with mConnSocket := true }, hdelay, hrandom, rfl, ?_⟩
      dsimp only
      rw [if_neg hfails.2, if_neg hfails.1]

/-- An attempt that does not fail asks for no timer. -/
theorem waited_of_dialed {s₁ : TcpClient} (h : (doConnecting mIsLoopingNow io).run s₁ = .ok () s')
    (htasks : s₁.mPendingTasks = (s.taken i).mPendingTasks)
    (hrandom : s₁.mConnRandomDelay = s.mConnRandomDelay)
    (hfails : (s₁.mConnChannel = none ∨ mIsLoopingNow = false) → ¬ io.connect.Fails) :
    Waited s i s' s₁.mConnRetryDelay [] := by
  rw [run_doConnecting] at h
  split at h
  · next hreset =>
    have hfails := hfails hreset
    cases hio : io.connect with
    | noSocket errno =>
      rw [hio] at h
      cases h
    | failed =>
      rw [hio] at hfails
      exact absurd trivial hfails
    | socket errCode =>
      rw [hio] at h hfails
      dsimp only at h
      split at h
      · cases h
        exact .of_tasks [] (by rw [htasks, List.append_nil]) rfl hrandom
      · next hnot =>
        split at h
        · cases h
          exact .of_tasks [.transState .connected] (by rw [htasks]) rfl hrandom
        · next hne => exact absurd ⟨hne, hnot⟩ hfails
  · cases h

/-- A step that makes no change of state. -/
theorem waited_of_asks_none (ha : s.asks i = none) (hfails : ¬ s.Fails i)
    (h : (step i).run s = .ok () s') : Waited s i s' s.mConnRetryDelay [] := by
  have hnot : ∀ {a : Ask}, s.asks i ≠ some a := by simp [ha]
  cases moves_of_ok h with
  | refused hask => exact absurd hask hnot
  | disconnect hask => exact absurd hask hnot
  | connecting hask => exact absurd hask hnot
  | connected hask => exact absurd hask hnot
  | forceDisconnected hask => exact absurd hask hnot
  | asked => exact .of_tasks [.transState .forceDisconnected] rfl rfl rfl
  | failed hch herr => exact absurd ⟨hch, herr⟩ hfails
  | written => exact .of_tasks [.transState .connected] rfl rfl rfl
  | started hts => exact .of_tasks [] (by simp [taken, hts]) rfl rfl
  | aside haside hidle =>
    rw [← taken_mConnRetryDelay s i]
    exact .of_idle hidle rfl (taken_mConnRandomDelay s i)

/-- A change of the state that was asked for and does not fail. -/
theorem waited_of_asks {a : Ask} (hask : s.asks i = some a) (hfails : ¬ s.Fails i)
    (h : (step i).run s = .ok () s') :
    Waited s i s'
      (if s.Enters i .connected then TCP_INIT_RETRY_TIMEOUT
        else if s.Enters i .disconnect then TCP_INIT_RETRY_TIMEOUT * 2
        else s.mConnRetryDelay)
      (if s.Enters i .disconnect then [TCP_INIT_RETRY_TIMEOUT + s.mConnRandomDelay] else []) := by
  simp only [enters_iff_of_asks hask]
  have hrandom := taken_mConnRandomDelay s i
  rw [run_step_of_asks hask, run_transStateInLoop, taken_mState] at h
  by_cases hadm : Admits s.mState a.newState
  · rw [if_pos hadm, enter] at h
    cases hst : a.newState with
    | connected =>
      rw [hst] at h hadm
      rw [if_pos ⟨rfl, hadm⟩, if_neg (by simp)]
      exact .of_idle (doConnected_of_ok h).2 rfl hrandom
    | disconnect =>
      rw [hst] at h hadm
      rw [if_neg (by simp), if_pos ⟨rfl, hadm⟩, if_pos ⟨rfl, hadm⟩]
      obtain ⟨s₁, hidle, rfl⟩ := doDisconnected_of_ok h
      obtain ⟨us, hus, hconn⟩ := hidle.tasks
      have hsame : s₁.mConnRandomDelay = s.mConnRandomDelay := hidle.mConnRandomDelay.trans hrandom
      -- the timer is queued behind the tasks of the connection
      let timer := ClientTask.addTimer (TCP_INIT_RETRY_TIMEOUT + s₁.mConnRandomDelay)
      have htimers : (us ++ [timer]).filterMap ClientTask.delay =
          [TCP_INIT_RETRY_TIMEOUT + s.mConnRandomDelay] := by
        rw [List.filterMap_append, List.filterMap_eq_nil_iff.mpr fun t ht =>
          ClientTask.delay_of_isConn (hconn t ht), ← hsame]
        rfl
      rw [← htimers]
      refine .of_tasks _ ?_ rfl hsame
      rw [← List.append_assoc]
      exact congrArg (· ++ _) hus
    | connecting =>
      rw [hst] at h hadm
      have hwaited := waited_of_dialed (s := s) (i := i) h rfl hrandom fun hreset hconnect =>
        hfails ((fails_iff_of_asks hask).mpr
          ⟨hst, hadm, taken_mConnChannel s i ▸ hreset, hconnect⟩)
      rw [if_neg (by simp), if_neg (by simp), if_neg (by simp), ← taken_mConnRetryDelay s i]
      exact hwaited
    | forceDisconnected =>
      rw [hst] at h
      rw [if_neg (by simp), if_neg (by simp), if_neg (by simp)]
      cases h
      exact .of_tasks [.shutdownConnection] rfl (taken_mConnRetryDelay s i) hrandom
  · rw [if_neg hadm] at h
    have hnot : ∀ st, ¬ (a.newState = st ∧ Admits s.mState st) := by
      rintro st ⟨rfl, hst⟩
      exact hadm hst
    rw [if_neg (hnot _), if_neg (hnot _), if_neg (hnot _)]
    cases h
    exact .of_tasks [] (List.append_nil _).symm (taken_mConnRetryDelay s i) hrandom

/-- **The delays of a step**: a connection starts over, and so does the loss of one, which waits
100 ms; an attempt that fails waits and doubles the delay; nothing else waits. -/
theorem waited_step (h : (step i).run s = .ok () s') :
    Waited s i s'
      (if s.Enters i .connected then TCP_INIT_RETRY_TIMEOUT
        else if s.Enters i .disconnect then TCP_INIT_RETRY_TIMEOUT * 2
        else if s.Fails i then s.mConnRetryDelay * 2
        else s.mConnRetryDelay)
      (if s.Enters i .disconnect then [TCP_INIT_RETRY_TIMEOUT + s.mConnRandomDelay]
        else if s.Fails i then [s.mConnRetryDelay + s.mConnRandomDelay]
        else []) := by
  by_cases hfails : s.Fails i
  · obtain ⟨errno, s₁, hdelay, hrandom, htasks, hrun⟩ := run_of_fails hfails
    rw [hrun] at h
    obtain ⟨-, rfl⟩ := retry_of_ok h
    rw [if_neg (not_enters_of_fails hfails (by simp)),
      if_neg (not_enters_of_fails hfails (by simp)),
      if_neg (not_enters_of_fails hfails (by simp)), if_pos hfails, if_pos hfails, ← hdelay]
    exact .of_retried htasks hrandom
  · simp only [if_neg hfails]
    cases hask : s.asks i with
    | none =>
      simp only [if_neg (not_enters_of_asks_none hask _)]
      exact waited_of_asks_none hask hfails h
    | some a => exact waited_of_asks hask hfails h

end

end TcpClient

/-! ### The waits -/

/-- A client, and the delays of the timers it has asked for since it was last connected. -/
structure Backoff where
  client : TcpClient
  delays : List Nat

namespace Backoff

def start (mConnRandomDelay : Nat) : Backoff := ⟨TcpClient.create mConnRandomDelay, []⟩

/-- The delays when the step has taken the client to `client`: a connection and the loss of one
start over. -/
def delaysAfter (h : Backoff) (i : ClientEvent) (client : TcpClient) : List Nat :=
  (if h.client.Enters i .connected ∨ h.client.Enters i .disconnect then [] else h.delays) ++
    h.client.timersQueued i client

/-- A step of the client. -/
def step (i : ClientEvent) : EStateM Stop Backoff Unit := fun h =>
  match (TcpClient.step i).run h.client with
  | .ok _ client => .ok () ⟨client, h.delaysAfter i client⟩
  | .error e client => .error e { h with client }

theorem run_step_ok {h : Backoff} {i : ClientEvent} {client : TcpClient}
    (hrun : (TcpClient.step i).run h.client = .ok () client) :
    (step i).run h = .ok () ⟨client, h.delaysAfter i client⟩ := by
  simp only [step, EStateM.run] at hrun ⊢
  rw [hrun]

theorem run_step_error {h : Backoff} {i : ClientEvent} {client : TcpClient} {e : Stop}
    (hrun : (TcpClient.step i).run h.client = .error e client) :
    (step i).run h = .error e { h with client } := by
  simp only [step, EStateM.run] at hrun ⊢
  rw [hrun]

/-- The first `n` delays: 100 ms, doubled each time, and the random part. -/
def doubled (mConnRandomDelay n : Nat) : List Nat :=
  (List.range n).map fun k => TcpClient.TCP_INIT_RETRY_TIMEOUT * 2 ^ k + mConnRandomDelay

theorem doubled_succ (mConnRandomDelay n : Nat) :
    doubled mConnRandomDelay (n + 1) = doubled mConnRandomDelay n ++
      [TcpClient.TCP_INIT_RETRY_TIMEOUT * 2 ^ n + mConnRandomDelay] := by
  rw [doubled, List.range_succ, List.map_append]
  rfl

/-- The delays double, and the next one is the one that the client has. -/
structure Doubling (mConnRandomDelay : Nat) (h : Backoff) : Prop where
  delays : h.delays = doubled mConnRandomDelay h.delays.length
  next : h.client.mConnRetryDelay = TcpClient.TCP_INIT_RETRY_TIMEOUT * 2 ^ h.delays.length
  random : h.client.mConnRandomDelay = mConnRandomDelay
  few : h.delays.length ≤ 12

variable {mConnRandomDelay : Nat} {h h' : Backoff} {i : ClientEvent}

/-- The delay allows for another timer as long as there were fewer than twelve. -/
theorem Doubling.lt_iff (hd : h.Doubling mConnRandomDelay) :
    h.client.mConnRetryDelay < TcpClient.TCP_MAX_RETRY_TIMEOUT ↔ h.delays.length < 12 := by
  rw [hd.next, TcpClient.TCP_INIT_RETRY_TIMEOUT, TcpClient.TCP_MAX_RETRY_TIMEOUT]
  constructor
  · intro hlt
    by_contra hnot
    have hpow : 2 ^ 12 ≤ 2 ^ h.delays.length :=
      Nat.pow_le_pow_right (by decide) (Nat.le_of_not_lt hnot)
    omega
  · intro hlt
    have hpow : 2 ^ h.delays.length ≤ 2 ^ 11 :=
      Nat.pow_le_pow_right (by decide) (Nat.le_of_lt_succ hlt)
    omega

theorem doubling_start (mConnRandomDelay : Nat) :
    (start mConnRandomDelay).Doubling mConnRandomDelay :=
  ⟨rfl, rfl, rfl, Nat.zero_le _⟩

/-- **A step keeps the delays doubling.** -/
theorem doubling_step (hd : h.Doubling mConnRandomDelay) (hrun : (step i).run h = .ok () h') :
    h'.Doubling mConnRandomDelay := by
  cases hclient : (TcpClient.step i).run h.client with
  | error e client =>
    rw [run_step_error hclient] at hrun
    cases hrun
  | ok u client =>
    obtain ⟨-, rfl⟩ := EStateM.Result.ok.inj ((run_step_ok hclient).symm.trans hrun)
    obtain ⟨hdelay, hsame, htimers⟩ := TcpClient.waited_step hclient
    have hrandom : client.mConnRandomDelay = mConnRandomDelay := hsame.trans hd.random
    rw [hd.random] at htimers
    by_cases hconnected : h.client.Enters i .connected
    · have hdisconnect : ¬ h.client.Enters i .disconnect :=
        fun henters => absurd (hconnected.unique henters) (by simp)
      have hfails : ¬ h.client.Fails i :=
        fun hfails => TcpClient.not_enters_of_fails hfails (by simp) hconnected
      rw [if_pos hconnected] at hdelay
      rw [if_neg hdisconnect, if_neg hfails] at htimers
      have hdelays : h.delaysAfter i client = [] := by
        rw [delaysAfter, if_pos (.inl hconnected), htimers, List.append_nil]
      rw [hdelays]
      exact ⟨rfl, hdelay, hrandom, by simp⟩
    · by_cases hdisconnect : h.client.Enters i .disconnect
      · rw [if_neg hconnected, if_pos hdisconnect] at hdelay
        rw [if_pos hdisconnect] at htimers
        have hdelays : h.delaysAfter i client =
            [TcpClient.TCP_INIT_RETRY_TIMEOUT + mConnRandomDelay] := by
          rw [delaysAfter, if_pos (.inr hdisconnect), htimers, List.nil_append]
        rw [hdelays]
        exact ⟨rfl, hdelay, hrandom, by simp⟩
      · have hstays : ¬ (h.client.Enters i .connected ∨ h.client.Enters i .disconnect) :=
          not_or.mpr ⟨hconnected, hdisconnect⟩
        by_cases hfails : h.client.Fails i
        · rw [if_neg hconnected, if_neg hdisconnect, if_pos hfails] at hdelay
          rw [if_neg hdisconnect, if_pos hfails] at htimers
          have hdelays : h.delaysAfter i client =
              h.delays ++ [h.client.mConnRetryDelay + mConnRandomDelay] := by
            rw [delaysAfter, if_neg hstays, htimers]
          -- the attempt did not give up
          obtain ⟨errno, s₁, hfound, -, -, hretry⟩ := TcpClient.run_of_fails hfails
          have hlt := (TcpClient.retry_of_ok (hretry.symm.trans hclient)).1
          rw [hfound, hd.lt_iff] at hlt
          have hlen : (h.delaysAfter i client).length = h.delays.length + 1 := by
            rw [hdelays, List.length_append, List.length_singleton]
          refine ⟨?_, ?_, hrandom, ?_⟩
          · show h.delaysAfter i client = doubled _ (h.delaysAfter i client).length
            rw [hlen, doubled_succ, hdelays, ← hd.delays, hd.next]
          · show client.mConnRetryDelay = _ * 2 ^ (h.delaysAfter i client).length
            rw [hlen, hdelay, hd.next, Nat.pow_succ, Nat.mul_assoc]
          · show (h.delaysAfter i client).length ≤ 12
            omega
        · rw [if_neg hconnected, if_neg hdisconnect, if_neg hfails] at hdelay
          rw [if_neg hdisconnect, if_neg hfails] at htimers
          have hdelays : h.delaysAfter i client = h.delays := by
            rw [delaysAfter, if_neg hstays, htimers, List.append_nil]
          rw [hdelays]
          exact ⟨hd.delays, hdelay.trans hd.next, hrandom, hd.few⟩

/-- The delays double throughout a run. -/
theorem doubling_run {is : List ClientEvent}
    (hrun : (exec step is).run (start mConnRandomDelay) = .ok () h) : h.Doubling mConnRandomDelay :=
  Along.invariant (P := fun _ _ => True) (fun _ _ _ hd _ hrun => doubling_step hd hrun)
    (Along.of_forall (fun _ _ => trivial) (start mConnRandomDelay) is)
    (doubling_start mConnRandomDelay) hrun

/-- **A client backs off**: in every run the delays since it was last connected are 100 ms, 200 ms
and so on with the random part added, at most twelve of them; and an attempt that fails makes the
client give up exactly when there were twelve. -/
theorem backsOff (mConnRandomDelay : Nat) (is : List ClientEvent) (h : Backoff)
    (hrun : (exec step is).run (start mConnRandomDelay) = .ok () h) :
    h.delays = doubled mConnRandomDelay h.delays.length ∧ h.delays.length ≤ 12 ∧
      ∀ i, h.client.Fails i →
        ((∃ errno h', (step i).run h = .error (.networkException errno) h') ↔
          h.delays.length = 12) := by
  have hd := doubling_run hrun
  refine ⟨hd.delays, hd.few, fun i hfails => ?_⟩
  obtain ⟨errno, s₁, hsame, -, -, hretry⟩ := TcpClient.run_of_fails hfails
  have hlt := hd.lt_iff
  rw [← hsame] at hlt
  have hfew := hd.few
  rw [TcpClient.run_retry] at hretry
  constructor
  · rintro ⟨errno', h', hstop⟩
    by_contra hne
    rw [if_pos (hlt.mpr (by omega))] at hretry
    rw [run_step_ok hretry] at hstop
    cases hstop
  · intro hlast
    rw [if_neg fun hgoes => by have := hlt.mp hgoes; omega] at hretry
    exact ⟨errno, _, run_step_error hretry⟩

/-- What an attempt meets that fails at once. -/
def refused : TransIo := ⟨.failed, 0, [], 111⟩

/-- Twelve attempts that fail: each timer is started, and fires. -/
def twelve : List ClientEvent :=
  .connect false refused :: .task refused ⟨.accepted 0, 0, []⟩ ::
    (List.replicate 11 [ClientEvent.timer refused, .task refused ⟨.accepted 0, 0, []⟩]).flatten

theorem backsOff_twelve : ∃ h : Backoff, h.delays = doubled 250 12 ∧
    ∃ errno h', (step (.timer refused)).run h = .error (.networkException errno) h' := by
  have hok : ∃ h ∈ returned ((exec step twelve).run (start 250)),
      h.delays = doubled 250 12 ∧ h.client.Fails (.timer refused) := by decide +kernel
  obtain ⟨h, hmem, hdelays, hfails⟩ := hok
  obtain ⟨-, -, hstop⟩ := backsOff 250 twelve h (eq_ok_of_mem_returned hmem)
  refine ⟨h, hdelays, (hstop _ hfails).mpr ?_⟩
  rw [hdelays]
  rfl

end Backoff

end SimpleTcp
