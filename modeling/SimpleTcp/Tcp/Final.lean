import SimpleTcp.Tcp.Changes

/-!
# The end of a client

`disconnect` only queues the change to `ForceDisconnected`. The tasks that are queued ahead of it
run first, and one of them may be the task of a close callback; the change is refused once that task
has taken the client to `Disconnect`, with a retry on its way. A retry that was on its way before
connects a client that is `ForceDisconnected`, since the guard of `Connecting` refuses only
`Connected`.

## Main definitions

* `TcpClient.next`: the state of a client after a task of its queue
* `TcpClient.NoClose`: no close task of a queue finds the client connected
* `TcpClient.Parts`: nothing stands in the way of `disconnect`

## Main results

* `TcpClient.leaving_step`: a client that is leaving goes on leaving until it is told to connect
* `TcpClient.neverConnecting_of_parts`: after such a `disconnect` the client never connects
-/

namespace SimpleTcp

open TcpConnection Machine

namespace TcpClient

/-- The state of the client when the task has run. -/
def next (st : ClientState) : ClientTask → ClientState
  | .transState newState => if Admits st newState then newState else st
  | .conn _ .close => if st = .connected then .disconnect else st
  | _ => st

/-- No close task of the queue finds the client connected, when its tasks run in order. -/
def NoClose (st : ClientState) : List ClientTask → Prop
  | [] => True
  | t :: ts => (st = .connected → ∀ pos, t ≠ .conn pos .close) ∧ NoClose (next st t) ts

/-- When `disconnect` is called: no retry is on its way, no connecting socket is watched, and no
close task that is queued ahead finds the client connected. -/
structure Parts (s : TcpClient) : Prop where
  timers : s.timers = 0
  noTimer : ∀ delay, .addTimer delay ∉ s.mPendingTasks
  unwatched : s.mConnChannel = none
  noClose : NoClose s.mState s.mPendingTasks

/-- The step leaves the client out of `Connecting`. -/
def StaysAway (s : TcpClient) (i : ClientEvent) : Prop :=
  ¬ s.Enters i .connecting ∧
    (s.mState ≠ .connecting → (final ((step i).run s)).mState ≠ .connecting)

def IsConnect : ClientEvent → Prop
  | .connect _ _ => True
  | _ => False

/-! ### The tasks in the queue -/

/-- The client never queues these changes of state. -/
def Stray (t : ClientTask) : Prop := t = .transState .connecting ∨ t = .transState .disconnect

def NoStray (s : TcpClient) : Prop := ∀ t ∈ s.mPendingTasks, ¬ Stray t

variable {s s' : TcpClient} {i : ClientEvent}

theorem not_stray_of_isConn {t : ClientTask} (h : IsConn t) : ¬ Stray t := by
  obtain ⟨pos, task, rfl⟩ := h
  simp [Stray]

theorem mem_of_mem_taken {t : ClientTask} (h : t ∈ (s.taken i).mPendingTasks) :
    t ∈ s.mPendingTasks := by
  cases i with
  | task io taskIo => exact List.mem_of_mem_tail h
  | _ => exact h

theorem Idle.mem_or_isConn (h : Idle s s') {t : ClientTask} (ht : t ∈ s'.mPendingTasks) :
    t ∈ s.mPendingTasks ∨ IsConn t := by
  obtain ⟨us, hus, hconn⟩ := h.tasks
  rw [hus] at ht
  exact (List.mem_append.mp ht).imp_right (hconn t)

/-- The tasks that a step queues. -/
def Queued (t : ClientTask) : Prop :=
  IsConn t ∨ t = .shutdownConnection ∨ (∃ delay, t = .addTimer delay) ∨
    t = .transState .connected ∨ t = .transState .forceDisconnected

theorem Queued.not_stray {t : ClientTask} (h : Queued t) : ¬ Stray t := by
  rcases h with h | rfl | ⟨delay, rfl⟩ | rfl | rfl
  · exact not_stray_of_isConn h
  all_goals simp [Stray]

theorem Dialed.mem {r : ConnectResult} (h : Dialed s r s') {t : ClientTask}
    (ht : t ∈ s'.mPendingTasks) : t ∈ s.mPendingTasks ∨ Queued t := by
  have happ : ∀ {u}, Queued u → t ∈ s.mPendingTasks ++ [u] → t ∈ s.mPendingTasks ∨ Queued t := by
    intro u hu hmem
    refine (List.mem_append.mp hmem).imp_right fun hlast => ?_
    rwa [List.mem_singleton.mp hlast]
  cases h with
  | failed => exact happ (by simp [Queued]) ht
  | watched herr => exact .inl ht
  | atOnce => exact happ (by simp [Queued]) ht
  | refused herr => exact happ (by simp [Queued]) ht

/-- A task of the queue was in it before the step, or has just been queued. -/
theorem Moves.mem (h : Moves s i s') {t : ClientTask} (ht : t ∈ s'.mPendingTasks) :
    t ∈ s.mPendingTasks ∨ Queued t := by
  have hidle : ∀ {u u' : TcpClient}, Idle u u' → u.mPendingTasks = (s.taken i).mPendingTasks →
      t ∈ u'.mPendingTasks → t ∈ s.mPendingTasks ∨ Queued t := by
    intro u u' hu heq hmem
    refine (hu.mem_or_isConn hmem).imp (fun hold => ?_) .inl
    rw [heq] at hold
    exact mem_of_mem_taken hold
  have happ : ∀ {q : List ClientTask} {u : ClientTask}, Queued u →
      (t ∈ q → t ∈ s.mPendingTasks ∨ Queued t) → t ∈ q ++ [u] →
      t ∈ s.mPendingTasks ∨ Queued t := by
    intro q u hu hq hmem
    rcases List.mem_append.mp hmem with hold | hlast
    · exact hq hold
    · exact .inr (List.mem_singleton.mp hlast ▸ hu)
  cases h with
  | refused ha hadm => exact .inl (mem_of_mem_taken ht)
  | disconnect ha hst hold hs => exact happ (by simp [Queued]) (hidle hs rfl) ht
  | connecting ha hst hold hs => exact (hs.mem ht).imp_left mem_of_mem_taken
  | connected ha hst hold hsocket hs => exact hidle hs rfl ht
  | forceDisconnected ha hst hold =>
    exact happ (by simp [Queued]) (fun hmem => .inl (mem_of_mem_taken hmem)) ht
  | asked hc => exact happ (by simp [Queued]) .inl ht
  | failed hch hm hdelay => exact happ (by simp [Queued]) .inl ht
  | written hch hm => exact happ (by simp [Queued]) .inl ht
  | started hts => exact .inl (hts ▸ List.mem_cons_of_mem _ ht)
  | aside ha hs => exact hidle hs rfl ht

theorem noStray_of_ok (h : NoStray s) (hrun : (step i).run s = .ok () s') : NoStray s' :=
  fun t ht => ((moves_of_ok hrun).mem ht).elim (h t) Queued.not_stray

theorem noStray_of_run {mConnRandomDelay : Nat} {is : List ClientEvent}
    (hrun : (exec step is).run (create mConnRandomDelay) = .ok () s) : NoStray s :=
  Along.invariant (P := fun _ _ => True) (fun _ _ _ hs _ hi => noStray_of_ok hs hi)
    (Along.of_forall (fun _ _ => trivial) (create mConnRandomDelay) is)
    (fun _ ht => absurd ht List.not_mem_nil) hrun

/-! ### Running the queue -/

/-- Out of `Connecting` and `Connected`. -/
def Out (st : ClientState) : Prop := st = .disconnect ∨ st = .forceDisconnected

theorem Out.next {st : ClientState} (h : Out st) {t : ClientTask} (ht : ¬ Stray t) :
    Out (next st t) := by
  have hst : st ≠ .connected ∧ st ≠ .connecting := by
    rcases h with rfl | rfl <;> simp
  cases t with
  | transState newState =>
    cases newState with
    | disconnect => exact absurd (.inr rfl) ht
    | connecting => exact absurd (.inl rfl) ht
    | connected =>
      rwa [TcpClient.next, if_neg (show ¬ Admits st .connected from hst.2)]
    | forceDisconnected =>
      rw [TcpClient.next]
      split
      · exact .inr rfl
      · exact h
  | conn pos task =>
    cases task with
    | close => rwa [TcpClient.next, if_neg hst.1]
    | _ => exact h
  | _ => exact h

/-- The client ends up out of `Connecting` and `Connected` when the queue has run, and does not
close a connection on the way. -/
def RunsOut (st : ClientState) (q : List ClientTask) : Prop := NoClose st q ∧ Out (q.foldl next st)

theorem noClose_append {st : ClientState} {q us : List ClientTask} :
    NoClose st (q ++ us) ↔ NoClose st q ∧ NoClose (q.foldl next st) us := by
  induction q generalizing st with
  | nil => simp [NoClose]
  | cons t q ih =>
    rw [List.cons_append, NoClose, ih, NoClose, List.foldl_cons, and_assoc]

theorem Out.runsOut {st : ClientState} (h : Out st) {us : List ClientTask}
    (hus : ∀ t ∈ us, ¬ Stray t) : RunsOut st us := by
  induction us generalizing st with
  | nil => exact ⟨trivial, h⟩
  | cons t us ih =>
    obtain ⟨ht, hrest⟩ := List.forall_mem_cons.mp hus
    obtain ⟨hclose, hout⟩ := ih (h.next ht) hrest
    refine ⟨⟨fun hst => ?_, hclose⟩, hout⟩
    rcases h with rfl | rfl <;> cases hst

theorem RunsOut.append {st : ClientState} {q us : List ClientTask} (h : RunsOut st q)
    (hus : ∀ t ∈ us, ¬ Stray t) : RunsOut st (q ++ us) := by
  obtain ⟨hclose, hout⟩ := h.2.runsOut hus
  refine ⟨noClose_append.mpr ⟨h.1, hclose⟩, ?_⟩
  rwa [List.foldl_append]

/-- `disconnect` has been called, and nothing stands in its way. -/
structure Leaving (s : TcpClient) : Prop where
  timers : s.timers = 0
  noTimer : ∀ delay, .addTimer delay ∉ s.mPendingTasks
  unwatched : s.mConnChannel = none
  noStray : s.NoStray
  runsOut : RunsOut s.mState s.mPendingTasks

/-- The tasks that are left have been queued before, or do not matter. -/
theorem Leaving.of_tasks (h : Leaving s) {q us : List ClientTask} (htimers : s'.timers = 0)
    (hch : s'.mConnChannel = none) (htasks : s'.mPendingTasks = q ++ us)
    (hq : ∀ t ∈ q, t ∈ s.mPendingTasks) (hus : ∀ t ∈ us, ¬ Stray t ∧ ∀ delay, t ≠ .addTimer delay)
    (hout : RunsOut s'.mState q) : Leaving s' := by
  refine ⟨htimers, ?_, hch, ?_, ?_⟩
  · rw [htasks]
    intro delay hmem
    rcases List.mem_append.mp hmem with hmem | hmem
    · exact h.noTimer delay (hq _ hmem)
    · exact (hus _ hmem).2 delay rfl
  · intro t ht
    rw [htasks] at ht
    rcases List.mem_append.mp ht with hmem | hmem
    · exact h.noStray t (hq t hmem)
    · exact (hus t hmem).1
  · rw [htasks]
    exact hout.append fun t ht => (hus t ht).1

/-! ### A client that is leaving -/

/-- A client that is not told to connect and has no timer changes its state in a task only. -/
theorem task_of_asks {a : Ask} (ha : s.asks i = some a) (htimers : s.timers = 0)
    (hi : ¬ IsConnect i) :
    ∃ io taskIo t ts, i = .task io taskIo ∧ s.mPendingTasks = t :: ts ∧
      (t = .transState a.newState ∨ a.newState = .disconnect ∧ ∃ pos, t = .conn pos .close) := by
  rcases asks_cases ha with ⟨mIsLoopingNow, io, rfl, -⟩ | ⟨io, -, htimer, -⟩ | htask
  · exact absurd trivial hi
  · omega
  · exact htask

/-- A task that does not concern connecting leaves the state alone. -/
theorem next_of_aside {st : ClientState} {t : ClientTask}
    (h : t = .shutdownConnection ∨ ∃ pos task, task ≠ .close ∧ t = .conn pos task) :
    next st t = st := by
  rcases h with rfl | ⟨pos, task, htask, rfl⟩
  · rfl
  · cases task with
    | close => exact absurd rfl htask
    | _ => rfl

/-- A change of state that a leaving client admits is queued, and is no close task. -/
theorem Leaving.of_admits (h : Leaving s) (hi : ¬ IsConnect i) {a : Ask} (ha : s.asks i = some a)
    (hadm : Admits s.mState a.newState) :
    RunsOut a.newState (s.taken i).mPendingTasks ∧
      (a.newState = .connected ∨ a.newState = .forceDisconnected) := by
  obtain ⟨io, taskIo, t, ts, rfl, hts, ht⟩ := task_of_asks ha h.timers hi
  have htaken : (s.taken (.task io taskIo)).mPendingTasks = ts := by simp [taken, hts]
  have hout := h.runsOut
  have hstray := h.noStray
  rw [NoStray] at hstray
  rw [hts] at hout hstray
  rw [htaken]
  rcases ht with rfl | ⟨hst, pos, rfl⟩
  · -- the client queues changes to `Connected` and `ForceDisconnected` only
    have hnext : next s.mState (.transState a.newState) = a.newState := if_pos hadm
    refine ⟨hnext ▸ ⟨hout.1.2, hout.2⟩, ?_⟩
    have hnot := hstray _ List.mem_cons_self
    cases hnew : a.newState with
    | disconnect => exact absurd (.inr (by rw [hnew])) hnot
    | connecting => exact absurd (.inl (by rw [hnew])) hnot
    | connected => exact .inl rfl
    | forceDisconnected => exact .inr rfl
  · rw [hst] at hadm
    exact absurd rfl (hout.1.1 hadm pos)

/-- A leaving client admits neither a close nor a connect. -/
theorem Leaving.not_admits (h : Leaving s) (hi : ¬ IsConnect i) {a : Ask} (ha : s.asks i = some a)
    (hst : a.newState = .disconnect ∨ a.newState = .connecting) :
    ¬ Admits s.mState a.newState := by
  intro hadm
  have hnew := (h.of_admits hi ha hadm).2
  rcases hst with hst | hst <;> simp [hst] at hnew

theorem Leaving.of_not_admits (h : Leaving s) (hi : ¬ IsConnect i) {a : Ask}
    (ha : s.asks i = some a) (hadm : ¬ Admits s.mState a.newState) :
    RunsOut s.mState (s.taken i).mPendingTasks := by
  obtain ⟨io, taskIo, t, ts, rfl, hts, ht⟩ := task_of_asks ha h.timers hi
  have htaken : (s.taken (.task io taskIo)).mPendingTasks = ts := by simp [taken, hts]
  have hout := h.runsOut
  rw [hts] at hout
  have hnext : next s.mState t = s.mState := by
    rcases ht with rfl | ⟨hst, pos, rfl⟩
    · exact if_neg hadm
    · rw [hst] at hadm
      exact if_neg hadm
  rw [htaken, ← hnext]
  exact ⟨hout.1.2, hout.2⟩

/-- The tasks that are left when a step stands aside. -/
theorem Leaving.of_aside (h : Leaving s) (hi : s.Aside i) :
    RunsOut s.mState (s.taken i).mPendingTasks := by
  cases i with
  | task io taskIo =>
    have hout := h.runsOut
    cases hts : s.mPendingTasks with
    | nil => simpa [taken, hts] using hout
    | cons t ts =>
      rw [hts] at hout
      rw [Aside, hts] at hi
      have hnext : next s.mState t = s.mState := next_of_aside (hi t rfl)
      rw [show (s.taken (.task io taskIo)).mPendingTasks = ts by simp [taken, hts], ← hnext]
      exact ⟨hout.1.2, hout.2⟩
  | _ => exact h.runsOut

theorem Leaving.taken_timers (h : Leaving s) (i : ClientEvent) : (s.taken i).timers = 0 := by
  cases i with
  | timer io => simp [taken, h.timers]
  | _ => exact h.timers

/-- **A client that is leaving goes on leaving** until it is told to connect. -/
theorem leaving_step (h : Leaving s) (hi : ¬ IsConnect i) (hrun : (step i).run s = .ok () s') :
    Leaving s' := by
  have htaken : ∀ t ∈ (s.taken i).mPendingTasks, t ∈ s.mPendingTasks := fun _ => mem_of_mem_taken
  -- the tasks of the connections bring neither a stray change nor a timer
  have hconn : ∀ {us : List ClientTask}, (∀ t ∈ us, IsConn t) →
      ∀ t ∈ us, ¬ Stray t ∧ ∀ delay, t ≠ .addTimer delay := by
    intro us hus t ht
    refine ⟨not_stray_of_isConn (hus t ht), ?_⟩
    rintro delay rfl
    obtain ⟨pos, task, hc⟩ := hus _ ht
    cases hc
  have hch := (taken_mConnChannel s i).trans h.unwatched
  cases moves_of_ok hrun with
  | refused ha hadm =>
    exact h.of_tasks (h.taken_timers i) hch (List.append_nil _).symm htaken (by simp)
      (taken_mState s i ▸ h.of_not_admits hi ha hadm)
  | disconnect ha hst hold hs => exact absurd (hst.symm ▸ hold) (h.not_admits hi ha (.inl hst))
  | connecting ha hst hold hs => exact absurd (hst.symm ▸ hold) (h.not_admits hi ha (.inr hst))
  | connected ha hst hold hsocket hs =>
    have hout := (h.of_admits hi ha (hst.symm ▸ hold)).1
    obtain ⟨us, hus, hall⟩ := hs.tasks
    refine h.of_tasks (hs.timers.trans (h.taken_timers i)) hs.mConnChannel hus htaken
      (hconn hall) ?_
    rw [hs.mState]
    exact hst ▸ hout
  | forceDisconnected ha hst hold =>
    have hout := (h.of_admits hi ha (hst.symm ▸ hold)).1
    exact h.of_tasks (h.taken_timers i) hch rfl htaken (by simp [Stray]) (hst ▸ hout)
  | asked hc => exact h.of_tasks h.timers h.unwatched rfl (fun _ => id) (by simp [Stray]) h.runsOut
  -- no connecting socket is watched, and no timer is to be added
  | failed hne hm hdelay => exact absurd h.unwatched hne
  | written hne hm => exact absurd h.unwatched hne
  | started hts => exact absurd (hts ▸ List.mem_cons_self) (h.noTimer _)
  | aside ha hs =>
    obtain ⟨us, hus, hall⟩ := hs.tasks
    refine h.of_tasks (hs.timers.trans (h.taken_timers i)) (hs.mConnChannel.trans hch) hus htaken
      (hconn hall) ?_
    rw [hs.mState, taken_mState]
    exact h.of_aside ha

/-- A client that is leaving does not enter `Connecting`. -/
theorem Leaving.staysAway (h : Leaving s) (hi : ¬ IsConnect i) : s.StaysAway i := by
  have hnot : ¬ s.Enters i .connecting := by
    rintro ⟨a, ha, hst, hadm⟩
    exact h.not_admits hi ha (.inr hst) (hst.symm ▸ hadm)
  refine ⟨hnot, fun hst => ?_⟩
  by_cases hex : ∃ st, s.Enters i st
  · obtain ⟨st, hst'⟩ := hex
    rw [(mState_step s i).1 st hst']
    rintro rfl
    exact hnot hst'
  · rw [(mState_step s i).2 (not_exists.mp hex)]
    exact hst

/-- The change that `disconnect` queues takes the client out of every state. -/
theorem leaving_disconnect (hstray : s.NoStray) (hconn : s.mConnection ≠ none) (h : s.Parts)
    (hrun : (step .disconnect).run s = .ok () s') : Leaving s' := by
  have hqueue : (step .disconnect).run s =
      .ok () { s with mPendingTasks := s.mPendingTasks ++ [.transState .forceDisconnected] } := by
    simp [step, TcpClient.disconnect, EStateM.run_bind, EStateM.run_get, hconn, queueInLoop]
  rw [hqueue] at hrun
  cases hrun
  refine ⟨h.timers, by simp [h.noTimer], h.unwatched, ?_, noClose_append.mpr ⟨h.noClose, ?_⟩, ?_⟩
  · intro t ht
    rcases List.mem_append.mp ht with hmem | hmem
    · exact hstray t hmem
    · rw [List.mem_singleton.mp hmem]
      simp [Stray]
  · simp [NoClose]
  · -- whatever the tasks ahead make of the state, the last change is made or was not needed
    rw [List.foldl_append]
    generalize List.foldl next s.mState s.mPendingTasks = st
    change Out (if Admits st .forceDisconnected then _ else st)
    split
    · exact .inr rfl
    · rename_i hnot
      rw [Admits, not_and_or, not_not, not_not] at hnot
      exact hnot

/-- **After a `disconnect` that nothing stands in the way of, the client does not connect** until it
is told to. -/
theorem neverConnecting_of_parts {mConnRandomDelay : Nat} {pre post : List ClientEvent}
    (hpre : (exec step pre).run (create mConnRandomDelay) = .ok () s)
    (hconn : s.mConnection ≠ none) (h : s.Parts)
    (hrun : (step .disconnect).run s = .ok () s') (hpost : ∀ i ∈ post, ¬ IsConnect i) :
    Along step StaysAway s' post := by
  have hleaving : Leaving s' := leaving_disconnect (noStray_of_run hpre) hconn h hrun
  refine Along.of_invariant (P := fun _ i => ¬ IsConnect i) (I := Leaving) ?_ ?_ hleaving
    (Along.of_forall_mem hpost s')
  · intro s i hs hi
    exact hs.staysAway hi
  · intro s i s₁ hs hi hok
    exact leaving_step hs hi hok

/-- A client that is established is told to disconnect. -/
theorem neverConnecting_established :
    ∃ s s', s.mConnection ≠ none ∧ (step .disconnect).run s = .ok () s' ∧
      Along step StaysAway s' [.task ⟨.failed, 0, [], 0⟩ ⟨.accepted 0, 0, []⟩,
        .timer ⟨.failed, 0, [], 0⟩] := by
  let pre : List ClientEvent :=
    [.connect false ⟨.socket 0, 0, [], 0⟩, .task ⟨.socket 0, 0, [], 0⟩ ⟨.accepted 0, 0, []⟩]
  have hrun : ∃ s ∈ returned ((exec step pre).run (create 0)),
      (s.mConnection ≠ none ∧ s.timers = 0 ∧ s.mConnChannel = none ∧ s.mPendingTasks = []) ∧
      ∃ s' ∈ returned ((step .disconnect).run s), s'.mState = .connected := by
    decide +kernel
  obtain ⟨s, hs, ⟨hconn, htimers, hch, htasks⟩, s', hs', -⟩ := hrun
  have hparts : s.Parts := ⟨htimers, by simp [htasks], hch, by simp [htasks, NoClose]⟩
  have hdis := eq_ok_of_mem_returned hs'
  exact ⟨s, s', hconn, hdis, neverConnecting_of_parts (eq_ok_of_mem_returned hs) hconn hparts hdis
    (by simp [IsConnect])⟩

/-- The peer closes, and the connection callback calls `disconnect`: the task of the close callback
is ahead, and the client connects again. -/
theorem not_neverConnecting_callback :
    ¬ ∀ (mConnRandomDelay : Nat) (pre post : List ClientEvent) (s s' : TcpClient),
      (exec step pre).run (create mConnRandomDelay) = .ok () s → s.mConnection ≠ none →
      (step .disconnect).run s = .ok () s' → (∀ i ∈ post, ¬ IsConnect i) →
      Along step StaysAway s' post := by
  intro h
  let io : TransIo := ⟨.socket 0, 0, [], 0⟩
  let task : ClientEvent := .task io ⟨.accepted 0, 0, []⟩
  let pre : List ClientEvent := [.connect false io, task,
    .event 0 EPOLLIN ⟨⟨.bytes [], 0, [], []⟩, ⟨.accepted 0, 0, []⟩, []⟩]
  -- the close task, the refused change, the start of the timer
  let tasks : List ClientEvent := [task, task, task]
  have hrun : ∃ s ∈ returned ((exec step pre).run (create 0)), s.mConnection ≠ none ∧
      ∃ s' ∈ returned ((step .disconnect).run s), ∃ s₁ ∈ returned ((exec step tasks).run s'),
        0 < s₁.timers ∧ s₁.mState = .disconnect := by
    decide +kernel
  obtain ⟨s, hs, hconn, s', hs', s₁, hs₁, htimers, hst⟩ := hrun
  have halong := h 0 pre (tasks ++ [.timer io]) s s' (eq_ok_of_mem_returned hs) hconn
    (eq_ok_of_mem_returned hs') (by simp [tasks, task, IsConnect])
  refine (halong.last (eq_ok_of_mem_returned hs₁)).1 ⟨⟨true, io, .connecting⟩, ?_, rfl, ?_⟩
  · exact if_pos htimers
  · simp [Admits, hst]

end TcpClient

end SimpleTcp
