import SimpleTcp.Tcp.Continuation

/-!
# The connection that a client uses

`doDisconnected` and the task of `doForceDisconnected` use the connection of the client. The first
runs in a client that was connected. The second is queued by a change to `ForceDisconnected`, which
its guard admits in `Connecting` too, when there may be no connection. A change that finds one does
not lose it before the task runs: the close tasks that are queued ahead are those of the same batch,
and in a client that is connected again they meet a new connection, which has not been closed.

## Main definitions

* `ClientLoop.Present`: what the step uses is there
* `ClientLoop.Grounded`: a change to `ForceDisconnected` finds a connection
* `TcpClient.Settled`: no close task is queued behind the batch, and a connection is open

## Main results

* `ClientLoop.attached_step`: a grounded step keeps the connection for the task that is queued
* `ClientLoop.present_of_grounded`: the runs in which a client never misses its connection
-/

namespace SimpleTcp

open TcpConnection Machine

/-! ### Programs that close no connection -/

/-- From an open connection without tasks, the program leaves an open one without a close task. -/
def Calm (x : ConnM Unit) : Prop :=
  ∀ conn, let c := final (x.run ⟨conn, [], []⟩)
    .close ∉ c.mPendingTasks ∧
      (conn.mState ≠ .disConnected → c.conn.mState ≠ .disConnected)

theorem calm_of_still {x : ConnM Unit} (h : Still x) : Calm x := by
  intro conn c
  have hsame : c.openness = Ctx.openness ⟨conn, [], []⟩ := h _ ⟨conn, [], []⟩ rfl
  simp only [Ctx.openness, Prod.mk.injEq] at hsame
  exact ⟨List.count_eq_zero.mp hsame.2.1, fun hst => hsame.1 ▸ hst⟩

theorem calm_runConnTask (io : TaskIo) {t : ConnTask} (ht : t ≠ .close) :
    Calm (runConnTask io t) := by
  cases t with
  | send data => exact calm_of_still (still_sendInLoop data (still_runCalls _))
  | shutdown =>
    intro conn c
    by_cases hst : conn.mState = .disConnected
    · have hsame : c = ⟨conn, [], []⟩ := by
        simp [c, runConnTask, shutdownInLoop, EStateM.run_bind, EStateM.run_get, hst, final]
      rw [hsame]
      exact ⟨List.not_mem_nil, fun hne => absurd hst hne⟩
    · obtain ⟨hcloses, hopen⟩ := keeps_open_shutdownInLoop io.res io.soError _ ⟨conn, [], []⟩
        ⟨rfl, hst⟩
      change c.closes = _ at hcloses
      change c.conn.mState ≠ _ at hopen
      simp only [Ctx.closes, Prod.mk.injEq, toClose, List.count_nil, Nat.zero_add] at hcloses
      rw [if_neg hst, if_neg hopen] at hcloses
      exact ⟨List.count_eq_zero.mp (by omega), fun _ => hopen⟩
  | close => exact absurd rfl ht

namespace TcpClient

variable {s s' : TcpClient} {i : ClientEvent}

theorem calm_destroyConnection : Calm destroyConnection := by
  intro conn c
  obtain ⟨hconn, htasks⟩ := final_destroyConnection conn
  refine ⟨by simp [show c.mPendingTasks = [] from htasks], fun hst => ?_⟩
  rwa [show c.conn = _ from hconn, if_neg hst]

/-! ### Behind the batch -/

def IsClose (t : ClientTask) : Prop := ∃ pos, t = .conn pos .close

/-- No close task is queued behind the first `k`, and the connection at the position is open. -/
structure Settled (k pos : Nat) (s : TcpClient) : Prop where
  le : k ≤ s.mPendingTasks.length
  noClose : ∀ t ∈ s.mPendingTasks.drop k, ¬ IsClose t
  isOpen : ∀ conn, s.conns[pos]? = some (some conn) → conn.mState ≠ .disConnected

variable {k pos : Nat}

/-- Other tasks are queued behind. -/
theorem Settled.append (h : Settled k pos s) (us : List ClientTask) (hus : ∀ t ∈ us, ¬ IsClose t)
    (hq : s'.mPendingTasks = s.mPendingTasks ++ us)
    (ho : ∀ conn, s'.conns[pos]? = some (some conn) → conn.mState ≠ .disConnected) :
    Settled k pos s' := by
  refine ⟨?_, fun t ht => ?_, ho⟩
  · rw [hq, List.length_append]
    exact h.le.trans (Nat.le_add_right _ _)
  · rw [hq, List.drop_append_of_le_length h.le] at ht
    exact (List.mem_append.mp ht).elim (h.noClose t) (hus t)

theorem not_isClose_of_map {ts : List ConnTask} (h : .close ∉ ts) (q : Nat) :
    ∀ t ∈ ts.map (ClientTask.conn q), ¬ IsClose t := by
  rintro t ht ⟨pos, rfl⟩
  obtain ⟨task, htask, heq⟩ := List.mem_map.mp ht
  obtain ⟨-, rfl⟩ := ClientTask.conn.inj heq
  exact h htask

/-- The connection at `q` runs, and is open when it is the one at `pos`. -/
theorem isOpen_after {q : Nat} {c : Ctx} (ho : q ≠ pos → ∀ conn, s.conns[pos]? = some (some conn) →
      conn.mState ≠ .disConnected)
    (hopen : q = pos → c.conn.mState ≠ .disConnected) :
    ∀ conn, (s.after q c).conns[pos]? = some (some conn) → conn.mState ≠ .disConnected := by
  intro conn hconn
  by_cases hq : q = pos
  · subst hq
    have hlt : q < s.conns.length := by
      have := (List.getElem?_eq_some_iff.mp hconn).1
      simpa [TcpClient.after] using this
    obtain rfl : c.conn = conn := by simpa [TcpClient.after, hlt] using hconn
    exact hopen rfl
  · refine ho hq conn ?_
    simpa [TcpClient.after, List.getElem?_set_ne hq] using hconn

theorem Settled.onConn {q : Nat} {x : ConnM Unit} (hx : Calm x) :
    Keeps (Settled k pos) (TcpClient.onConn q x) := by
  intro s h
  by_cases halive : s.Alive q
  · obtain ⟨conn, hconn⟩ := halive
    obtain ⟨hclose, hopen⟩ := hx conn
    rw [final_onConn hconn]
    exact h.append _ (not_isClose_of_map hclose q) rfl
      (isOpen_after (fun _ => h.isOpen) fun hq => hopen (h.isOpen conn (hq ▸ hconn)))
  · rwa [final_onConn_of_not_alive halive]

theorem tasksKeep_settled : TasksKeep (Settled k pos) where
  fields s s' hconns htasks h :=
    h.append [] (by simp) (by simp [htasks]) (hconns ▸ h.isOpen)
  queue s t ht h :=
    h.append [t] (by simpa [IsClose] using ht) rfl h.isOpen
  establish s cs h := by
    have hopen := final_establishConnect cs
    simp only [Ctx.openness, Prod.mk.injEq] at hopen
    obtain ⟨hst, hcount, -⟩ := hopen
    refine h.append _ (not_isClose_of_map (List.count_eq_zero.mp hcount) _) rfl
      (isOpen_after (fun hne conn hconn => h.isOpen conn ?_) fun _ => by simp [hst])
    -- another connection than the one that is added
    rcases Nat.lt_or_gt_of_ne hne with hgt | hlt
    · rw [List.getElem?_eq_none (by simpa using Nat.succ_le_of_lt hgt)] at hconn
      cases hconn
    · simpa [List.getElem?_append_left hlt] using hconn
  destroy q := Settled.onConn calm_destroyConnection

/-! ### What a completed step does to the connection -/

/-- The connection stays, or is a new one, or the client leaves `Connected`. -/
theorem Moves.mConnection (h : Moves s i s') :
    (s'.mConnection = s.mConnection ∧ (s'.mState = .connected → s.mState = .connected)) ∨
      s'.mConnection = some s.conns.length ∨
        (s.Enters i .disconnect ∧ s'.mState = .disconnect) := by
  have hsame : ∀ {u : TcpClient}, Idle (s.taken i) u →
      u.mConnection = s.mConnection ∧ (u.mState = .connected → s.mState = .connected) := by
    intro u hu
    exact ⟨hu.mConnection.trans (taken_mConnection s i),
      fun hst => (taken_mState s i).symm.trans (hu.mState.symm.trans hst)⟩
  cases h with
  | refused ha hadm => exact .inl (hsame (Idle.refl _))
  | @disconnect i a s₁ ha hst hold hs =>
    exact .inr (.inr ⟨⟨a, ha, hst, hold⟩, hs.mState⟩)
  | @connecting i a s' ha hst hold hs =>
    generalize a.io.connect = r at hs
    cases hs <;> exact .inl ⟨taken_mConnection s i, fun hc => by cases hc⟩
  | connected ha hst hold hsocket hs =>
    have hlen : (s.taken i).conns.length = s.conns.length := by cases i <;> rfl
    exact .inr (.inl (hs.mConnection.trans (congrArg some hlen)))
  | forceDisconnected ha hst hold =>
    exact .inl ⟨taken_mConnection s i, fun hc => by cases hc⟩
  | asked hc => exact .inl ⟨rfl, id⟩
  | failed hch hm hdelay => exact .inl ⟨rfl, id⟩
  | written hch hm => exact .inl ⟨rfl, id⟩
  | started hts => exact .inl ⟨rfl, id⟩
  | aside ha hs => exact .inl (hsame hs)

/-- A completed step queues tasks behind those that are left, and the task of `doForceDisconnected`
only in a change to `ForceDisconnected`. -/
theorem Moves.tasks (h : Moves s i s') :
    ∃ us, s'.mPendingTasks = (s.taken i).mPendingTasks ++ us ∧
      (.shutdownConnection ∈ us → s.Enters i .forceDisconnected) := by
  -- a change that is put aside queues no tasks but those of connections
  have hidle : ∀ {u : TcpClient}, Idle (s.taken i) u →
      ∃ us, u.mPendingTasks = (s.taken i).mPendingTasks ++ us ∧ .shutdownConnection ∉ us := by
    intro u hu
    obtain ⟨us, hus, hconn⟩ := hu.tasks
    exact ⟨us, hus, fun hmem => by simpa [IsConn] using hconn _ hmem⟩
  cases h with
  | refused ha hadm => exact ⟨[], by simp, by simp⟩
  -- the timer is queued behind what the connection has queued
  | @disconnect i a s₁ ha hst hold hs =>
    obtain ⟨us, hus, hconn⟩ := hs.tasks
    refine ⟨us ++ [.addTimer (TCP_INIT_RETRY_TIMEOUT + s₁.mConnRandomDelay)], ?_, fun hmem => ?_⟩
    · rw [← List.append_assoc, ← hus]
    · simp only [List.mem_append, List.mem_singleton, reduceCtorEq, or_false] at hmem
      simpa [IsConn] using hconn _ hmem
  | @connecting i a s' ha hst hold hs =>
    generalize a.io.connect = r at hs
    cases hs with
    | watched herr => exact ⟨[], by simp, by simp⟩
    | _ => exact ⟨[_], rfl, by simp⟩
  | connected ha hst hold hsocket hs =>
    obtain ⟨us, hus, hconn⟩ := hs.tasks
    exact ⟨us, hus, fun hmem => by simpa [IsConn] using hconn _ hmem⟩
  -- the only one that queues it
  | @forceDisconnected i a ha hst hold =>
    exact ⟨[.shutdownConnection], rfl, fun _ => ⟨a, ha, hst, hold⟩⟩
  | asked hc => exact ⟨[_], rfl, by simp⟩
  | failed hch hm hdelay => exact ⟨[_], rfl, by simp⟩
  | written hch hm => exact ⟨[_], rfl, by simp⟩
  | started hts => exact ⟨[], by simp [taken, hts], by simp⟩
  | aside ha hs =>
    obtain ⟨us, hus, hmem⟩ := hidle hs
    exact ⟨us, hus, fun h => absurd h hmem⟩

/-- A completed `doDisconnected` has destroyed a closed connection. -/
theorem closed_of_doDisconnected {io : TransIo} (h : (doDisconnected io).run s = .ok () s') :
    ∃ pos conn, s.mConnection = some pos ∧ s.conns[pos]? = some (some conn) ∧
      conn.mState = .disConnected := by
  cases hc : s.mConnection with
  | none => simp [doDisconnected, EStateM.run_bind, EStateM.run_get, assertTrue_neg, hc] at h
  | some pos =>
    rw [run_doDisconnected hc] at h
    by_cases halive : s.Alive pos
    · obtain ⟨conn, hconn⟩ := halive
      refine ⟨pos, conn, rfl, hconn, ?_⟩
      by_contra hst
      -- the assertion of `destroyConnection` fails
      have hrun : (onConn pos destroyConnection).run s =
          .error .fatal (s.after pos (Ctx.note ⟨conn, [], []⟩ [.entered .destroyConnection])) := by
        change onConn pos destroyConnection s = _
        unfold TcpClient.onConn
        rw [hconn]
        simp only [run_destroyConnection_of_open (s := ⟨conn, [], []⟩) hst]
      rw [hrun] at h
      cases h
    · have hrun : (onConn pos destroyConnection).run s = .error .danglingPointer s := by
        change onConn pos destroyConnection s = _
        unfold TcpClient.onConn
        split
        · exact absurd ⟨_, ‹_›⟩ halive
        · rfl
      rw [hrun] at h
      cases h

end TcpClient

namespace ClientLoop

open TcpClient

variable {l l' : ClientLoop} {i : ClientEvent} {s s' : TcpClient}

/-- `doDisconnected`, and the task of `doForceDisconnected`, find a connection when they run. -/
def Present (l : ClientLoop) : ClientLoopEvent → Prop
  | .client i => l.CanRun i →
    (l.client.Enters i .disconnect → l.client.mConnection ≠ none) ∧
      ∀ io taskIo ts, i = .task io taskIo → l.client.mPendingTasks = .shutdownConnection :: ts →
        l.client.mConnection ≠ none
  | _ => True

/-- A change to `ForceDisconnected` that its guard admits finds a connection. -/
def Grounded (l : ClientLoop) : ClientLoopEvent → Prop
  | .client i =>
    l.CanRun i → l.client.Enters i .forceDisconnected → l.client.mConnection ≠ none
  | _ => True

instance (s : TcpClient) (i : ClientEvent) (st : ClientState) : Decidable (s.Enters i st) :=
  inferInstanceAs (Decidable (∃ a ∈ s.asks i, _))

instance (l : ClientLoop) : ∀ j, Decidable (l.Grounded j)
  | .client i => inferInstanceAs (Decidable (l.CanRun i → l.client.Enters i _ → _))
  | .doPendingTasks | .poll => inferInstanceAs (Decidable True)

/-! ### A batch settles -/

theorem settled_step {n pos : Nat} (hbatch : l.batch = some n) (hrun : l.CanRun i)
    (h : TcpClient.Settled n pos l.client) (s' : TcpClient) :
    TcpClient.Settled ((l.after i s').batch.getD 0) pos
      (final ((TcpClient.step i).run l.client)) := by
  -- only a task takes one off the batch
  have hn : (∀ io taskIo, i ≠ .task io taskIo) → (l.after i s').batch.getD 0 = n := by
    intro hi
    cases i with
    | task io taskIo => exact absurd rfl (hi io taskIo)
    | _ => simp [after, hbatch]
  cases i with
  | connect mIsLoopingNow io =>
    rw [hn (by simp)]
    exact tasksKeep_settled.transStateInLoop _ io .connecting _ h
  | disconnect =>
    rw [hn (by simp)]
    refine Keeps.bind .get (fun _ => .ite (fun _ => ?_) fun _ => .pure _) l.client h
    exact tasksKeep_settled.queueInLoop (by simp)
  | calls pos cs =>
    rw [hn (by simp)]
    refine Keeps.bind .get (fun _ => .ite (fun _ => ?_) fun _ => .pure _) l.client h
    exact TcpClient.Settled.onConn (calm_of_still (still_runCalls cs))
  | queue pos task =>
    rw [hn (by simp)]
    refine Keeps.bind .get (fun _ => .ite (fun ht => ?_) fun _ => .pure _) l.client h
    exact tasksKeep_settled.queueInLoop (by simp [ht.2])
  -- a connection that is released is not there any more
  | release q =>
    rw [hn (by simp)]
    refine Keeps.bind .get (fun _ => .ite (fun _ => .modify fun s h => ?_) fun _ => .pure _)
      l.client h
    refine h.append [] (by simp) (by simp) fun conn hconn => h.isOpen conn ?_
    by_cases hq : q = pos
    · subst hq
      rw [List.getElem?_set_self'] at hconn
      cases hs : s.conns[q]? <;> simp [hs] at hconn
    · rwa [List.getElem?_set_ne hq] at hconn
  | task io taskIo =>
    have hpos : 0 < n := by simpa [CanRun, hbatch] using hrun
    obtain ⟨n, rfl⟩ := Nat.exists_eq_succ_of_ne_zero hpos.ne'
    cases hts : l.client.mPendingTasks with
    | nil => simpa [hts] using h.le
    | cons t ts =>
      -- the first of the batch is taken off the queue
      have hpopped : TcpClient.Settled n pos { l.client with mPendingTasks := ts } := by
        refine ⟨?_, fun t ht => h.noClose t ?_, h.isOpen⟩
        · simpa [hts] using h.le
        · simpa [hts] using ht
      rw [run_task hts]
      simp only [after, hbatch, Option.map_some, Nat.succ_eq_add_one, Nat.add_sub_cancel,
        Option.getD_some]
      exact tasksKeep_settled.runTask
        (fun q task ht => TcpClient.Settled.onConn (calm_runConnTask taskIo ht)) t _ hpopped
  -- these are for a loop that is not in a batch
  | timer io => exact absurd (hbatch.symm.trans hrun) (by simp)
  | connEvent mRevent errno => exact absurd (hbatch.symm.trans hrun.1) (by simp)
  | event q mRevent io => exact absurd (hbatch.symm.trans hrun) (by simp)

/-! ### The invariant -/

/-- No close task stands ahead of the task of `doForceDisconnected`. -/
def InOrder (q : List ClientTask) : Prop :=
  q.Pairwise fun t u => IsClose t → u ≠ .shutdownConnection

theorem InOrder.append {q us : List ClientTask} (h : InOrder q)
    (hus : .shutdownConnection ∉ us) : InOrder (q ++ us) := by
  have hne : ∀ t, ∀ u ∈ us, IsClose t → u ≠ .shutdownConnection :=
    fun _ u hu _ heq => hus (heq ▸ hu)
  exact List.pairwise_append.mpr
    ⟨h, List.pairwise_of_forall_mem_list fun t _ u hu => hne t u hu, fun t _ => hne t⟩

/-- The connection is there while the task of `doForceDisconnected` is queued. In the batch no close
task stands ahead of it, and behind the batch it meets an open connection. -/
structure Attached (l : ClientLoop) : Prop where
  noStray : l.client.NoStray
  present : l.client.mState = .connected → l.client.mConnection ≠ none
  pending : .shutdownConnection ∈ l.client.mPendingTasks → l.client.mConnection ≠ none
  polling : l.batch = none → InOrder l.client.mPendingTasks
  inBatch : ∀ n, l.batch = some n → InOrder (l.client.mPendingTasks.take n)
  behind : ∀ n, l.batch = some n → ∃ pos, TcpClient.Settled n pos l.client
  fresh : ∀ n, l.batch = some n → .shutdownConnection ∈ l.client.mPendingTasks.drop n →
    l.client.mState = .connected → ∀ pos, l.client.mConnection = some pos →
      TcpClient.Settled n pos l.client

theorem present_of_attached (h : Attached l) (j : ClientLoopEvent) : l.Present j := by
  cases j with
  | client i =>
    intro _
    refine ⟨fun ⟨a, _, _, hadm⟩ => h.present hadm, fun io taskIo ts _ hts => h.pending ?_⟩
    simp [hts]
  | _ => trivial

/-- The batch, in a step that takes its task from it. -/
theorem batch_task {io : TransIo} {taskIo : TaskIo} (hrun : l.CanRun (.task io taskIo)) :
    ∃ n, l.batch = some (n + 1) := by
  cases hbatch : l.batch with
  | none => simp [CanRun, hbatch] at hrun
  | some n =>
    have hpos : 0 < n := by simpa [CanRun, hbatch] using hrun
    exact ⟨n - 1, by rw [Nat.sub_add_cancel hpos]⟩

/-- A change that is made by a task is not made while the loop polls. -/
theorem batch_of_enters {st : ClientState} (hrun : l.CanRun i) (h : l.client.Enters i st)
    (hst : st ≠ .connecting) : ∃ n, l.batch = some (n + 1) := by
  obtain ⟨a, ha, rfl, -⟩ := h
  obtain ⟨io, taskIo, -, -, rfl, -⟩ := task_of_asks_ne ha hst
  exact batch_task hrun

/-- **A client that leaves `Connected` has no task of `doForceDisconnected` left.** -/
theorem not_pending_of_disconnect (h : Attached l) (hrun : l.CanRun i)
    (hent : l.client.Enters i .disconnect) (hok : (TcpClient.step i).run l.client = .ok () s) :
    .shutdownConnection ∉ (l.client.taken i).mPendingTasks := by
  obtain ⟨a, ha, hst, hadm⟩ := hent
  obtain ⟨io, taskIo, t, ts, rfl, hts, ht⟩ := task_of_asks_ne ha (by simp [hst])
  obtain ⟨n, hbatch⟩ := batch_task hrun
  have hclose : IsClose t := by
    rw [hst] at ht
    rcases ht with rfl | ⟨-, hpos⟩
    · exact absurd (.inr rfl) (h.noStray _ (hts ▸ List.mem_cons_self))
    · exact hpos
  have htaken : (l.client.taken (.task io taskIo)).mPendingTasks = ts := by simp [taken, hts]
  rw [htaken, ← List.take_append_drop n ts, List.mem_append]
  rintro (hmem | hmem)
  · -- in the batch it would stand behind the close task
    have horder := h.inBatch _ hbatch
    rw [hts, List.take_succ_cons] at horder
    exact (List.pairwise_cons.mp horder).1 _ hmem hclose rfl
  · -- behind the batch the close task meets an open connection
    rw [run_step_of_asks ha, run_transStateInLoop, taken_mState, hst, if_pos hadm, enter,
      hst] at hok
    obtain ⟨pos, conn, hconn, hmem', hdis⟩ := closed_of_doDisconnected hok
    have hfresh := h.fresh _ hbatch (by rwa [hts, List.drop_succ_cons]) hadm pos hconn
    exact hfresh.isOpen conn hmem' hdis

/-- The queue of the batch that is left, and the tasks behind it. -/
theorem taken_of_batch {n : Nat} (hrun : l.CanRun i) (hbatch : (l.after i s).batch = some n) :
    ∃ m, l.batch = some m ∧
      (l.client.taken i).mPendingTasks.drop n = l.client.mPendingTasks.drop m ∧
      (InOrder (l.client.mPendingTasks.take m) →
        InOrder ((l.client.taken i).mPendingTasks.take n)) ∧
      (m ≤ l.client.mPendingTasks.length → n ≤ (l.client.taken i).mPendingTasks.length) := by
  cases i with
  | task io taskIo =>
    obtain ⟨m, hm⟩ := batch_task hrun
    obtain rfl : m = n := by simpa [after, hm] using hbatch
    refine ⟨m + 1, hm, ?_, fun horder => ?_, fun hle => ?_⟩
    · simp [taken]
    · refine horder.sublist ?_
      cases hq : l.client.mPendingTasks with
      | nil => simp [taken, hq]
      | cons t ts => simp [taken, hq]
    · simp only [taken, List.length_tail]
      omega
  | _ => exact ⟨n, hbatch, rfl, id, id⟩

theorem attached_after (h : Attached l) (hg : l.Grounded (.client i)) (hrun : l.CanRun i)
    (hok : (TcpClient.step i).run l.client = .ok () s) : Attached (l.after i s) := by
  have hmoves := moves_of_ok hok
  obtain ⟨us, hus, hforce⟩ := hmoves.tasks
  have hsettled : ∀ {n m pos}, l.batch = some m → (l.after i s).batch = some n →
      TcpClient.Settled m pos l.client → TcpClient.Settled n pos s := by
    intro n m pos hm hn hset
    have hstep := settled_step hm hrun hset s
    rwa [hn, hok] at hstep
  constructor
  · -- no connection is stray
    exact noStray_of_ok h.noStray hok
  · intro hst
    -- the connection is the same, a new one, or the client is disconnected
    rcases hmoves.mConnection with ⟨hsame, hold⟩ | hnew | ⟨-, hdis⟩
    · exact hsame ▸ h.present (hold hst)
    · exact fun hnone => by simp [show s.mConnection = none from hnone] at hnew
    · exact absurd (hdis.symm.trans hst) (by simp)
  · intro hmem
    change .shutdownConnection ∈ s.mPendingTasks at hmem
    show s.mConnection ≠ none
    rw [hus, List.mem_append] at hmem
    rcases hmem with hold | hnew
    · rcases hmoves.mConnection with ⟨hsame, -⟩ | hnew | ⟨hent, -⟩
      · exact hsame ▸ h.pending (mem_of_mem_taken hold)
      · simp [hnew]
      · exact absurd hold (not_pending_of_disconnect h hrun hent hok)
    · -- the change that queues the task has found a connection
      have hent := hforce hnew
      rcases hmoves.mConnection with ⟨hsame, -⟩ | hnew | ⟨hent', -⟩
      · exact hsame ▸ hg hrun hent
      · simp [hnew]
      · obtain ⟨a, ha, hst, -⟩ := hent
        obtain ⟨a', ha', hst', -⟩ := hent'
        obtain rfl : a = a' := by simpa using ha.symm.trans ha'
        exact absurd (hst.symm.trans hst') (by simp)
  · intro hnone
    -- outside a batch nothing is taken off the queue
    have hold : l.batch = none := by
      cases i <;> simpa [after] using hnone
    have htaken : (l.client.taken i).mPendingTasks = l.client.mPendingTasks := by
      cases i with
      | task io taskIo =>
        obtain ⟨n, hn⟩ := batch_task hrun
        exact absurd (hold.symm.trans hn) (by simp)
      | _ => rfl
    show InOrder s.mPendingTasks
    rw [hus, htaken]
    refine (h.polling hold).append fun hnew => ?_
    obtain ⟨n, hn⟩ := batch_of_enters hrun (hforce hnew) (by simp)
    exact absurd (hold.symm.trans hn) (by simp)
  · intro n hn
    obtain ⟨m, hm, -, horder, hle⟩ := taken_of_batch hrun hn
    obtain ⟨q, hset⟩ := h.behind m hm
    show InOrder (s.mPendingTasks.take n)
    rw [hus, List.take_append_of_le_length (hle hset.le)]
    exact horder (h.inBatch m hm)
  · intro n hn
    obtain ⟨m, hm, -⟩ := taken_of_batch hrun hn
    obtain ⟨pos, hset⟩ := h.behind m hm
    exact ⟨pos, hsettled hm hn hset⟩
  · intro n hn hmem hst pos hpos
    change s.mState = .connected at hst
    obtain ⟨m, hm, hdrop, -, hle⟩ := taken_of_batch hrun hn
    obtain ⟨q, hset⟩ := h.behind m hm
    change .shutdownConnection ∈ s.mPendingTasks.drop n at hmem
    rw [hus, List.drop_append_of_le_length (hle hset.le), List.mem_append, hdrop] at hmem
    refine hsettled hm hn ?_
    rcases hmoves.mConnection with ⟨hsame, hold⟩ | hnew | ⟨-, hdis⟩
    · refine h.fresh m hm (hmem.resolve_right fun hnew => ?_) (hold hst) pos (hsame ▸ hpos)
      have hforced := (mState_step l.client i).1 _ (hforce hnew)
      rw [hok] at hforced
      exact absurd (hforced.symm.trans hst) (by simp)
    · -- the new connection is not there before the step
      obtain rfl : l.client.conns.length = pos := Option.some.inj (hnew.symm.trans hpos)
      exact ⟨hset.le, hset.noClose, fun conn hconn => by simp at hconn⟩
    · exact absurd (hdis.symm.trans hst) (by simp)

/-! ### Runs -/

/-- **A grounded step keeps the connection for the task that is queued.** -/
theorem attached_step (h : Attached l) {j : ClientLoopEvent} (hg : l.Grounded j)
    (hrun : (step j).run l = .ok () l') : Attached l' := by
  cases j with
  | client i =>
    obtain rfl | ⟨hcan, s, hok, rfl⟩ := client_cases hrun
    · exact h
    · exact attached_after h hg hcan hok
  | doPendingTasks =>
    obtain rfl | ⟨hnone, rfl⟩ := doPendingTasks_cases hrun
    · exact h
    · -- the queue is the batch
      refine ⟨h.noStray, h.present, h.pending, (fun hn => by cases hn), ?_, ?_, ?_⟩
      · rintro n ⟨⟩
        simpa using h.polling hnone
      · rintro n ⟨⟩
        exact ⟨l.client.conns.length, le_rfl, by simp, by simp⟩
      · rintro n ⟨⟩ hmem
        simp at hmem
  | poll =>
    obtain rfl | ⟨hzero, rfl⟩ := poll_cases hrun
    · exact h
    · -- what is queued has been queued behind the batch
      obtain ⟨q, hset⟩ := h.behind 0 hzero
      refine ⟨h.noStray, h.present, h.pending, fun _ => ?_, ?_, ?_, ?_⟩
      · exact List.Pairwise.imp_of_mem (fun ht _ _ hclose => absurd hclose (hset.noClose _ ht))
          (List.pairwise_of_forall fun _ _ => trivial : List.Pairwise (fun _ _ => True) _)
      all_goals exact fun n hn => by cases hn

theorem start_attached (mConnRandomDelay : Nat) : Attached (start mConnRandomDelay) where
  noStray _ ht := absurd ht List.not_mem_nil
  present hst := absurd hst (by simp [start, TcpClient.create])
  pending hmem := absurd hmem List.not_mem_nil
  polling _ := List.Pairwise.nil
  inBatch _ hn := by cases hn
  behind _ hn := by cases hn
  fresh _ hn := by cases hn

/-- **A client never misses its connection** in the runs in which every change to
`ForceDisconnected` finds one. -/
theorem present_of_grounded {mConnRandomDelay : Nat} {js : List ClientLoopEvent}
    (h : Along step Grounded (start mConnRandomDelay) js) :
    Along step Present (start mConnRandomDelay) js := by
  refine Along.of_invariant (I := Attached) (fun l j ha _ => present_of_attached ha j) ?_
    (start_attached mConnRandomDelay) h
  intro l j l' ha hg hrun
  exact attached_step ha hg hrun

/-- The user disconnects a client that is connected. -/
theorem present_disconnect :
    Along step Present (start 250)
      [.client (.connect false ⟨.socket 0, 0, [], 0⟩), .doPendingTasks,
        .client (.task ⟨.socket 0, 0, [], 0⟩ ⟨.accepted 0, 0, []⟩), .poll, .client .disconnect,
        .doPendingTasks, .client (.task ⟨.socket 0, 0, [], 0⟩ ⟨.accepted 0, 0, []⟩), .poll,
        .doPendingTasks, .client (.task ⟨.socket 0, 0, [], 0⟩ ⟨.accepted 0, 0, []⟩)] := by
  exact present_of_grounded (by decide +kernel)

/-- The peer closes and the user disconnects in one poll; the close task takes the client to
`Disconnect`, and the user connects again before the change to `ForceDisconnected` comes. -/
theorem not_present_reconnect :
    ¬ ∀ (mConnRandomDelay : Nat) (js : List ClientLoopEvent),
        Along step Present (start mConnRandomDelay) js := by
  intro h
  let io : TransIo := ⟨.socket 0, 0, [], 0⟩
  let task : ClientLoopEvent := .client (.task io ⟨.accepted 0, 0, []⟩)
  let js : List ClientLoopEvent := [.client (.connect false io), .doPendingTasks, task, .poll,
    .client (.event 0 EPOLLIN ⟨⟨.bytes [], 0, [], []⟩, ⟨.accepted 0, 0, []⟩, []⟩),
    .client .disconnect, .doPendingTasks, task,
    .client (.connect false io), task, .poll, .doPendingTasks, task, task]
  -- the start of the timer has run, and the task of `doForceDisconnected` is next
  have hrun : ∃ l ∈ returned ((exec step js).run (start 0)), l.client.mConnection = none ∧
      l.batch = some 1 ∧ l.client.mPendingTasks.head? = some .shutdownConnection := by
    decide +kernel
  obtain ⟨l, hl, hconn, hbatch, hhead⟩ := hrun
  obtain ⟨ts, hts⟩ := List.head?_eq_some_iff.mp hhead
  have hlast := (h 0 (js ++ [task])).last (eq_ok_of_mem_returned hl)
  exact (hlast (by simp [CanRun, hbatch])).2 io ⟨.accepted 0, 0, []⟩ ts rfl hts hconn

end ClientLoop

end SimpleTcp
