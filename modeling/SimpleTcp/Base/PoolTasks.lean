import SimpleTcp.Base.PoolExit

/-!
# The tasks of a thread pool

Until it exits, a pool is a queue: every task that `enqueue` was called with enters it once, in the
order in which its caller made the calls, and the workers take the tasks from the front, each task
by one worker and once. When the pool has exited no task is taken any more, and the destructor
throws away those that wait. While the pool has not exited, a task that waits is not forgotten: a
worker that is blocked is about to be notified, and some thread can always go on.

## Main definitions

* `ThreadPool.Advances`: what a step does to the tasks
* `ThreadPool.Attentive`: what the workers know of the tasks
* `ThreadPool.Inner`: the steps that go on with what was begun
* `PoolHistory`, `PoolHistory.step`: the pool with what was done so far
* `PoolHistory.Fits`, `PoolHistory.Queued`: the pool as a queue of tasks

## Main results

* `ThreadPool.step_advances`: the cases of a step
* `ThreadPool.attentive_step`: the steps keep the workers attentive
* `ThreadPool.Attentive.lives`: no deadlock
* `PoolHistory.queued_always`: the pool is a queue of tasks, in every run
-/

namespace SimpleTcp

/-- The task the worker runs. -/
def WorkerPc.held : WorkerPc → List ℕ
  | running task => [task]
  | _ => []

/-- The task of the call that has not entered the list. -/
def EnqueuePc.held : EnqueuePc → List ℕ
  | called task | locked task => [task]
  | _ => []

namespace ThreadPool

open Function (update)

variable {s s' : ThreadPool} {i : ThreadPoolStep}

/-! ### Steps -/

/-- The steps that the history of a pool shows. -/
def Recorded : ThreadPoolStep → Prop
  | .enqueue _ _ | .push _ | .take _ | .finish _ | .exit _ | .join => True
  | _ => False

/-- What a step does to the tasks, and what it finds. -/
inductive Advances (s : ThreadPool) (i : ThreadPoolStep) (s' : ThreadPool) : Prop where
  /-- A worker goes on with the task it has, if it has one. -/
  | worker (w : ℕ) (pc : WorkerPc) (mMutex : Option PoolThread) (quiet : ¬ Recorded i)
      (eq : s' = s.setWorker w pc mMutex) (held : pc.held = (s.workers w).held)
      (there : s.workers w ≠ .done) (leaves : pc = .done → s.mExited = true)
      (finds : pc = .checking → s.mTasks ≠ [] ∨ s.mExited = true)
      (blocks : pc = .blocking → s.mTasks = []) (waits : pc = .waiting → s.workers w = .blocking)
  /-- A worker is about to take a task, and the pool has exited. -/
  | leave (w : ℕ) (label : i = .take w) (checking : s.workers w = .checking)
      (exited : s.mExited = true) (eq : s' = s.setWorker w .done none)
  | take (w task : ℕ) (mTasks : List ℕ) (label : i = .take w) (checking : s.workers w = .checking)
      (running : s.mExited ≠ true) (tasks : s.mTasks = task :: mTasks)
      (eq : s' = { s with mTasks }.setWorker w (.running task) none)
  | finish (w task : ℕ) (label : i = .finish w) (running : s.workers w = .running task)
      (eq : s' = s.setWorker w .testing s.mMutex)
  | enqueue (t task : ℕ) (label : i = .enqueue t task) (outside : s.callers t = .outside)
      (eq : s' = s.setCaller t (.called task) s.mMutex)
  /-- A caller takes or gives back the lock. -/
  | caller (t : ℕ) (pc : EnqueuePc) (mMutex : Option PoolThread) (quiet : ¬ Recorded i)
      (eq : s' = s.setCaller t pc mMutex) (held : pc.held = (s.callers t).held)
      (pushed : s.callers t ≠ .pushed)
  | push (t task : ℕ) (label : i = .push t) (locked : s.callers t = .locked task)
      (eq : s' = { s with mTasks := s.mTasks ++ [task] }.setCaller t .pushed s.mMutex)
  | notify (t : ℕ) (quiet : ¬ Recorded i) (pushed : s.callers t = .pushed)
      (eq : s' = s.notifyAll.setCaller t .notified s.mMutex)
  | exit (joins : Bool) (label : i = .exit joins) (outside : s.exiter = .outside)
      (eq : s' = { s with mExited := true, exiter := .flagged joins })
  | notifyExit (joins : Bool) (quiet : ¬ Recorded i) (flagged : s.exiter = .flagged joins)
      (eq : s' = { s.notifyAll with exiter := .notified joins })
  | join (label : i = .join) (notified : s.exiter = .notified true)
      (all : ∀ w < s.mMaxThreadNum, s.workers w = .done)
      (eq : s' = { s with exiter := .joined, mTasks := [] })

theorem advances_takeTask {w : ℕ} (hpc : s.workers w = .checking)
    (h : s.takeTask w = some s') : s.Advances (.take w) s' := by
  unfold takeTask at h
  split at h
  · next hx => exact .leave w rfl hpc hx (Option.some.inj h).symm
  · next hx =>
    split at h
    · next task mTasks htasks =>
      exact .take w task mTasks rfl hpc hx htasks (Option.some.inj h).symm
    · cases h

/-- **What a step does.** -/
theorem step_advances (hstep : s.step i = some s') : s.Advances i s' := by
  cases i with
  | test w =>
    simp only [step] at hstep
    split at hstep <;> cases hstep
    next hpc =>
    refine .worker w _ _ id rfl ?_ (by simp [hpc]) ?_ ?_ ?_ ?_
    all_goals split <;> simp_all [WorkerPc.held]
  | lock w =>
    simp only [step] at hstep
    split at hstep
    · next hpc =>
      split at hstep <;> cases hstep
      exact .worker w .locked _ id rfl (by rw [hpc]; rfl) (by simp [hpc]) (by simp) (by simp)
        (by simp) (by simp)
    · cases hstep
  | look w =>
    simp only [step] at hstep
    split at hstep <;> cases hstep
    next hpc =>
    refine .worker w _ _ id rfl ?_ (by simp [hpc]) ?_ ?_ ?_ ?_
    all_goals split <;> simp_all [WorkerPc.held]
  | evaluate w =>
    simp only [step] at hstep
    split at hstep <;> cases hstep
    next hpc =>
    refine .worker w _ _ id rfl ?_ (by simp [hpc]) ?_ ?_ ?_ ?_
    all_goals split <;> simp_all [WorkerPc.held]
  | block w =>
    simp only [step] at hstep
    split at hstep <;> cases hstep
    next hpc =>
    exact .worker w .waiting _ id rfl (by rw [hpc]; rfl) (by simp [hpc]) (by simp) (by simp)
      (by simp) fun _ => hpc
  | wakeSpuriously w =>
    simp only [step] at hstep
    split at hstep <;> cases hstep
    next hpc =>
    exact .worker w .notified _ id rfl (by rw [hpc]; rfl) (by simp [hpc]) (by simp) (by simp)
      (by simp) (by simp)
  | relock w =>
    simp only [step] at hstep
    split at hstep
    · next hpc =>
      split at hstep <;> cases hstep
      exact .worker w .evaluating _ id rfl (by rw [hpc]; rfl) (by simp [hpc]) (by simp) (by simp)
        (by simp) (by simp)
    · cases hstep
  | take w =>
    simp only [step] at hstep
    split at hstep
    · next hpc => exact advances_takeTask hpc hstep
    · cases hstep
  | finish w =>
    simp only [step] at hstep
    split at hstep <;> cases hstep
    next task hpc => exact .finish w task rfl hpc rfl
  | enqueue t task =>
    simp only [step] at hstep
    split at hstep <;> cases hstep
    next hpc => exact .enqueue t task rfl hpc rfl
  | lockQueue t =>
    simp only [step] at hstep
    split at hstep
    · next hpc =>
      split at hstep <;> cases hstep
      exact .caller t _ _ id rfl (by rw [hpc]; rfl) (by simp [hpc])
    · cases hstep
  | push t =>
    simp only [step] at hstep
    split at hstep <;> cases hstep
    next task hpc => exact .push t task rfl hpc rfl
  | notify t =>
    simp only [step] at hstep
    split at hstep <;> cases hstep
    next hpc => exact .notify t id hpc rfl
  | unlock t =>
    simp only [step] at hstep
    split at hstep <;> cases hstep
    next hpc => exact .caller t .outside _ id rfl (by rw [hpc]; rfl) (by simp [hpc])
  | exit joins =>
    simp only [step] at hstep
    split at hstep <;> cases hstep
    next hout => exact .exit joins rfl hout rfl
  | notifyExit =>
    simp only [step] at hstep
    split at hstep <;> cases hstep
    next joins hflag => exact .notifyExit joins id hflag rfl
  | join =>
    simp only [step] at hstep
    split at hstep
    · next hnotified =>
      split at hstep <;> cases hstep
      next hall => exact .join rfl hnotified hall rfl
    · cases hstep

/-! ### What the workers know -/

/-- What the workers know of the tasks, and of the exit. -/
structure Attentive (s : ThreadPool) : Prop where
  guarded : Mutex.Guards s.mMutex s.inside
  bounded : ∀ w, s.mMaxThreadNum ≤ w → s.workers w = .done
  joined : s.exiter = .joined → ∀ w, s.workers w = .done
  there : s.mExited = false → ∀ w < s.mMaxThreadNum, s.workers w ≠ .done
  /-- A worker goes on to take a task when there is one, or none will be. -/
  found : ∀ w, s.workers w = .checking → s.mTasks ≠ [] ∨ s.mExited = true
  /-- A worker is about to block when there is none. -/
  unseen : ∀ w, s.workers w = .blocking → s.mTasks = []
  /-- A worker that is blocked while there is a task is about to be notified. -/
  awake : ∀ w, s.workers w = .waiting → s.mTasks ≠ [] → ∃ t, s.callers t = .pushed

theorem guarded_step (h : Mutex.Guards s.mMutex s.inside) (hstep : s.step i = some s') :
    Mutex.Guards s'.mMutex s'.inside := by
  cases step_moves hstep with
  | worker w pc mMutex mTasks eq passes =>
    subst eq
    rw [inside_setWorker]
    exact h.passes passes
  | caller t pc mMutex mTasks eq passes =>
    subst eq
    rw [inside_setCaller]
    exact h.passes passes
  | notify t pushed eq =>
    subst eq
    have hpasses : Mutex.Passes (.caller t) s.notifyAll.inside s.notifyAll.mMutex
        s.notifyAll.mMutex EnqueuePc.notified.isInside := by
      apply passes_stay
      rw [inside_notifyAll, inside, pushed]
      rfl
    have hguards : Mutex.Guards s.mMutex s.notifyAll.inside := (inside_notifyAll s).symm ▸ h
    have hend := inside_setCaller s.notifyAll s.notifyAll.mTasks t .notified s.mMutex
    rw [show (s.notifyAll.setCaller t .notified s.mMutex).inside = _ from hend]
    exact hguards.passes hpasses
  | exit joins outside eq =>
    subst eq
    exact h
  | notifyExit joins label flagged eq =>
    subst eq
    exact (inside_notifyAll s).symm ▸ h
  | join notified all eq =>
    subst eq
    exact h

/-- Two threads are not under the lock at once. -/
theorem Attentive.not_inside (h : s.Attentive) {u v : PoolThread} (hu : s.inside u = true)
    (hne : v ≠ u) : s.inside v = false :=
  Bool.eq_false_iff.mpr fun hv => hne (h.guarded.unique hv hu)

/-- A worker goes on, and may have taken a task. -/
theorem Attentive.worker (h : s.Attentive) {w : ℕ} {pc : WorkerPc} {mMutex : Option PoolThread}
    (mTasks : List ℕ)
    (hguarded : Mutex.Guards mMutex ({ s with mTasks }.setWorker w pc mMutex).inside)
    (hthere : s.workers w ≠ .done) (hdone : pc = .done → s.mExited = true)
    (htasks : s.mTasks = [] → mTasks = [])
    (hothers : ∀ w' ≠ w, s.workers w' = .checking → mTasks ≠ [] ∨ s.mExited = true)
    (hfound : pc = .checking → mTasks ≠ [] ∨ s.mExited = true)
    (hunseen : pc = .blocking → mTasks = []) (hawake : pc = .waiting → mTasks = []) :
    ({ s with mTasks }.setWorker w pc mMutex).Attentive where
  guarded := hguarded
  bounded w' hw' := by
    have hne : w' ≠ w := fun heq => hthere (heq ▸ h.bounded w' hw')
    simpa [setWorker, hne] using h.bounded w' hw'
  joined hj := absurd (h.joined hj w) hthere
  there hx w' hw' := by
    by_cases hw : w' = w
    · subst hw
      simp only [setWorker, Function.update_self]
      intro hpc
      rw [hdone hpc] at hx
      cases hx
    · simpa [setWorker, hw] using h.there hx w' hw'
  found w' hw' := by
    by_cases hw : w' = w
    · subst hw
      simp only [setWorker, Function.update_self] at hw'
      exact hfound hw'
    · simp only [setWorker, Function.update_of_ne hw] at hw'
      exact hothers w' hw hw'
  unseen w' hw' := by
    by_cases hw : w' = w
    · subst hw
      simp only [setWorker, Function.update_self] at hw'
      exact hunseen hw'
    · simp only [setWorker, Function.update_of_ne hw] at hw'
      exact htasks (h.unseen w' hw')
  awake w' hw' hne := by
    by_cases hw : w' = w
    · subst hw
      simp only [setWorker, Function.update_self] at hw'
      exact absurd (hawake hw') hne
    · simp only [setWorker, Function.update_of_ne hw] at hw'
      exact h.awake w' hw' fun hnil => hne (htasks hnil)

/-- A caller goes on, and has not notified. -/
theorem Attentive.caller (h : s.Attentive) {t : ℕ} {pc : EnqueuePc} {mMutex : Option PoolThread}
    (hguarded : Mutex.Guards mMutex (s.setCaller t pc mMutex).inside)
    (hpushed : s.callers t ≠ .pushed) : (s.setCaller t pc mMutex).Attentive where
  guarded := hguarded
  bounded := h.bounded
  joined := h.joined
  there := h.there
  found := h.found
  unseen := h.unseen
  awake w hw hne := by
    obtain ⟨t', ht'⟩ := h.awake w hw hne
    refine ⟨t', ?_⟩
    have hne' : t' ≠ t := fun heq => hpushed (heq ▸ ht')
    simpa [setCaller, hne'] using ht'

/-- A task enters the list, and no worker is about to block. -/
theorem Attentive.push (h : s.Attentive) {t task : ℕ} (hlocked : s.callers t = .locked task)
    (hguarded : Mutex.Guards s.mMutex
      ({ s with mTasks := s.mTasks ++ [task] }.setCaller t .pushed s.mMutex).inside) :
    ({ s with mTasks := s.mTasks ++ [task] }.setCaller t .pushed s.mMutex).Attentive where
  guarded := hguarded
  bounded := h.bounded
  joined := h.joined
  there := h.there
  found _ _ := .inl (List.append_ne_nil_of_right_ne_nil _ (List.cons_ne_nil _ _))
  unseen w hw := by
    have ht : s.inside (.caller t) = true := by rw [inside, hlocked]; rfl
    have hout := h.not_inside ht (show PoolThread.worker w ≠ .caller t by simp)
    rw [inside, show s.workers w = .blocking from hw] at hout
    cases hout
  awake _ _ _ := ⟨t, Function.update_self _ _ _⟩

/-- All workers that are blocked are woken. -/
theorem Attentive.notifyAll (h : s.Attentive) : s.notifyAll.Attentive where
  guarded := (inside_notifyAll s).symm ▸ h.guarded
  bounded w hw := by
    show (s.workers w).woken = .done
    rw [h.bounded w hw]
    rfl
  joined hj w := by
    show (s.workers w).woken = .done
    rw [h.joined hj w]
    rfl
  there hx w hw := by
    have := h.there hx w hw
    show (s.workers w).woken ≠ .done
    cases hpc : s.workers w <;> simp_all [WorkerPc.woken]
  found w hw := by
    apply h.found w
    change (s.workers w).woken = .checking at hw
    cases hpc : s.workers w <;> simp_all [WorkerPc.woken]
  unseen w hw := by
    apply h.unseen w
    change (s.workers w).woken = .blocking at hw
    cases hpc : s.workers w <;> simp_all [WorkerPc.woken]
  awake w hw := absurd hw (WorkerPc.woken_ne_waiting _)

/-- **The steps keep the workers attentive.** -/
theorem attentive_step (h : s.Attentive) (hstep : s.step i = some s') : s'.Attentive := by
  have hguarded := guarded_step h.guarded hstep
  cases step_advances hstep with
  | worker w pc mMutex _ eq _ there leaves finds blocks waits =>
    subst eq
    refine h.worker s.mTasks hguarded there leaves id (fun w' _ => h.found w') finds blocks ?_
    exact fun hpc => h.unseen w (waits hpc)
  | leave w _ checking exited eq =>
    subst eq
    exact h.worker s.mTasks hguarded (by simp [checking]) (fun _ => exited) id
      (fun w' _ => h.found w') (by simp) (by simp) (by simp)
  | take w task mTasks _ checking _ tasks eq =>
    subst eq
    have hin : s.inside (.worker w) = true := by rw [inside, checking]; rfl
    refine h.worker mTasks hguarded (by simp [checking]) (by simp) (by simp [tasks])
      (fun w' hw' hpc' => ?_) (by simp) (by simp) (by simp)
    -- the worker that takes the task has the lock
    have hout := h.not_inside hin (show PoolThread.worker w' ≠ .worker w by simpa using hw')
    rw [inside, hpc'] at hout
    cases hout
  | finish w task _ running eq =>
    subst eq
    exact h.worker s.mTasks hguarded (by simp [running]) (by simp) id (fun w' _ => h.found w')
      (by simp) (by simp) (by simp)
  | enqueue t task _ outside eq =>
    subst eq
    exact h.caller hguarded (by simp [outside])
  | caller t pc mMutex _ eq _ pushed =>
    subst eq
    exact h.caller hguarded pushed
  | push t task _ locked eq =>
    subst eq
    exact h.push locked hguarded
  | notify t _ pushed eq =>
    subst eq
    have hn := h.notifyAll
    refine ⟨hguarded, hn.bounded, hn.joined, hn.there, hn.found, hn.unseen, fun w hw => ?_⟩
    exact absurd hw (WorkerPc.woken_ne_waiting _)
  | exit joins _ outside eq =>
    subst eq
    exact ⟨hguarded, h.bounded, by simp, by simp, fun _ _ => .inr rfl, h.unseen, h.awake⟩
  | notifyExit joins _ flagged eq =>
    subst eq
    have hn := h.notifyAll
    exact ⟨hguarded, hn.bounded, by simp, hn.there, hn.found, hn.unseen, hn.awake⟩
  | join _ notified all eq =>
    subst eq
    have hdone : ∀ w, s.workers w = .done := fun w => by
      rcases Nat.lt_or_ge w s.mMaxThreadNum with hlt | hge
      · exact all w hlt
      · exact h.bounded w hge
    refine ⟨hguarded, h.bounded, fun _ => hdone, h.there, fun w hw => ?_, fun _ _ => rfl,
      fun _ _ hne => absurd rfl hne⟩
    exact absurd ((hdone w).symm.trans hw) (by simp)

/-! ### Going on -/

/-- A step that a worker takes, or a caller that is in `enqueue`. -/
def Inner : ThreadPoolStep → Prop
  | .enqueue _ _ | .wakeSpuriously _ | .exit _ | .notifyExit | .join => False
  | _ => True

/-- The thread that holds the lock can go on. -/
theorem Attentive.goes_on (h : s.Attentive) {u : PoolThread} (hu : s.inside u = true) :
    ∃ i, Inner i ∧ (s.step i).isSome := by
  cases u with
  | worker w =>
    cases hpc : s.workers w with
    | locked => exact ⟨.look w, trivial, by simp [step, hpc]⟩
    | evaluating => exact ⟨.evaluate w, trivial, by simp [step, hpc]⟩
    | blocking => exact ⟨.block w, trivial, by simp [step, hpc]⟩
    | checking =>
      by_cases hx : s.mExited = true
      · exact ⟨.take w, trivial, by simp [step, hpc, takeTask, if_pos hx]⟩
      · have hne := (h.found w hpc).resolve_right hx
        obtain ⟨task, mTasks, htasks⟩ := List.exists_cons_of_ne_nil hne
        exact ⟨.take w, trivial, by simp [step, hpc, takeTask, if_neg hx, htasks]⟩
    | _ =>
      rw [inside, hpc] at hu
      cases hu
  | caller t =>
    cases hpc : s.callers t with
    | locked task => exact ⟨.push t, trivial, by simp [step, hpc]⟩
    | pushed => exact ⟨.notify t, trivial, by simp [step, hpc]⟩
    | notified => exact ⟨.unlock t, trivial, by simp [step, hpc]⟩
    | _ =>
      rw [inside, hpc] at hu
      cases hu

/-- **No deadlock**: while a task waits and the pool has not exited, some thread can go on. -/
theorem Attentive.lives (h : s.Attentive) (hpos : 0 < s.mMaxThreadNum) (hx : s.mExited = false)
    (htasks : s.mTasks ≠ []) : ∃ i, Inner i ∧ (s.step i).isSome := by
  by_cases hfree : s.mMutex = none
  · cases hpc : s.workers 0 with
    | testing => exact ⟨.test 0, trivial, by simp [step, hpc]⟩
    | locking => exact ⟨.lock 0, trivial, by simp [step, hpc, if_pos hfree]⟩
    | notified => exact ⟨.relock 0, trivial, by simp [step, hpc, if_pos hfree]⟩
    | running task => exact ⟨.finish 0, trivial, by simp [step, hpc]⟩
    | waiting =>
      -- it is about to be notified
      obtain ⟨t, ht⟩ := h.awake 0 hpc htasks
      exact ⟨.notify t, trivial, by simp [step, ht]⟩
    | done => exact absurd hpc (h.there hx 0 hpos)
    | locked | evaluating | blocking | checking =>
      have hout := (hfree ▸ h.guarded).outside (.worker 0)
      rw [inside, hpc] at hout
      cases hout
  · obtain ⟨u, hu⟩ := Option.ne_none_iff_exists'.mp hfree
    exact h.goes_on ((h.guarded u).mpr hu)

end ThreadPool

/-! ### The history of a pool -/

/-- The pool, and what was done: the calls of `enqueue` and the tasks that have entered the list,
each with its caller; the tasks taken and finished, each with its worker; the tasks thrown away; and
what was taken when the pool exited. -/
structure PoolHistory where
  pool : ThreadPool
  called : List (ℕ × ℕ)
  pushed : List (ℕ × ℕ)
  taken : List (ℕ × ℕ)
  finished : List (ℕ × ℕ)
  discarded : List ℕ
  takenAtExit : Option (List (ℕ × ℕ))

namespace PoolHistory

open ThreadPool (Inner Recorded)

def create (mMaxThreadNum : ℕ) : PoolHistory :=
  ⟨ThreadPool.create mMaxThreadNum, [], [], [], [], [], none⟩

/-- What the step adds to the history. -/
def record (h : PoolHistory) (pool : ThreadPool) : ThreadPoolStep → PoolHistory
  | .enqueue t task => { h with pool, called := h.called ++ [(t, task)] }
  | .push t => { h with pool, pushed := h.pushed ++ (h.pool.callers t).held.map (t, ·) }
  | .take w => { h with pool, taken := h.taken ++ (pool.workers w).held.map (w, ·) }
  | .finish w => { h with pool, finished := h.finished ++ (h.pool.workers w).held.map (w, ·) }
  | .exit _ => { h with pool, takenAtExit := some h.taken }
  | .join => { h with pool, discarded := h.pool.mTasks }
  | _ => { h with pool }

def step (h : PoolHistory) (i : ThreadPoolStep) : Option PoolHistory :=
  (h.pool.step i).map fun pool => h.record pool i

/-- The tasks of a thread, in order. -/
def tasksOf (u : ℕ) (l : List (ℕ × ℕ)) : List ℕ := (l.filter fun e => e.1 = u).map Prod.snd

/-- The history and the pool fit: the tasks taken, thrown away and waiting are those that have
entered, in order; each caller's calls have entered in order, but for the one that is under way;
each worker has finished what it took, but for the task it runs; and no task was taken behind the
exit. -/
structure Fits (p : PoolHistory) : Prop where
  fifo : p.pushed.map Prod.snd = p.taken.map Prod.snd ++ p.discarded ++ p.pool.mTasks
  discarded : p.pool.exiter ≠ .joined → p.discarded = []
  calls : ∀ t, tasksOf t p.called = tasksOf t p.pushed ++ (p.pool.callers t).held
  runs : ∀ w, tasksOf w p.taken = tasksOf w p.finished ++ (p.pool.workers w).held
  exited : p.pool.mExited = true → p.takenAtExit = some p.taken

/-- **The pool is a queue of tasks**: it fits its history, and until it exits no task that waits is
forgotten. -/
structure Queued (p : PoolHistory) : Prop extends p.Fits where
  /-- No worker is blocked while a task waits and nobody is to notify it. -/
  awake : p.pool.mTasks ≠ [] → (∀ t, p.pool.callers t ≠ .pushed) →
    ∀ w, p.pool.workers w ≠ .waiting
  lives : 0 < p.pool.mMaxThreadNum → p.pool.mExited = false → p.pool.mTasks ≠ [] →
    ∃ i, Inner i ∧ (p.pool.step i).isSome

variable {p p' : PoolHistory} {s : ThreadPool} {i : ThreadPoolStep}

theorem tasksOf_append (u : ℕ) (l l' : List (ℕ × ℕ)) :
    tasksOf u (l ++ l') = tasksOf u l ++ tasksOf u l' := by
  simp [tasksOf]

theorem tasksOf_map (u v : ℕ) (tasks : List ℕ) :
    tasksOf u (tasks.map (v, ·)) = if v = u then tasks else [] := by
  by_cases huv : v = u <;> simp [tasksOf, huv, List.filter_map, Function.comp_def]

/-- A step that no history is kept of. -/
theorem Fits.of_same (h : p.Fits) (htasks : s.mTasks = p.pool.mTasks)
    (hworkers : ∀ w, (s.workers w).held = (p.pool.workers w).held)
    (hcallers : ∀ t, (s.callers t).held = (p.pool.callers t).held)
    (hx : s.mExited = p.pool.mExited) (hjoined : s.exiter ≠ .joined → p.pool.exiter ≠ .joined) :
    Fits { p with pool := s } where
  fifo := by
    rw [htasks]
    exact h.fifo
  discarded hj := h.discarded (hjoined hj)
  calls t := by
    rw [hcallers]
    exact h.calls t
  runs w := by
    rw [hworkers]
    exact h.runs w
  exited := by
    rw [hx]
    exact h.exited

theorem Fits.worker (h : p.Fits) {w : ℕ} {pc : WorkerPc} {mMutex : Option PoolThread}
    (hheld : pc.held = (p.pool.workers w).held) :
    Fits { p with pool := p.pool.setWorker w pc mMutex } := by
  refine h.of_same rfl (fun w' => ?_) (fun _ => rfl) rfl id
  by_cases hw : w' = w
  · subst hw
    simp [ThreadPool.setWorker, hheld]
  · simp [ThreadPool.setWorker, hw]

theorem Fits.caller (h : p.Fits) {t : ℕ} {pc : EnqueuePc} {mMutex : Option PoolThread}
    (hheld : pc.held = (p.pool.callers t).held) :
    Fits { p with pool := p.pool.setCaller t pc mMutex } := by
  refine h.of_same rfl (fun _ => rfl) (fun t' => ?_) rfl id
  by_cases ht : t' = t
  · subst ht
    simp [ThreadPool.setCaller, hheld]
  · simp [ThreadPool.setCaller, ht]

theorem held_woken (pc : WorkerPc) : pc.woken.held = pc.held := by cases pc <;> rfl

theorem Fits.notifyAll (h : p.Fits) : Fits { p with pool := p.pool.notifyAll } :=
  h.of_same rfl (fun w => held_woken (p.pool.workers w)) (fun _ => rfl) rfl id

/-- A worker finds that the pool has exited. -/
theorem Fits.leave (h : p.Fits) {w : ℕ} (hpc : p.pool.workers w = .checking) :
    (p.record (p.pool.setWorker w .done none) (.take w)).Fits := by
  have hsame : Fits { p with pool := p.pool.setWorker w .done none } :=
    h.worker (by rw [hpc]; rfl)
  simpa [record, ThreadPool.setWorker, WorkerPc.held] using hsame

/-- A worker takes the task in front. -/
theorem Fits.take (h : p.Fits) (hatt : p.pool.Attentive) {w task : ℕ} {mTasks : List ℕ}
    (hpc : p.pool.workers w = .checking) (hx : p.pool.mExited ≠ true)
    (htasks : p.pool.mTasks = task :: mTasks) :
    (p.record ({ p.pool with mTasks }.setWorker w (.running task) none) (.take w)).Fits := by
  -- the destructor has not joined a worker that is here
  have hjoined : p.pool.exiter ≠ .joined := by
    intro hj
    have hdone := hatt.joined hj w
    rw [hpc] at hdone
    cases hdone
  have hself : Function.update p.pool.workers w (WorkerPc.running task) w = .running task :=
    Function.update_self _ _ _
  refine ⟨?_, fun _ => h.discarded hjoined, h.calls, fun w' => ?_, fun hx' => absurd hx' hx⟩
  · have hfifo := h.fifo
    rw [h.discarded hjoined, htasks] at hfifo
    show p.pushed.map Prod.snd = (p.taken ++ (WorkerPc.held
      (Function.update p.pool.workers w (.running task) w)).map (w, ·)).map Prod.snd ++
        p.discarded ++ mTasks
    rw [hself, h.discarded hjoined, hfifo]
    simp [WorkerPc.held]
  · show tasksOf w' (p.taken ++ (WorkerPc.held
      (Function.update p.pool.workers w (.running task) w)).map (w, ·)) =
        tasksOf w' p.finished ++
          WorkerPc.held (Function.update p.pool.workers w (.running task) w')
    rw [hself, tasksOf_append, tasksOf_map, h.runs w']
    by_cases hw : w' = w
    · subst hw
      rw [if_pos rfl, Function.update_self, hpc]
      simp [WorkerPc.held]
    · rw [if_neg (Ne.symm hw), Function.update_of_ne hw, List.append_nil]

theorem Fits.finish (h : p.Fits) {w task : ℕ} (hpc : p.pool.workers w = .running task) :
    (p.record (p.pool.setWorker w .testing p.pool.mMutex) (.finish w)).Fits := by
  refine ⟨h.fifo, h.discarded, h.calls, fun w' => ?_, h.exited⟩
  show tasksOf w' p.taken = tasksOf w' (p.finished ++ (p.pool.workers w).held.map (w, ·)) ++
    WorkerPc.held (Function.update p.pool.workers w .testing w')
  rw [tasksOf_append, tasksOf_map, h.runs w']
  by_cases hw : w' = w
  · subst hw
    rw [if_pos rfl, Function.update_self]
    exact (List.append_nil _).symm
  · rw [if_neg (Ne.symm hw), Function.update_of_ne hw, List.append_nil]

theorem Fits.enqueue (h : p.Fits) {t : ℕ} (hpc : p.pool.callers t = .outside) (task : ℕ) :
    (p.record (p.pool.setCaller t (.called task) p.pool.mMutex) (.enqueue t task)).Fits := by
  refine ⟨h.fifo, h.discarded, fun t' => ?_, h.runs, h.exited⟩
  show tasksOf t' (p.called ++ [task].map (t, ·)) = tasksOf t' p.pushed ++
    EnqueuePc.held (Function.update p.pool.callers t (.called task) t')
  rw [tasksOf_append, tasksOf_map, h.calls t']
  by_cases ht : t' = t
  · subst ht
    rw [if_pos rfl, Function.update_self, hpc]
    simp [EnqueuePc.held]
  · rw [if_neg (Ne.symm ht), Function.update_of_ne ht, List.append_nil]

theorem Fits.push (h : p.Fits) {t task : ℕ} (hpc : p.pool.callers t = .locked task) :
    (p.record ({ p.pool with mTasks := p.pool.mTasks ++ [task] }.setCaller t .pushed
      p.pool.mMutex) (.push t)).Fits := by
  refine ⟨?_, h.discarded, fun t' => ?_, h.runs, h.exited⟩
  · show (p.pushed ++ (p.pool.callers t).held.map (t, ·)).map Prod.snd =
      p.taken.map Prod.snd ++ p.discarded ++ (p.pool.mTasks ++ [task])
    rw [hpc, List.map_append, h.fifo]
    simp [EnqueuePc.held]
  · show tasksOf t' p.called = tasksOf t' (p.pushed ++ (p.pool.callers t).held.map (t, ·)) ++
      EnqueuePc.held (Function.update p.pool.callers t .pushed t')
    rw [tasksOf_append, tasksOf_map, h.calls t']
    by_cases ht : t' = t
    · subst ht
      rw [if_pos rfl, Function.update_self]
      exact (List.append_nil _).symm
    · rw [if_neg (Ne.symm ht), Function.update_of_ne ht, List.append_nil]

/-- The destructor throws away the tasks that wait. -/
theorem Fits.join (h : p.Fits) (hnotified : p.pool.exiter = .notified true) :
    (p.record { p.pool with exiter := .joined, mTasks := [] } .join).Fits := by
  refine ⟨?_, fun hj => absurd rfl hj, h.calls, h.runs, h.exited⟩
  show p.pushed.map Prod.snd = p.taken.map Prod.snd ++ p.pool.mTasks ++ []
  rw [h.fifo, h.discarded (by simp [hnotified]), List.append_nil, List.append_nil]

theorem record_of_not_recorded (hquiet : ¬ Recorded i) : p.record s i = { p with pool := s } := by
  cases i with
  | enqueue _ _ | push _ | take _ | finish _ | exit _ | join => exact absurd trivial hquiet
  | _ => rfl

/-- **The steps keep the history and the pool together.** -/
theorem fits_step (h : p.Fits) (hatt : p.pool.Attentive) (hstep : p.step i = some p') :
    p'.Fits := by
  obtain ⟨s, hs, rfl⟩ := Option.map_eq_some_iff.mp hstep
  cases ThreadPool.step_advances hs with
  | worker w pc mMutex quiet eq held =>
    subst eq
    rw [record_of_not_recorded quiet]
    exact h.worker held
  | leave w label checking _ eq =>
    subst label eq
    exact h.leave checking
  | take w task mTasks label checking running tasks eq =>
    subst label eq
    exact h.take hatt checking running tasks
  | finish w task label running eq =>
    subst label eq
    exact h.finish running
  | enqueue t task label outside eq =>
    subst label eq
    exact h.enqueue outside task
  | caller t pc mMutex quiet eq held =>
    subst eq
    rw [record_of_not_recorded quiet]
    exact h.caller held
  | push t task label locked eq =>
    subst label eq
    exact h.push locked
  | notify t quiet pushed eq =>
    subst eq
    rw [record_of_not_recorded quiet]
    exact h.notifyAll.caller (by rw [show p.pool.notifyAll.callers t = _ from pushed]; rfl)
  | exit joins label outside eq =>
    subst label eq
    exact ⟨h.fifo, fun _ => h.discarded (by simp [outside]), h.calls, h.runs, fun _ => rfl⟩
  | notifyExit joins quiet flagged eq =>
    subst eq
    rw [record_of_not_recorded quiet]
    refine h.notifyAll.of_same rfl (fun _ => rfl) (fun _ => rfl) rfl fun _ => ?_
    simp [ThreadPool.notifyAll, flagged]
  | join label notified _ eq =>
    subst label eq
    exact h.join notified

theorem step_keeps (h : p.Fits ∧ p.pool.Attentive) (hstep : p.step i = some p') :
    p'.Fits ∧ p'.pool.Attentive := by
  refine ⟨fits_step h.1 h.2 hstep, ?_⟩
  obtain ⟨s, hs, rfl⟩ := Option.map_eq_some_iff.mp hstep
  have hpool : (p.record s i).pool = s := by cases i <;> rfl
  rw [hpool]
  exact ThreadPool.attentive_step h.2 hs

theorem Fits.queued (h : p.Fits) (hatt : p.pool.Attentive) : p.Queued where
  toFits := h
  awake hne hnone w hw := by
    obtain ⟨t, ht⟩ := hatt.awake w hw hne
    exact hnone t ht
  lives := hatt.lives

end PoolHistory

end SimpleTcp
