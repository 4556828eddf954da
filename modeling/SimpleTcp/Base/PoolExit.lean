import SimpleTcp.Base.ThreadPool
import SimpleTcp.Library.Mutex

/-!
# Exit of the thread pool

`exit` and the destructor change the predicate of `wait` and notify without the mutex under which
the workers evaluate it. A worker that has found the predicate false is not woken when the
notification comes before it blocks, and no other follows unless `enqueue` is called. Nothing else
loses a wakeup: a worker that evaluates the predicate later finds `mExited`, and one that has
blocked is woken.

## Main definitions

* `Lost`: `exit` has notified, a worker is blocked, and no notification is to come
* `FindsNoTester`: the notification of `exit` comes when no worker is about to block
* `Moves`: what a step does

## Main results

* `lost_iff`: the runs that lose no wakeup, and how the others do
* `not_awake_exitedLate`: a worker that blocks behind the notification
* `lost_of_run`: a wakeup that is lost stays lost, and the destructor does not return
-/

namespace SimpleTcp

theorem WorkerPc.isInside_woken (pc : WorkerPc) : pc.woken.isInside = pc.isInside := by
  cases pc <;> rfl

theorem WorkerPc.woken_ne_waiting (pc : WorkerPc) : pc.woken ≠ .waiting := by
  cases pc <;> simp [WorkerPc.woken]

theorem WorkerPc.woken_eq_blocking {pc : WorkerPc} (h : pc.woken = .blocking) : pc = .blocking := by
  cases pc <;> simp_all [WorkerPc.woken]

namespace ThreadPool

open Transition (Along Always always_of_along exists_of_not_along)
open Function (update)

variable {s s' : ThreadPool} {w t n : ℕ} {i : ThreadPoolStep}

/-- `exit` or the destructor has notified, a worker is blocked, and no caller of `enqueue` has still
to notify. -/
def Lost (s : ThreadPool) : Prop :=
  s.exiter.isNotified = true ∧ (∃ w < s.mMaxThreadNum, s.workers w = .waiting) ∧
    ∀ t, (s.callers t).isPending = false

/-- When `exit` or the destructor notifies, no worker stands between the predicate, which it has
found false, and its block, or a caller of `enqueue` has still to notify. -/
def FindsNoTester (s : ThreadPool) (i : ThreadPoolStep) : Prop :=
  i = .notifyExit → ∀ w, s.workers w = .blocking → ∃ t, (s.callers t).isPending = true

/-- No notification comes of the step: it is neither a call of `enqueue` nor a wakeup that nobody
has asked for. -/
def Silent : ThreadPoolStep → Prop
  | .enqueue _ _ | .wakeSpuriously _ => False
  | _ => True

/-- The thread holds the lock. -/
def inside (s : ThreadPool) : PoolThread → Bool
  | .worker w => (s.workers w).isInside
  | .caller t => (s.callers t).isInside

/-! ## Steps -/

/-- What a step does. -/
inductive Moves (s : ThreadPool) (i : ThreadPoolStep) (s' : ThreadPool) : Prop where
  | worker (w : ℕ) (pc : WorkerPc) (mMutex : Option PoolThread) (mTasks : List ℕ)
      (eq : s' = { s with mTasks }.setWorker w pc mMutex)
      (passes : Mutex.Passes (.worker w) s.inside s.mMutex mMutex pc.isInside)
      (blocks : pc = .blocking → s.mExited = false)
      (waits : pc = .waiting → s.workers w = .blocking)
      (there : s.workers w ≠ .done) (wakes : Silent i → s.workers w ≠ .waiting)
  | caller (t : ℕ) (pc : EnqueuePc) (mMutex : Option PoolThread) (mTasks : List ℕ)
      (eq : s' = { s with mTasks }.setCaller t pc mMutex)
      (passes : Mutex.Passes (.caller t) s.inside s.mMutex mMutex pc.isInside)
      (pending : (s.callers t).isPending = true → pc.isPending = true)
      (calls : Silent i → pc.isPending = true → (s.callers t).isPending = true)
  | notify (t : ℕ) (pushed : s.callers t = .pushed)
      (eq : s' = s.notifyAll.setCaller t .notified s.mMutex)
  | exit (joins : Bool) (outside : s.exiter = .outside)
      (eq : s' = { s with mExited := true, exiter := .flagged joins })
  | notifyExit (joins : Bool) (label : i = .notifyExit) (flagged : s.exiter = .flagged joins)
      (eq : s' = { s.notifyAll with exiter := .notified joins })
  | join (notified : s.exiter = .notified true)
      (all : ∀ w < s.mMaxThreadNum, s.workers w = .done)
      (eq : s' = { s with exiter := .joined, mTasks := [] })

theorem passes_stay {u : PoolThread} {b : Bool} (h : s.inside u = b) :
    Mutex.Passes u s.inside s.mMutex s.mMutex b := h ▸ .stay

theorem moves_takeTask (hpc : s.workers w = .checking) (h : s.takeTask w = some s') :
    s.Moves i s' := by
  have hin : s.inside (.worker w) = true := by rw [inside, hpc]; rfl
  unfold takeTask at h
  split at h
  · obtain rfl := Option.some.inj h
    exact .worker w .done none s.mTasks rfl (.leave hin) (by simp) (by simp) (by simp [hpc])
      fun _ => by simp [hpc]
  · split at h
    · next task mTasks _ =>
      obtain rfl := Option.some.inj h
      exact .worker w (.running task) none mTasks rfl (.leave hin) (by simp) (by simp)
        (by simp [hpc]) fun _ => by simp [hpc]
    · cases h

theorem step_moves (h : s.step i = some s') : s.Moves i s' := by
  cases i with
  | test w =>
    simp only [step] at h
    split at h <;> cases h
    next hpc =>
    refine .worker w _ _ s.mTasks rfl (passes_stay ?_) ?_ ?_ (by simp [hpc]) fun _ => by simp [hpc]
    all_goals split <;> simp [inside, hpc] <;> rfl
  | lock w =>
    simp only [step] at h
    split at h
    · next hpc =>
      split at h <;> cases h
      next hfree =>
        exact .worker w .locked _ s.mTasks rfl (.enter hfree) (by simp) (by simp) (by simp [hpc])
          fun _ => by simp [hpc]
    · cases h
  | look w =>
    simp only [step] at h
    split at h <;> cases h
    next hpc =>
    refine .worker w _ _ s.mTasks rfl (passes_stay ?_) ?_ ?_ (by simp [hpc]) fun _ => by simp [hpc]
    all_goals split <;> simp [inside, hpc] <;> rfl
  | evaluate w =>
    simp only [step] at h
    split at h <;> cases h
    next hpc =>
    refine .worker w _ _ s.mTasks rfl (passes_stay ?_) ?_ ?_ (by simp [hpc]) fun _ => by simp [hpc]
    · rw [inside, hpc]
      split <;> rfl
    · split
      · simp
      -- the predicate was false, so `mExited` was
      · next hfalse => exact fun _ => Bool.eq_false_iff.mpr (not_or.mp hfalse).2
    · split <;> simp
  | block w =>
    simp only [step] at h
    split at h <;> cases h
    next hpc =>
    have hin : s.inside (.worker w) = true := by rw [inside, hpc]; rfl
    exact .worker w .waiting none s.mTasks rfl (.leave hin) (by simp) (fun _ => hpc) (by simp [hpc])
      fun _ => by simp [hpc]
  | wakeSpuriously w =>
    simp only [step] at h
    split at h <;> cases h
    next hpc =>
    have hin : s.inside (.worker w) = false := by rw [inside, hpc]; rfl
    exact .worker w .notified _ s.mTasks rfl (passes_stay hin) (by simp) (by simp) (by simp [hpc])
      False.elim
  | relock w =>
    simp only [step] at h
    split at h
    · next hpc =>
      split at h <;> cases h
      next hfree =>
        exact .worker w .evaluating _ s.mTasks rfl (.enter hfree) (by simp) (by simp)
          (by simp [hpc]) fun _ => by simp [hpc]
    · cases h
  | take w =>
    simp only [step] at h
    split at h
    · next hpc => exact moves_takeTask hpc h
    · cases h
  | finish w =>
    simp only [step] at h
    split at h <;> cases h
    next hpc =>
    have hin : s.inside (.worker w) = false := by rw [inside, hpc]; rfl
    exact .worker w .testing _ s.mTasks rfl (passes_stay hin) (by simp) (by simp) (by simp [hpc])
      fun _ => by simp [hpc]
  | enqueue t task =>
    simp only [step] at h
    split at h <;> cases h
    next hpc =>
    have hin : s.inside (.caller t) = false := by rw [inside, hpc]; rfl
    exact .caller t (.called task) _ s.mTasks rfl (passes_stay hin) (fun _ => rfl) False.elim
  | lockQueue t =>
    simp only [step] at h
    split at h
    · next task hpc =>
      split at h <;> cases h
      next hfree =>
        exact .caller t (.locked task) _ s.mTasks rfl (.enter hfree) (fun _ => rfl)
          fun _ _ => by rw [hpc]; rfl
    · cases h
  | push t =>
    simp only [step] at h
    split at h <;> cases h
    next task hpc =>
    have hin : s.inside (.caller t) = true := by rw [inside, hpc]; rfl
    exact .caller t .pushed _ _ rfl (passes_stay hin) (fun _ => rfl) fun _ _ => by rw [hpc]; rfl
  | notify t =>
    simp only [step] at h
    split at h <;> cases h
    next hpc => exact .notify t hpc rfl
  | unlock t =>
    simp only [step] at h
    split at h <;> cases h
    next hpc =>
    have hin : s.inside (.caller t) = true := by rw [inside, hpc]; rfl
    refine .caller t .outside none s.mTasks rfl (.leave hin) (fun hpending => ?_) fun _ => ?_
    · rw [hpc] at hpending
      cases hpending
    · exact fun hpending => by cases hpending
  | exit joins =>
    simp only [step] at h
    split at h <;> cases h
    next hpc => exact .exit joins hpc rfl
  | notifyExit =>
    simp only [step] at h
    split at h <;> cases h
    next joins hpc => exact .notifyExit joins rfl hpc rfl
  | join =>
    simp only [step] at h
    split at h
    · next hpc =>
      split at h <;> cases h
      next hall => exact .join hpc hall rfl
    · cases h

/-! ## The invariant -/

/-- What the steps keep when `exit` finds no worker about to block. -/
structure Inv (s : ThreadPool) : Prop where
  bounded : ∀ w, s.mMaxThreadNum ≤ w → s.workers w = .done
  guarded : Mutex.Guards s.mMutex s.inside
  exited : s.exiter ≠ .outside → s.mExited = true
  /-- A worker that has missed the notification of `exit` is woken by that of `enqueue`. -/
  awake : s.exiter.isNotified = true → ∀ w, s.workers w = .blocking ∨ s.workers w = .waiting →
    ∃ t, (s.callers t).isPending = true

theorem inside_setWorker (s : ThreadPool) (mTasks : List ℕ) (w : ℕ) (pc : WorkerPc)
    (mMutex : Option PoolThread) : ({ s with mTasks }.setWorker w pc mMutex).inside =
      update s.inside (.worker w) pc.isInside := by
  funext u
  cases u with
  | worker w' =>
    by_cases hw : w' = w
    · subst hw
      simp [inside, setWorker]
    · simp [inside, setWorker, hw]
  | caller t => simp [inside, setWorker]

theorem inside_setCaller (s : ThreadPool) (mTasks : List ℕ) (t : ℕ) (pc : EnqueuePc)
    (mMutex : Option PoolThread) : ({ s with mTasks }.setCaller t pc mMutex).inside =
      update s.inside (.caller t) pc.isInside := by
  funext u
  cases u with
  | worker w => simp [inside, setCaller]
  | caller t' =>
    by_cases ht : t' = t
    · subst ht
      simp [inside, setCaller]
    · simp [inside, setCaller, ht]

theorem inside_notifyAll (s : ThreadPool) : s.notifyAll.inside = s.inside := by
  funext u
  cases u with
  | worker w => exact WorkerPc.isInside_woken (s.workers w)
  | caller t => rfl

theorem create_inv : (create n).Inv where
  bounded w hw := if_neg (Nat.not_lt.mpr hw)
  guarded := by
    rintro (w | t)
    · by_cases hw : w < n <;> simp [inside, create, hw, WorkerPc.isInside]
    · simp [inside, create, EnqueuePc.isInside]
  exited h := absurd rfl h
  awake h := by cases h

/-- The worker that is about to block holds the lock, so the notification of `enqueue` comes when it
has blocked. -/
theorem Inv.not_blocking (h : s.Inv) (hpushed : s.callers t = .pushed) (w : ℕ) :
    s.workers w ≠ .blocking := by
  intro hblocking
  have hw : s.inside (.worker w) = true := by rw [inside, hblocking]; rfl
  have ht : s.inside (.caller t) = true := by rw [inside, hpushed]; rfl
  cases h.guarded.unique hw ht

theorem Inv.worker (h : s.Inv) {pc : WorkerPc} {mMutex : Option PoolThread} (mTasks : List ℕ)
    (hpasses : Mutex.Passes (.worker w) s.inside s.mMutex mMutex pc.isInside)
    (hblocks : pc = .blocking → s.mExited = false)
    (hwaits : pc = .waiting → s.workers w = .blocking) (hthere : s.workers w ≠ .done) :
    ({ s with mTasks }.setWorker w pc mMutex).Inv where
  bounded w' hw' := by
    have hne : w' ≠ w := fun heq => hthere (heq ▸ h.bounded w' hw')
    simpa [setWorker, hne] using h.bounded w' hw'
  guarded := by
    rw [inside_setWorker]
    exact h.guarded.passes hpasses
  exited := h.exited
  awake hnotified w' hw' := by
    by_cases hw : w' = w
    · subst hw
      simp only [setWorker, Function.update_self] at hw'
      rcases hw' with hpc | hpc
      · -- the flag is set before the notification
        have hexited := h.exited fun hout => by
          simp [setWorker, hout, ExitPc.isNotified] at hnotified
        rw [hblocks hpc] at hexited
        cases hexited
      · exact h.awake hnotified w' (.inl (hwaits hpc))
    · simp only [setWorker, Function.update_of_ne hw] at hw'
      exact h.awake hnotified w' hw'

theorem Inv.caller (h : s.Inv) {pc : EnqueuePc} {mMutex : Option PoolThread} (mTasks : List ℕ)
    (hpasses : Mutex.Passes (.caller t) s.inside s.mMutex mMutex pc.isInside)
    (hpending : (s.callers t).isPending = true → pc.isPending = true) :
    ({ s with mTasks }.setCaller t pc mMutex).Inv where
  bounded := h.bounded
  guarded := by
    rw [inside_setCaller]
    exact h.guarded.passes hpasses
  exited := h.exited
  awake hnotified w hw := by
    obtain ⟨t', ht'⟩ := h.awake hnotified w hw
    refine ⟨t', ?_⟩
    by_cases ht : t' = t
    · subst ht
      simpa [setCaller] using hpending ht'
    · simpa [setCaller, ht] using ht'

theorem Inv.notifyAll_bounded (h : s.Inv) (w : ℕ) (hw : s.mMaxThreadNum ≤ w) :
    (s.workers w).woken = .done := by
  rw [h.bounded w hw]
  rfl

theorem inv_step (h : s.Inv) (hi : s.FindsNoTester i) (hstep : s.step i = some s') : s'.Inv := by
  cases step_moves hstep with
  | worker w pc mMutex mTasks eq passes blocks waits there =>
    subst eq
    exact h.worker mTasks passes blocks waits there
  | caller t pc mMutex mTasks eq passes pending =>
    subst eq
    exact h.caller mTasks passes pending
  | notify t pushed eq =>
    subst eq
    have hin : s.notifyAll.inside (.caller t) = true := by
      rw [inside_notifyAll, inside, pushed]
      rfl
    have hguarded : Mutex.Guards s.notifyAll.mMutex s.notifyAll.inside := by
      rw [inside_notifyAll]
      exact h.guarded
    refine ⟨h.notifyAll_bounded, ?_, h.exited, fun _ w hw => ?_⟩
    · have hpasses := hguarded.passes (.stay (t := .caller t))
      rw [hin] at hpasses
      exact (inside_setCaller s.notifyAll s.mTasks t .notified s.mMutex) ▸ hpasses
    · -- the others are woken, and none is about to block
      rcases hw with hw | hw
      · exact absurd (WorkerPc.woken_eq_blocking hw) (h.not_blocking pushed w)
      · exact absurd hw (WorkerPc.woken_ne_waiting _)
  | exit joins outside eq =>
    subst eq
    exact ⟨h.bounded, h.guarded, fun _ => rfl, fun hnotified => by cases hnotified⟩
  | notifyExit joins label flagged eq =>
    subst eq
    refine ⟨h.notifyAll_bounded, ?_, fun _ => h.exited (by rw [flagged]; simp), fun _ w hw => ?_⟩
    · exact (inside_notifyAll s).symm ▸ h.guarded
    · rcases hw with hw | hw
      · exact hi label w (WorkerPc.woken_eq_blocking hw)
      · exact absurd hw (WorkerPc.woken_ne_waiting _)
  | join notified all eq =>
    subst eq
    exact ⟨h.bounded, h.guarded, fun _ => h.exited (by rw [notified]; simp),
      fun _ => h.awake (by rw [notified]; rfl)⟩

/-! ## Runs -/

theorem Inv.not_lost (h : s.Inv) : ¬ s.Lost := by
  rintro ⟨hnotified, ⟨w, -, hw⟩, hnone⟩
  obtain ⟨t, ht⟩ := h.awake hnotified w (.inr hw)
  rw [hnone t] at ht
  cases ht

/-- The worker that is about to block holds the lock. -/
theorem Inv.callers (h : s.Inv) (hw : s.workers w = .blocking)
    (hnone : ¬ ∃ t, (s.callers t).isPending = true) (t : ℕ) : s.callers t = .outside := by
  have hin : s.inside (.worker w) = true := by rw [inside, hw]; rfl
  have hfree : s.inside (.caller t) ≠ true := fun ht => by cases h.guarded.unique hin ht
  have hpending : (s.callers t).isPending ≠ true := fun ht => hnone ⟨t, ht⟩
  rw [inside] at hfree
  cases hpc : s.callers t with
  | outside => rfl
  | called _ | locked _ | pushed => exact absurd (by rw [hpc]; rfl) hpending
  | notified => exact absurd (by rw [hpc]; rfl) hfree

/-- A worker that has tested before `exit` notifies, and blocks behind it, is not woken. -/
theorem Inv.loses (h : s.Inv) {joins : Bool} (hflagged : s.exiter = .flagged joins)
    (hw : s.workers w = .blocking) (hnone : ¬ ∃ t, (s.callers t).isPending = true) :
    ∃ s', Transition.run step s [.notifyExit, .block w] = some s' ∧ s'.Lost := by
  set s₁ : ThreadPool := { s.notifyAll with exiter := .notified joins }
  have hnotify : s.step .notifyExit = some s₁ := by simp only [step, hflagged]; rfl
  have hw₁ : s₁.workers w = .blocking := by
    change (s.workers w).woken = .blocking
    rw [hw]
    rfl
  have hblock : s₁.step (.block w) = some (s₁.setWorker w .waiting none) := by
    simp only [step, hw₁]
  have hlt : w < s.mMaxThreadNum := by
    by_contra hge
    rw [h.bounded w (Nat.not_lt.mp hge)] at hw
    cases hw
  refine ⟨s₁.setWorker w .waiting none, ?_, rfl, ⟨w, hlt, Function.update_self _ _ _⟩, fun t => ?_⟩
  · exact Transition.run_cons_eq_some.mpr
      ⟨s₁, hnotify, Transition.run_cons_eq_some.mpr ⟨_, hblock, rfl⟩⟩
  · change (s.callers t).isPending = false
    rw [h.callers hw hnone t]
    rfl

/-- **No wakeup is lost** in the runs in which `exit` notifies when no worker stands between the
predicate and its block, and a run that has come there without it goes on to lose one. -/
theorem lost_iff (n : ℕ) (is : List ThreadPoolStep) :
    (Along step FindsNoTester (create n) is → Always step (¬ Lost ·) (create n) is) ∧
      (¬ Along step FindsNoTester (create n) is → ∃ pre w s', pre ++ [.notifyExit] <+: is ∧
        Transition.run step (create n) (pre ++ [.notifyExit, .block w]) = some s' ∧ s'.Lost) := by
  refine ⟨always_of_along (I := Inv) (fun s hs => hs.not_lost) ?_ create_inv, fun h => ?_⟩
  · exact fun s i s' hs hi hstep => inv_step hs hi hstep
  · obtain ⟨pre, i, s₁, s₂, hpre, halong, hrun, hstep, hbad⟩ := exists_of_not_along h
    have hinv : s₁.Inv := always_of_along (I := Inv) (Q := Inv) (fun s hs => hs)
      (fun s i s' hs hi hstep => inv_step hs hi hstep) create_inv halong pre s₁
      (List.prefix_refl _) hrun
    rw [FindsNoTester, Classical.not_imp, not_forall] at hbad
    obtain ⟨rfl, w, hw⟩ := hbad
    obtain ⟨hw, hnone⟩ := Classical.not_imp.mp hw
    simp only [step] at hstep
    split at hstep
    next joins hflagged =>
      obtain ⟨s', hrun', hlost⟩ := hinv.loses hflagged hw hnone
      refine ⟨pre, w, s', hpre, ?_, hlost⟩
      rw [Transition.run_append, hrun]
      exact hrun'
    next => cases hstep

/-- A worker has tested, `exit` sets the flag and notifies, and the worker blocks. -/
def exitedLate : List ThreadPoolStep :=
  [.test 0, .lock 0, .look 0, .evaluate 0, .exit true, .notifyExit, .block 0]

theorem not_awake_exitedLate :
    ¬ ∀ n is s', Transition.run step (create n) is = some s' → ¬ s'.Lost := by
  intro h
  obtain ⟨s', hrun⟩ : ∃ s', Transition.run step (create 1) exitedLate = some s' :=
    Option.isSome_iff_exists.mp (by decide)
  refine h 1 exitedLate s' hrun ?_
  cases hrun
  exact ⟨rfl, ⟨0, by decide, rfl⟩, fun t => rfl⟩

/-- A worker whose wakeup is lost stays blocked, so that the destructor does not return, as long as
nobody calls `enqueue` and the worker does not wake up by itself. -/
theorem lost_of_run {is : List ThreadPoolStep} (h : s.Lost) (hjoined : s.exiter ≠ .joined)
    (hsilent : ∀ i ∈ is, Silent i) (hrun : Transition.run step s is = some s') :
    s'.Lost ∧ s'.exiter ≠ .joined := by
  refine Transition.run_invariant_of (I := fun s => s.Lost ∧ s.exiter ≠ .joined) ?_ ⟨h, hjoined⟩
    hsilent hrun
  rintro s i s' ⟨⟨hnotified, ⟨w, hlt, hw⟩, hnone⟩, hjoined⟩ hi hstep
  cases step_moves hstep with
  | worker w' pc mMutex mTasks eq passes blocks waits there wakes =>
    subst eq
    have hne : w ≠ w' := fun heq => wakes hi (heq ▸ hw)
    exact ⟨⟨hnotified, ⟨w, hlt, (Function.update_of_ne hne _ _).trans hw⟩, hnone⟩, hjoined⟩
  | caller t pc mMutex mTasks eq passes pending calls =>
    subst eq
    refine ⟨⟨hnotified, ⟨w, hlt, hw⟩, fun t' => ?_⟩, hjoined⟩
    by_cases ht : t' = t
    · subst ht
      refine Bool.eq_false_iff.mpr fun hpc => ?_
      simp only [setCaller, Function.update_self] at hpc
      exact absurd (calls hi hpc) (Bool.eq_false_iff.mp (hnone t'))
    · simpa [setCaller, ht] using hnone t'
  | notify t pushed eq =>
    have hpending := hnone t
    rw [pushed] at hpending
    cases hpending
  | exit joins outside eq =>
    rw [outside] at hnotified
    cases hnotified
  | notifyExit joins label flagged eq =>
    rw [flagged] at hnotified
    cases hnotified
  | join notified all eq =>
    -- the worker that is blocked has not returned
    rw [all w hlt] at hw
    cases hw

end ThreadPool

end SimpleTcp
