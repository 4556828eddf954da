import SimpleTcp.Library.RoundRobin
import SimpleTcp.Net.EventLoopPool

/-!
# Acquiring loops

`EventLoopPool::acquireLoop` returns the registered loops in turn. The constructor does not wait for
the threads that it starts, so a call may find no loop, and divides by zero. The index is a
`size_t`; where it wraps around it goes on with the first loop, in turn only if the number of the
loops divides 2^64.

## Main definitions

* `PoolCalls`, `PoolCalls.step`: a pool with the loops that were acquired
* `PoolCalls.Fair`: no call has divided by zero, and the loops are registered, running and balanced
* `PoolCalls.HasLoop`, `PoolCalls.Ready`: a call that finds a loop, and whose index is in turn

## Main results

* `PoolCalls.step_inv`: the calls that are ready keep what fairness needs
* `PoolCalls.defined_iff_and_fair`: the runs that divide by zero, and those that are fair
-/

namespace SimpleTcp

open Function (update)

/-- A pool, and the loops that `acquireLoop` has returned. -/
structure PoolCalls where
  pool : EventLoopPool
  /-- A call has evaluated `mIndex % mSubLoops.size()` without a loop. -/
  dividedByZero : Bool
  early : List ℕ
  /-- The loops returned since all of them were registered. -/
  later : List ℕ

namespace EventLoopPool

/-- Every thread has registered its loop. -/
def AllRegistered (s : EventLoopPool) : Prop := s.mSubLoops.length = s.mMaxThreadNum

instance (s : EventLoopPool) : Decidable s.AllRegistered := inferInstanceAs (Decidable (_ = _))

/-- The loop that `acquireLoop` returns. -/
def nextLoop (s : EventLoopPool) : Option ℕ := s.mSubLoops[s.mIndex % s.mSubLoops.length]?

end EventLoopPool

namespace PoolCalls

open Transition (Along Always)

def create (maxThreadNum : ℕ) : PoolCalls where
  pool := EventLoopPool.create maxThreadNum
  dividedByZero := false
  early := []
  later := []

/-- `acquireLoop` has returned. Without threads it returns the main loop. -/
def returned (c : PoolCalls) (pool : EventLoopPool) : PoolCalls :=
  match c.pool.nextLoop with
  | some loop =>
    if c.pool.AllRegistered then { c with pool, later := c.later ++ [loop] }
    else { c with pool, early := c.early ++ [loop] }
  | none => { c with pool }

/-- A call without a loop ends the process. -/
def step (c : PoolCalls) (i : PoolStep) : Option PoolCalls :=
  if c.dividedByZero then none
  else if i = .acquireLoop then
    -- the lock is taken, and `mSubLoops.size()` is 0
    if c.pool.mMaxThreadNum ≠ 0 ∧ c.pool.Unlocked ∧ c.pool.mSubLoops = [] then
      some { c with dividedByZero := true }
    else (c.pool.step i).map c.returned
  else (c.pool.step i).map fun pool => { c with pool }

/-- No call has divided by zero, the loops that were returned are registered, and running until the
destructor begins, and those returned since all are registered were returned equally often, up to
one time. -/
structure Fair (c : PoolCalls) : Prop where
  defined : c.dividedByZero = false
  running : ∀ loop ∈ c.early ++ c.later, loop ∈ c.pool.mSubLoops ∧
    (c.pool.destructor = .idle → c.pool.mSubLoopStates loop = some .Running)
  balanced : ∀ a ∈ c.pool.mSubLoops, ∀ b ∈ c.pool.mSubLoops,
    c.later.count a ≤ c.later.count b + 1

/-- A call finds a loop. -/
def HasLoop (c : PoolCalls) : PoolStep → Prop
  | .acquireLoop => c.pool.mSubLoops ≠ []
  | _ => True

/-- A call finds a loop, and the index behind it is in turn. -/
def Ready (c : PoolCalls) : PoolStep → Prop
  | .acquireLoop => c.pool.mSubLoops ≠ [] ∧
      (c.pool.AllRegistered → c.pool.mIndex + 1 < 2 ^ 64 ∨ c.pool.mMaxThreadNum ∣ 2 ^ 64)
  | _ => True

instance (c : PoolCalls) : (i : PoolStep) → Decidable (c.Ready i)
  | .acquireLoop => inferInstanceAs (Decidable (_ ∧ _))
  | .registerLoop _ | .wakeSpuriously _ | .relock _ | .startLoop _ | .turn _ | .finish _
  | .destroy | .mark | .notifyAll | .join | .destroyed => .isTrue trivial

end PoolCalls

namespace EventLoopPool

variable {s s' : EventLoopPool} {i : PoolStep}

/-- A step that leaves the registered loops alone. Only the destructor changes their states. -/
structure SameLoops (s s' : EventLoopPool) : Prop where
  threads : s'.mMaxThreadNum = s.mMaxThreadNum
  loops : s'.mSubLoops = s.mSubLoops
  index : s'.mIndex = s.mIndex
  started : ∀ j, s.mSubThreads j ≠ .starting → s'.mSubThreads j ≠ .starting
  states : s'.destructor = .idle → s.destructor = .idle ∧ s'.mSubLoopStates = s.mSubLoopStates

theorem setPc_started {j : ℕ} {pc : SubThreadPc} (hpc : pc ≠ .starting) (k : ℕ)
    (hk : s.mSubThreads k ≠ .starting) : (s.setPc j pc).mSubThreads k ≠ .starting := by
  change update s.mSubThreads j pc k ≠ .starting
  rw [Function.update_apply]
  split
  · exact hpc
  · exact hk

theorem notifyAll_started (k : ℕ) (hk : s.mSubThreads k ≠ .starting) :
    s.notifyAll.mSubThreads k ≠ .starting :=
  (SubThreadPc.notified_eq_iff (by simp) (by simp)).not.mpr hk

theorem step_sameLoops (hregister : ∀ j, i ≠ .registerLoop j) (hacquire : i ≠ .acquireLoop)
    (hstep : s.step i = some s') : s.SameLoops s' := by
  cases i with
  | registerLoop j => exact absurd rfl (hregister j)
  | acquireLoop => exact absurd rfl hacquire
  | wakeSpuriously j | startLoop j | finish j =>
    simp only [step] at hstep
    split at hstep <;> cases hstep
    exact ⟨rfl, rfl, rfl, setPc_started (by simp), fun hidle => ⟨hidle, rfl⟩⟩
  | relock j =>
    simp only [step] at hstep
    split at hstep <;> cases hstep
    exact ⟨rfl, rfl, rfl, setPc_started (by split <;> simp), fun hidle => ⟨hidle, rfl⟩⟩
  | turn j =>
    simp only [step] at hstep
    split at hstep <;> cases hstep
    split
    · exact ⟨rfl, rfl, rfl, setPc_started (by simp), fun hidle => ⟨hidle, rfl⟩⟩
    · exact ⟨rfl, rfl, rfl, fun _ hk => hk, fun hidle => ⟨hidle, rfl⟩⟩
  -- the destructor is at work from here on
  | destroy | mark | destroyed =>
    simp only [step] at hstep
    split at hstep <;> cases hstep
    exact ⟨rfl, rfl, rfl, fun _ hk => hk, fun hidle => (by cases hidle)⟩
  | notifyAll =>
    simp only [step] at hstep
    split at hstep <;> cases hstep
    exact ⟨rfl, rfl, rfl, notifyAll_started, fun hidle => (by cases hidle)⟩
  | join =>
    simp only [step] at hstep
    split at hstep
    · split at hstep <;> cases hstep
      exact ⟨rfl, rfl, rfl, fun _ hk => hk, fun hidle => (by cases hidle)⟩
    · cases hstep

/-- What the steps of a pool keep of its registered loops. -/
structure Registry (s : EventLoopPool) : Prop where
  held : s.Held
  nodup : s.mSubLoops.Nodup
  started : ∀ j ∈ s.mSubLoops, s.mSubThreads j ≠ .starting
  states : s.destructor = .idle → ∀ j ∈ s.mSubLoops,
    s.mSubLoopStates j = some .Initialized ∨ s.mSubLoopStates j = some .Running

theorem create_registry {maxThreadNum : ℕ} (h : 0 < maxThreadNum) :
    (create maxThreadNum).Registry where
  held := create_held h
  nodup := List.nodup_nil
  started := fun _ hj => by cases hj
  states := fun _ _ hj => by cases hj

/-- While a thread is starting, not all loops are registered. -/
theorem Registry.not_allRegistered (h : s.Registry) {j : ℕ} (hj : j < s.mMaxThreadNum)
    (hpc : s.mSubThreads j = .starting) : ¬ s.AllRegistered := by
  intro hall
  have hnotMem : j ∉ s.mSubLoops := fun hmem => h.started j hmem hpc
  -- the loop that is missing would be one more than there are threads
  have hsubset : j :: s.mSubLoops ⊆ List.range s.mMaxThreadNum := by
    intro k hk
    rcases List.mem_cons.mp hk with rfl | hk
    · exact List.mem_range.mpr hj
    · exact List.mem_range.mpr (h.held.started k (h.started k hk))
  have hlength := (List.nodup_cons.mpr ⟨hnotMem, h.nodup⟩).length_le_of_subset hsubset
  rw [List.length_cons, List.length_range, hall] at hlength
  omega

theorem Registry.sameLoops (h : s.Registry) (hheld : s'.Held) (hsame : s.SameLoops s') :
    s'.Registry where
  held := hheld
  nodup := hsame.loops ▸ h.nodup
  started := fun j hj => hsame.started j (h.started j (hsame.loops ▸ hj))
  states := fun hidle j hj => by
    obtain ⟨hidle', hstates⟩ := hsame.states hidle
    rw [hstates]
    exact h.states hidle' j (hsame.loops ▸ hj)

/-- The new loop is registered once. -/
theorem Registry.registerLoop (h : s.Registry) {j : ℕ} (hheld : (s.registerLoop j).Held)
    (hpc : s.mSubThreads j = .starting) : (s.registerLoop j).Registry where
  held := hheld
  nodup := by
    refine List.nodup_append.mpr ⟨h.nodup, List.nodup_singleton j, ?_⟩
    intro a ha b hb
    rintro rfl
    exact h.started a ha (List.mem_singleton.mp hb ▸ hpc)
  started := fun k hk => by
    change update s.mSubThreads j .waiting k ≠ .starting
    rw [Function.update_apply]
    split
    · simp
    · next hne =>
      exact h.started k ((List.mem_append.mp hk).resolve_right fun hk =>
        hne (List.mem_singleton.mp hk))
  states := fun hidle k hk => by
    change update s.mSubLoopStates j (some .Initialized) k = some .Initialized ∨
      update s.mSubLoopStates j (some .Initialized) k = some .Running
    rw [Function.update_apply]
    split
    · exact .inl rfl
    · next hne =>
      exact h.states hidle k ((List.mem_append.mp hk).resolve_right fun hk =>
        hne (List.mem_singleton.mp hk))

/-! ### Acquiring -/

/-- What `acquireLoop` does when it finds a loop. -/
structure Acquires (s : EventLoopPool) (loop : ℕ) (s' : EventLoopPool) : Prop where
  threads : s'.mMaxThreadNum = s.mMaxThreadNum
  loops : s'.mSubLoops = s.mSubLoops
  index : s'.mIndex = (s.mIndex + 1) % 2 ^ 64
  started : ∀ j, s.mSubThreads j ≠ .starting → s'.mSubThreads j ≠ .starting
  destructor : s'.destructor = s.destructor
  others : ∀ j, j ≠ loop → s'.mSubLoopStates j = s.mSubLoopStates j
  running : s.mSubLoopStates loop = some .Initialized ∨ s.mSubLoopStates loop = some .Running →
    s'.mSubLoopStates loop = some .Running

theorem acquire_acquires (s : EventLoopPool) (loop : ℕ) : s.Acquires loop (s.acquire loop) := by
  by_cases hinit : s.mSubLoopStates loop = some .Initialized
  · rw [acquire, if_pos hinit]
    refine ⟨rfl, rfl, rfl, notifyAll_started (s := { s with
      mIndex := (s.mIndex + 1) % 2 ^ 64
      mSubLoopStates := update s.mSubLoopStates loop (some .Running) }), rfl, fun j hj => ?_,
      fun _ => ?_⟩
    · exact Function.update_of_ne hj _ _
    · exact Function.update_self loop _ _
  · rw [acquire, if_neg hinit]
    exact ⟨rfl, rfl, rfl, fun _ hk => hk, rfl, fun _ _ => rfl, fun h => h.resolve_left hinit⟩

theorem acquireLoop_acquires (hpos : 0 < s.mMaxThreadNum) (hstep : s.acquireLoop = some s') :
    ∃ loop, s.nextLoop = some loop ∧ s.Unlocked ∧ s.Acquires loop s' := by
  rw [acquireLoop, if_neg hpos.ne'] at hstep
  split at hstep
  · next hfree =>
    obtain ⟨loop, hloop, rfl⟩ := Option.map_eq_some_iff.mp hstep
    exact ⟨loop, hloop, hfree, acquire_acquires s loop⟩
  · cases hstep

theorem nextLoop_mem {loop : ℕ} (h : s.nextLoop = some loop) : loop ∈ s.mSubLoops :=
  List.mem_of_getElem? h

theorem Registry.acquires (h : s.Registry) {loop : ℕ} (hheld : s'.Held)
    (ha : s.Acquires loop s') (hloop : loop ∈ s.mSubLoops) : s'.Registry where
  held := hheld
  nodup := ha.loops ▸ h.nodup
  started := fun j hj => ha.started j (h.started j (ha.loops ▸ hj))
  states := fun hidle j hj => by
    rw [ha.destructor] at hidle
    rw [ha.loops] at hj
    by_cases hne : j = loop
    · exact .inr (hne ▸ ha.running (h.states hidle loop hloop))
    · rw [ha.others j hne]
      exact h.states hidle j hj

end EventLoopPool

namespace PoolCalls

open Transition (Along Always)

open RoundRobin (Rotates)

variable {c c' : PoolCalls} {i : PoolStep}

/-- What the calls keep. -/
structure Inv (c : PoolCalls) : Prop where
  registry : c.pool.Registry
  defined : c.dividedByZero = false
  running : ∀ loop ∈ c.early ++ c.later, loop ∈ c.pool.mSubLoops ∧
    (c.pool.destructor = .idle → c.pool.mSubLoopStates loop = some .Running)
  /-- The calls since all loops are registered have returned them in turn, up to the index. -/
  turn : c.later ≠ [] → c.pool.AllRegistered ∧ ∃ start, Rotates c.pool.mSubLoops start c.later ∧
    c.pool.mIndex % c.pool.mSubLoops.length =
      (start + c.later.length) % c.pool.mSubLoops.length

theorem create_inv {maxThreadNum : ℕ} (h : 0 < maxThreadNum) : (create maxThreadNum).Inv where
  registry := EventLoopPool.create_registry h
  defined := rfl
  running := fun _ hloop => by cases hloop
  turn := fun hlater => absurd rfl hlater

theorem Inv.fair (h : c.Inv) : c.Fair where
  defined := h.defined
  running := h.running
  balanced := by
    intro a ha b hb
    by_cases hlater : c.later = []
    · rw [hlater]
      exact Nat.zero_le _
    · obtain ⟨-, start, hrotates, -⟩ := h.turn hlater
      exact hrotates.count_le h.registry.nodup ha hb

/-- The index goes on in turn, unless it wraps around. -/
theorem succ_mod {index n : ℕ} (h : index + 1 < 2 ^ 64 ∨ n ∣ 2 ^ 64) :
    (index + 1) % 2 ^ 64 % n = (index % n + 1) % n := by
  rw [Nat.mod_add_mod]
  rcases h with hlt | hdvd
  · rw [Nat.mod_eq_of_lt hlt]
  · exact Nat.mod_mod_of_dvd _ hdvd

/-- A call divides by zero or acquires a loop, and the other steps are those of the pool. -/
theorem step_cases (hstep : c.step i = some c') :
    (i = .acquireLoop ∧ c.pool.mSubLoops = [] ∧ c' = { c with dividedByZero := true }) ∨
      (i = .acquireLoop ∧ ∃ pool, c.pool.step i = some pool ∧ c' = c.returned pool) ∨
      i ≠ .acquireLoop ∧ ∃ pool, c.pool.step i = some pool ∧ c' = { c with pool } := by
  simp only [step] at hstep
  split at hstep
  · cases hstep
  · split at hstep
    · next hi =>
      split at hstep
      · next hnone =>
        cases hstep
        exact .inl ⟨hi, hnone.2.2, rfl⟩
      · obtain ⟨pool, hpool, rfl⟩ := Option.map_eq_some_iff.mp hstep
        exact .inr (.inl ⟨hi, pool, hpool, rfl⟩)
    · next hi =>
      obtain ⟨pool, hpool, rfl⟩ := Option.map_eq_some_iff.mp hstep
      exact .inr (.inr ⟨hi, pool, hpool, rfl⟩)

theorem returned_pool (c : PoolCalls) (pool : EventLoopPool) : (c.returned pool).pool = pool := by
  unfold returned
  split
  · split <;> rfl
  · rfl

theorem returned_dividedByZero (c : PoolCalls) (pool : EventLoopPool) :
    (c.returned pool).dividedByZero = c.dividedByZero := by
  unfold returned
  split
  · split <;> rfl
  · rfl

/-- Every run without a division by zero is a run of the pool. -/
theorem run_pool {is : List PoolStep} (hrun : Transition.run step c is = some c')
    (hdefined : c'.dividedByZero = false) :
    Transition.run EventLoopPool.step c.pool is = some c'.pool := by
  induction is generalizing c with
  | nil =>
    obtain rfl : c = c' := Option.some.inj hrun
    rfl
  | cons i is ih =>
    obtain ⟨c₁, hstep, hrun⟩ := Transition.run_cons_eq_some.mp hrun
    rcases step_cases hstep with ⟨-, -, rfl⟩ | ⟨-, pool, hpool, rfl⟩ | ⟨-, pool, hpool, rfl⟩
    · -- after a division by zero no step follows
      cases is with
      | nil =>
        obtain rfl := Option.some.inj hrun
        cases hdefined
      | cons j js =>
        obtain ⟨c₂, hstep', -⟩ := Transition.run_cons_eq_some.mp hrun
        simp [step] at hstep'
    · have hrest := ih hrun
      rw [returned_pool] at hrest
      exact Transition.run_cons_eq_some.mpr ⟨pool, hpool, hrest⟩
    · exact Transition.run_cons_eq_some.mpr ⟨pool, hpool, ih hrun⟩

/-- A loop is acquired and returned. -/
theorem Inv.returned (h : c.Inv) {pool : EventLoopPool} {loop : ℕ} (hheld : pool.Held)
    (hloop : c.pool.nextLoop = some loop) (hfree : c.pool.Unlocked)
    (ha : c.pool.Acquires loop pool)
    (hindex : c.pool.AllRegistered → c.pool.mIndex + 1 < 2 ^ 64 ∨ c.pool.mMaxThreadNum ∣ 2 ^ 64) :
    (c.returned pool).Inv := by
  have hmem := EventLoopPool.nextLoop_mem hloop
  have hidle := h.registry.held.idle hfree
  have hregistry := h.registry.acquires hheld ha hmem
  have hnew : loop ∈ pool.mSubLoops ∧
      (pool.destructor = .idle → pool.mSubLoopStates loop = some .Running) :=
    ⟨ha.loops ▸ hmem, fun _ => ha.running (h.registry.states hidle loop hmem)⟩
  have hold : ∀ j ∈ c.early ++ c.later, j ∈ pool.mSubLoops ∧
      (pool.destructor = .idle → pool.mSubLoopStates j = some .Running) := by
    intro j hj
    obtain ⟨hjmem, hjrunning⟩ := h.running j hj
    refine ⟨ha.loops ▸ hjmem, fun _ => ?_⟩
    by_cases hne : j = loop
    -- a loop that is acquired again is running still
    · exact hne ▸ hnew.2 (ha.destructor.trans hidle)
    · rw [ha.others j hne]
      exact hjrunning hidle
  unfold PoolCalls.returned
  rw [hloop]
  by_cases hall : c.pool.AllRegistered
  · simp only [if_pos hall]
    refine ⟨hregistry, h.defined, fun j hj => ?_, fun _ => ⟨?_, ?_⟩⟩
    · rw [← List.append_assoc] at hj
      rcases List.mem_append.mp hj with hj | hj
      · exact hold j hj
      · exact List.mem_singleton.mp hj ▸ hnew
    · change pool.mSubLoops.length = pool.mMaxThreadNum
      rw [ha.loops, ha.threads]
      exact hall
    · -- the first of these calls begins the turn
      have hstart : ∃ start, Rotates c.pool.mSubLoops start c.later ∧
          c.pool.mIndex % c.pool.mSubLoops.length =
            (start + c.later.length) % c.pool.mSubLoops.length := by
        by_cases hlater : c.later = []
        · refine ⟨c.pool.mIndex, ?_, ?_⟩
          · rw [hlater]
            exact Rotates.nil
          · rw [hlater]
            rfl
        · exact (h.turn hlater).2
      obtain ⟨start, hrotates, hturn⟩ := hstart
      have hlength : c.pool.mSubLoops.length = c.pool.mMaxThreadNum := hall
      refine ⟨start, ?_, ?_⟩
      · rw [ha.loops]
        apply hrotates.concat
        rw [← hturn]
        exact hloop
      · rw [ha.loops, ha.index, succ_mod (hlength ▸ hindex hall), hturn, List.length_append,
          Nat.mod_add_mod]
        rfl
  · simp only [if_neg hall]
    have hlater : c.later = [] := by
      by_contra hlater
      exact hall (h.turn hlater).1
    refine ⟨hregistry, h.defined, fun j hj => ?_, fun hne => absurd hlater hne⟩
    rw [hlater, List.append_nil] at hj
    rcases List.mem_append.mp hj with hj | hj
    · exact hold j (List.mem_append_left _ hj)
    · exact List.mem_singleton.mp hj ▸ hnew

/-- **What fairness needs is kept** by the steps whose calls are ready. -/
theorem step_inv (h : c.Inv) (hi : c.Ready i) (hstep : c.step i = some c') : c'.Inv := by
  rcases step_cases hstep with ⟨rfl, hnone, -⟩ | ⟨rfl, pool, hpool, rfl⟩ | ⟨hi', pool, hpool, rfl⟩
  · exact absurd hnone hi.1
  · obtain ⟨loop, hloop, hfree, ha⟩ := EventLoopPool.acquireLoop_acquires h.registry.held.pos hpool
    exact h.returned (EventLoopPool.step_held h.registry.held hpool) hloop hfree ha hi.2
  · have hheld := EventLoopPool.step_held h.registry.held hpool
    by_cases hregister : ∃ j, i = .registerLoop j
    · obtain ⟨j, rfl⟩ := hregister
      simp only [EventLoopPool.step] at hpool
      split at hpool <;> cases hpool
      next hpc =>
      have hregistry := h.registry.registerLoop hheld hpc.2.2
      -- as long as a thread is starting, the calls are early
      have hlater : c.later = [] := by
        by_contra hlater
        exact h.registry.not_allRegistered hpc.1 hpc.2.2 (h.turn hlater).1
      refine ⟨hregistry, h.defined, fun k hk => ?_, fun hne => absurd hlater hne⟩
      obtain ⟨hmem, hrunning⟩ := h.running k hk
      refine ⟨List.mem_append_left _ hmem, fun hidle => ?_⟩
      have hne : k ≠ j := by
        rintro rfl
        exact h.registry.started k hmem hpc.2.2
      change update c.pool.mSubLoopStates j (some .Initialized) k = some .Running
      rw [Function.update_of_ne hne]
      exact hrunning hidle
    · have hsame := EventLoopPool.step_sameLoops (not_exists.mp hregister) hi' hpool
      refine ⟨h.registry.sameLoops hheld hsame, h.defined, fun k hk => ?_, fun hlater => ?_⟩
      · obtain ⟨hmem, hrunning⟩ := h.running k hk
        refine ⟨hsame.loops ▸ hmem, fun hidle => ?_⟩
        obtain ⟨hidle', hstates⟩ := hsame.states hidle
        rw [hstates]
        exact hrunning hidle'
      · obtain ⟨hall, start, hrotates, hturn⟩ := h.turn hlater
        refine ⟨?_, start, hsame.loops ▸ hrotates, ?_⟩
        · change pool.mSubLoops.length = pool.mMaxThreadNum
          rw [hsame.loops, hsame.threads]
          exact hall
        · rw [hsame.loops, hsame.index]
          exact hturn

/-! ### Runs -/

/-- A call that has not divided by zero has found a loop. -/
theorem hasLoop_of_defined (h : c.pool.Held) (hstep : c.step i = some c')
    (hdefined : c'.dividedByZero = false) : c.HasLoop i := by
  rcases step_cases hstep with ⟨-, -, rfl⟩ | ⟨rfl, pool, hpool, -⟩ | ⟨hi, -⟩
  · cases hdefined
  · obtain ⟨loop, hloop, -⟩ := EventLoopPool.acquireLoop_acquires h.pos hpool
    exact List.ne_nil_of_mem (EventLoopPool.nextLoop_mem hloop)
  · cases i with
    | acquireLoop => exact absurd rfl hi
    | _ => trivial

theorem step_held (h : c.pool.Held) (hstep : c.step i = some c') : c'.pool.Held := by
  rcases step_cases hstep with ⟨-, -, rfl⟩ | ⟨-, pool, hpool, rfl⟩ | ⟨-, pool, hpool, rfl⟩
  · exact h
  · rw [returned_pool]
    exact EventLoopPool.step_held h hpool
  · exact EventLoopPool.step_held h hpool

theorem step_defined (h : c.dividedByZero = false) (hi : c.HasLoop i)
    (hstep : c.step i = some c') : c'.dividedByZero = false := by
  rcases step_cases hstep with ⟨rfl, hnone, -⟩ | ⟨-, pool, -, rfl⟩ | ⟨-, pool, -, rfl⟩
  · exact absurd hnone hi
  · rw [returned_dividedByZero]
    exact h
  · exact h

/-- **The calls are defined** exactly when each of them finds a loop, and they are fair when the
index is in turn behind each of them. -/
theorem defined_iff_and_fair {maxThreadNum : ℕ} (hpos : 0 < maxThreadNum) (is : List PoolStep) :
    (Always step (fun c => c.dividedByZero = false) (create maxThreadNum) is ↔
      Along step HasLoop (create maxThreadNum) is) ∧
    (Along step Ready (create maxThreadNum) is → Always step Fair (create maxThreadNum) is) := by
  constructor
  -- that the calls are defined needs nothing of the loops but the mutex
  · exact Transition.always_iff_along (I := fun c => c.pool.Held ∧ c.dividedByZero = false)
      (fun _ h => h.2)
      (fun _ _ _ h hi hstep => ⟨step_held h.1 hstep, step_defined h.2 hi hstep⟩)
      (fun _ _ _ h hstep hdefined => hasLoop_of_defined h.1 hstep hdefined)
      ⟨EventLoopPool.create_held hpos, rfl⟩
  · exact Transition.always_of_along (fun _ h => h.fair)
      (fun _ _ _ h hi hstep => step_inv h hi hstep) (create_inv hpos)

/-- Two threads have registered their loops before the first call. -/
theorem defined_iff_and_fair_two :
    Always step Fair (create 2) [.registerLoop 1, .registerLoop 0, .acquireLoop, .acquireLoop,
      .acquireLoop] :=
  (defined_iff_and_fair (by decide) _).2 (by decide)

/-- The first client comes before the thread has registered its loop. -/
theorem not_fair : ¬ ∀ n, 0 < n → ∀ is, Always step Fair (create n) is := by
  intro h
  have hfair := h 1 (by decide) [.acquireLoop] _ _ List.prefix_rfl rfl
  cases hfair.defined

end PoolCalls

end SimpleTcp
