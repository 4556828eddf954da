import SimpleTcp.Library.Positions
import SimpleTcp.Library.Trace
import SimpleTcp.Net.EventLoop

/-!
# Loop confinement

A loop is confined to the thread that constructed it when its check is true on that thread only,
as long as it is not destroyed, and what it is given to run is called there. The check looks at the
calling thread and not at the loop, so it is right exactly on threads that have no other loop.

## Main definitions

* `LivesOn`, `Confined`: the thread of a loop, and the traces in which every loop is confined
* `LoopSystem.OwnsNoOther`: the thread has no loop but this one
* `LoopSystem.Inv`: the pointers of the threads point to their loops
* `LoopSystem.ChecksOwn`: the calls whose checks are made where the thread has no other loop

## Main results

* `LoopSystem.step_inv`: a call that checks its own loop keeps the invariant
* `LoopSystem.confined_iff`: the runs in which every loop is confined
-/

namespace SimpleTcp

open Machine

/-! ### Confined traces -/

/-- The loop was constructed on the thread and is not destroyed. -/
def LivesOn (tr : List LoopEffect) (t : ThreadId) (L : LoopId) : Prop :=
  .constructed t L ∈ tr ∧ .destroyed L ∉ tr

/-- After the entries `pre`, a check is true if the loop lives on the thread and false if not, and
a loop calls only on its own thread. -/
def Confines (pre : List LoopEffect) : LoopEffect → Prop
  | .checked t L result => result = true ↔ LivesOn pre t L
  | .called t L => .constructed t L ∈ pre
  | _ => True

def Confined (tr : List LoopEffect) : Prop := Trace.Each Confines tr

/-- The entry neither constructs nor destroys a loop. -/
def LoopEffect.Calm : LoopEffect → Prop
  | .constructed _ _ | .destroyed _ => False
  | _ => True

theorem constructed_mem_concat {tr : List LoopEffect} {e : LoopEffect} (he : e.Calm) (t : ThreadId)
    (L : LoopId) : .constructed t L ∈ tr ++ [e] ↔ .constructed t L ∈ tr := by
  refine ⟨fun h => ?_, List.mem_append_left _⟩
  rcases List.mem_append.mp h with h | h
  · exact h
  · rw [← List.mem_singleton.mp h] at he
    exact he.elim

theorem destroyed_mem_concat {tr : List LoopEffect} {e : LoopEffect} (he : e.Calm) (L : LoopId) :
    .destroyed L ∈ tr ++ [e] ↔ .destroyed L ∈ tr := by
  refine ⟨fun h => ?_, List.mem_append_left _⟩
  rcases List.mem_append.mp h with h | h
  · exact h
  · rw [← List.mem_singleton.mp h] at he
    exact he.elim

theorem livesOn_concat {tr : List LoopEffect} {e : LoopEffect} (he : e.Calm) (t : ThreadId)
    (L : LoopId) : LivesOn (tr ++ [e]) t L ↔ LivesOn tr t L := by
  rw [LivesOn, LivesOn, constructed_mem_concat he, destroyed_mem_concat he]

namespace LoopSystem

variable {s : LoopSystem} {t : ThreadId} {L : LoopId}

/-- The thread has no loop but this one. -/
def OwnsNoOther (s : LoopSystem) (t : ThreadId) (L : LoopId) : Prop :=
  ∀ M, LivesOn s.trace t M → M = L

/-- Each thread points to the loop that lives on it, and a loop that is started runs on its own
thread. The accept of a server is never queued. -/
structure Inv (s : LoopSystem) : Prop where
  confined : Confined s.trace
  current : ∀ t L, s.tCurrentLoop t = some L ↔ LivesOn s.trace t L
  owner : ∀ t t' L, .constructed t L ∈ s.trace → .constructed t' L ∈ s.trace → t = t'
  constructed : ∀ t L, .constructed t L ∈ s.trace → L < s.loops.length
  destroyed : ∀ L, .destroyed L ∈ s.trace → L < s.loops.length
  thread : ∀ (L : LoopId) (loop : EventLoop) t, s.loops[L]? = some (some loop) →
    loop.thread = some t → LivesOn s.trace t L
  tasks : ∀ (L : LoopId) (loop : EventLoop), s.loops[L]? = some (some loop) →
    ∀ main, .createNewConnectionInSubLoop main ∉ loop.mPendingTasks

theorem start_inv : start.Inv where
  confined := Trace.each_nil
  current := fun t L => by simp [start, LivesOn]
  owner := fun t t' L h => by simp [start] at h
  constructed := fun t L h => by simp [start] at h
  destroyed := fun L h => by simp [start] at h
  thread := fun L loop t h => by simp [start] at h
  tasks := fun L loop h => by simp [start] at h

/-! ### Checks -/

/-- The invariant, with a thread that has no loop. -/
def Off (t : ThreadId) (s : LoopSystem) : Prop := s.Inv ∧ s.tCurrentLoop t = none

/-- The invariant, with a thread whose loop is `L`. -/
def On (t : ThreadId) (L : LoopId) (s : LoopSystem) : Prop := s.Inv ∧ s.tCurrentLoop t = some L

/-- A thread with no other loop has this one or none. -/
theorem Inv.off_or_on (h : s.Inv) (hown : s.OwnsNoOther t L) : Off t s ∨ On t L s := by
  cases hc : s.tCurrentLoop t with
  | none => exact .inl ⟨h, hc⟩
  | some M =>
    obtain rfl := hown M ((h.current t M).mp hc)
    exact .inr ⟨h, hc⟩

/-- An entry that may come now. -/
theorem Inv.effect (h : s.Inv) {e : LoopEffect} (he : e.Calm) (hconf : Confines s.trace e) :
    Inv { s with trace := s.trace ++ [e] } where
  confined := Trace.each_concat.mpr ⟨h.confined, hconf⟩
  current := fun t L => (h.current t L).trans (livesOn_concat he t L).symm
  owner := by
    intro t t' L
    change _ ∈ s.trace ++ [e] → _ ∈ s.trace ++ [e] → _
    rw [constructed_mem_concat he, constructed_mem_concat he]
    exact h.owner t t' L
  constructed := by
    intro t L
    change _ ∈ s.trace ++ [e] → _
    rw [constructed_mem_concat he]
    exact h.constructed t L
  destroyed := by
    intro L
    change _ ∈ s.trace ++ [e] → _
    rw [destroyed_mem_concat he]
    exact h.destroyed L
  thread := fun L loop t hl ht => (livesOn_concat he t L).mpr (h.thread L loop t hl ht)
  tasks := h.tasks

/-- A thread that has no loop is in no loop's thread. -/
theorem run_isInLoopThread_off (h : s.tCurrentLoop t = none) (L : LoopId) :
    (isInLoopThread t L).run s =
      .ok false { s with trace := s.trace ++ [.checked t L false] } := by
  simp [isInLoopThread, EStateM.run_bind, EStateM.run_get, effect, h]

/-- A thread that has a loop is in the thread of every loop. -/
theorem run_isInLoopThread_on {M : LoopId} (h : s.tCurrentLoop t = some M) (L : LoopId) :
    (isInLoopThread t L).run s =
      .ok true { s with trace := s.trace ++ [.checked t L true] } := by
  simp [isInLoopThread, EStateM.run_bind, EStateM.run_get, effect, h]

theorem Off.checked (h : Off t s) (L : LoopId) :
    Off t { s with trace := s.trace ++ [.checked t L false] } := by
  refine ⟨h.1.effect trivial ?_, h.2⟩
  have hnot : ¬ LivesOn s.trace t L := by
    rw [← h.1.current, h.2]
    simp
  simp [Confines, hnot]

theorem On.checked (h : On t L s) :
    On t L { s with trace := s.trace ++ [.checked t L true] } := by
  refine ⟨h.1.effect trivial ?_, h.2⟩
  have hlives : LivesOn s.trace t L := (h.1.current t L).mp h.2
  simp [Confines, hlives]

theorem On.called (h : On t L s) : On t L { s with trace := s.trace ++ [.called t L] } :=
  ⟨h.1.effect trivial ((h.1.current t L).mp h.2).1, h.2⟩

theorem keeps_assertInLoopThread {I : LoopSystem → Prop} (h : Keeps I (isInLoopThread t L)) :
    Keeps I (assertInLoopThread t L) :=
  .bind h fun _ => .ite (fun _ => .pure _) fun _ => .throw _

theorem keeps_off (L : LoopId) : Keeps (Off t) (assertInLoopThread t L) :=
  keeps_assertInLoopThread fun s h => by
    rw [run_isInLoopThread_off h.2]
    exact h.checked L

theorem keeps_on : Keeps (On t L) (assertInLoopThread t L) :=
  keeps_assertInLoopThread fun s h => by
    rw [run_isInLoopThread_on h.2]
    exact h.checked

/-- A thread that has no loop fails every check. -/
theorem run_assertInLoopThread_off (h : s.tCurrentLoop t = none) (L : LoopId) :
    (assertInLoopThread t L).run s =
      .error .fatal { s with trace := s.trace ++ [.checked t L false] } := by
  simp [assertInLoopThread, EStateM.run_bind, run_isInLoopThread_off h, assertTrue_neg]

/-- A thread that has a loop passes every check. -/
theorem run_assertInLoopThread_on {M : LoopId} (h : s.tCurrentLoop t = some M) (L : LoopId) :
    (assertInLoopThread t L).run s =
      .ok () { s with trace := s.trace ++ [.checked t L true] } := by
  simp [assertInLoopThread, EStateM.run_bind, run_isInLoopThread_on h, assertTrue_pos]

/-! ### Tasks -/

/-- The task checks no loop but the one it is called in. -/
def Own (L : LoopId) : LoopTask → Prop
  | .createNewConnectionInSubLoop main => main = L
  | _ => True

theorem keeps_call {task : LoopTask} (htask : Own L task) : Keeps (On t L) (call t L task) := by
  refine .bind (.modify fun _ h => h.called) fun _ => ?_
  cases task with
  | functor => exact .pure _
  | sendInLoop => exact keeps_on
  | createNewConnectionInSubLoop main =>
    obtain rfl : main = L := htask
    exact .bind keeps_on fun _ => keeps_on

theorem run_getLoop {loop : EventLoop} (h : s.loops[L]? = some (some loop)) :
    (getLoop L).run s = .ok loop s := by
  simp [getLoop, EStateM.run_bind, EStateM.run_get, h]

/-- The loop of the position keeps its thread, or is started on its own thread. -/
theorem Inv.setLoop (h : s.Inv) {loop : EventLoop}
    (hthread : ∀ t, loop.thread = some t → LivesOn s.trace t L)
    (htasks : ∀ main, .createNewConnectionInSubLoop main ∉ loop.mPendingTasks) :
    Inv { s with loops := s.loops.set L (some loop) } := by
  refine ⟨h.confined, h.current, h.owner, ?_, ?_, ?_, ?_⟩
  · intro t M hM
    simpa using h.constructed t M hM
  · intro M hM
    simpa using h.destroyed M hM
  · intro M loop' t hM ht
    rcases Positions.get_set_iff.mp hM with ⟨rfl, hloop, -⟩ | ⟨-, hM⟩
    · obtain rfl := Option.some.inj hloop
      exact hthread t ht
    · exact h.thread M loop' t hM ht
  · intro M loop' hM
    rcases Positions.get_set_iff.mp hM with ⟨rfl, hloop, -⟩ | ⟨-, hM⟩
    · obtain rfl := Option.some.inj hloop
      exact htasks
    · exact h.tasks M loop' hM

theorem keeps_queueInLoop {task : LoopTask}
    (htask : ∀ main, task ≠ .createNewConnectionInSubLoop main) (L : LoopId) :
    Keeps Inv (queueInLoop L task) := by
  intro s h
  cases hl : s.loops[L]?.join with
  | none =>
    have hrun : (queueInLoop L task).run s = .error .danglingPointer s := by
      rcases Option.join_eq_none_iff.mp hl with hl | hl <;>
        simp [queueInLoop, getLoop, EStateM.run_bind, EStateM.run_get, hl]
    rw [hrun]
    exact h
  | some loop =>
    have hl := Option.join_eq_some_iff.mp hl
    have hrun : (queueInLoop L task).run s = .ok () { s with
        loops :=
          s.loops.set L (some { loop with mPendingTasks := loop.mPendingTasks ++ [task] }) } := by
      rw [queueInLoop, EStateM.run_bind, run_getLoop hl]
      rfl
    rw [hrun]
    refine h.setLoop (h.thread L loop · hl) fun main hmem => ?_
    rcases List.mem_append.mp hmem with hmem | hmem
    · exact h.tasks L loop hl main hmem
    · exact htask main (List.mem_singleton.mp hmem).symm

/-- `runInLoop` on a thread that has no other loop. -/
theorem inv_runInLoop (h : s.Inv) (hown : s.OwnsNoOther t L) {task : LoopTask}
    (htask : ∀ main, task ≠ .createNewConnectionInSubLoop main) :
    (final ((runInLoop t L task).run s)).Inv := by
  have hcall : Own L task := by
    cases task with
    | createNewConnectionInSubLoop main => exact absurd rfl (htask main)
    | _ => trivial
  rw [runInLoop, EStateM.run_bind]
  rcases h.off_or_on hown with hoff | hon
  · rw [run_isInLoopThread_off hoff.2]
    exact keeps_queueInLoop htask L _ (hoff.checked L).1
  · rw [run_isInLoopThread_on hon.2]
    exact (keeps_call hcall _ hon.checked).1

/-! ### Calls -/

/-- The calls whose checks are made on a thread that has no loop but the one that is checked. -/
def ChecksOwn (s : LoopSystem) : LoopEvent → Prop
  | .destroy t L | .runInLoop t L | .send t L | .startLoop t L => s.Alive L → s.OwnsNoOther t L
  | .isInLoopThread t L | .assertInLoopThread t L => s.Known L → s.OwnsNoOther t L
  | .createNewConnection t main newLoop => s.Alive main ∧ (∀ L ∈ newLoop, s.Alive L) →
      s.OwnsNoOther t main ∧ ∀ L ∈ newLoop, s.OwnsNoOther t L
  | .construct _ _ | .queueInLoop _ | .doPendingTask _ => True

/-- A thread without a loop has constructed one. -/
theorem inv_constructed (h : Off t s) :
    Inv { s with
      tCurrentLoop := Function.update s.tCurrentLoop t (some s.loops.length)
      loops := s.loops ++ [some ⟨none, []⟩]
      trace := s.trace ++ [.constructed t s.loops.length] } := by
  obtain ⟨h, hoff⟩ := h
  -- The position of the new loop is past every one the trace speaks of.
  have hnew : ∀ u, .constructed u s.loops.length ∉ s.trace :=
    fun u hu => absurd (h.constructed u _ hu) (lt_irrefl _)
  have hnew' : .destroyed s.loops.length ∉ s.trace :=
    fun hd => absurd (h.destroyed _ hd) (lt_irrefl _)
  -- The constructor asserts that the thread had no loop.
  have hnone : ∀ M, ¬ LivesOn s.trace t M := fun M hM => by
    rw [← h.current, hoff] at hM
    cases hM
  have hmem : ∀ u M, .constructed u M ∈ s.trace ++ [.constructed t s.loops.length] ↔
      .constructed u M ∈ s.trace ∨ u = t ∧ M = s.loops.length := by simp
  have hlives : ∀ u M, LivesOn (s.trace ++ [.constructed t s.loops.length]) u M ↔
      LivesOn s.trace u M ∨ u = t ∧ M = s.loops.length := by
    intro u M
    simp only [LivesOn, hmem]
    constructor
    · rintro ⟨hc | hc, hd⟩
      · exact .inl ⟨hc, fun hd' => hd (List.mem_append_left _ hd')⟩
      · exact .inr hc
    · rintro (⟨hc, hd⟩ | ⟨rfl, rfl⟩)
      · exact ⟨.inl hc, by simpa using hd⟩
      · exact ⟨.inr ⟨rfl, rfl⟩, by simpa using hnew'⟩
  refine ⟨Trace.each_concat.mpr ⟨h.confined, trivial⟩, ?_, ?_, ?_, ?_, ?_, ?_⟩
  · intro u M
    rw [hlives]
    by_cases hu : u = t
    · subst hu
      simp [hnone, eq_comm]
    · simp [hu, h.current]
  · intro u u' M hu hu'
    rcases (hmem u M).mp hu with hu | ⟨hu, hM⟩ <;>
      rcases (hmem u' M).mp hu' with hu' | ⟨hu', hM'⟩
    · exact h.owner u u' M hu hu'
    -- one of the two is the new construction, the other is old: not of the same position
    · exact absurd (hM' ▸ hu) (hnew u)
    · exact absurd (hM ▸ hu') (hnew u')
    · exact hu.trans hu'.symm
  · intro u M hu
    change M < (s.loops ++ _).length
    rw [List.length_append, List.length_singleton]
    rcases (hmem u M).mp hu with hu | ⟨-, rfl⟩
    · exact Nat.lt_succ_of_lt (h.constructed u M hu)
    · exact Nat.lt_succ_self _
  · intro M hd
    change M < (s.loops ++ _).length
    rw [List.length_append, List.length_singleton]
    exact Nat.lt_succ_of_lt (h.destroyed M (by simpa using hd))
  · intro M loop u hM hu
    rcases Positions.get_concat_iff.mp hM with hM | ⟨-, hloop⟩
    · exact (hlives u M).mpr (.inl (h.thread M loop u hM hu))
    · -- the new loop is not started
      obtain rfl := Option.some.inj hloop
      cases hu
  · intro M loop hM
    rcases Positions.get_concat_iff.mp hM with hM | ⟨-, hloop⟩
    · exact h.tasks M loop hM
    · obtain rfl := Option.some.inj hloop
      exact fun main => List.not_mem_nil

theorem inv_construct (h : s.Inv) (result : ConstructResult) :
    (final ((step (.construct t result)).run s)).Inv := by
  cases hc : s.tCurrentLoop t with
  | some M =>
    -- the thread has a loop, which the constructor asserts it has not
    have hrun : (step (.construct t result)).run s = .error .fatal s := by
      simp [step, construct, EStateM.run_bind, EStateM.run_get, hc, assertTrue_neg]
    rw [hrun]
    exact h
  | none =>
    -- a constructor that fails leaves the thread without a loop
    have hupdate : Function.update s.tCurrentLoop t none = s.tCurrentLoop := by
      rw [← hc, Function.update_eq_self]
    cases result with
    | built =>
      have hrun : (step (.construct t .built)).run s = .ok () { s with
          tCurrentLoop := Function.update s.tCurrentLoop t (some s.loops.length)
          loops := s.loops ++ [some ⟨none, []⟩]
          trace := s.trace ++ [.constructed t s.loops.length] } := by
        simp [step, construct, EStateM.run_bind, EStateM.run_get, hc, assertTrue_pos,
          setCurrentLoop, effect]
      rw [hrun]
      exact inv_constructed ⟨h, hc⟩
    | failed errno =>
      have hrun : (step (.construct t (.failed errno))).run s = .ok () s := by
        simp [step, construct, EStateM.run_bind, EStateM.run_get, hc, assertTrue_pos,
          setCurrentLoop, hupdate]
      rw [hrun]
      exact h
    | enableReadFailed errno =>
      have hrun : (step (.construct t (.enableReadFailed errno))).run s = .error .fatal
          { s with trace := s.trace ++ [.checked t s.loops.length false] } := by
        simp [step, construct, EStateM.run_bind, EStateM.run_get, hc, assertTrue_pos,
          setCurrentLoop, hupdate, run_assertInLoopThread_off hc]
      rw [hrun]
      exact (Off.checked ⟨h, hc⟩ s.loops.length).1

/-- The loop of the thread is destroyed. -/
theorem inv_destroyed (h : On t L s) :
    Inv { s with
      tCurrentLoop := Function.update s.tCurrentLoop t none
      loops := s.loops.set L none
      trace := s.trace ++ [.destroyed L] } := by
  obtain ⟨h, hon⟩ := h
  have hL : LivesOn s.trace t L := (h.current t L).mp hon
  -- Every loop but this one lives on where it did.
  have hlives : ∀ u M, LivesOn (s.trace ++ [.destroyed L]) u M ↔ LivesOn s.trace u M ∧ M ≠ L := by
    intro u M
    simp [LivesOn, and_assoc]
  have hget : ∀ (M : LoopId) (loop : EventLoop), (s.loops.set L none)[M]? = some (some loop) →
      s.loops[M]? = some (some loop) ∧ M ≠ L := by
    intro M loop hM
    rcases Positions.get_set_iff.mp hM with ⟨-, hloop, -⟩ | ⟨hML, hM⟩
    · cases hloop
    · exact ⟨hM, hML⟩
  refine ⟨Trace.each_concat.mpr ⟨h.confined, trivial⟩, ?_, ?_, ?_, ?_, ?_, ?_⟩
  · intro u M
    rw [hlives]
    by_cases hu : u = t
    · subst hu
      simp only [Function.update_self, reduceCtorEq, false_iff, not_and, ne_eq, not_not]
      intro hM
      rw [← h.current, hon] at hM
      exact (Option.some.inj hM).symm
    · -- another thread cannot have had this loop
      simp only [Function.update_of_ne hu, h.current]
      refine (and_iff_left_of_imp fun hM hML => hu ?_).symm
      subst hML
      exact h.owner u t M hM.1 hL.1
  · intro u u' M hu hu'
    exact h.owner u u' M (by simpa using hu) (by simpa using hu')
  · intro u M hu
    simpa using h.constructed u M (by simpa using hu)
  · intro M hd
    change M < (s.loops.set L none).length
    rw [List.length_set]
    rcases List.mem_append.mp hd with hd | hd
    · exact h.destroyed M hd
    · obtain rfl : M = L := by simpa using hd
      exact h.constructed t M hL.1
  · intro M loop u hM hu
    obtain ⟨hM, hML⟩ := hget M loop hM
    exact (hlives u M).mpr ⟨h.thread M loop u hM hu, hML⟩
  · intro M loop hM
    exact h.tasks M loop (hget M loop hM).1

/-- What follows a check that has passed. -/
theorem inv_asserted (h : s.Inv) (hown : s.OwnsNoOther t L) {x : LoopM Unit}
    (hx : ∀ s, On t L s → (final (x.run s)).Inv) :
    (final ((do assertInLoopThread t L; x).run s)).Inv := by
  rw [EStateM.run_bind]
  rcases h.off_or_on hown with hoff | hon
  · rw [run_assertInLoopThread_off hoff.2]
    exact (hoff.checked L).1
  · rw [run_assertInLoopThread_on hon.2]
    exact hx _ hon.checked

theorem inv_startLoop (h : s.Inv) (hown : s.OwnsNoOther t L) :
    (final ((startLoop t L).run s)).Inv := by
  refine inv_asserted h hown fun s hs => ?_
  cases hl : s.loops[L]?.join with
  | none =>
    have hrun : (do setLoop L { ← getLoop L with thread := some t }).run s =
        .error .danglingPointer s := by
      rcases Option.join_eq_none_iff.mp hl with hl | hl <;>
        simp [getLoop, EStateM.run_bind, EStateM.run_get, hl]
    rw [hrun]
    exact hs.1
  | some loop =>
    have hl := Option.join_eq_some_iff.mp hl
    rw [EStateM.run_bind, run_getLoop hl]
    refine hs.1.setLoop (fun u hu => ?_) (hs.1.tasks L loop hl)
    obtain rfl := Option.some.inj hu
    exact (hs.1.current t L).mp hs.2

theorem inv_doPendingTask (h : s.Inv) : (final ((doPendingTask L).run s)).Inv := by
  cases hl : s.loops[L]?.join with
  | none =>
    -- the loop is gone
    have hrun : (doPendingTask L).run s = .error .danglingPointer s := by
      rcases Option.join_eq_none_iff.mp hl with hl | hl <;>
        simp [doPendingTask, getLoop, EStateM.run_bind, EStateM.run_get, hl]
    rw [hrun]
    exact h
  | some loop =>
    have hl := Option.join_eq_some_iff.mp hl
    cases hthread : loop.thread with
    | none =>
      -- nobody runs the loop
      have hrun : (doPendingTask L).run s = .ok () s := by
        simp [doPendingTask, EStateM.run_bind, run_getLoop hl, hthread]
      rw [hrun]
      exact h
    | some t =>
      cases htasks : loop.mPendingTasks with
      | nil =>
        have hrun : (doPendingTask L).run s = .ok () s := by
          simp [doPendingTask, EStateM.run_bind, run_getLoop hl, hthread, htasks]
        rw [hrun]
        exact h
      | cons task tasks =>
        have hrun : (doPendingTask L).run s = (call t L task).run
            { s with loops := s.loops.set L (some { loop with mPendingTasks := tasks }) } := by
          simp [doPendingTask, EStateM.run_bind, run_getLoop hl, hthread, htasks, setLoop]
        -- the task leaves the queue and is called in the thread of the loop
        have hset : Inv
            { s with loops := s.loops.set L (some { loop with mPendingTasks := tasks }) } := by
          refine h.setLoop (h.thread L loop · hl) fun main hmem => ?_
          exact h.tasks L loop hl main (htasks ▸ List.mem_cons_of_mem _ hmem)
        -- an accept is never queued
        have hcall : Own L task := by
          cases task with
          | createNewConnectionInSubLoop main =>
            exact absurd (htasks ▸ List.mem_cons_self) (h.tasks L loop hl main)
          | _ => trivial
        have hon := (h.current t L).mpr (h.thread L loop t hl hthread)
        rw [hrun]
        exact (keeps_call hcall _ ⟨hset, hon⟩).1

theorem run_runInLoop_on {M : LoopId} (hc : s.tCurrentLoop t = some M) (task : LoopTask) :
    (runInLoop t L task).run s =
      (call t L task).run { s with trace := s.trace ++ [.checked t L true] } := by
  simp [runInLoop, EStateM.run_bind, run_isInLoopThread_on hc]

/-- The accept of a server whose thread has no other loop is called in that loop. -/
theorem inv_createNewConnection (h : s.Inv) {main : LoopId} {newLoop : Option LoopId}
    (hown : s.OwnsNoOther t main) (hnew : ∀ L ∈ newLoop, s.OwnsNoOther t L) :
    (final ((createNewConnection t main newLoop).run s)).Inv := by
  rw [createNewConnection.eq_def, EStateM.run_bind]
  rcases h.off_or_on hown with hoff | hon
  · rw [run_assertInLoopThread_off hoff.2]
    exact (hoff.checked main).1
  · have hcall : Own main (.createNewConnectionInSubLoop main) := rfl
    rw [run_assertInLoopThread_on hon.2]
    cases newLoop with
    | none => exact (keeps_call hcall _ hon.checked).1
    | some L =>
      obtain rfl : main = L := hnew L rfl main ((h.current t main).mp hon.2)
      change (final ((runInLoop t main _).run _)).Inv
      rw [run_runInLoop_on hon.checked.2]
      exact (keeps_call hcall _ hon.checked.checked).1

/-- **A call whose checks are made on a thread that has no other loop keeps the invariant.** -/
theorem step_inv (h : s.Inv) {i : LoopEvent} (hi : s.ChecksOwn i) :
    (final ((step i).run s)).Inv := by
  -- a call on a loop that is not there does nothing
  have hguard : ∀ {c : Prop} [Decidable c] {x : LoopM Unit},
      (c → (final (x.run s)).Inv) →
        (final ((if c then x else pure () : LoopM Unit).run s)).Inv := by
    intro c _ x hx
    split
    · exact hx ‹_›
    · exact h
  -- the check is made on the thread of the loop, or on one without a loop
  have hassert : ∀ {L : LoopId} {t : ThreadId}, s.OwnsNoOther t L →
      (final ((assertInLoopThread t L).run s)).Inv := by
    intro L t hown
    rcases h.off_or_on hown with hoff | hon
    · exact (keeps_off L s hoff).1
    · exact (keeps_on s hon).1
  cases i with
  | construct t result => exact inv_construct h result
  | destroy t L =>
    refine hguard fun hl => inv_asserted h (hi hl) fun s hs => ?_
    exact inv_destroyed hs
  | isInLoopThread t L =>
    refine hguard fun hl => ?_
    rw [EStateM.run_bind]
    rcases h.off_or_on (hi hl) with hoff | hon
    · rw [run_isInLoopThread_off hoff.2]
      exact (hoff.checked L).1
    · rw [run_isInLoopThread_on hon.2]
      exact hon.checked.1
  | assertInLoopThread t L => exact hguard fun hl => hassert (hi hl)
  | queueInLoop L => exact hguard fun _ => keeps_queueInLoop (by simp) L s h
  | runInLoop t L => exact hguard fun hl => inv_runInLoop h (hi hl) (by simp)
  | send t L => exact hguard fun hl => inv_runInLoop h (hi hl) (by simp)
  | createNewConnection t main newLoop =>
    refine hguard fun hl => ?_
    exact inv_createNewConnection h (hi hl).1 (hi hl).2
  | startLoop t L => exact hguard fun hl => inv_startLoop h (hi hl)
  | doPendingTask L => exact hguard fun _ => inv_doPendingTask h

/-! ### Checks on the wrong thread -/

/-- The trace only grows. -/
def Extends {α : Type} (x : LoopM α) : Prop := ∀ tr, Keeps (fun s => tr <+: s.trace) x

theorem extends_isInLoopThread (t : ThreadId) (L : LoopId) : Extends (isInLoopThread t L) :=
  fun _ _ h => h.trans (List.prefix_append _ _)

theorem extends_assertInLoopThread (t : ThreadId) (L : LoopId) :
    Extends (assertInLoopThread t L) :=
  fun tr => keeps_assertInLoopThread (extends_isInLoopThread t L tr)

theorem extends_call (t : ThreadId) (L : LoopId) (task : LoopTask) : Extends (call t L task) := by
  intro tr
  refine .bind (.modify fun _ h => h.trans (List.prefix_append _ _)) fun _ => ?_
  cases task with
  | functor => exact .pure _
  | sendInLoop => exact extends_assertInLoopThread _ _ tr
  | createNewConnectionInSubLoop main =>
    exact .bind (extends_assertInLoopThread _ _ tr) fun _ => extends_assertInLoopThread _ _ tr

theorem extends_startLoop (t : ThreadId) (L : LoopId) :
    Extends (do setLoop L { ← getLoop L with thread := some t }) := by
  intro tr
  refine .bind (.bind .get fun s => ?_) fun loop => .modify fun _ h => h
  split
  · exact .pure _
  · exact .throw _

/-- A check on a thread with another loop is true, and the trace is not confined. -/
theorem not_confined_of_checked (h : s.Inv) (hown : ¬ s.OwnsNoOther t L) {tr : List LoopEffect}
    (hpre : s.trace ++ [.checked t L true] <+: tr) : ¬ Confined tr := by
  obtain ⟨M, hM⟩ := not_forall.mp hown
  obtain ⟨hlives, hne⟩ := Classical.not_imp.mp hM
  obtain ⟨post, rfl⟩ := hpre
  intro hconf
  have hconfines : Confines s.trace (.checked t L true) := hconf _ _ post (by simp)
  have hL : LivesOn s.trace t L := hconfines.mp rfl
  have hcurrent := (h.current t M).mpr hlives
  rw [(h.current t L).mpr hL] at hcurrent
  exact hne (Option.some.inj hcurrent).symm

/-- A thread with another loop has a loop. -/
theorem Inv.current_of_not_ownsNoOther (h : s.Inv) (hown : ¬ s.OwnsNoOther t L) :
    ∃ M, s.tCurrentLoop t = some M := by
  obtain ⟨M, hM⟩ := not_forall.mp hown
  exact ⟨M, (h.current t M).mpr (Classical.not_imp.mp hM).1⟩

theorem ownsNoOther_of_asserted (h : s.Inv) {x : LoopM Unit} (hx : Extends x)
    (hconf : Confined (final ((do assertInLoopThread t L; x).run s)).trace) :
    s.OwnsNoOther t L := by
  by_contra hown
  obtain ⟨M, hM⟩ := h.current_of_not_ownsNoOther hown
  refine not_confined_of_checked h hown ?_ hconf
  rw [EStateM.run_bind, run_assertInLoopThread_on hM]
  exact hx _ _ (List.prefix_refl _)

theorem ownsNoOther_of_runInLoop (h : s.Inv) {task : LoopTask}
    (hconf : Confined (final ((runInLoop t L task).run s)).trace) : s.OwnsNoOther t L := by
  by_contra hown
  obtain ⟨M, hM⟩ := h.current_of_not_ownsNoOther hown
  refine not_confined_of_checked h hown ?_ hconf
  rw [run_runInLoop_on hM]
  exact extends_call t L task _ _ (List.prefix_refl _)

theorem ownsNoOther_of_createNewConnection (h : s.Inv) {main : LoopId} {newLoop : Option LoopId}
    (hconf : Confined (final ((createNewConnection t main newLoop).run s)).trace) :
    s.OwnsNoOther t main ∧ ∀ L ∈ newLoop, s.OwnsNoOther t L := by
  have hmain : s.OwnsNoOther t main := by
    refine ownsNoOther_of_asserted h (fun tr => ?_) hconf
    cases newLoop with
    | none => exact extends_call _ _ _ tr
    | some L =>
      refine .bind (extends_isInLoopThread _ _ tr) fun b => .ite (fun _ => extends_call _ _ _ tr) ?_
      refine fun _ => .bind (.bind .get fun s => ?_) fun loop => .modify fun _ h => h
      split
      · exact .pure _
      · exact .throw _
  refine ⟨hmain, fun L hL => ?_⟩
  obtain rfl : newLoop = some L := hL
  by_contra hown
  obtain ⟨M, hM⟩ := h.current_of_not_ownsNoOther hown
  have hon : On t main s := (h.off_or_on hmain).resolve_left fun hoff => by
    rw [hoff.2] at hM
    cases hM
  rw [createNewConnection.eq_def, EStateM.run_bind, run_assertInLoopThread_on hon.2] at hconf
  refine hown fun N hN => ownsNoOther_of_runInLoop hon.checked.1 hconf N ?_
  exact (livesOn_concat (by trivial) t N).mpr hN

/-- A call that keeps every loop confined checks its own loop. -/
theorem checksOwn_of_confined (h : s.Inv) {i : LoopEvent}
    (hi : Confined (final ((step i).run s)).trace) : s.ChecksOwn i := by
  have hguard : ∀ {c : Prop} [Decidable c] {x : LoopM Unit},
      Confined (final ((if c then x else pure () : LoopM Unit).run s)).trace →
        c → Confined (final (x.run s)).trace := by
    intro c _ x hconf hc
    rwa [if_pos hc] at hconf
  cases i with
  | destroy t L =>
    refine fun hl => ownsNoOther_of_asserted h (fun tr => ?_) (hguard hi hl)
    refine .bind (.modify fun _ h => h) fun _ => .bind (.modify fun _ h => h) fun _ => ?_
    exact .modify fun _ h => h.trans (List.prefix_append _ _)
  | isInLoopThread t L =>
    intro hl
    by_contra hown
    -- a check on a thread with another loop is what the trace would show
    obtain ⟨M, hM⟩ := h.current_of_not_ownsNoOther hown
    refine not_confined_of_checked h hown (List.prefix_refl _) ?_
    have hconf := hguard hi hl
    rwa [EStateM.run_bind, run_isInLoopThread_on hM] at hconf
  | assertInLoopThread t L =>
    intro hl
    by_contra hown
    obtain ⟨M, hM⟩ := h.current_of_not_ownsNoOther hown
    refine not_confined_of_checked h hown (List.prefix_refl _) ?_
    have hconf := hguard hi hl
    rwa [run_assertInLoopThread_on hM] at hconf
  | runInLoop t L => exact fun hl => ownsNoOther_of_runInLoop h (hguard hi hl)
  | send t L => exact fun hl => ownsNoOther_of_runInLoop h (hguard hi hl)
  | createNewConnection t main newLoop =>
    exact fun hl => ownsNoOther_of_createNewConnection h (hguard hi hl)
  | startLoop t L =>
    exact fun hl => ownsNoOther_of_asserted h (extends_startLoop t L) (hguard hi hl)
  | _ => trivial

/-- **Every loop is confined to its thread** in the runs whose checks are made on threads that have
no other loop, and in no others. -/
theorem confined_iff (is : List LoopEvent) :
    Always step (fun r => Confined (final r).trace) start is ↔ Along step ChecksOwn start is := by
  refine always_iff_along (I := Inv) (fun s h => h.confined) ?_ ?_ ?_ start_inv
  · intro s i s' h hi hrun
    have hinv := step_inv h hi
    rwa [hrun] at hinv
  · intro s i e s' h hi hrun
    have hinv := step_inv h hi
    rw [hrun] at hinv
    exact hinv.confined
  · intro s i h hi
    exact checksOwn_of_confined h hi

/-- A server gives a connection to a loop of its pool, and accepts it in its own thread. -/
theorem not_confined_createNewConnection :
    ¬ ∀ is : List LoopEvent, Always step (fun r => Confined (final r).trace) start is := by
  intro h
  have hlast := h [.construct 0 .built, .construct 1 .built, .createNewConnection 0 0 (some 1)] _
    (List.prefix_refl _)
  have hcalled : Confines [.constructed 0 0, .constructed 1 1, .checked 0 0 true, .checked 0 1 true]
      (.called 0 1) := hlast _ _ [.checked 0 1 true, .checked 0 0 true] (by decide +kernel)
  exact absurd (show _ ∈ _ from hcalled) (by decide)

end LoopSystem

end SimpleTcp
