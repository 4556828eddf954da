import Mathlib.Data.List.Range
import SimpleTcp.Base.LogSteps

/-!
# The memory of the log

A `LogBuffer` is owned by one `unique_ptr`: by the current one, or by one in the available buffers,
in the pending ones or in those that the flush thread has taken. The buffers are numbered here in
the order in which they are allocated, and their numbers move with the pointers while the server
takes its steps.

A writer allocates a buffer when none is available and it may retire the current one, which it may
while at most `MAX_PENDING_BUFFERS` others are pending. The flush thread allocates one only while it
has taken none, so it never has more than `MAX_PENDING_BUFFERS + 2` of them.

## Main definitions

* `LogMemory`: a log server with its buffers by their numbers
* `LogMemory.step`: a step of the server, and what it does to the pointers
* `LogMemory.alive`: the buffers in all four places
* `LogMemory.Bounded`: the bounds on their number, and that each is in one place

## Main results

* `LogMemory.run_server`, `LogMemory.exists_run`: the runs are those of the server
* `LogMemory.bounded_of_run`: the bounds hold in every state of every run
-/

namespace SimpleTcp

open LogServer (MAX_PENDING_BUFFERS)

/-- The server, and the buffers that its pointers own. -/
structure LogMemory where
  server : LogServer
  current : ℕ
  available : List ℕ
  pending : List ℕ
  needFlush : List ℕ
  /-- The number of the next buffer. -/
  allocated : ℕ

namespace LogMemory

/-- The constructor allocates the current buffer. -/
def create : LogMemory where
  server := LogServer.create
  current := 0
  available := []
  pending := []
  needFlush := []
  allocated := 1

/-- `mpCurrentBuffer` is moved behind the pending buffers, and owns the last available buffer or a
new one. -/
def retire (m : LogMemory) : LogMemory :=
  { m with
    pending := m.pending ++ [m.current]
    current := m.available.getLast?.getD m.allocated
    available := m.available.dropLast
    allocated := if m.available = [] then m.allocated + 1 else m.allocated }

/-- `needFlushBuffers.swap(mvPendingBuffers)`. -/
def swap (m : LogMemory) : LogMemory := { m with pending := m.needFlush, needFlush := m.pending }

/-- The pointers, when the server takes the step. -/
def move (m : LogMemory) : LogStep → LogMemory
  | .append t =>
    match m.server.writers t with
    | .locked line =>
      if m.server.mpCurrentBuffer.writable line.length then m
      else if m.server.mvPendingBuffers.length ≤ MAX_PENDING_BUFFERS then m.retire
      else m
    | _ => m
  | .proceed =>
    match m.server.mFlushThread with
    | .woken timeout =>
      -- in the end the buffers stay where they are
      if m.server.mStopThread then m
      else if timeout ∨ m.server.mNeedFlushNow then m.retire.swap
      else m.swap
    | _ => m
  | .returnBuffers => { m with available := m.available ++ m.needFlush, needFlush := [] }
  | _ => m

/-- The server takes the step, and the pointers move with it. -/
def step (m : LogMemory) (i : LogStep) : Option LogMemory :=
  (m.server.step i).map fun server => { m.move i with server }

/-- The buffers that a pointer owns. -/
def alive (m : LogMemory) : List ℕ := m.current :: (m.available ++ (m.pending ++ m.needFlush))

/-- At most 16 buffers are alive, at most 8 are pending, and each of those that were allocated is in
exactly one place. -/
structure Bounded (m : LogMemory) : Prop where
  alive_le : m.alive.length ≤ 2 * MAX_PENDING_BUFFERS + 4
  pending_le : m.pending.length ≤ MAX_PENDING_BUFFERS + 2
  places : m.alive.Nodup ∧ ∀ b, b ∈ m.alive ↔ b < m.allocated

/-- What the steps keep. -/
structure Inv (m : LogMemory) : Prop where
  places : m.alive.Perm (List.range m.allocated)
  total : m.allocated ≤ 2 * MAX_PENDING_BUFFERS + 4
  pending : m.pending.length ≤ MAX_PENDING_BUFFERS + 1
  needFlush : m.needFlush.length ≤ MAX_PENDING_BUFFERS + 2
  idle : m.server.mFlushThread.isIdle = true → m.needFlush = []
  /-- The pointers are those of the server. -/
  lengths : m.server.mvAvailbleBuffers.length = m.available.length ∧
    m.server.mvPendingBuffers.length = m.pending.length ∧
      m.server.needFlushBuffers.length = m.needFlush.length

variable {m m' : LogMemory} {i : LogStep}

theorem step_eq_some (h : m.step i = some m') :
    ∃ server, m.server.step i = some server ∧ m' = { m.move i with server } := by
  obtain ⟨server, hserver, hm⟩ := Option.map_eq_some_iff.mp h
  exact ⟨server, hserver, hm.symm⟩

/-! ### Runs of the server -/

theorem run_server {is : List LogStep} (h : Transition.run step m is = some m') :
    Transition.run LogServer.step m.server is = some m'.server := by
  induction is generalizing m with
  | nil =>
    obtain rfl : m = m' := Option.some.inj h
    rfl
  | cons i is ih =>
    obtain ⟨m₁, hstep, hrun⟩ := Transition.run_cons_eq_some.mp h
    obtain ⟨server, hserver, rfl⟩ := step_eq_some hstep
    exact Transition.run_cons_eq_some.mpr ⟨server, hserver, ih hrun⟩

/-- Every run of the server is one with its buffers. -/
theorem exists_run {is : List LogStep} {server : LogServer}
    (h : Transition.run LogServer.step m.server is = some server) :
    ∃ m', Transition.run step m is = some m' ∧ m'.server = server := by
  induction is generalizing m with
  | nil => exact ⟨m, rfl, Option.some.inj h⟩
  | cons i is ih =>
    obtain ⟨server₁, hserver, hrun⟩ := Transition.run_cons_eq_some.mp h
    obtain ⟨m', hm', hm'server⟩ := ih (m := { m.move i with server := server₁ }) hrun
    refine ⟨m', Transition.run_cons_eq_some.mpr ⟨_, ?_, hm'⟩, hm'server⟩
    rw [step, hserver, Option.map_some]

/-! ### Moving pointers -/

/-- A retired buffer stays alive, and a new one is allocated where none is available. -/
theorem retire_alive (m : LogMemory) : m.retire.alive.Perm
    (if m.available = [] then m.alive ++ [m.allocated] else m.alive) := by
  rw [List.perm_iff_count]
  intro b
  rcases List.eq_nil_or_concat' m.available with hnone | ⟨bs, x, hsome⟩
  · simp only [alive, retire, hnone, List.getLast?_nil, Option.getD_none, List.dropLast_nil,
      if_true, List.count_cons, List.count_append, List.count_nil]
    omega
  · simp only [alive, retire, hsome, List.getLast?_concat, Option.getD_some, List.dropLast_concat,
      List.append_eq_nil_iff, List.cons_ne_self, and_false, if_false, List.count_cons,
      List.count_append, List.count_nil]
    omega

theorem length_alive (m : LogMemory) :
    m.alive.length = m.available.length + m.pending.length + m.needFlush.length + 1 := by
  simp only [alive, List.length_cons, List.length_append]
  omega

/-- The buffers are still those that were allocated. -/
theorem retire_places (h : m.alive.Perm (List.range m.allocated)) :
    m.retire.alive.Perm (List.range m.retire.allocated) := by
  refine (retire_alive m).trans ?_
  by_cases hnone : m.available = []
  · have hallocated : m.retire.allocated = m.allocated + 1 := if_pos hnone
    rw [if_pos hnone, hallocated, List.range_succ]
    exact h.append_right _
  · have hallocated : m.retire.allocated = m.allocated := if_neg hnone
    rw [if_neg hnone, hallocated]
    exact h

/-- A buffer is allocated while few enough are alive. -/
theorem retire_total (h : m.Inv)
    (hfew : m.pending.length + m.needFlush.length ≤ 2 * MAX_PENDING_BUFFERS + 2) :
    m.retire.allocated ≤ 2 * MAX_PENDING_BUFFERS + 4 := by
  by_cases hnone : m.available = []
  · have hallocated : m.retire.allocated = m.allocated + 1 := if_pos hnone
    have hlen := h.places.length_eq
    -- none is available, so all others are pending, being flushed or the current one
    rw [length_alive, List.length_range, hnone, List.length_nil] at hlen
    omega
  · have hallocated : m.retire.allocated = m.allocated := if_neg hnone
    rw [hallocated]
    exact h.total

theorem swap_alive (m : LogMemory) : m.swap.alive.Perm m.alive :=
  (List.Perm.append_left m.available (List.perm_append_comm)).cons m.current

/-! ### Steps -/

theorem create_inv : create.Inv where
  places := List.Perm.refl _
  total := by decide
  pending := Nat.zero_le _
  needFlush := Nat.zero_le _
  idle := fun _ => rfl
  lengths := ⟨rfl, rfl, rfl⟩

/-- A step that leaves the pointers alone. -/
theorem move_eq_self (happend : ∀ t, i ≠ .append t) (hproceed : i ≠ .proceed)
    (hreturned : i ≠ .returnBuffers) : m.move i = m := by
  cases i with
  | append t => exact absurd rfl (happend t)
  | proceed => exact absurd rfl hproceed
  | returnBuffers => exact absurd rfl hreturned
  | _ => rfl

/-- The lengths of the server's lists, when both retire a buffer. -/
theorem Inv.retire_lengths (h : m.Inv) :
    m.server.retire.mvAvailbleBuffers.length = m.retire.available.length ∧
      m.server.retire.mvPendingBuffers.length = m.retire.pending.length ∧
        m.server.retire.needFlushBuffers.length = m.retire.needFlush.length := by
  obtain ⟨havailable, hpending, hneedFlush⟩ := h.lengths
  refine ⟨?_, ?_, hneedFlush⟩
  · simp only [LogServer.retire, retire, List.length_dropLast, havailable]
  · simp only [LogServer.retire, retire, List.length_append, List.length_singleton, hpending]

/-- A writer retires a buffer while few are pending. -/
theorem Inv.append (h : m.Inv) {t : ℕ} {line : Bytes} (hlocked : m.server.writers t = .locked line)
    (writers : ℕ → WriterPc) :
    Inv { m.move (.append t) with server := { m.server.append line with writers := writers } } := by
  simp only [move, hlocked]
  by_cases hw : m.server.mpCurrentBuffer.writable line.length
  · have happend : m.server.append line = m.server.writeLine line := if_pos hw
    rw [if_pos hw, happend]
    exact ⟨h.places, h.total, h.pending, h.needFlush, h.idle, h.lengths⟩
  · by_cases hfew : m.server.mvPendingBuffers.length ≤ MAX_PENDING_BUFFERS
    · have happend : m.server.append line = m.server.retire.writeLine line := by
        rw [LogServer.append, if_neg hw, if_pos hfew]
      rw [if_neg hw, if_pos hfew, happend]
      rw [h.lengths.2.1] at hfew
      have hneedFlush := h.needFlush
      -- at most six were pending, and the flush thread has at most eight
      refine ⟨retire_places h.places, retire_total h (by omega), ?_, h.needFlush, h.idle,
        h.retire_lengths⟩
      simp only [retire, List.length_append, List.length_singleton]
      omega
    · have happend : m.server.append line = m.server := by
        rw [LogServer.append, if_neg hw, if_neg hfew]
      rw [if_neg hw, if_neg hfew, happend]
      exact ⟨h.places, h.total, h.pending, h.needFlush, h.idle, h.lengths⟩

/-- The flush thread retires a buffer while it has none, and takes all that are pending. -/
theorem Inv.proceed (h : m.Inv) {timeout : Bool} (hpc : m.server.mFlushThread = .woken timeout) :
    Inv { m.move .proceed with server := m.server.proceed timeout } := by
  obtain ⟨havailable, hpending, hneedFlush⟩ := h.lengths
  have hmany := h.pending
  have hnone : m.needFlush = [] := h.idle (by rw [hpc]; rfl)
  simp only [move, hpc]
  unfold LogServer.proceed
  by_cases hstop : m.server.mStopThread = true
  · rw [if_pos hstop, if_pos hstop, LogServer.finalFlush_eq]
    refine ⟨h.places, h.total, h.pending, h.needFlush, fun _ => hnone, havailable, ?_, hneedFlush⟩
    rw [List.length_map]
    exact hpending
  · rw [if_neg hstop, if_neg hstop]
    by_cases hflush : timeout = true ∨ m.server.mNeedFlushNow = true
    · rw [if_pos hflush, if_pos hflush]
      -- the flush thread has none, so it may allocate one even if seven are pending
      have hempty : m.needFlush.length = 0 := by rw [hnone]; rfl
      obtain ⟨hretired, hretiredPending, hretiredFlush⟩ := h.retire_lengths
      refine ⟨(swap_alive m.retire).trans (retire_places h.places), retire_total h (by omega), ?_,
        ?_, fun hidle => (by cases hidle), hretired, hretiredFlush, hretiredPending⟩
      · change m.needFlush.length ≤ MAX_PENDING_BUFFERS + 1
        omega
      · change (m.pending ++ [m.current]).length ≤ MAX_PENDING_BUFFERS + 2
        rw [List.length_append, List.length_singleton]
        omega
    · rw [if_neg hflush, if_neg hflush]
      refine ⟨(swap_alive m).trans h.places, h.total, ?_, hmany.trans (Nat.le_succ _),
        fun hidle => (by cases hidle), havailable, hneedFlush, hpending⟩
      change m.needFlush.length ≤ MAX_PENDING_BUFFERS + 1
      rw [hnone]
      exact Nat.zero_le _

theorem Inv.flushNext (h : m.Inv) (pos : ℕ) (b : LogBuffer) :
    Inv { m.move .flush with server := m.server.flushNext pos b } := by
  obtain ⟨havailable, hpending, hneedFlush⟩ := h.lengths
  obtain ⟨files, stream, n, -, hrotate⟩ := LogServer.rotate_eq m.server b
  unfold LogServer.flushNext
  rw [hrotate]
  refine ⟨h.places, h.total, h.pending, h.needFlush, fun hidle => (by cases hidle), havailable,
    hpending, ?_⟩
  change (m.server.needFlushBuffers.set pos LogBuffer.fresh).length = m.needFlush.length
  rw [List.length_set]
  exact hneedFlush

/-- The buffers that were flushed become available. -/
theorem returned_alive (m : LogMemory) :
    (m.move .returnBuffers).alive.Perm m.alive := by
  apply List.Perm.cons
  simp only [move, List.append_nil, List.append_assoc]
  exact List.perm_append_comm.append_left m.available

theorem step_inv (h : m.Inv) (hstep : m.step i = some m') : m'.Inv := by
  obtain ⟨server, hserver, rfl⟩ := step_eq_some hstep
  obtain ⟨havailable, hpending, hneedFlush⟩ := h.lengths
  cases LogServer.step_turn hserver with
  -- no buffer changes its place
  | idle buffers files accepted writers pc append proceed flush returned =>
    rw [move_eq_self append proceed returned]
    refine ⟨h.places, h.total, h.pending, h.needFlush, fun hidle => ?_, ?_⟩
    · rcases pc with hpc | ⟨hidle', -, -⟩
      · exact h.idle (hpc ▸ hidle)
      · exact h.idle hidle'
    · exact ⟨buffers.available ▸ havailable, buffers.pending ▸ hpending,
        buffers.needFlush ▸ hneedFlush⟩
  | append t line locked eq =>
    subst eq
    exact h.append locked _
  | proceed timeout pc eq =>
    subst eq
    exact h.proceed pc
  | flush pos b pc get eq =>
    subst eq
    exact h.flushNext pos b
  | flushed pos pc none eq =>
    subst eq
    exact ⟨h.places, h.total, h.pending, h.needFlush, fun hidle => (by cases hidle), h.lengths⟩
  -- what was flushed goes behind the available buffers
  | returned pc eq =>
    subst eq
    refine ⟨(returned_alive m).trans h.places, h.total, h.pending, Nat.zero_le _, fun _ => rfl, ?_,
      hpending, rfl⟩
    change (m.server.mvAvailbleBuffers ++ m.server.needFlushBuffers).length =
      (m.available ++ m.needFlush).length
    rw [List.length_append, List.length_append, havailable, hneedFlush]

theorem Inv.bounded (h : m.Inv) : m.Bounded where
  alive_le := by
    rw [h.places.length_eq, List.length_range]
    exact h.total
  pending_le := h.pending.trans (Nat.le_succ _)
  places := ⟨h.places.nodup_iff.mpr List.nodup_range, fun b => by
    rw [h.places.mem_iff, List.mem_range]⟩

/-- The pointers are as many as the server has buffers. -/
theorem Inv.length_server (h : m.Inv) :
    m.alive.length = (m.server.mpCurrentBuffer :: (m.server.mvAvailbleBuffers ++
      (m.server.mvPendingBuffers ++ m.server.needFlushBuffers))).length := by
  obtain ⟨havailable, hpending, hneedFlush⟩ := h.lengths
  simp only [alive, List.length_cons, List.length_append, havailable, hpending, hneedFlush]

/-! ### Runs -/

theorem inv_of_run {is : List LogStep} (hrun : Transition.run step create is = some m) : m.Inv :=
  Transition.run_invariant (fun _ _ _ h hstep => step_inv h hstep) create_inv hrun

/-- **The memory of the log is bounded** in every run, whatever the writers, the flush thread and
the clock do. -/
theorem bounded_of_run {is : List LogStep} {s : LogServer}
    (hrun : Transition.run LogServer.step LogServer.create is = some s) :
    ∃ m, Transition.run step create is = some m ∧ m.server = s ∧ m.Bounded ∧
      m.pending.length = s.mvPendingBuffers.length ∧
      m.alive.length = (s.mpCurrentBuffer :: (s.mvAvailbleBuffers ++
        (s.mvPendingBuffers ++ s.needFlushBuffers))).length := by
  obtain ⟨m, hm, rfl⟩ := exists_run (m := create) hrun
  have hinv := inv_of_run hm
  exact ⟨m, hm, rfl, hinv.bounded, hinv.lengths.2.1.symm, hinv.length_server⟩

/-- The flush thread times out and takes the only buffer. -/
theorem bounded_of_run_timeout :
    ∃ m, Transition.run step create [.test, .wake, .proceed] = some m ∧ m.Bounded ∧
      m.alive = [1, 0] := by
  have hserver : Transition.run LogServer.step LogServer.create [.test, .wake, .proceed] = some _ :=
    rfl
  obtain ⟨m, hm, -, hbounded, -⟩ := bounded_of_run hserver
  obtain rfl := Option.some.inj hm
  exact ⟨_, rfl, hbounded, rfl⟩

end LogMemory

end SimpleTcp
