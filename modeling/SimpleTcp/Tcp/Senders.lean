import SimpleTcp.Net.LoopCycle
import SimpleTcp.Tcp.Connection

/-!
# Concurrent senders

Any number of threads send on one connection. A thread other than that of the loop copies or moves
its data into a task and queues it; the thread of the loop calls `sendInLoop` directly, between two
tasks, in a task, or in the high-water-mark callback of a send that a task has made. The data is in
containers of the callers, which they may overwrite as soon as a call has returned.

The threads own no other loop, so that `isInLoopThread` tells them from the thread of the loop. What
`appendToBuffer` does with a payload, the callbacks and the write interest are left out.

## Main definitions

* `SenderSystem`: the loop, the state of the connection, the containers, and the calls so far
* `sendSpan`, `sendBuffer`, `sendStringView`, `sendString`: the four ways to send
* `SenderStep`, `SenderSystem.step`: the steps
* `SenderSystem.Interleaved`: what was appended is an interleaving of the calls

## Main results

* `SenderSystem.interleaved_of_run`: messages stay whole and in the order of their sender
-/

namespace SimpleTcp

/-- A call of one of the ways to send, with the bytes it was given. -/
structure SendCall where
  sender : ThreadId
  data : Bytes
  deriving DecidableEq, Repr

/-- What the loop is given to run: the `sendInLoop` of a call, or any other functor. -/
inductive SenderTask where
  | sendInLoop (call : SendCall)
  | functor

/-- `calls` are the calls in the order in which they were made, `runs` those whose `sendInLoop` has
run, with whether the connection was connected then, and `appended` what was passed to
`appendToBuffer`. -/
structure SenderSystem where
  cycle : LoopCycle SenderTask
  mState : ConnState
  memory : Nat → Bytes
  /-- The data that a thread has copied or moved, and queues next. -/
  captured : ThreadId → Option Bytes
  calls : List SendCall
  runs : List (SendCall × Bool)
  appended : List Bytes

/-- A step of a sender, of another thread or of the loop. -/
inductive SenderStep where
  | sendSpan (t : ThreadId) (container : Nat)
  | sendBuffer (t : ThreadId) (container : Nat)
  | sendStringView (t : ThreadId) (container : Nat)
  | sendString (t : ThreadId) (container : Nat)
  /-- The thread enters `queueInLoop` with what it has captured. -/
  | queueSend (t : ThreadId)
  /-- A thread queues any other functor. -/
  | queueFunctor (t : ThreadId)
  | emplaceBack (t : ThreadId)
  | wakeup (t : ThreadId)
  | unlock (t : ThreadId)
  | quitLoop (isInLoopThread : Bool)
  | loop (i : LoopStep)
  /-- A handler or a task changes the state of the connection. -/
  | setState (mState : ConnState)
  /-- A caller overwrites its container. -/
  | overwrite (container : Nat) (data : Bytes)

namespace SenderSystem

open Function (update update_self update_of_ne)

/-- A connection in the loop of the thread, before the first step of the loop. -/
def create (thread : ThreadId) (mState : ConnState) : SenderSystem where
  cycle := .create thread
  mState := mState
  memory := fun _ => []
  captured := fun _ => none
  calls := []
  runs := []
  appended := []

def isInLoopThread (s : SenderSystem) (t : ThreadId) : Prop := t = s.cycle.thread

instance (s : SenderSystem) (t : ThreadId) : Decidable (s.isInLoopThread t) :=
  inferInstanceAs (Decidable (_ = _))

/-- A connection that is not connected does not take the data. -/
def sendInLoop (s : SenderSystem) (call : SendCall) : SenderSystem :=
  if s.mState = .connected then
    { s with runs := s.runs ++ [(call, true)], appended := s.appended ++ [call.data] }
  else { s with runs := s.runs ++ [(call, false)] }

/-- A thread sends the bytes of a container: the thread of the loop at once, and any other from a
task that owns a copy of them. A container that is moved into the task is left empty. -/
def send (moves : Bool) (s : SenderSystem) (t : ThreadId) (container : Nat) :
    Option SenderSystem :=
  let call : SendCall := ⟨t, s.memory container⟩
  if s.cycle.MayCall t ∧ s.captured t = none then
    if s.isInLoopThread t then some ({ s with calls := s.calls ++ [call] }.sendInLoop call)
    else
      some { s with
        calls := s.calls ++ [call]
        captured := update s.captured t (some call.data)
        memory := if moves then update s.memory container [] else s.memory }
  else none

/-- `send(span_type)`. -/
def sendSpan : SenderSystem → ThreadId → Nat → Option SenderSystem := send false

/-- `send(buffer_type&&)`. -/
def sendBuffer : SenderSystem → ThreadId → Nat → Option SenderSystem := send true

/-- `sendString(std::string_view)`. -/
def sendStringView : SenderSystem → ThreadId → Nat → Option SenderSystem := send false

/-- `sendString(std::string&&)`. -/
def sendString : SenderSystem → ThreadId → Nat → Option SenderSystem := send true

/-- A step of the loop or of `queueInLoop`, which leaves the connection alone. -/
def onCycle (s : SenderSystem) (i : CycleStep SenderTask) : Option SenderSystem :=
  (s.cycle.step i).map fun cycle => { s with cycle := cycle }

/-- What the loop calls. -/
def runTask (s : SenderSystem) : Option SenderTask → SenderSystem
  | some (.sendInLoop call) => s.sendInLoop call
  | _ => s

def step (s : SenderSystem) : SenderStep → Option SenderSystem
  | .sendSpan t container => s.sendSpan t container
  | .sendBuffer t container => s.sendBuffer t container
  | .sendStringView t container => s.sendStringView t container
  | .sendString t container => s.sendString t container
  | .queueSend t =>
    match s.captured t with
    | some data =>
      ({ s with captured := update s.captured t none }).onCycle (.lock t (.sendInLoop ⟨t, data⟩))
    | none => none
  | .queueFunctor t => if s.captured t = none then s.onCycle (.lock t .functor) else none
  | .emplaceBack t => s.onCycle (.emplaceBack t)
  | .wakeup t => s.onCycle (.wakeup t)
  | .unlock t => s.onCycle (.unlock t)
  | .quitLoop isInLoopThread => s.onCycle (.quitLoop isInLoopThread)
  | .loop i => (s.onCycle (.loop i)).map fun s' => s'.runTask (s.cycle.called i)
  | .setState mState => if s.cycle.pc.isUser then some { s with mState := mState } else none
  | .overwrite container data => some { s with memory := update s.memory container data }

/-- The calls of a sender. -/
def callsOf (t : ThreadId) (calls : List SendCall) : List SendCall :=
  calls.filter (·.sender = t)

/-- The sends among the tasks. -/
def sendsOf (tasks : List SenderTask) : List SendCall :=
  tasks.filterMap fun
    | .sendInLoop call => some call
    | .functor => none

/-- What was passed to `appendToBuffer` is an interleaving of the calls of the senders. -/
structure Interleaved (s : SenderSystem) : Prop where
  /-- The sends of a sender run in the order of its calls, each at most once and with the bytes it
  was given. -/
  inOrder : ∀ t, callsOf t (s.runs.map Prod.fst) <+: callsOf t s.calls
  /-- Each payload is passed whole, unless the connection was not connected when its send ran. -/
  whole : s.appended = (s.runs.filter Prod.snd).map fun run => run.1.data

/-! ## Calls on their way -/

/-- The send with which a thread has entered `queueInLoop`. -/
def lockedSends : CallerPc SenderTask → List SendCall
  | .locked task => sendsOf [task]
  | _ => []

/-- The call that a thread is in: its task is about to be queued, or is still to be made. -/
def inflight (s : SenderSystem) (t : ThreadId) : List SendCall :=
  lockedSends (s.cycle.callers t) ++ (s.captured t).toList.map (⟨t, ·⟩)

/-- The sends that are queued and have not run. -/
def waitingOf (cycle : LoopCycle SenderTask) : List SendCall :=
  sendsOf (cycle.queued.drop cycle.executed.length)

variable {s s' : SenderSystem} {t u : ThreadId} {calls calls' : List SendCall} {call : SendCall}
  {tasks tasks' : List SenderTask}

theorem callsOf_append : callsOf t (calls ++ calls') = callsOf t calls ++ callsOf t calls' :=
  List.filter_append ..

theorem callsOf_self (h : call.sender = t) : callsOf t [call] = [call] := by
  simp [callsOf, h]

theorem callsOf_other (h : call.sender ≠ t) : callsOf t [call] = [] := by
  simp [callsOf, h]

theorem callsOf_eq_nil (h : ∀ call ∈ calls, call.sender ≠ t) : callsOf t calls = [] := by
  rw [callsOf, List.filter_eq_nil_iff]
  intro call hcall
  simpa using h call hcall

theorem sendsOf_append : sendsOf (tasks ++ tasks') = sendsOf tasks ++ sendsOf tasks' :=
  List.filterMap_append

/-- A step of the loop or of `queueInLoop` that moves no send. -/
structure Quiet (c c' : LoopCycle SenderTask) : Prop where
  thread : c'.thread = c.thread
  queued : c'.queued = c.queued
  waiting : waitingOf c' = waitingOf c
  locked : ∀ t, lockedSends (c'.callers t) = lockedSends (c.callers t)

/-- What the steps keep: every call is run, waits, or is on its way, in the order of its sender; and
the thread of the loop queues no send. -/
structure Inv (s : SenderSystem) : Prop where
  tidy : s.cycle.Tidy
  calls_eq : ∀ t, callsOf t s.calls =
    callsOf t (s.runs.map Prod.fst) ++ (callsOf t (waitingOf s.cycle) ++ s.inflight t)
  own : ∀ t, ∀ call ∈ lockedSends (s.cycle.callers t), call.sender = t
  direct : ∀ call ∈ sendsOf s.cycle.queued, call.sender ≠ s.cycle.thread
  idle : s.inflight s.cycle.thread = []
  whole : s.appended = (s.runs.filter Prod.snd).map fun run => run.1.data

theorem create_inv (thread : ThreadId) (mState : ConnState) : (create thread mState).Inv where
  tidy := .inl (LoopCycle.create_ordered thread)
  calls_eq := fun _ => rfl
  own := fun _ _ h => by cases h
  direct := fun _ h => by cases h
  idle := rfl
  whole := rfl

theorem Inv.interleaved (h : s.Inv) : s.Interleaved where
  inOrder := fun t => ⟨_, (h.calls_eq t).symm⟩
  whole := h.whole

theorem sendInLoop_runs (s : SenderSystem) (call : SendCall) :
    (s.sendInLoop call).runs.map Prod.fst = s.runs.map Prod.fst ++ [call] := by
  unfold sendInLoop
  split <;> simp

theorem sendInLoop_frame (s : SenderSystem) (call : SendCall) :
    (s.sendInLoop call).cycle = s.cycle ∧ (s.sendInLoop call).captured = s.captured ∧
      (s.sendInLoop call).calls = s.calls := by
  unfold sendInLoop
  split <;> exact ⟨rfl, rfl, rfl⟩

theorem sendInLoop_whole (call : SendCall)
    (h : s.appended = (s.runs.filter Prod.snd).map fun run => run.1.data) :
    (s.sendInLoop call).appended =
      ((s.sendInLoop call).runs.filter Prod.snd).map fun run => run.1.data := by
  unfold sendInLoop
  split <;> simp [List.filter_append, h]

/-- A call that runs is behind those that its sender has made before. -/
theorem sendInLoop_inv (tidy : s.cycle.Tidy)
    (calls_eq : ∀ t, callsOf t s.calls =
      callsOf t (s.runs.map Prod.fst ++ [call]) ++ (callsOf t (waitingOf s.cycle) ++ s.inflight t))
    (own : ∀ t, ∀ call ∈ lockedSends (s.cycle.callers t), call.sender = t)
    (direct : ∀ call ∈ sendsOf s.cycle.queued, call.sender ≠ s.cycle.thread)
    (idle : s.inflight s.cycle.thread = [])
    (whole : s.appended = (s.runs.filter Prod.snd).map fun run => run.1.data) :
    (s.sendInLoop call).Inv := by
  obtain ⟨hcycle, hcap, hcalls⟩ := sendInLoop_frame s call
  constructor
  · rw [hcycle]
    exact tidy
  · intro t
    rw [hcalls, sendInLoop_runs, inflight, hcycle, hcap]
    exact calls_eq t
  · rw [hcycle]
    exact own
  · rw [hcycle]
    exact direct
  · rw [inflight, hcycle, hcap]
    exact idle
  · exact sendInLoop_whole _ whole

/-- A quiet step of the cycle. -/
theorem Inv.of_quiet {cycle : LoopCycle SenderTask} (h : s.Inv) (hq : Quiet s.cycle cycle)
    (htidy : cycle.Tidy) : Inv { s with cycle := cycle } := by
  have hinflight : ∀ t, inflight { s with cycle := cycle } t = s.inflight t := by
    intro t
    rw [inflight, inflight, hq.locked t]
  constructor
  · exact htidy
  · intro t
    rw [hinflight]
    change _ = _ ++ (callsOf t (waitingOf cycle) ++ _)
    rw [hq.waiting]
    exact h.calls_eq t
  · intro t
    change ∀ call ∈ lockedSends (cycle.callers t), call.sender = t
    rw [hq.locked t]
    exact h.own t
  · change ∀ call ∈ sendsOf cycle.queued, call.sender ≠ cycle.thread
    rw [hq.queued, hq.thread]
    exact h.direct
  · rw [hinflight]
    change s.inflight cycle.thread = []
    rw [hq.thread]
    exact h.idle
  · exact h.whole

theorem lockedSends_update {callers : ThreadId → CallerPc SenderTask} {pc : CallerPc SenderTask}
    (h : lockedSends pc = lockedSends (callers t)) (u : ThreadId) :
    lockedSends (update callers t pc u) = lockedSends (callers u) := by
  by_cases hu : u = t
  · rw [hu, update_self, h]
  · rw [update_of_ne hu]

/-- The steps of a thread that queues something else, and of a thread whose task is queued. -/
theorem quiet_of_step {c c' : LoopCycle SenderTask} {i : CycleStep SenderTask}
    (h : c.step i = some c')
    (hi : i = .lock t .functor ∨ i = .wakeup t ∨ i = .unlock t ∨ ∃ b, i = .quitLoop b) :
    Quiet c c' := by
  rcases hi with rfl | rfl | rfl | ⟨b, rfl⟩
  · simp only [LoopCycle.step] at h
    split at h
    · next hcall =>
      cases h
      refine ⟨rfl, rfl, rfl, lockedSends_update ?_⟩
      have houtside := hcall.2.1
      cases hpc : c.callers t with
      | outside => rfl
      | _ => rw [hpc] at houtside; cases houtside
    · cases h
  · simp only [LoopCycle.step] at h
    split at h <;> cases h
    next hpc => exact ⟨rfl, rfl, rfl, lockedSends_update (by rw [hpc]; rfl)⟩
  · simp only [LoopCycle.step] at h
    split at h <;> cases h
    next hpc => exact ⟨rfl, rfl, rfl, lockedSends_update (by rw [hpc]; rfl)⟩
  · cases h
    exact ⟨rfl, rfl, rfl, fun _ => rfl⟩

theorem onCycle_eq_some {i : CycleStep SenderTask} :
    s.onCycle i = some s' ↔ ∃ c, s.cycle.step i = some c ∧ { s with cycle := c } = s' :=
  Option.map_eq_some_iff

theorem lockedSends_of_outside {pc : CallerPc SenderTask} (h : pc.isOutside = true) :
    lockedSends pc = [] := by
  cases pc with
  | outside => rfl
  | _ => cases h

/-- A thread that captures its data is in the call. -/
theorem inflight_capture (data : Bytes) (houtside : (s.cycle.callers t).isOutside = true)
    (hcaptured : s.captured t = none) (u : ThreadId) :
    lockedSends (s.cycle.callers u) ++
        (update s.captured t (some data) u).toList.map (⟨u, ·⟩) =
      s.inflight u ++ callsOf u [⟨t, data⟩] := by
  by_cases hu : u = t
  · subst hu
    rw [inflight, update_self, hcaptured, lockedSends_of_outside houtside,
      callsOf_self (show (SendCall.mk u data).sender = u from rfl)]
    rfl
  · rw [callsOf_other (show (SendCall.mk t data).sender ≠ u from Ne.symm hu), update_of_ne hu,
      List.append_nil]
    rfl

/-- The thread of the loop runs its call at once: nothing of it waits ahead. -/
theorem send_inv_of_loop (h : s.Inv) (hloop : s.isInLoopThread t) (data : Bytes) :
    (sendInLoop { s with calls := s.calls ++ [⟨t, data⟩] } ⟨t, data⟩).Inv := by
  refine sendInLoop_inv h.tidy (fun u => ?_) h.own h.direct h.idle h.whole
  show callsOf u (s.calls ++ [_]) =
    callsOf u (s.runs.map Prod.fst ++ [_]) ++ (callsOf u (waitingOf s.cycle) ++ s.inflight u)
  rw [callsOf_append, callsOf_append, h.calls_eq u]
  by_cases hu : t = u
  · obtain rfl : u = s.cycle.thread := hu.symm.trans hloop
    have hnone : callsOf s.cycle.thread (waitingOf s.cycle) = [] := by
      apply callsOf_eq_nil
      intro call hcall
      exact h.direct call ((List.Sublist.filterMap _ (List.drop_sublist _ _)).subset hcall)
    rw [hnone, h.idle]
    simp only [List.append_nil]
  · -- the other threads have called nothing
    rw [callsOf_other hu]
    simp only [List.append_nil]

/-- Another thread is in the call until its task is queued. -/
theorem send_inv_of_other (h : s.Inv) (hloop : ¬ s.isInLoopThread t)
    (houtside : (s.cycle.callers t).isOutside = true) (hcaptured : s.captured t = none)
    (data : Bytes) (memory : Nat → Bytes) :
    Inv { s with
      calls := s.calls ++ [⟨t, data⟩]
      captured := update s.captured t (some data)
      memory := memory } := by
  have hinflight := inflight_capture data houtside hcaptured
  constructor
  case tidy => exact h.tidy
  case calls_eq =>
    intro u
    show callsOf u (s.calls ++ [_]) =
      callsOf u (s.runs.map Prod.fst) ++ (callsOf u (waitingOf s.cycle) ++ (lockedSends _ ++ _))
    rw [hinflight, callsOf_append, h.calls_eq u]
    simp only [List.append_assoc]
  case own => exact h.own
  case direct => exact h.direct
  case idle =>
    refine (hinflight _).trans ?_
    have hother : (SendCall.mk t data).sender ≠ s.cycle.thread := hloop
    rw [callsOf_other hother, List.append_nil]
    exact h.idle
  case whole => exact h.whole

/-- **A call**: the thread of the loop runs it at once, and any other is in it. -/
theorem send_inv {moves : Bool} {container : Nat} (h : s.Inv)
    (hstep : send moves s t container = some s') : s'.Inv := by
  simp only [send] at hstep
  split at hstep
  · next hcall =>
    obtain ⟨⟨houtside, -⟩, hcaptured⟩ := hcall
    split at hstep
    · next hloop =>
      cases hstep
      exact send_inv_of_loop h hloop _
    · next hloop =>
      cases hstep
      exact send_inv_of_other h hloop houtside hcaptured _ _
  · cases hstep

/-- A thread enters `queueInLoop` with the data it has captured. -/
theorem queueSend_inv (h : s.Inv) (hstep : s.step (.queueSend t) = some s') : s'.Inv := by
  simp only [step] at hstep
  split at hstep
  · next data hdata =>
    obtain ⟨c, hc, rfl⟩ := onCycle_eq_some.mp hstep
    have htidy := LoopCycle.step_tidy h.tidy hc
    simp only [LoopCycle.step] at hc
    split at hc
    · next hcall =>
      cases hc
      have houtside := lockedSends_of_outside hcall.2.1
      -- the call moves from what is captured to what is locked
      have hlocked : ∀ u, lockedSends
          (update s.cycle.callers t (.locked (.sendInLoop ⟨t, data⟩)) u) ++
            (update s.captured t none u).toList.map (⟨u, ·⟩) = s.inflight u := by
        intro u
        by_cases hu : u = t
        · subst hu
          simp only [inflight, update_self, hdata, houtside]
          rfl
        · rw [update_of_ne hu, update_of_ne hu, inflight]
      constructor
      · exact htidy
      · intro u
        exact (h.calls_eq u).trans (by rw [← hlocked u]; rfl)
      · intro u
        change ∀ call ∈ lockedSends (update s.cycle.callers t _ u), call.sender = u
        by_cases hu : u = t
        · subst hu
          rw [update_self]
          intro call hcall
          rw [List.mem_singleton.mp hcall]
        · rw [update_of_ne hu]
          exact h.own u
      · exact h.direct
      · exact (hlocked _).trans h.idle
      · exact h.whole
    · cases hc
  · cases hstep

/-- The task of a thread is queued. -/
theorem emplaceBack_inv (h : s.Inv) (hstep : s.step (.emplaceBack t) = some s') : s'.Inv := by
  obtain ⟨c, hc, rfl⟩ := onCycle_eq_some.mp hstep
  have htidy := LoopCycle.step_tidy h.tidy hc
  have hprefix := h.tidy.executed_prefix.length_le
  simp only [LoopCycle.step] at hc
  split at hc
  · next task hpc =>
    cases hc
    have hlocked : lockedSends (s.cycle.callers t) = sendsOf [task] := by rw [hpc]; rfl
    have hown : ∀ call ∈ sendsOf [task], call.sender = t := by
      intro call hcall
      exact h.own t call (hlocked ▸ hcall)
    -- the send leaves its thread and joins those that wait
    have hmoved : ∀ u, callsOf u (sendsOf [task]) ++
        lockedSends (update s.cycle.callers t .emplaced u) = lockedSends (s.cycle.callers u) := by
      intro u
      by_cases hu : u = t
      · subst hu
        rw [update_self, hlocked]
        refine (List.append_nil _).trans (List.filter_eq_self.mpr fun call hcall => ?_)
        simpa using hown call hcall
      · rw [update_of_ne hu, callsOf_eq_nil fun call hcall hsender => hu ?_, List.nil_append]
        rw [← hsender, hown call hcall]
    constructor
    · exact htidy
    · intro u
      change callsOf u s.calls = callsOf u (s.runs.map Prod.fst) ++
        (callsOf u (sendsOf ((s.cycle.queued ++ [task]).drop s.cycle.executed.length)) ++
          (lockedSends (update s.cycle.callers t .emplaced u) ++ _))
      rw [List.drop_append_of_le_length hprefix, sendsOf_append, callsOf_append, h.calls_eq u,
        inflight, ← hmoved u]
      simp only [waitingOf, List.append_assoc]
    · intro u
      change ∀ call ∈ lockedSends (update s.cycle.callers t .emplaced u), call.sender = u
      intro call hcall
      exact h.own u call (hmoved u ▸ List.mem_append_right _ hcall)
    · change ∀ call ∈ sendsOf (s.cycle.queued ++ [task]), call.sender ≠ s.cycle.thread
      rw [sendsOf_append]
      intro call hcall
      rcases List.mem_append.mp hcall with hcall | hcall
      · exact h.direct call hcall
      · -- the thread of the loop is never in a call
        rw [hown call hcall]
        rintro rfl
        have hidle := h.idle
        rw [inflight, hlocked] at hidle
        rw [(List.append_eq_nil_iff.mp hidle).1] at hcall
        cases hcall
    · have hidle := h.idle
      rw [inflight, ← hmoved, List.append_assoc] at hidle
      exact (List.append_eq_nil_iff.mp hidle).2
    · exact h.whole
  · cases hc

/-- A step of the loop runs the send that it calls. -/
theorem loop_inv {i : LoopStep} (h : s.Inv) (hstep : s.step (.loop i) = some s') : s'.Inv := by
  obtain ⟨s₁, hs₁, rfl⟩ := Option.map_eq_some_iff.mp hstep
  obtain ⟨c, hc, rfl⟩ := onCycle_eq_some.mp hs₁
  have htidy := LoopCycle.step_tidy h.tidy hc
  have hloop := LoopCycle.loopStep_of_step hc
  obtain ⟨hthread, hcallers, -, hqueued⟩ := LoopCycle.loopStep_frame hloop
  -- what waited before are the task that is called and what waits now
  have hwaiting : waitingOf s.cycle = sendsOf (s.cycle.called i).toList ++ waitingOf c := by
    obtain ⟨rest, hrest⟩ := htidy.executed_prefix
    rw [waitingOf, waitingOf, ← sendsOf_append, ← hqueued, ← hrest, List.drop_left,
      LoopCycle.loopStep_executed hloop, List.append_assoc, List.drop_left]
  have hquiet : sendsOf (s.cycle.called i).toList = [] → Quiet s.cycle c := by
    intro hnone
    refine ⟨hthread, hqueued, ?_, fun u => by rw [hcallers]⟩
    rw [hwaiting, hnone, List.nil_append]
  cases hcalled : s.cycle.called i with
  | none => exact h.of_quiet (hquiet (by rw [hcalled]; rfl)) htidy
  | some task =>
    cases task with
    | functor => exact h.of_quiet (hquiet (by rw [hcalled]; rfl)) htidy
    | sendInLoop call =>
      rw [hcalled] at hwaiting
      have hinflight : ∀ u, inflight { s with cycle := c } u = s.inflight u := by
        intro u
        rw [inflight, inflight, hcallers]
      show (sendInLoop { s with cycle := c } call).Inv
      apply sendInLoop_inv
      case tidy => exact htidy
      case calls_eq =>
        intro u
        rw [hinflight, callsOf_append]
        refine (h.calls_eq u).trans ?_
        rw [hwaiting, callsOf_append]
        simp only [List.append_assoc]
        rfl
      case own =>
        intro u call hcall
        exact h.own u call (by rwa [hcallers] at hcall)
      case direct =>
        intro call hcall
        rw [hthread]
        exact h.direct call (by rwa [hqueued] at hcall)
      case idle =>
        rw [hinflight]
        show s.inflight c.thread = []
        rw [hthread]
        exact h.idle
      case whole => exact h.whole

theorem step_inv {i : SenderStep} (h : s.Inv) (hstep : s.step i = some s') : s'.Inv := by
  have hquiet : ∀ {i : CycleStep SenderTask} {t : ThreadId}, s.onCycle i = some s' →
      (i = .lock t .functor ∨ i = .wakeup t ∨ i = .unlock t ∨ ∃ b, i = .quitLoop b) → s'.Inv := by
    intro i t hs' hi
    obtain ⟨c, hc, rfl⟩ := onCycle_eq_some.mp hs'
    exact h.of_quiet (quiet_of_step hc hi) (LoopCycle.step_tidy h.tidy hc)
  cases i with
  | sendSpan t container | sendBuffer t container | sendStringView t container
  | sendString t container => exact send_inv h hstep
  | queueSend t => exact queueSend_inv h hstep
  | queueFunctor t =>
    simp only [step] at hstep
    split at hstep
    · exact hquiet hstep (.inl rfl)
    · cases hstep
  | emplaceBack t => exact emplaceBack_inv h hstep
  | wakeup t => exact hquiet hstep (.inr (.inl rfl))
  | unlock t => exact hquiet hstep (.inr (.inr (.inl rfl)))
  | quitLoop b => exact hquiet (t := s.cycle.thread) hstep (.inr (.inr (.inr ⟨b, rfl⟩)))
  | loop i => exact loop_inv h hstep
  | setState mState =>
    simp only [step] at hstep
    split at hstep <;> cases hstep
    exact ⟨h.tidy, h.calls_eq, h.own, h.direct, h.idle, h.whole⟩
  | overwrite container data =>
    cases hstep
    exact ⟨h.tidy, h.calls_eq, h.own, h.direct, h.idle, h.whole⟩

/-- **Concurrent sends** keep messages whole and in the order of their sender. -/
theorem interleaved_of_run {thread : ThreadId} {mState : ConnState} {is : List SenderStep}
    (hrun : Transition.run step (create thread mState) is = some s) : s.Interleaved :=
  (Transition.run_invariant (fun _ _ _ h hstep => step_inv h hstep) (create_inv thread mState)
    hrun).interleaved

/-- Two senders, the first of which overwrites its container before its task has run, and a send of
the thread of the loop between them. -/
theorem interleaved_overwritten :
    ∃ s : SenderSystem, s.appended = [[9], [1, 2], [3]] ∧ s.Interleaved := by
  have hrun : ∃ s, Transition.run step (create 0 .connected) [.overwrite 1 [1, 2], .overwrite 2 [3],
      .overwrite 3 [9], .sendSpan 1 1, .queueSend 1, .emplaceBack 1, .wakeup 1, .unlock 1,
      .overwrite 1 [5, 5], .sendBuffer 2 2, .queueSend 2, .emplaceBack 2, .wakeup 2, .unlock 2,
      .sendString 0 3, .loop .startLoop, .loop .next, .loop (.poll [.wakeup]), .loop .dispatch,
      .loop .dispatch, .loop .swap, .loop .next, .loop .taskReturn, .loop .next] = some s ∧
        s.appended = [[9], [1, 2], [3]] :=
    ⟨_, rfl, rfl⟩
  obtain ⟨s, hrun, happended⟩ := hrun
  exact ⟨s, happended, interleaved_of_run hrun⟩

end SenderSystem

end SimpleTcp
