import SimpleTcp.Net.TimerLife

/-!
# The delays of timers

`runAfter` and `runEvery` take a delay in microseconds, which `Timer::setDelay` and
`Timer::setRepeating` split into seconds and nanoseconds for `timerfd_settime`. The kernel disarms a
timer whose value is zero, and the queue registers the timer all the same.

The calls of the loop are those of `TimerSystem`, but for the state of a new timerfd, which the
kernel decides from the delay. The type of a timer is `Relative` in both calls.

## Main definitions

* `Itimerspec`, `Timer.setDelay`, `Timer.setRepeating`: what is passed to `timerfd_settime`
* `DelayedTimers`, `DelayedTimers.step`: the timers with their delays
* `DelayedTimers.EveryArmed`: every timer is set for its delay, and due
* `DelayedTimers.NonZero`: a call whose delay is not zero

## Main results

* `splitDelay_denotes`: the split is exact
* `DelayedTimers.run_timers`: with positive delays, the runs are those of `TimerSystem`
* `DelayedTimers.everyArmed_iff`: the runs whose timers are all armed
-/

namespace SimpleTcp

open Function (update)

/-- `timespec`. -/
structure Timespec where
  tv_sec : ℤ
  tv_nsec : ℤ
  deriving DecidableEq, Repr

/-- `itimerspec`. -/
structure Itimerspec where
  it_value : Timespec
  it_interval : Timespec
  deriving DecidableEq, Repr

/-- `duration_cast<seconds>(delay)`, and the nanoseconds of the rest. -/
def splitDelay (delay : ℤ) : Timespec :=
  let secs := delay.tdiv 1000000
  let nsecs := (delay - secs * 1000000) * 1000
  { tv_sec := secs, tv_nsec := nsecs }

/-- The argument that `Timer::setDelay` passes. -/
def Timer.setDelay (delay : ℤ) : Itimerspec where
  it_value := splitDelay delay
  it_interval := { tv_sec := 0, tv_nsec := 0 }

/-- The argument that `Timer::setRepeating` passes. -/
def Timer.setRepeating (interval : ℤ) : Itimerspec where
  it_value := splitDelay interval
  it_interval := splitDelay interval

/-- What the kernel accepts. -/
def Timespec.Valid (t : Timespec) : Prop := 0 ≤ t.tv_sec ∧ 0 ≤ t.tv_nsec ∧ t.tv_nsec < 1000000000

instance (t : Timespec) : Decidable t.Valid := inferInstanceAs (Decidable (_ ∧ _))

/-- A value that is zero disarms the timer; an argument that is not valid changes nothing. -/
def timerfd_settime (fd : TimerFd) (newTime : Itimerspec) : TimerFd :=
  if newTime.it_value.Valid ∧ newTime.it_interval.Valid then
    ⟨decide (newTime.it_value ≠ { tv_sec := 0, tv_nsec := 0 }), false⟩
  else fd

/-- The argument for a timer with the delay. -/
def Timer.spec (timer : Timer) (delay : ℤ) : Itimerspec :=
  if timer.mIsRepeating then Timer.setRepeating delay else Timer.setDelay delay

/-- The time is the delay, which counts microseconds. -/
structure Timespec.Denotes (t : Timespec) (delay : ℤ) : Prop where
  nonneg : 0 ≤ t.tv_nsec
  lt : t.tv_nsec < 10 ^ 9
  exact : t.tv_sec * 10 ^ 9 + t.tv_nsec = 1000 * delay

/-- The timers of a loop. `added` are those that the calls have created, with their delays. -/
structure DelayedTimers where
  timers : TimerSystem
  added : List (Timer × ℤ)

inductive DelayedStep where
  | runAfter (delay : ℤ) (now : TimerId)
  | runEvery (interval : ℤ) (now : TimerId)
  | other (i : TimerStep)
  deriving DecidableEq, Repr

/-- The kernel will report the timer or has done so, or its callback has been called. -/
def TimerSystem.Due (s : TimerSystem) (t : Timer) : Prop :=
  (s.fds t).armed = true ∨ (s.fds t).readable = true ∨ .called t ∈ s.trace

namespace DelayedTimers

open Transition (Along Always)

def create (clock : TimerId) : DelayedTimers where
  timers := TimerSystem.create clock
  added := []

/-- The new timer is set for its delay. -/
def setTimer (s : DelayedTimers) (timer : Timer) (delay : ℤ) (timers : TimerSystem) :
    DelayedTimers where
  timers := { timers with
    fds := update s.timers.fds timer (timerfd_settime ⟨false, false⟩ (timer.spec delay)) }
  added := s.added ++ [(timer, delay)]

def step (s : DelayedTimers) : DelayedStep → Option DelayedTimers
  | .runAfter delay now =>
    (s.timers.addOneshotTimer now).map (s.setTimer ⟨s.timers.created.length, false, now⟩ delay)
  | .runEvery interval now =>
    (s.timers.addRepeatingTimer now).map (s.setTimer ⟨s.timers.created.length, true, now⟩ interval)
  -- a timer is added by the two calls above
  | .other (.addOneshotTimer _) | .other (.addRepeatingTimer _) => none
  | .other i => (s.timers.step i).map fun timers => { s with timers }

/-- The timer is set for its delay, and due. -/
structure Armed (s : TimerSystem) (t : Timer) (delay : ℤ) : Prop where
  value : (t.spec delay).it_value.Denotes delay
  interval : t.mIsRepeating = true → (t.spec delay).it_interval.Denotes delay
  due : s.Due t

/-- Every timer with a delay that is not negative is armed. -/
def EveryArmed (s : DelayedTimers) : Prop := ∀ e ∈ s.added, 0 ≤ e.2 → Armed s.timers e.1 e.2

/-- The delay of a call is not zero. -/
def NonZero (_ : DelayedTimers) : DelayedStep → Prop
  | .runAfter delay _ | .runEvery delay _ => delay ≠ 0
  | .other _ => True

end DelayedTimers

/-! ### The split -/

section

variable {delay : ℤ}

/-- **The split is exact** for every delay that is not negative. -/
theorem splitDelay_denotes (h : 0 ≤ delay) : (splitDelay delay).Denotes delay := by
  have hsecs : delay.tdiv 1000000 = delay / 1000000 := Int.tdiv_eq_ediv_of_nonneg h
  -- the delay is not negative, so it is cut off downwards
  constructor <;> simp only [splitDelay, hsecs] <;> omega

theorem splitDelay_valid (h : 0 ≤ delay) : (splitDelay delay).Valid := by
  have hsecs : delay.tdiv 1000000 = delay / 1000000 := Int.tdiv_eq_ediv_of_nonneg h
  simp only [Timespec.Valid, splitDelay, hsecs]
  omega

theorem splitDelay_eq_zero_iff (h : 0 ≤ delay) :
    splitDelay delay = { tv_sec := 0, tv_nsec := 0 } ↔ delay = 0 := by
  have hsecs : delay.tdiv 1000000 = delay / 1000000 := Int.tdiv_eq_ediv_of_nonneg h
  simp only [splitDelay, hsecs, Timespec.mk.injEq]
  omega

theorem Timer.spec_value (t : Timer) (delay : ℤ) : (t.spec delay).it_value = splitDelay delay := by
  unfold Timer.spec
  split <;> rfl

theorem Timer.spec_interval_valid (t : Timer) (h : 0 ≤ delay) :
    (t.spec delay).it_interval.Valid := by
  unfold Timer.spec
  split
  · exact splitDelay_valid h
  · change Timespec.Valid ⟨0, 0⟩
    decide

/-- The kernel arms the timer, unless the delay is zero. -/
theorem settime_spec (t : Timer) (fd : TimerFd) (h : 0 ≤ delay) :
    timerfd_settime fd (t.spec delay) = ⟨decide (delay ≠ 0), false⟩ := by
  have hvalid : (t.spec delay).it_value.Valid ∧ (t.spec delay).it_interval.Valid :=
    ⟨t.spec_value delay ▸ splitDelay_valid h, t.spec_interval_valid h⟩
  rw [timerfd_settime, if_pos hvalid, t.spec_value]
  congr 1
  exact decide_eq_decide.mpr (splitDelay_eq_zero_iff h).not

end

/-! ### Steps -/

namespace TimerSystem

variable {s s' : TimerSystem} {i : TimerStep}

/-- A timer whose callback runs was called. -/
def CallingCalled (s : TimerSystem) : Prop :=
  ∀ t active, s.pc = .calling t active → .called t ∈ s.trace

/-- A step that leaves timerfds and calls alone. -/
theorem due_of_eq (hfds : s'.fds = s.fds) (htrace : s.trace ⊆ s'.trace) (t : Timer) (h : s.Due t) :
    s'.Due t := by
  rw [Due, hfds]
  exact h.imp_right (Or.imp_right fun hcalled => htrace hcalled)

/-- One timerfd changes. -/
theorem due_update {timer t : Timer} {fd : TimerFd} (hfds : s'.fds = update s.fds timer fd)
    (htrace : s'.trace = s.trace) (hself : t = timer → fd.armed = true ∨ fd.readable = true)
    (h : t ≠ timer → s.Due t) : s'.Due t := by
  rw [Due, hfds, htrace]
  by_cases ht : t = timer
  · rw [ht, Function.update_self]
    exact (hself ht).imp_right .inl
  · rw [Function.update_of_ne ht]
    exact h ht

theorem due_readCallback {timer t : Timer} {active : List (Timer × EventMask)} (h : s.Due t) :
    (s.readCallback timer active).Due t := by
  by_cases ht : t = timer
  · -- the timer is called
    refine .inr (.inr ?_)
    rw [readCallback_trace, ht]
    exact List.mem_append_right _ (List.mem_singleton_self _)
  · rw [Due, readCallback_fds _ _ _ fun heq => absurd heq ht, readCallback_trace]
    exact h.imp_right (Or.imp_right fun hcalled => List.mem_append_left _ hcalled)

theorem due_callbackReturn {timer t : Timer} {active : List (Timer × EventMask)}
    (hcalling : s.CallingCalled) (hpc : s.pc = .calling timer active) (h : s.Due t) :
    (s.callbackReturn timer active).Due t := by
  by_cases ht : t = timer
  · refine .inr (.inr ?_)
    rw [callbackReturn_trace, ht]
    exact hcalling timer active hpc
  · rw [Due, callbackReturn_fds _ _ _ ht, callbackReturn_trace]
    exact h

/-- **A timer that is due stays due**, when no timer is added. -/
theorem step_due (hcalling : s.CallingCalled) (honeshot : ∀ now, i ≠ .addOneshotTimer now)
    (hrepeating : ∀ now, i ≠ .addRepeatingTimer now) (hstep : s.step i = some s') :
    s'.CallingCalled ∧ ∀ t, s.Due t → s'.Due t := by
  cases i with
  | addOneshotTimer now => exact absurd rfl (honeshot now)
  | addRepeatingTimer now => exact absurd rfl (hrepeating now)
  | queueTimer timer =>
    simp only [step, queueTimer] at hstep
    split at hstep <;> cases hstep
    exact ⟨hcalling, due_of_eq rfl (List.Subset.refl _)⟩
  | removeTimer timerId | queueInLoop | quitLoop =>
    simp only [step] at hstep
    split at hstep <;> cases hstep
    exact ⟨hcalling, due_of_eq rfl (List.Subset.refl _)⟩
  -- the descriptor becomes readable, which is due as well
  | expire timer =>
    simp only [step] at hstep
    split at hstep <;> cases hstep
    exact ⟨hcalling, fun t h => due_update rfl rfl (fun _ => .inr rfl) fun _ => h⟩
  | poll active =>
    simp only [step, loopStep] at hstep
    split at hstep
    · split at hstep <;> cases hstep
      exact ⟨by simp [CallingCalled], due_of_eq rfl (List.Subset.refl _)⟩
    · cases hstep
  -- reading makes the descriptor unreadable, and calls the callback
  | dispatch =>
    simp only [step, loopStep] at hstep
    split at hstep <;> cases hstep
    next timer mRevent active hpc =>
    simp only [handleEvent]
    split
    · refine ⟨fun t active' hcalling' => ?_, fun t h => due_readCallback h⟩
      obtain ⟨rfl, -⟩ := TimerPc.calling.inj hcalling'
      rw [readCallback_trace]
      exact List.mem_append_right _ (List.mem_singleton_self _)
    · exact ⟨by simp [CallingCalled], due_of_eq rfl (List.Subset.refl _)⟩
  -- a one-shot timer is asked to be removed, and its callback has been called
  | callbackReturn =>
    simp only [step, loopStep] at hstep
    split at hstep <;> cases hstep
    next timer active hpc =>
    exact ⟨by simp [CallingCalled], fun t h => due_callbackReturn hcalling hpc h⟩
  | callbackThrow =>
    simp only [step, loopStep] at hstep
    split at hstep <;> cases hstep
    exact ⟨by simp [CallingCalled], due_of_eq rfl (List.Subset.refl _)⟩
  -- the other steps of the loop do not dispatch
  | startLoop | handlerThrow | swap | next | taskReturn | taskThrow | destroy =>
    simp only [step] at hstep
    obtain ⟨-, hquiet⟩ := quiet_loopStep hstep (by simp) (by simp) (by simp) (by simp)
    refine ⟨fun t active hcalling' => absurd hcalling' (hquiet.calling t active), fun t h => ?_⟩
    rw [Due, hquiet.fds]
    refine h.imp_right (Or.imp_right fun hcalled => ?_)
    rw [← List.count_pos_iff, hquiet.called]
    exact List.count_pos_iff.mpr hcalled

/-- Timers are not forgotten. -/
theorem step_created (hstep : s.step i = some s') : s.created ⊆ s'.created := by
  have hmove := moves_of_step hstep
  generalize hv : s.view = v at hmove
  generalize hv' : s'.view = v' at hmove
  have hsubset : v.created ⊆ v'.created := by
    cases hmove <;> simp
  rwa [← hv, ← hv'] at hsubset

end TimerSystem

namespace DelayedTimers

open Transition (Along Always)

variable {s s' : DelayedTimers} {i : DelayedStep}

/-- What the steps keep. -/
structure Inv (s : DelayedTimers) : Prop where
  sound : s.timers.view.Sound
  calling : s.timers.CallingCalled
  created : ∀ e ∈ s.added, e.1 ∈ s.timers.created

theorem create_inv (clock : TimerId) : (create clock).Inv where
  sound := TimerSystem.create_sound clock
  calling := by simp [TimerSystem.CallingCalled, create, TimerSystem.create]
  created := fun _ he => by cases he

/-- A timer that is created is a new one, and was not called. -/
theorem Inv.fresh (h : s.Inv) {timer : Timer} (hserial : timer.serial = s.timers.created.length) :
    timer ∉ s.timers.created ∧ .called timer ∉ s.timers.trace := by
  have hfresh : timer ∉ s.timers.created := h.sound.conserved.fresh hserial
  refine ⟨hfresh, fun hcalled => hfresh ?_⟩
  exact (h.sound.conserved.added timer (h.sound.served.called_added timer hcalled)).1

/-- The call that adds a timer. -/
theorem createTimer_fields {timers : TimerSystem} {mIsRepeating : Bool} {now : TimerId}
    (h : s.timers.createTimer mIsRepeating now = some timers) :
    timers.pc = s.timers.pc ∧ timers.trace = s.timers.trace ∧
      timers.created = s.timers.created ++ [⟨s.timers.created.length, mIsRepeating, now⟩] := by
  simp only [TimerSystem.createTimer] at h
  split at h <;> cases h
  exact ⟨rfl, rfl, rfl⟩

/-- The calls that add a timer, and the other steps. -/
theorem step_cases (hstep : s.step i = some s') :
    (∃ mIsRepeating now delay timers, s.timers.createTimer mIsRepeating now = some timers ∧
      (i = .runAfter delay now ∨ i = .runEvery delay now) ∧
      s' = s.setTimer ⟨s.timers.created.length, mIsRepeating, now⟩ delay timers) ∨
      ∃ j timers, i = .other j ∧ (∀ now, j ≠ .addOneshotTimer now) ∧
        (∀ now, j ≠ .addRepeatingTimer now) ∧ s.timers.step j = some timers ∧
        s' = { s with timers } := by
  cases i with
  | runAfter delay now =>
    obtain ⟨timers, htimers, rfl⟩ := Option.map_eq_some_iff.mp hstep
    exact .inl ⟨false, now, delay, timers, htimers, .inl rfl, rfl⟩
  | runEvery delay now =>
    obtain ⟨timers, htimers, rfl⟩ := Option.map_eq_some_iff.mp hstep
    exact .inl ⟨true, now, delay, timers, htimers, .inr rfl, rfl⟩
  | other j =>
    cases j with
    | addOneshotTimer now | addRepeatingTimer now => cases hstep
    | _ =>
      obtain ⟨timers, htimers, rfl⟩ := Option.map_eq_some_iff.mp hstep
      exact .inr ⟨_, timers, rfl, by simp, by simp, htimers, rfl⟩

theorem step_inv (h : s.Inv) (hstep : s.step i = some s') : s'.Inv := by
  rcases step_cases hstep with ⟨mIsRepeating, now, delay, timers, hcreate, -, rfl⟩ |
    ⟨j, timers, -, honeshot, hrepeating, htimers, rfl⟩
  · obtain ⟨hpc, htrace, hcreated⟩ := createTimer_fields hcreate
    have hsound : timers.view.Sound := h.sound.move (TimerSystem.moves_createTimer hcreate)
    refine ⟨hsound, ?_, fun e he => ?_⟩
    · intro t active hcalling
      change .called t ∈ timers.trace
      rw [htrace]
      exact h.calling t active (hpc ▸ hcalling)
    · change e.1 ∈ timers.created
      rw [hcreated]
      rcases List.mem_append.mp he with he | he
      · exact List.mem_append_left _ (h.created e he)
      · rw [List.mem_singleton.mp he]
        exact List.mem_append_right _ (List.mem_singleton_self _)
  · refine ⟨TimerSystem.step_sound h.sound htimers,
      (TimerSystem.step_due h.calling honeshot hrepeating htimers).1, fun e he => ?_⟩
    exact TimerSystem.step_created htimers (h.created e he)

/-- **What a call arms** is its timer, unless the delay is zero. -/
theorem step_everyArmed (h : s.Inv) (hstep : s.step i = some s') (harmed : s.EveryArmed) :
    s'.EveryArmed ↔ s.NonZero i := by
  rcases step_cases hstep with ⟨mIsRepeating, now, delay, timers, hcreate, hi, rfl⟩ |
    ⟨j, timers, rfl, honeshot, hrepeating, htimers, rfl⟩
  · obtain ⟨-, htrace, -⟩ := createTimer_fields hcreate
    -- the two calls differ in the timer alone
    have hnonZero : s.NonZero i ↔ delay ≠ 0 := by
      rcases hi with rfl | rfl <;> exact Iff.rfl
    rw [hnonZero]
    -- the new timer is none of those that were added before
    generalize htimer : (⟨s.timers.created.length, mIsRepeating, now⟩ : Timer) = timer
    have hserial : timer.serial = s.timers.created.length := by rw [← htimer]
    obtain ⟨hfresh, hcalled⟩ := h.fresh hserial
    constructor
    · rintro harmed' rfl
      -- the kernel has disarmed the new timer
      have hdue := (harmed' (timer, 0) (List.mem_append_right _ (List.mem_singleton_self _))
        (le_refl _)).due
      have hfd : (s.setTimer timer 0 timers).timers.fds timer = ⟨false, false⟩ :=
        (Function.update_self timer _ _).trans (settime_spec timer _ (le_refl _))
      rw [TimerSystem.Due, hfd] at hdue
      rcases hdue with hdue | hdue | hdue
      · cases hdue
      · cases hdue
      · exact hcalled (htrace ▸ hdue)
    · intro hdelay e he hnonneg
      rcases List.mem_append.mp he with he | he
      · obtain ⟨hvalue, hinterval, hdue⟩ := harmed e he hnonneg
        have hne : e.1 ≠ timer := fun heq => hfresh (heq ▸ h.created e he)
        exact ⟨hvalue, hinterval,
          TimerSystem.due_update rfl htrace (fun heq => absurd heq hne) fun _ => hdue⟩
      · obtain rfl := List.mem_singleton.mp he
        refine ⟨timer.spec_value delay ▸ splitDelay_denotes hnonneg, fun hrepeating => ?_, ?_⟩
        · rw [Timer.spec, if_pos hrepeating]
          exact splitDelay_denotes hnonneg
        · refine TimerSystem.due_update (s := s.timers) rfl htrace (fun _ => .inl ?_)
            fun hne => absurd rfl hne
          rw [settime_spec timer _ hnonneg]
          exact decide_eq_true hdelay
  · refine iff_of_true (fun e he hdelay => ?_) trivial
    obtain ⟨hvalue, hinterval, hdue⟩ := harmed e he hdelay
    exact ⟨hvalue, hinterval, (TimerSystem.step_due h.calling honeshot hrepeating htimers).2 _ hdue⟩

/-- A call with a positive delay. -/
def Positive : DelayedStep → Prop
  | .runAfter delay _ | .runEvery delay _ => 0 < delay
  | .other _ => True

/-- With positive delays, the steps are those of the timers. -/
theorem step_timers (hi : Positive i) (hstep : s.step i = some s') :
    ∃ j, s.timers.step j = some s'.timers := by
  rcases step_cases hstep with ⟨mIsRepeating, now, delay, timers, hcreate, hcall, rfl⟩ |
    ⟨j, timers, -, -, -, htimers, rfl⟩
  · have hpos : 0 < delay := by rcases hcall with rfl | rfl <;> exact hi
    have harmed : timerfd_settime ⟨false, false⟩ (Timer.spec
        ⟨s.timers.created.length, mIsRepeating, now⟩ delay) = TimerFd.set := by
      rw [settime_spec _ _ hpos.le, decide_eq_true hpos.ne']
      rfl
    have htimers : (s.setTimer ⟨s.timers.created.length, mIsRepeating, now⟩ delay timers).timers =
        timers := by
      simp only [TimerSystem.createTimer] at hcreate
      split at hcreate <;> cases hcreate
      rw [setTimer, harmed]
    rw [htimers]
    cases mIsRepeating with
    | false => exact ⟨.addOneshotTimer now, hcreate⟩
    | true => exact ⟨.addRepeatingTimer now, hcreate⟩
  · exact ⟨j, htimers⟩

/-- With positive delays, the runs are those of the timers. -/
theorem run_timers {is : List DelayedStep} (his : ∀ i ∈ is, Positive i)
    (hrun : Transition.run step s is = some s') :
    ∃ js, Transition.run TimerSystem.step s.timers js = some s'.timers := by
  induction is generalizing s with
  | nil =>
    obtain rfl : s = s' := Option.some.inj hrun
    exact ⟨[], rfl⟩
  | cons i is ih =>
    obtain ⟨s₁, hstep, hrun⟩ := Transition.run_cons_eq_some.mp hrun
    obtain ⟨hi, his⟩ := List.forall_mem_cons.mp his
    obtain ⟨j, hj⟩ := step_timers hi hstep
    obtain ⟨js, hjs⟩ := ih his hrun
    exact ⟨j :: js, Transition.run_cons_eq_some.mpr ⟨s₁.timers, hj, hjs⟩⟩

/-- **Every timer is armed for its delay** exactly when no call has the delay zero. -/
theorem everyArmed_iff (clock : TimerId) (is : List DelayedStep) :
    Always step EveryArmed (create clock) is ↔ Along step NonZero (create clock) is :=
  Transition.always_iff_along (I := fun s => s.Inv ∧ s.EveryArmed) (fun _ h => h.2)
    (fun _ _ _ h hi hstep => ⟨step_inv h.1 hstep, (step_everyArmed h.1 hstep h.2).mpr hi⟩)
    (fun _ _ _ h hstep harmed => (step_everyArmed h.1 hstep h.2).mp harmed)
    ⟨create_inv clock, fun _ he => (by cases he)⟩

/-- A call with the delay zero. -/
theorem not_everyArmed : ¬ ∀ clock is, Always step EveryArmed (create clock) is := by
  intro h
  have hrun : ∃ s, Transition.run step (create 1) [.runAfter 0 7] = some s ∧
      s.added = [(⟨0, false, 7⟩, 0)] ∧ s.timers.fds ⟨0, false, 7⟩ = ⟨false, false⟩ ∧
        s.timers.trace = [] :=
    ⟨_, rfl, rfl, by decide, rfl⟩
  obtain ⟨s, hrun, hadded, hfd, htrace⟩ := hrun
  have harmed := h 1 _ _ s List.prefix_rfl hrun (⟨0, false, 7⟩, 0)
    (by rw [hadded]; exact List.mem_singleton_self _) (le_refl _)
  have hdue := harmed.due
  simp [TimerSystem.Due, hfd, htrace] at hdue

end DelayedTimers

end SimpleTcp
