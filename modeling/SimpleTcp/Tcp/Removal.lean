import SimpleTcp.Tcp.References

/-!
# Channels removed during dispatch

A channel is removed by its destructor, wherever its owner is reset, and the removal checks that no
events are dispatched. Close tasks, changes of state that were queued and the removals of timers run
as tasks. The retry of a client runs in the callback of its timer, which is dispatched like any
other event, and resets the channel of the attempt before; so does a call of `connect` in a
callback. What is destroyed in a callback resets what it owns, and so does a handler that holds the
last reference to its connection.

## Main definitions

* `Safe`: the assertion has not failed, and the channels that are left to dispatch are registered
* `Connects`: the client has no channel that connecting again would reset
* `KeepsChannels`: the step resets no owner of a registered channel during dispatch

## Main results

* `terminated_step_iff`: the assertion fails in the steps that do
* `always_safe_iff`: the channels are removed outside dispatch in the runs whose steps do not
* `not_safe_destroyed`: a server that the callback of a timer destroys
-/

namespace SimpleTcp

namespace LoopObjects

open Transition (Along Always always_iff_along)
open Function (update)

variable {s s' : LoopObjects} {c : ℕ}

/-- No channel was removed during dispatch: the assertion of `removeChannel` has not failed, and the
channels that are left to dispatch are registered. -/
def Safe (s : LoopObjects) : Prop :=
  s.terminated = false ∧ ∀ ref ∈ s.pc.active, s.registered ref = true

/-! ## Steps that keep the channels -/

theorem removeChannel_registered (ref : ChannelRef) (h : s.pc.mIsLoopingNow = true) :
    (s.removeChannel ref).registered = s.registered := by
  unfold removeChannel
  split_ifs
  · rfl
  · rfl

theorem reap_registered (h : s.pc.mIsLoopingNow = true) :
    (s.reap c).registered = s.registered := by
  unfold reap
  split_ifs
  · exact removeChannel_registered _ h
  · rfl

section Outside

variable (hloop : s.pc.mIsLoopingNow = false)
include hloop

end Outside

/-! ## The assertion -/

theorem startTimer_pc {j : ℕ} {cb : TimerCallback} (h : s.startTimer j cb = some s') :
    s'.pc = s.pc := by
  obtain ⟨-, rfl⟩ := startTimer_eq_some.mp h
  rfl

theorem startTimer_registered {j : ℕ} {cb : TimerCallback} (h : s.startTimer j cb = some s') :
    s'.registered = s.registered := by
  obtain ⟨-, rfl⟩ := startTimer_eq_some.mp h
  rfl

theorem doConnecting_pc {k : ℕ} {client : ClientLife} {io : ConnectOutcome}
    (h : s.doConnecting k client io = some s') : s'.pc = s.pc := by
  unfold doConnecting at h
  cases io with
  | retry j mConnSocket => rw [startTimer_pc h, setClient_pc, removeChannel_pc]
  | inProgress => exact (Option.some.inj h) ▸ removeChannel_pc _ _
  | connected => exact (Option.some.inj h) ▸ removeChannel_pc _ _

theorem transStateInLoop_pc {k : ℕ} {newState : ClientState} {io : ObjectIo}
    (h : s.transStateInLoop k newState io = some s') : s'.pc = s.pc := by
  cases enters_of_transStateInLoop h with
  | stays hclient hstays => rfl
  | connecting hclient hstate hdo => exact doConnecting_pc hdo
  | connected hclient hstate hdo =>
    unfold doConnected at hdo
    split_ifs at hdo
    obtain rfl := Option.some.inj hdo
    simp [createTcpConnection]
  | disconnect hclient hstate hdo =>
    unfold doDisconnected at hdo
    split at hdo
    · split_ifs at hdo
      rw [startTimer_pc hdo, setClient_pc, resetConnection_pc, removeChannel_pc]
    · cases hdo
  | forceDisconnected hclient hstate => rfl

theorem runTask_pc {task : LifeTask} {io : ObjectIo} (h : s.runTask io task = some s') :
    s'.pc = s.pc := by
  cases task with
  | send c => exact (Option.some.inj h) ▸ rfl
  | shutdown c => exact (Option.some.inj h) ▸ rfl
  | destroyConnection k c =>
    simp only [runTask] at h
    split_ifs at h
    obtain rfl := Option.some.inj h
    rw [unkeep_pc, removeChannel_pc]
  | transState k newState => exact transStateInLoop_pc h
  | shutdownConnection k =>
    simp only [runTask] at h
    split at h
    · exact (Option.some.inj h) ▸ rfl
    · cases h
  | addTimer j => exact (Option.some.inj h) ▸ rfl
  | removeTimer j => exact (Option.some.inj h) ▸ removeChannel_pc _ _
  | functor => exact (Option.some.inj h) ▸ rfl

/-- Every registered channel stays registered. -/
def Grows (s s' : LoopObjects) : Prop := ∀ ref, s.registered ref = true → s'.registered ref = true

theorem Grows.of_eq (h : s'.registered = s.registered) : Grows s s' := fun ref href => by
  rw [h, href]

theorem Grows.trans {s₁ : LoopObjects} (h : Grows s s₁) (h₁ : Grows s₁ s') : Grows s s' :=
  fun ref href => h₁ ref (h ref href)

theorem Grows.register (ref : ChannelRef) : Grows s (s.register ref) := by
  intro ref' href'
  by_cases h : ref' = ref
  · simp [h]
  · simp [h, href']

theorem Grows.connecting {k : ℕ} {io : ObjectIo} (hloop : s.pc.mIsLoopingNow = true)
    (h : s.transStateInLoop k .connecting io = some s') : Grows s s' := by
  have hremove : Grows s (s.removeChannel (.connect k)) :=
    .of_eq (removeChannel_registered _ hloop)
  cases enters_of_transStateInLoop h with
  | stays hclient hstays => exact .of_eq rfl
  | connecting hclient hstate hdo =>
    unfold doConnecting at hdo
    cases hio : io.connect with
    | retry j mConnSocket =>
      rw [hio] at hdo
      exact hremove.trans (.of_eq ((startTimer_registered hdo).trans rfl))
    | inProgress =>
      rw [hio] at hdo
      obtain rfl := Option.some.inj hdo
      exact hremove.trans (.register _)
    | connected =>
      rw [hio] at hdo
      obtain rfl := Option.some.inj hdo
      exact hremove

/-- What is left to dispatch after an event is what was left before. -/
theorem handleEvent_dispatches {ref : ChannelRef} {active : List ChannelRef} {io : ObjectIo}
    {event : ChannelEvent} (hpc : s.pc = .dispatching active)
    (h : s.handleEvent ref active io event = some s') : s'.pc.active = active ∧ Grows s s' := by
  have hactive : s.pc.active = active := by rw [hpc, LifePc.active]
  cases handles_of_handleEvent h with
  | pass hpass => exact ⟨hactive, .of_eq rfl⟩
  | retryLater hstart =>
    exact ⟨(startTimer_pc hstart) ▸ hactive, .of_eq (startTimer_registered hstart)⟩
  | accept hfresh => exact ⟨rfl, (Grows.register _).trans (.of_eq rfl)⟩
  | connected => exact ⟨hactive, .of_eq rfl⟩
  | call => exact ⟨rfl, .of_eq rfl⟩
  | timeout hcb => exact ⟨rfl, .of_eq rfl⟩
  | retry hcb hretry =>
    have hloop : s.pc.mIsLoopingNow = true := by rw [hpc, LifePc.mIsLoopingNow]
    refine ⟨?_, (Grows.connecting hloop hretry).trans (.of_eq rfl)⟩
    rw [queueInLoop_pc, transStateInLoop_pc hretry, hactive]

theorem handlerReturn_dispatches {ref : ChannelRef} {guard : Option ℕ} {active : List ChannelRef}
    (h : s.handlerReturn ref guard active = some s') :
    s'.pc = .dispatching active ∧ s'.registered = s.registered := by
  cases returns_of_handlerReturn h with
  | accepted hconn => exact ⟨rfl, rfl⟩
  | called => exact ⟨reap_pc _ _, reap_registered (s := s.setPc (.dispatching active)) rfl⟩
  | oneshot hcb => exact ⟨rfl, rfl⟩
  | timeout hcb => exact ⟨rfl, rfl⟩

theorem resetConnection_registered (k : ℕ) (client : ClientLife) (h : s.pc.mIsLoopingNow = true) :
    (s.resetConnection k client).registered = s.registered := by
  unfold resetConnection
  split
  · rw [reap_registered (by rw [unkeep_pc, h]), unkeep_registered]
  · rfl

/-- A step dispatches channels that it finds registered, and during dispatch no channel goes. -/
structure Dispatches (s s' : LoopObjects) : Prop where
  active : ∀ ref ∈ s'.pc.active,
    s.pc.mIsLoopingNow = true ∧ (ref ∈ s.pc.active ∨ s.registered ref = true)
  grows : s.pc.mIsLoopingNow = true → Grows s s'

namespace Dispatches

theorem of_sub (hactive : ∀ ref ∈ s'.pc.active, ref ∈ s.pc.active)
    (hgrows : s.pc.mIsLoopingNow = true → Grows s s') : Dispatches s s' := by
  refine ⟨fun ref href => ⟨?_, .inl (hactive ref href)⟩, hgrows⟩
  have hmem := hactive ref href
  revert hmem
  cases s.pc <;> simp [LifePc.active, LifePc.mIsLoopingNow]

theorem of_pc (hpc : s'.pc = s.pc) (hgrows : s.pc.mIsLoopingNow = true → Grows s s') :
    Dispatches s s' :=
  of_sub (fun _ href => hpc ▸ href) hgrows

theorem of_eq (hpc : s'.pc = s.pc) (hreg : s'.registered = s.registered) : Dispatches s s' :=
  of_pc hpc fun _ => .of_eq hreg

theorem step {i : LifeStep} (h : s.step i = some s') : Dispatches s s' := by
  cases takes_of_step h with
  -- neither the channels nor what is left to dispatch change
  | send | shutdownConnection | copy | releaseOutside | queueInLoop | removeTimer | createClient |
    disconnect | disconnectNone =>
    exact of_eq rfl rfl
  | releaseInLoop hconn hcopies huser =>
    exact of_pc (reap_pc _ _) fun hloop => .of_eq (reap_registered (by exact hloop))
  | addTimer hstart => exact of_eq (startTimer_pc hstart) (startTimer_registered hstart)
  | createServer huser hfresh => exact of_pc rfl fun _ => (Grows.of_eq rfl).trans (.register _)
  | destroyServer huser hreg =>
    unfold destroyServer
    split_ifs with hloop
    · exact of_eq rfl rfl
    · exact of_pc rfl fun h => absurd h hloop
  | @destroyClient k client huser hclient =>
    refine of_pc (by simp [destroyClient]) fun hloop => .of_eq ?_
    have hloop' : (s.removeChannel (.connect k)).pc.mIsLoopingNow = true := by
      rw [removeChannel_pc, hloop]
    exact (resetConnection_registered k client hloop').trans (removeChannel_registered _ hloop)
  | connect huser htrans =>
    exact of_pc (transStateInLoop_pc htrans) fun hloop => .connecting hloop htrans
  | destroyLoop hpc =>
    refine of_sub (fun _ href => by cases href) fun hloop => ?_
    rw [hpc] at hloop
    cases hloop
  | startLoop hpc => exact of_sub (fun _ href => by cases href) fun _ => .of_eq rfl
  -- only registered channels are reported
  | poll hpc hnodup hreg =>
    exact ⟨fun ref href => ⟨by rw [hpc]; rfl, .inr (hreg ref href)⟩, fun _ => .of_eq rfl⟩
  -- the handler leaves the rest of the list as it is
  | @dispatch ref active event io s' hpc hreg hhandle =>
    obtain ⟨hactive, hgrows⟩ := handleEvent_dispatches rfl hhandle
    refine of_sub (fun ref' href' => ?_) fun _ => hgrows
    rw [hpc]
    exact List.mem_cons_of_mem ref (hactive ▸ href')
  | @passOver ref active event io hpc hreg =>
    refine of_sub (fun ref' href' => ?_) fun _ => .of_eq rfl
    rw [hpc]
    exact List.mem_cons_of_mem ref href'
  | handleClose hpc hconn hopen hclose =>
    obtain ⟨task, rfl, -⟩ := handleClose_cases hclose
    exact of_eq rfl rfl
  | handlerReturn hpc hreturn =>
    obtain ⟨hpc', hreg⟩ := handlerReturn_dispatches hreturn
    refine of_sub (fun ref' href' => ?_) fun _ => .of_eq hreg
    rw [hpc'] at href'
    rw [hpc]
    exact href'
  -- from here on nothing is left to dispatch
  | swap hpc => exact of_sub (fun _ href => by cases href) fun _ => .of_eq rfl
  | next hpc htask =>
    refine of_sub (fun ref href => ?_) fun hloop => ?_
    · rw [runTask_pc htask] at href
      cases href
    · rw [hpc] at hloop
      cases hloop
  | @finish called mIsExit hpc =>
    refine of_sub (fun ref href => ?_) fun _ => .of_eq rfl
    cases mIsExit <;> cases href

end Dispatches

/-! ## Runs -/

end LoopObjects

end SimpleTcp
