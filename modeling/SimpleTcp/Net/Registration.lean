import SimpleTcp.Net.PollOwners

/-!
# What is registered

Between the calls of its owners the poller, the kernel and the channels agree: the map leads from
the descriptors that the kernel watches to the channels that are there, each of which belongs to the
owner that holds its descriptor open. Every part of an owner keeps that, where a descriptor is
released after its channel; the functions of the owners do so on all their paths.

## Main definitions

* `EventMask.Same`: masks that differ in `EPOLLERR` and `EPOLLHUP` at most
* `PollState.Registered`: the containers, the kernel and the channels agree
* `PollState.Live`: the same, with the owners

## Main results

* `step_sound`: every function of an owner keeps it
* `registered_run`: in every state that a run reaches the containers, the kernel and the channels
  agree, a failing call changes nothing, and `poll` finds a channel for every event
-/

namespace SimpleTcp

/-- The masks differ in `EPOLLERR` and `EPOLLHUP` at most, which `epoll` always reports. -/
def EventMask.Same (mask mask' : EventMask) : Prop :=
  mask ||| (EPOLLERR ||| EPOLLHUP) = mask' ||| (EPOLLERR ||| EPOLLHUP)

instance (mask mask' : EventMask) : Decidable (mask.Same mask') :=
  inferInstanceAs (Decidable (_ = _))

namespace PollState

open Function (update)
open Epoller

variable {s s' : PollState} {o : FdOwner} {fd channel : ℕ} {ch : PolledChannel}

/-- The containers of the poller, the kernel and the channels agree. -/
structure Registered (s : PollState) : Prop where
  /-- `mChannelSet` are the values of `mChannelMap`. -/
  values : ∀ channel, s.mChannelSet channel = true ↔ ∃ fd, s.mChannelMap fd = some channel
  /-- The map leads to channels that are there, by their descriptors. -/
  keyed : ∀ fd channel, s.mChannelMap fd = some channel →
    ∃ ch, s.heap channel = some ch ∧ ch.mFd = fd
  injective : ∀ fd fd' channel, s.mChannelMap fd = some channel →
    s.mChannelMap fd' = some channel → fd = fd'
  /-- The keys are the descriptors that the kernel watches. -/
  keys : ∀ fd, s.mChannelMap fd ≠ none ↔ s.interest fd ≠ none
  /-- A descriptor that the kernel watches is open, and none was closed while it was watched. -/
  opened : ∀ fd, s.interest fd ≠ none → s.isOpen fd = true
  closed : s.closedRegistered = false
  mask : s.modFailed = false → ∀ fd channel ch events, s.mChannelMap fd = some channel →
    s.heap channel = some ch → s.interest fd = some events → events.Same ch.mEvent

/-- The poller is there, and every channel belongs to the owner that holds its descriptor. -/
structure Live (s : PollState) : Prop where
  running : s.destroyed = false
  opened : ∀ o fd, s.fds o = some fd → s.isOpen fd = true
  distinct : ∀ o o' fd, s.fds o = some fd → s.fds o' = some fd → o = o'
  owned : ∀ o channel, s.channels o = some channel →
    ∃ ch, s.heap channel = some ch ∧ s.fds o = some ch.mFd
  held : ∀ channel ch, s.heap channel = some ch → ∃ o, s.channels o = some channel
  set : ∀ channel, s.mChannelSet channel = true ↔ s.heap channel ≠ none
  map : ∀ fd channel, s.mChannelMap fd = some channel ↔
    ∃ ch, s.heap channel = some ch ∧ ch.mFd = fd
  keys : ∀ fd, s.interest fd = none ↔ s.mChannelMap fd = none
  mask : s.modFailed = false → ∀ channel ch events, s.heap channel = some ch →
    s.interest ch.mFd = some events → events.Same ch.mEvent
  closed : s.closedRegistered = false

theorem live_create : create.Live where
  running := rfl
  opened := by intro o fd h; cases h
  distinct := by intro o o' fd h; cases h
  owned := by intro o channel h; cases h
  held := by intro channel ch h; cases h
  set := by simp [create]
  map := by simp [create]
  keys := by simp [create]
  mask := by intro _ channel ch events h; cases h
  closed := rfl

namespace Live

/-- A descriptor that the kernel watches is held by the owner of its channel. -/
theorem owner_of_watched (h : s.Live) (hfd : s.interest fd ≠ none) :
    ∃ o, s.fds o = some fd ∧ s.channels o ≠ none := by
  have hmap : s.mChannelMap fd ≠ none := fun hnone => hfd ((h.keys fd).mpr hnone)
  obtain ⟨channel, hchannel⟩ := Option.ne_none_iff_exists'.mp hmap
  obtain ⟨ch, hch, rfl⟩ := (h.map fd channel).mp hchannel
  obtain ⟨o, ho⟩ := h.held channel ch hch
  obtain ⟨ch', hch', hfd'⟩ := h.owned o channel ho
  obtain rfl : ch = ch' := Option.some.inj (hch.symm.trans hch')
  exact ⟨o, hfd', by rw [ho]; exact Option.some_ne_none channel⟩

/-- The descriptor of an owner without a channel is not watched. -/
theorem not_watched (h : s.Live) (hfd : s.fds o = some fd) (hchannel : s.channels o = none) :
    s.interest fd = none := by
  by_contra hwatched
  obtain ⟨o', hfd', hchannel'⟩ := h.owner_of_watched hwatched
  obtain rfl := h.distinct o o' fd hfd hfd'
  exact hchannel' hchannel

theorem registered (h : s.Live) : s.Registered where
  values channel := by
    rw [h.set]
    refine ⟨fun hne => ?_, fun ⟨fd, hfd⟩ => ?_⟩
    · obtain ⟨ch, hch⟩ := Option.ne_none_iff_exists'.mp hne
      exact ⟨ch.mFd, (h.map _ _).mpr ⟨ch, hch, rfl⟩⟩
    · obtain ⟨ch, hch, -⟩ := (h.map fd channel).mp hfd
      rw [hch]
      exact Option.some_ne_none ch
  keyed fd channel := (h.map fd channel).mp
  injective fd fd' channel hfd hfd' := by
    obtain ⟨ch, hch, rfl⟩ := (h.map fd channel).mp hfd
    obtain ⟨ch', hch', rfl⟩ := (h.map fd' channel).mp hfd'
    obtain rfl : ch = ch' := Option.some.inj (hch.symm.trans hch')
    rfl
  keys fd := not_congr (h.keys fd).symm
  opened fd hfd := by
    obtain ⟨o, ho, -⟩ := h.owner_of_watched hfd
    exact h.opened o fd ho
  closed := h.closed
  mask hmod fd channel ch events hmap hch hevents := by
    obtain ⟨ch', hch', rfl⟩ := (h.map fd channel).mp hmap
    obtain rfl : ch = ch' := Option.some.inj (hch.symm.trans hch')
    exact h.mask hmod channel ch events hch hevents

/-! ## Changes of the state -/

theorem openFd (h : s.Live) (fd : ℕ) : ({ s with isOpen := update s.isOpen fd true }).Live where
  running := h.running
  opened := by
    intro o fd' hfd'
    by_cases heq : fd' = fd
    · simp [heq]
    · simpa [heq] using h.opened o fd' hfd'
  distinct := h.distinct
  owned := h.owned
  held := h.held
  set := h.set
  map := h.map
  keys := h.keys
  mask := h.mask
  closed := h.closed

/-- An owner without a channel gets a descriptor that no one holds. -/
theorem setFd (h : s.Live) (hopen : s.isOpen fd = true) (hnew : ∀ o', s.fds o' ≠ some fd)
    (hchannel : s.channels o = none) : (s.setFd o (some fd)).Live where
  running := h.running
  opened := by
    intro o' fd' hfd'
    by_cases heq : o' = o
    · subst heq
      obtain rfl : fd = fd' := by simpa [PollState.setFd] using hfd'
      exact hopen
    · exact h.opened o' fd' (by simpa [PollState.setFd, heq] using hfd')
  distinct := by
    intro o₁ o₂ fd' h₁ h₂
    simp only [PollState.setFd, Function.update_apply] at h₁ h₂
    split_ifs at h₁ h₂ with e₁ e₂ e₂
    · -- of two owners with one descriptor, none can be the new one
      rw [e₁, e₂]
    · exact absurd (h₁ ▸ h₂) (hnew o₂)
    · exact absurd (h₂ ▸ h₁) (hnew o₁)
    · exact h.distinct o₁ o₂ fd' h₁ h₂
  owned := by
    intro o' channel hchannel'
    obtain ⟨ch, hch, hfd'⟩ := h.owned o' channel hchannel'
    -- the new one has no channel
    have hne : o' ≠ o := by
      rintro rfl
      cases hchannel.symm.trans hchannel'
    exact ⟨ch, hch, by simpa [PollState.setFd, hne] using hfd'⟩
  held := h.held
  set := h.set
  map := h.map
  keys := h.keys
  mask := h.mask
  closed := h.closed

/-- An owner without a channel gives up its descriptor, and keeps it open. -/
theorem clearFd (h : s.Live) (hchannel : s.channels o = none) : (s.setFd o none).Live where
  running := h.running
  opened := by
    intro o' fd' hfd'
    by_cases heq : o' = o
    · simp [PollState.setFd, heq] at hfd'
    · exact h.opened o' fd' (by simpa [PollState.setFd, heq] using hfd')
  distinct := by
    intro o₁ o₂ fd' h₁ h₂
    simp only [PollState.setFd, Function.update_apply] at h₁ h₂
    split_ifs at h₁ h₂
    exact h.distinct o₁ o₂ fd' h₁ h₂
  owned := by
    intro o' channel hchannel'
    obtain ⟨ch, hch, hfd'⟩ := h.owned o' channel hchannel'
    have hne : o' ≠ o := by
      rintro rfl
      cases hchannel.symm.trans hchannel'
    exact ⟨ch, hch, by simpa [PollState.setFd, hne] using hfd'⟩
  held := h.held
  set := h.set
  map := h.map
  keys := h.keys
  mask := h.mask
  closed := h.closed

/-- A descriptor that no one holds is closed. -/
theorem close (h : s.Live) (hfd : ∀ o, s.fds o ≠ some fd) : (Epoller.closed s fd).Live := by
  have hwatched : s.interest fd = none := by
    by_contra hwatched
    obtain ⟨o, ho, -⟩ := h.owner_of_watched hwatched
    exact hfd o ho
  have hinterest : update s.interest fd none = s.interest := by
    rw [← hwatched, Function.update_eq_self]
  refine ⟨h.running, ?_, h.distinct, h.owned, h.held, h.set, h.map, ?_, ?_, ?_⟩
  · intro o fd' hfd'
    have hne : fd' ≠ fd := by
      rintro rfl
      exact hfd o hfd'
    simpa [Epoller.closed, hne] using h.opened o fd' hfd'
  · simpa only [Epoller.closed, hinterest] using h.keys
  · simpa only [Epoller.closed, hinterest] using h.mask
  · simp [Epoller.closed, hwatched, h.closed]

/-- The owner of a descriptor that is not watched has a new channel. -/
theorem makeChannel (h : s.Live) (hfd : s.fds o = some fd) (hchannel : s.channels o = none)
    (hfree : s.heap channel = none) (hwatched : s.interest fd = none) :
    (((s.setHeap channel (some ⟨Channel.create, fd, 0⟩)).added fd channel).setChannel o
      (some channel)).Live := by
  -- the poller does not know the descriptor, so no channel stands for it
  have hmap : s.mChannelMap fd = none := (h.keys fd).mp hwatched
  -- the address was free, so no owner holds it yet
  have hne : ∀ o' channel', s.channels o' = some channel' → channel' ≠ channel := by
    -- each owner has a channel with its descriptor
    rintro o' channel' ho' rfl
    obtain ⟨ch, hch, -⟩ := h.owned o' channel' ho'
    cases hfree.symm.trans hch
  refine ⟨h.running, h.opened, h.distinct, ?_, ?_, ?_, ?_, ?_, ?_, h.closed⟩
  · intro o' channel' ho'
    by_cases heq : o' = o
    · subst heq
      obtain rfl : channel = channel' := by simpa [setChannel] using ho'
      exact ⟨⟨Channel.create, fd, 0⟩, by simp [setChannel, added, setHeap], hfd⟩
    · have hold : s.channels o' = some channel' := by
        simpa [setChannel, added, setHeap, heq] using ho'
      obtain ⟨ch, hch, hfd'⟩ := h.owned o' channel' hold
      exact ⟨ch, by simpa [setChannel, added, setHeap, hne o' channel' hold] using hch, hfd'⟩
  · -- no channel is left without an owner
    intro channel' ch hch
    by_cases heq : channel' = channel
    · exact ⟨o, by simp [setChannel, heq]⟩
    · obtain ⟨o', ho'⟩ := h.held channel' ch (by simpa [setChannel, added, setHeap, heq] using hch)
      have hneo : o' ≠ o := by
        rintro rfl
        cases hchannel.symm.trans ho'
      exact ⟨o', by simpa [setChannel, added, setHeap, hneo] using ho'⟩
  · -- `mChannelSet` has the new address, too
    intro channel'
    by_cases heq : channel' = channel
    · simp [setChannel, added, setHeap, heq]
    · simpa [setChannel, added, setHeap, heq] using h.set channel'
  · -- `mChannelMap` maps the descriptor to the new channel, and is unchanged elsewhere
    intro fd' channel'
    simp only [setChannel, added, setHeap, hmap, if_true, Function.update_apply]
    by_cases heq : fd' = fd
    · subst heq
      rw [if_pos rfl]
      constructor
      · rintro hsome
        obtain rfl := Option.some.inj hsome
        exact ⟨_, if_pos rfl, rfl⟩
      · rintro ⟨ch, hch, hchfd⟩
        split_ifs at hch with hc
        · rw [hc]
        · have := (h.map fd' channel').mpr ⟨ch, hch, hchfd⟩
          cases hmap.symm.trans this
    · rw [if_neg heq, h.map]
      refine exists_congr fun ch => ?_
      split_ifs with hc
      · subst hc
        constructor
        · rintro ⟨hch, -⟩
          cases hfree.symm.trans hch
        · rintro ⟨hch, hchfd⟩
          obtain rfl := Option.some.inj hch
          exact absurd hchfd.symm heq
      · rfl
  · -- the kernel watches what is in the map
    intro fd'
    simp only [setChannel, added, setHeap, hmap, if_true, Function.update_apply]
    split_ifs with heq
    · simp
    · exact h.keys fd'
  · -- the new channel asks for no event, and is watched for none but errors
    intro hmod channel' ch events hch hevents
    simp only [setChannel, added, setHeap, Function.update_apply] at hch hevents
    split_ifs at hch with hc
    · obtain rfl := Option.some.inj hch
      rw [if_pos rfl] at hevents
      obtain rfl := Option.some.inj hevents
      exact (by decide : EventMask.Same 0 EPOLLERR)
    · split_ifs at hevents with hf
      · have := (h.map fd channel').mpr ⟨ch, hch, hf⟩
        cases hmap.symm.trans this
      · exact h.mask hmod channel' ch events hch hevents

/-- The owner of a channel has none any more. -/
theorem removeChannel (h : s.Live) (hchannel : s.channels o = some channel)
    (hch : s.heap channel = some ch) :
    (((s.removed ch.mFd channel).setHeap channel none).setChannel o none).Live := by
  have hfd : s.fds o = some ch.mFd := by
    obtain ⟨ch', hch', hfd⟩ := h.owned o channel hchannel
    obtain rfl : ch = ch' := Option.some.inj (hch.symm.trans hch')
    exact hfd
  have hmap : s.mChannelMap ch.mFd = some channel := (h.map _ _).mpr ⟨ch, hch, rfl⟩
  -- no other owner has the channel, and no other channel the descriptor
  have hneo : ∀ o' channel', s.channels o' = some channel' → o' ≠ o → channel' ≠ channel := by
    rintro o' channel' ho' hne rfl
    obtain ⟨ch', hch', hfd'⟩ := h.owned o' channel' ho'
    obtain rfl : ch = ch' := Option.some.inj (hch.symm.trans hch')
    exact hne (h.distinct o' o ch.mFd hfd' hfd)
  have hnefd : ∀ channel' ch', s.heap channel' = some ch' → channel' ≠ channel →
      ch'.mFd ≠ ch.mFd := by
    intro channel' ch' hch' hne heq
    have hmap' := (h.map ch'.mFd channel').mpr ⟨ch', hch', rfl⟩
    rw [heq, hmap] at hmap'
    exact hne (Option.some.inj hmap').symm
  refine ⟨h.running, h.opened, h.distinct, ?_, ?_, ?_, ?_, ?_, ?_, h.closed⟩
  · intro o' channel' ho'
    simp only [setChannel, setHeap, removed, Function.update_apply] at ho' ⊢
    split_ifs at ho' with heq
    obtain ⟨ch', hch', hfd'⟩ := h.owned o' channel' ho'
    exact ⟨ch', by rw [if_neg (hneo o' channel' ho' heq), hch'], hfd'⟩
  · intro channel' ch' hch'
    simp only [setChannel, setHeap, removed, Function.update_apply] at hch' ⊢
    split_ifs at hch' with heq
    obtain ⟨o', ho'⟩ := h.held channel' ch' hch'
    have hne : o' ≠ o := by
      rintro rfl
      exact heq (Option.some.inj (ho'.symm.trans hchannel))
    exact ⟨o', by rw [if_neg hne, ho']⟩
  · intro channel'
    simp only [setChannel, setHeap, removed, Function.update_apply]
    split_ifs
    · simp
    · exact h.set channel'
  · intro fd' channel'
    simp only [setChannel, setHeap, removed, Function.update_apply]
    by_cases hc : channel' = channel
    · subst hc
      simp only [if_true, reduceCtorEq, false_and, exists_false, iff_false]
      split_ifs with hf
      · simp
      · intro hmap'
        obtain ⟨ch', hch', hfd'⟩ := (h.map fd' channel').mp hmap'
        obtain rfl : ch = ch' := Option.some.inj (hch.symm.trans hch')
        exact hf hfd'.symm
    · simp only [hc, if_false]
      split_ifs with hf
      · subst hf
        simp only [false_iff, not_exists, not_and]
        exact fun ch' hch' => hnefd channel' ch' hch' hc
      · exact h.map fd' channel'
  · intro fd'
    simp only [setChannel, setHeap, removed, Function.update_apply]
    split_ifs
    · simp
    · exact h.keys fd'
  · intro hmod channel' ch' events hch' hevents
    simp only [setChannel, setHeap, removed, Function.update_apply] at hch' hevents
    split_ifs at hch' hevents
    exact h.mask hmod channel' ch' events hch' hevents

/-- A channel changes, but not its descriptor, and the kernel watches what it did. -/
theorem setHeap (h : s.Live) (hch : s.heap channel = some ch) {ch' : PolledChannel}
    (hfd : ch'.mFd = ch.mFd) {interest : ℕ → Option EventMask} {modFailed : Bool}
    (hinterest : ∀ fd, interest fd = none ↔ s.interest fd = none)
    (hmask : modFailed = false → ∀ channel' ch₁ events,
      update s.heap channel (some ch') channel' = some ch₁ → interest ch₁.mFd = some events →
        events.Same ch₁.mEvent) :
    ({ s.setHeap channel (some ch') with interest, modFailed }).Live := by
  refine ⟨h.running, h.opened, h.distinct, ?_, ?_, ?_, ?_, ?_, hmask, h.closed⟩
  · -- the owner of the channel has the new one
    intro o' channel' ho'
    obtain ⟨ch₁, hch₁, hfd₁⟩ := h.owned o' channel' ho'
    by_cases heq : channel' = channel
    · subst heq
      obtain rfl : ch = ch₁ := Option.some.inj (hch.symm.trans hch₁)
      exact ⟨ch', by simp [PollState.setHeap], by rw [hfd]; exact hfd₁⟩
    · exact ⟨ch₁, by simpa [PollState.setHeap, heq] using hch₁, hfd₁⟩
  · -- and the others theirs
    intro channel' ch₁ hch₁
    by_cases heq : channel' = channel
    · subst heq
      exact h.held channel' ch hch
    · exact h.held channel' ch₁ (by simpa [PollState.setHeap, heq] using hch₁)
  · intro channel'
    by_cases heq : channel' = channel
    · subst heq
      simpa [PollState.setHeap, hch] using h.set channel'
    · simpa [PollState.setHeap, heq] using h.set channel'
  · intro fd' channel'
    refine (h.map fd' channel').trans ?_
    simp only [PollState.setHeap, Function.update_apply]
    split_ifs with heq
    · subst heq
      simp [hch, hfd]
    · rfl
  · intro fd'
    exact (hinterest fd').trans (h.keys fd')

/-- The kernel watches the events of a channel that has changed. -/
theorem changeEvents (h : s.Live) (hch : s.heap channel = some ch) {ch' : PolledChannel}
    (hfd : ch'.mFd = ch.mFd) :
    ({ s.setHeap channel (some ch') with
      interest := update s.interest ch'.mFd (some ch'.mEvent) }).Live := by
  have hmap : s.mChannelMap ch.mFd = some channel := (h.map _ _).mpr ⟨ch, hch, rfl⟩
  have hwatched : s.interest ch.mFd ≠ none := by
    rw [Ne, h.keys, hmap]
    exact Option.some_ne_none channel
  refine h.setHeap hch hfd (fun fd' => ?_) fun hmod channel' ch₁ events hch₁ hevents => ?_
  · rw [hfd]
    by_cases heq : fd' = ch.mFd
    · simp [heq, hwatched]
    · simp [heq]
  · by_cases heq : channel' = channel
    · subst heq
      obtain rfl : ch' = ch₁ := by simpa using hch₁
      obtain rfl : ch'.mEvent = events := by simpa using hevents
      exact rfl
    · have hold : s.heap channel' = some ch₁ := by simpa [heq] using hch₁
      have hne : ch₁.mFd ≠ ch'.mFd := by
        intro hsame
        have hmap' := (h.map _ _).mpr ⟨ch₁, hold, rfl⟩
        rw [hsame, hfd, hmap] at hmap'
        exact heq (Option.some.inj hmap').symm
      exact h.mask hmod channel' ch₁ events hold (by simpa [hne] using hevents)

/-- A channel that has changed is watched as before when the call fails. -/
theorem changeEvents_failed (h : s.Live) (hch : s.heap channel = some ch) {ch' : PolledChannel}
    (hfd : ch'.mFd = ch.mFd) : ({ s.setHeap channel (some ch') with modFailed := true }).Live :=
  h.setHeap hch hfd (fun _ => Iff.rfl) fun hmod => by cases hmod

/-- A channel is told what was reported. -/
theorem setRevents (h : s.Live) (hch : s.heap channel = some ch) (events : EventMask) :
    (s.setHeap channel (some { ch with mRevent := events })).Live := by
  have hfd : ({ ch with mRevent := events } : PolledChannel).mFd = ch.mFd := rfl
  refine h.setHeap hch hfd (fun _ => Iff.rfl) fun hmod channel' ch₁ events' hch₁ hevents => ?_
  by_cases heq : channel' = channel
  · subst heq
    obtain rfl : { ch with mRevent := events } = ch₁ := by simpa using hch₁
    exact h.mask hmod channel' ch events' hch hevents
  · exact h.mask hmod channel' ch₁ events' (by simpa [heq] using hch₁) hevents

theorem setTimerMap (h : s.Live) (entries : List (ℕ × ℕ)) :
    ({ s with mTimerMap := entries }).Live :=
  ⟨h.running, h.opened, h.distinct, h.owned, h.held, h.set, h.map, h.keys, h.mask, h.closed⟩

end Live

/-- The poller is there, and the owners have no channels. -/
def LiveWithout (os : List FdOwner) (s : PollState) : Prop :=
  s.Live ∧ ∀ o ∈ os, s.channels o = none

theorem Live.without (h : s.Live) (hchannel : s.channels o = none) : LiveWithout [o] s :=
  ⟨h, by simpa using hchannel⟩

/-- The poller is there, or nothing is registered after its end. -/
def Sound (s : PollState) : Prop :=
  s.Live ∨ s.destroyed = true ∧ s.Registered ∧ ∀ fd, s.interest fd = none

theorem Sound.registered (h : s.Sound) : s.Registered :=
  h.elim (fun hlive => hlive.registered) fun hend => hend.2.1

end PollState

namespace Epoller

open Function (update)
open PollState
open Machine (Triple)

variable {s s' : PollState} {o : FdOwner} {os : List FdOwner} {channel : ℕ} {io : CtlIo}

/-! ## The parts of an owner -/

theorem unwind_triple {P E' E : PollState → Prop} {Q : Unit → PollState → Prop}
    {x cleanup : PollM Unit} (hx : Triple P x Q E')
    (hcleanup : Triple E' cleanup (fun _ => E) E) (hE : ∀ s, E' s → E s) :
    Triple P (unwind x cleanup) Q E := by
  have hrethrow : ∀ e : PollStop, Triple E' (throw e : PollM Unit) Q E :=
    fun e => Triple.throw.conseq hE (fun _ _ => id) fun _ => id
  refine Triple.tryCatch hx fun e => ?_
  cases e with
  | systemException err => exact hcleanup.bind fun _ => .throw
  | terminate => exact Triple.bind (Q := fun _ => E') .pure fun _ => hrethrow .terminate
  | blocked => exact Triple.bind (Q := fun _ => E') .pure fun _ => hrethrow .blocked

theorem logged_triple {P E : PollState → Prop} {x : PollM Unit}
    (hx : Triple P x (fun _ => E) E) : Triple P (logged x) (fun _ => E) E := by
  refine Triple.tryCatch hx fun e => ?_
  cases e with
  | systemException err => exact Triple.pure (Q := fun _ => E)
  | terminate => exact .throw
  | blocked => exact .throw

theorem requireNew_triple {P : PollState → Prop} : Triple P (requireNew o)
    (fun _ s => P s ∧ s.fds o = none ∧ s.channels o = none) P := by
  refine .get_bind fun s hs => .ite (fun hnew => ?_) fun _ => ?_
  · exact Triple.pure.of_state ⟨hs, hnew⟩
  · exact Triple.throw.of_state hs

theorem openFd_triple {fd : ℕ} : Triple Live (openFd fd) (fun _ => Live) Live := by
  exact .get_bind fun s hs => .ite (fun _ => Triple.throw.of_state hs) fun _ =>
    .set (hs.openFd fd)

/-- A new object has a descriptor and no channel. -/
theorem holdFd_triple {fd : ℕ} :
    Triple Live (holdFd o fd) (fun _ => LiveWithout [o]) Live := by
  refine requireNew_triple.bind fun _ => ?_
  rintro s ⟨hs, -, hchannel⟩
  by_cases hopen : s.isOpen fd = true
  · simpa [openFd, hopen] using hs
  · have hnew : ∀ o', s.fds o' ≠ some fd := fun o' ho' => hopen (hs.opened o' fd ho')
    have hs' := (hs.openFd fd).setFd (by simp) hnew hchannel
    simpa [openFd, hopen] using hs'.without hchannel

theorem createChannel_run {fd : ℕ} (hset : s.heap channel = none → s.mChannelSet channel = false) :
    (createChannel fd channel io).run s =
      match io.fcntl fd with
      | some err => .error (.systemException err) s
      | none =>
        if s.heap channel ≠ none then .error .blocked s
        else
          match s.addError fd (io.add fd) with
          | some err => .error (.systemException err) s
          | none =>
            .ok () ((s.setHeap channel (some ⟨Channel.create, fd, 0⟩)).added fd channel) := by
  unfold createChannel
  cases io.fcntl fd with
  | some err => rfl
  | none =>
    by_cases hfree : s.heap channel = none
    · -- a channel at a free address is put into both maps
      have hset' : (s.setHeap channel (some ⟨Channel.create, fd, 0⟩)).mChannelSet channel = false :=
        hset hfree
      have hheap : (s.setHeap channel (some ⟨Channel.create, fd, 0⟩)).heap channel =
          some ⟨Channel.create, fd, 0⟩ := by simp [setHeap]
      have hadd : (addChannel channel io).run _ = _ := addChannel_run hset' hheap
      have herr : (s.setHeap channel (some ⟨Channel.create, fd, 0⟩)).addError fd (io.add fd) =
          s.addError fd (io.add fd) := rfl
      -- and removed again, when the poller refuses it
      have hback : (s.setHeap channel (some ⟨Channel.create, fd, 0⟩)).setHeap channel none = s := by
        simp [setHeap, ← hfree]
      simp only [EStateM.run_bind, EStateM.run_get, EStateM.run_set, Machine.run_tryCatch, hadd,
        herr, hfree, ne_eq, not_true_eq_false, if_false]
      cases s.addError fd (io.add fd) with
      | some err => exact congrArg (EStateM.Result.error (PollStop.systemException err)) hback
      | none => rfl
    · simp [hfree]

/-- An owner makes its channel, or has none when that fails. -/
theorem makeChannel_triple :
    Triple (LiveWithout [o]) (makeChannel o channel io) (fun _ => Live) (LiveWithout [o]) := by
  rintro s ⟨hs, hwithout⟩
  have hchannel : s.channels o = none := hwithout o (List.mem_singleton_self o)
  have hset : s.heap channel = none → s.mChannelSet channel = false := fun hfree =>
    Bool.eq_false_iff.mpr fun h => (hs.set channel).mp h hfree
  unfold makeChannel
  cases hfd : s.fds o with
  | none => simpa [hfd] using hs.without hchannel
  | some fd =>
    simp only [EStateM.run_bind, EStateM.run_get, hfd, createChannel_run hset]
    cases io.fcntl fd with
    | some err => exact hs.without hchannel
    | none =>
      by_cases hfree : s.heap channel = none
      · cases herr : s.addError fd (io.add fd) with
        | some err => simpa [hfree, herr] using hs.without hchannel
        | none =>
          have hwatched : s.interest fd = none := (addError_eq_none.mp herr).2.2
          simpa [hfree, herr] using hs.makeChannel hfd hchannel hfree hwatched
      · simpa [hfree] using hs.without hchannel

/-- An owner resets its channel, if it has one; others still have none. -/
theorem resetChannel_triple :
    Triple (LiveWithout os) (resetChannel o io) (fun _ => LiveWithout (o :: os)) Live := by
  rintro s ⟨hs, hwithout⟩
  unfold resetChannel
  cases hchannel : s.channels o with
  | none => simpa [hchannel, LiveWithout] using ⟨hs, hwithout⟩
  | some channel =>
    obtain ⟨ch, hch, -⟩ := hs.owned o channel hchannel
    have hset : s.mChannelSet channel = true := (hs.set channel).mpr (by simp [hch])
    simp only [EStateM.run_bind, EStateM.run_get, hchannel, destroyChannel, Machine.run_tryCatch,
      removeChannel_run hset hch]
    cases s.changeError ch.mFd (io.del ch.mFd) with
    | some err => exact hs
    | none =>
      refine ⟨hs.removeChannel hchannel hch, fun o' ho' => ?_⟩
      by_cases heq : o' = o
      · simp [setChannel, heq]
      · have hmem : o' ∈ os := (List.mem_cons.mp ho').resolve_left heq
        simpa [setChannel, removed, PollState.setHeap, heq] using hwithout o' hmem

/-- An owner without a channel closes its descriptor, if it has one. -/
theorem resetFd_triple (ho : o ∈ os) :
    Triple (LiveWithout os) (resetFd o) (fun _ => LiveWithout os) Live := by
  rintro s ⟨hs, hwithout⟩
  unfold resetFd
  cases hfd : s.fds o with
  | none => simpa [hfd, LiveWithout] using ⟨hs, hwithout⟩
  | some fd =>
    simp only [EStateM.run_bind, EStateM.run_get, hfd]
    refine ⟨?_, hwithout⟩
    have hclear := hs.clearFd (hwithout o ho)
    refine hclear.close fun o' ho' => ?_
    simp only [setFd, Function.update_apply] at ho'
    split_ifs at ho' with heq
    exact heq (hs.distinct o' o fd ho' hfd)

/-- The events change, and those that the kernel watches too, unless the call fails. -/
theorem changeEvents_triple (isDone : Channel → Prop) [DecidablePred isDone]
    (change : Channel → Channel) :
    Triple Live (changeEvents o isDone change io) (fun _ => Live) Live := by
  intro s hs
  unfold changeEvents
  cases hchannel : s.channels o with
  | none => simpa [hchannel] using hs
  | some channel =>
    obtain ⟨ch, hch, -⟩ := hs.owned o channel hchannel
    obtain ⟨ch', hch'⟩ : ∃ ch' : PolledChannel,
        ch' = { ch with toChannel := change ch.toChannel } := ⟨_, rfl⟩
    have hfd : ch'.mFd = ch.mFd := by rw [hch']
    have hset : (s.setHeap channel (some ch')).mChannelSet channel = true :=
      (hs.set channel).mpr (by simp [hch])
    have hheap : (s.setHeap channel (some ch')).heap channel = some ch' := by simp [setHeap]
    simp only [EStateM.run_bind, EStateM.run_get, hchannel, hch, ← hch']
    split_ifs
    · exact hs
    · simp only [EStateM.run_bind, EStateM.run_set, updateChannel_run hset hheap]
      cases (s.setHeap channel (some ch')).changeError ch'.mFd (io.mod ch'.mFd) with
      | some err => exact hs.changeEvents_failed hch hfd
      | none => exact hs.changeEvents hch hfd

theorem enableRead_triple : Triple Live (enableRead o io) (fun _ => Live) Live :=
  changeEvents_triple _ _

theorem enableWrite_triple : Triple Live (enableWrite o io) (fun _ => Live) Live :=
  changeEvents_triple _ _

theorem disableWrite_triple : Triple Live (disableWrite o io) (fun _ => Live) Live :=
  changeEvents_triple _ _

theorem disableAll_triple : Triple Live (disableAll o io) (fun _ => Live) Live :=
  changeEvents_triple _ _

/-! ## The functions of the owners -/

theorem resetChannel_alone_triple :
    Triple Live (resetChannel o io) (fun _ => LiveWithout [o]) Live :=
  resetChannel_triple.conseq (fun s hs => ⟨hs, by simp⟩) (fun _ _ => id) fun _ => id

theorem resetFd_without_triple : Triple (LiveWithout [o]) (resetFd o) (fun _ => Live) Live :=
  (resetFd_triple (List.mem_singleton_self o)).conseq (fun _ => id) (fun _ _ hs => hs.1)
    fun _ => id

/-- The channel goes first, and then the descriptor. -/
theorem release_triple : Triple Live (do resetChannel o io; resetFd o) (fun _ => Live) Live :=
  resetChannel_alone_triple.bind fun _ => resetFd_without_triple

/-- An owner that makes its channel gives up its descriptor when that fails. -/
theorem unwind_makeChannel_triple :
    Triple (LiveWithout [o]) (unwind (makeChannel o channel io) (resetFd o)) (fun _ => Live)
      Live :=
  unwind_triple makeChannel_triple resetFd_without_triple fun _ hs => hs.1

theorem destroyPoller_triple : Triple Live destroyPoller (fun _ => Sound) Sound := by
  refine .modify fun s hs => .inr ⟨rfl, ?_, fun _ => rfl⟩
  exact
    { values := by simp
      keyed := by simp
      injective := by simp
      keys := by simp
      opened := by simp
      closed := hs.closed
      mask := by simp }

theorem eventLoop_triple {fd : ℕ} :
    Triple Live (eventLoop fd channel io) (fun _ => Sound) Sound := by
  have hhold : Triple Live (holdFd .wakeup fd) (fun _ => LiveWithout [.wakeup]) Sound :=
    holdFd_triple.conseq (fun _ => id) (fun _ _ => id) fun _ => .inl
  refine hhold.bind fun _ => Triple.bind (Q := fun _ => Live) ?_ fun _ => ?_
  · have hcleanup : Triple (LiveWithout [.wakeup]) (do resetFd .wakeup; destroyPoller)
        (fun _ => Sound) Sound := by
      have hfd : Triple (LiveWithout [.wakeup]) (resetFd .wakeup) (fun _ => Live) Sound :=
        (resetFd_triple (List.mem_singleton_self _)).conseq (fun _ => id) (fun _ _ hs => hs.1)
          fun _ => .inl
      exact hfd.bind fun _ => destroyPoller_triple
    exact unwind_triple makeChannel_triple hcleanup fun _ hs => .inl hs.1
  · have henable : Triple Live (enableRead .wakeup io) (fun _ => Sound) Sound :=
      enableRead_triple.conseq (fun _ => id) (fun _ _ => .inl) fun _ => .inl
    exact Triple.tryCatch henable fun _ => .throw

/-- The channels of the timers go, and those that were gone stay so. -/
theorem forTimers_resetChannel_triple (io : CtlIo) (entries : List (ℕ × ℕ)) :
    Triple (LiveWithout os) (forTimers (fun o => resetChannel o io) entries)
      (fun _ => LiveWithout (entries.reverse.map (fun entry => .timer entry.2) ++ os)) Live := by
  induction entries generalizing os with
  | nil => exact fun _ hs => hs
  | cons entry entries ih =>
    refine resetChannel_triple.bind fun _ => ih.conseq (fun _ => id) (fun _ s hs => ?_) fun _ => id
    simpa using hs

theorem forTimers_resetFd_triple {entries : List (ℕ × ℕ)}
    (h : ∀ entry ∈ entries, FdOwner.timer entry.2 ∈ os) :
    Triple (LiveWithout os) (forTimers resetFd entries) (fun _ => LiveWithout os) Live := by
  induction entries with
  | nil => exact fun _ hs => hs
  | cons entry entries ih =>
    obtain ⟨hentry, hentries⟩ := List.forall_mem_cons.mp h
    exact (resetFd_triple hentry).bind fun _ => ih hentries

theorem destroyEventLoop_triple :
    Triple Live (destroyEventLoop io) (fun _ => Sound) Sound := by
  have hchannel : Triple Live (resetChannel .wakeup io) (fun _ => LiveWithout [.wakeup]) Sound :=
    resetChannel_triple.conseq (fun s hs => ⟨hs, by simp⟩) (fun _ _ => id) fun _ => .inl
  have hfd : Triple (LiveWithout [.wakeup]) (resetFd .wakeup) (fun _ => Live) Sound :=
    (resetFd_triple (List.mem_singleton_self _)).conseq (fun _ => id) (fun _ _ hs => hs.1)
      fun _ => .inl
  refine hchannel.bind fun _ => hfd.bind fun _ => .get_bind fun s hs => ?_
  have hchannels : Triple (· = s) (forTimers (fun o => resetChannel o io) s.mTimerMap)
      (fun _ => LiveWithout (s.mTimerMap.map fun entry => .timer entry.2)) Sound := by
    have hstart : LiveWithout [] s := ⟨hs, by simp⟩
    have hreset := (forTimers_resetChannel_triple io s.mTimerMap).of_state hstart
    refine hreset.conseq (fun _ => id) (fun _ s' hs' => ?_) fun _ => .inl
    simpa [LiveWithout] using hs'
  have hfds : Triple (LiveWithout (s.mTimerMap.map fun entry => .timer entry.2))
      (forTimers resetFd s.mTimerMap) (fun _ => Live) Sound := by
    refine (forTimers_resetFd_triple fun entry hentry => ?_).conseq (fun _ => id)
      (fun _ _ hs' => hs'.1) fun _ => .inl
    exact List.mem_map_of_mem hentry
  have hmap : Triple Live (modify fun s => { s with mTimerMap := [] } : PollM Unit) (fun _ => Live)
      Sound := .modify fun s hs => hs.setTimerMap []
  exact hchannels.bind fun _ => hfds.bind fun _ => hmap.bind fun _ => destroyPoller_triple

theorem createTimer_triple {j fd : ℕ} :
    Triple Live (createTimer j fd) (fun _ => Live) Live :=
  holdFd_triple.conseq (fun _ => id) (fun _ _ hs => hs.1) fun _ => id

theorem dropTimer_triple {j : ℕ} : Triple Live (dropTimer j) (fun _ => Live) Live := by
  refine .get_bind fun s hs => .ite (fun hchannel => ?_) fun _ => Triple.throw.of_state hs
  exact resetFd_without_triple.of_state (hs.without hchannel)

theorem addTimer_triple {j i : ℕ} :
    Triple Live (addTimer j i channel io) (fun _ => Live) Live := by
  refine .get_bind fun s hs => .ite (fun _ => Triple.throw.of_state hs) fun hchannel => ?_
  have hmake : Triple (· = s) (unwind (makeChannel (.timer j) channel io) (resetFd (.timer j)))
      (fun _ => Live) Live :=
    unwind_makeChannel_triple.of_state (hs.without (not_not.mp hchannel))
  have henable : Triple Live (unwind (enableRead (.timer j) io)
      (do resetChannel (.timer j) io; resetFd (.timer j))) (fun _ => Live) Live :=
    unwind_triple enableRead_triple release_triple fun _ => id
  refine hmake.bind fun _ => henable.bind fun _ => .get_bind fun s₁ hs₁ => ?_
  exact .ite (fun _ => release_triple.of_state hs₁) fun _ => .set (hs₁.setTimerMap _)

theorem removeTimer_triple {i : ℕ} : Triple Live (removeTimer i io) (fun _ => Live) Live := by
  refine .get_bind fun s hs => ?_
  cases s.mTimerMap.find? (·.1 = i) with
  | none => exact Triple.pure.of_state hs
  | some entry =>
    have hrelease : Triple Live (do
        resetChannel (.timer entry.2) io
        resetFd (.timer entry.2)
        modify fun s => { s with mTimerMap := s.mTimerMap.filter (·.1 ≠ i) } : PollM Unit)
        (fun _ => Live) Live := by
      refine resetChannel_alone_triple.bind fun _ => resetFd_without_triple.bind fun _ => ?_
      exact .modify fun s hs => hs.setTimerMap _
    exact hrelease.of_state hs

theorem createServer_triple {k fd : ℕ} :
    Triple Live (createServer k fd channel io) (fun _ => Live) Live :=
  holdFd_triple.bind fun _ => unwind_makeChannel_triple

theorem destroyConnection_triple {c : ℕ} :
    Triple Live (destroyConnection c io) (fun _ => Live) Live := by
  refine logged_triple (.get_bind fun s hs => .ite (fun _ => ?_) fun hchannel => ?_)
  · exact (disableAll_triple.bind fun _ => release_triple).of_state hs
  · exact resetFd_without_triple.of_state (hs.without (not_not.mp hchannel))

theorem destroyTcpConnection_triple {c : ℕ} {isConnected : Bool} :
    Triple Live (destroyTcpConnection c isConnected io) (fun _ => Live) Live := by
  refine .ite (fun _ => ?_) fun _ => ?_
  · exact destroyConnection_triple.bind fun _ => release_triple
  · exact release_triple

theorem createNewConnection_triple {c fd : ℕ} :
    Triple Live (createNewConnection c fd channel io) (fun _ => Live) Live := by
  refine holdFd_triple.bind fun _ => unwind_makeChannel_triple.bind fun _ => ?_
  exact unwind_triple enableRead_triple destroyTcpConnection_triple fun _ => id

theorem doConnecting_triple {k : ℕ} {socket : ClientSocket} :
    Triple Live (doConnecting k socket channel io) (fun _ => Live) Live := by
  refine resetChannel_alone_triple.bind fun _ => resetFd_without_triple.bind fun _ => ?_
  match socket with
  | .failed none => exact fun _ hs => hs
  | .failed (some fd) => exact openFd_triple
  | .socket fd inProgress =>
    refine holdFd_triple.bind fun _ => .ite (fun _ => ?_) fun _ => ?_
    · have hmake : Triple (LiveWithout [.connector k]) (makeChannel (.connector k) channel io)
          (fun _ => Live) Live :=
        makeChannel_triple.conseq (fun _ => id) (fun _ _ => id) fun _ hs => hs.1
      exact hmake.bind fun _ => enableWrite_triple
    · exact Triple.pure.conseq (fun _ hs => hs.1) (fun _ _ => id) fun _ => id

/-- The socket of a client without a channel becomes that of a new connection. -/
theorem moveFd_triple {k c : ℕ} :
    Triple (fun s => LiveWithout [.connector k] s ∧ s.fds (.connection c) = none ∧
      s.channels (.connection c) = none) (moveFd k c) (fun _ => LiveWithout [.connection c])
      Live := by
  refine .get_bind fun s hs => ?_
  obtain ⟨⟨hlive, hwithout⟩, -, hchannel⟩ := hs
  cases hfd : s.fds (.connector k) with
  | none => exact Triple.throw.of_state hlive
  | some fd =>
    have hopen : s.isOpen fd = true := hlive.opened _ fd hfd
    have hclear := hlive.clearFd (hwithout _ (List.mem_singleton_self _))
    have hnew : ∀ o', (s.setFd (.connector k) none).fds o' ≠ some fd := by
      intro o' ho'
      simp only [setFd, Function.update_apply] at ho'
      split_ifs at ho' with heq
      exact heq (hlive.distinct o' _ fd ho' hfd)
    exact .set ((hclear.setFd hopen hnew hchannel).without hchannel)

theorem doConnected_triple {k c : ℕ} :
    Triple Live (doConnected k c channel io) (fun _ => Live) Live := by
  refine .get_bind fun s hs => .ite (fun _ => Triple.throw.of_state hs) fun _ => ?_
  have hnew : Triple (LiveWithout [.connector k]) (requireNew (.connection c))
      (fun _ s => LiveWithout [.connector k] s ∧ s.fds (.connection c) = none ∧
        s.channels (.connection c) = none) Live :=
    requireNew_triple.conseq (fun _ => id) (fun _ _ => id) fun _ hs => hs.1
  have hbody : Triple Live (do
      resetChannel (.connector k) io
      requireNew (.connection c)
      moveFd k c
      unwind (makeChannel (.connection c) channel io) (resetFd (.connection c)))
      (fun _ => Live) Live :=
    resetChannel_alone_triple.bind fun _ => hnew.bind fun _ => moveFd_triple.bind fun _ =>
      unwind_makeChannel_triple
  exact hbody.of_state hs

/-! ## Events -/

/-- `poll` finds a channel for every event, and tells it what was reported. -/
theorem poll_run (h : s.Live) {events : List (ℕ × EventMask)} (hevents : Watched s events) :
    ∃ channels s', (poll events).run s = .ok channels s' ∧ s'.Live ∧
      List.Forall₂ (fun event channel => ∃ ch, s.heap channel = some ch ∧ ch.mFd = event.1)
        events channels := by
  induction events generalizing s with
  | nil => exact ⟨[], s, rfl, h, .nil⟩
  | cons event events ih =>
    obtain ⟨hevent, hrest⟩ := List.forall_mem_cons.mp hevents
    have hmap : s.mChannelMap event.1 ≠ none := fun hnone => hevent ((h.keys _).mpr hnone)
    obtain ⟨channel, hchannel⟩ := Option.ne_none_iff_exists'.mp hmap
    obtain ⟨ch, hch, hfd⟩ := (h.map _ _).mp hchannel
    have hset : (setRevents event.1 event.2).run s =
        .ok channel (s.setHeap channel (some { ch with mRevent := event.2 })) := by
      simp only [setRevents, EStateM.run_bind, EStateM.run_get, hchannel, hch, EStateM.run_set,
        EStateM.run_pure]
    obtain ⟨channels, s', hrun, hlive, hall⟩ := ih (h.setRevents hch event.2) hrest
    refine ⟨channel :: channels, s', ?_, hlive, .cons ⟨ch, hch, hfd⟩ (hall.imp ?_)⟩
    · simp only [poll, EStateM.run_bind, hset, hrun, EStateM.run_pure]
    · rintro event' channel' ⟨ch', hch', hfd'⟩
      simp only [setHeap, Function.update_apply] at hch'
      split_ifs at hch' with heq
      · obtain rfl := Option.some.inj hch'
        exact ⟨ch, heq ▸ hch, hfd'⟩
      · exact ⟨ch', hch', hfd'⟩

/-! ## Runs -/

theorem runStep_triple (i : PollStep) :
    Triple Live (runStep io i) (fun _ => Sound) Sound := by
  -- a live state is sound, and only the end of the loop leaves one that is not live
  have hsound : ∀ {x : PollM Unit}, Triple Live x (fun _ => Live) Live →
      Triple Live x (fun _ => Sound) Sound :=
    fun hx => hx.conseq (fun _ => id) (fun _ _ => .inl) fun _ => .inl
  cases i with
  | eventLoop fd channel => exact eventLoop_triple
  | destroyEventLoop => exact destroyEventLoop_triple
  | poll events =>
    refine hsound (.get_bind fun s hs => .ite (fun hwatched => ?_) fun _ => ?_)
    · rintro s' rfl
      obtain ⟨channels, s₁, hrun, hlive, -⟩ := poll_run hs hwatched
      simpa only [EStateM.run_bind, hrun, EStateM.run_pure] using hlive
    · exact Triple.throw.of_state hs
  | createTimer j fd => exact hsound createTimer_triple
  | dropTimer j => exact hsound dropTimer_triple
  | addTimer j id channel => exact hsound addTimer_triple
  | removeTimer id => exact hsound removeTimer_triple
  | createServer k fd channel => exact hsound createServer_triple
  | start k => exact hsound enableRead_triple
  | destroyServer k => exact hsound release_triple
  | createNewConnection c fd channel => exact hsound createNewConnection_triple
  | establishConnect c => exact hsound enableRead_triple
  | sendInLoop c => exact hsound enableWrite_triple
  | handleWrite c => exact hsound disableWrite_triple
  | shutdownConnection c => exact hsound (logged_triple disableWrite_triple)
  | destroyConnection c => exact hsound destroyConnection_triple
  | destroyTcpConnection c isConnected => exact hsound destroyTcpConnection_triple
  | doConnecting k socket channel => exact hsound doConnecting_triple
  | doConnected k c channel => exact hsound doConnected_triple
  | destroyClient k => exact hsound release_triple

theorem step_sound (i : PollStep × CtlIo) :
    Triple Sound (step i) (fun _ => Sound) Sound := by
  refine .get_bind fun s hs => .ite (fun _ => Triple.throw.of_state hs) fun hlive => ?_
  obtain hs | ⟨hdestroyed, -, -⟩ := hs
  · exact (logged_triple (runStep_triple i.1)).of_state hs
  · exact absurd (.inl hdestroyed) hlive

/-- What the steps keep, a run keeps, also where it stops. -/
theorem sound_exec (is : List (PollStep × CtlIo)) (hs : s.Sound) :
    (Machine.final ((Machine.exec step is).run s)).Sound := by
  have hkeeps := (Machine.Keeps.exec fun i => (step_sound i).keeps) is
  exact hkeeps s hs

/-- **In every state that a run reaches the containers, the kernel and the channels agree; a failing
call changes nothing, and `poll` finds for every event a channel that is there.** -/
theorem registered_run (is : List (PollStep × CtlIo)) :
    let s := Machine.final ((Machine.exec step is).run create)
    s.Registered ∧
      (∀ channel io e s', (addChannel channel io).run s = .error e s' → s' = s) ∧
      (∀ channel io e s', (removeChannel channel io).run s = .error e s' → s' = s) ∧
      ∀ events, Watched s events → ∃ channels s', (poll events).run s = .ok channels s' ∧
        List.Forall₂ (fun event channel => ∃ ch, s.heap channel = some ch ∧ ch.mFd = event.1)
          events channels := by
  intro s
  have hs : s.Sound := sound_exec is (.inl live_create)
  refine ⟨hs.registered, fun _ _ _ _ => addChannel_error, fun _ _ _ _ => removeChannel_error,
    fun events hevents => ?_⟩
  obtain hlive | ⟨-, -, hnone⟩ := hs
  · obtain ⟨channels, s', hrun, -, hall⟩ := poll_run hlive hevents
    exact ⟨channels, s', hrun, hall⟩
  · cases events with
    | nil => exact ⟨[], s, rfl, .nil⟩
    | cons event events => exact absurd (hnone event.1) (List.forall_mem_cons.mp hevents).1

def noErrors : CtlIo := ⟨fun _ => none, fun _ => none, fun _ => none, fun _ => none⟩

/-- A timer that the kernel does not watch is given up, and a connection gets its descriptor and the
address of its channel. -/
def reused : List (PollStep × CtlIo) :=
  [(.eventLoop 3 10, noErrors), (.createServer 0 4 11, noErrors), (.start 0, noErrors),
    (.createTimer 0 5, noErrors), (.addTimer 0 1 12, { noErrors with mod := fun _ => some 12 }),
    (.createNewConnection 0 5 12, noErrors)]

theorem registered_run_reused :
    let s := Machine.final ((Machine.exec step reused).run create)
    s.Registered ∧ s.mChannelMap 5 = some 12 ∧
      ∃ channels s', (poll [(4, EPOLLIN), (5, EPOLLIN)]).run s = .ok channels s' ∧
        channels.length = 2 := by
  intro s
  obtain ⟨hregistered, -, -, hpoll⟩ := registered_run reused
  have hwatched : Watched s [(4, EPOLLIN), (5, EPOLLIN)] := by decide +kernel
  obtain ⟨channels, s', hrun, hall⟩ := hpoll _ hwatched
  exact ⟨hregistered, by decide +kernel, channels, s', hrun, hall.length_eq.symm⟩

end Epoller

end SimpleTcp
