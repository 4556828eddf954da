import SimpleTcp.Tcp.ConnectionSet

/-!
# The limit of connections

A server accepts and drops a connection when `mConnectionSet` has reached `MAX_CONNECTION_NUMS`. The
test, `establishConnect` and the insertion are steps of one thread, and other threads erase
connections in between; still the set never grows beyond the limit, and with it the number of
connections that are alive. Without threads in the pool a connection is dropped only when as many
are alive as may be; with threads, a destroyed connection that stays in the set uses up its place.

## Main definitions

* `PooledServer.livePositions`: the connections that are established and not destroyed
* `PooledServer.Limited`: the set and the live connections are within the limit

## Main results

* `PooledServer.limited_always`: the limit holds throughout every run
* `PooledServer.length_set_eq`: without threads in the pool, the set is the live connections
-/

namespace SimpleTcp

open Machine Positions

instance : DecidablePred Session.Live := fun _ => inferInstanceAs (Decidable (_ ∧ _ ≠ _))

namespace Accepting

/-- The connection that is established and not yet inserted. -/
def inserting : Accepting → List Nat
  | .established pos => [pos]
  | _ => []

/-- The place that the accepting thread will take. -/
def taking : Accepting → Nat
  | .idle => 0
  | _ => 1

theorem length_inserting_le (a : Accepting) : a.inserting.length ≤ a.taking := by
  cases a <;> simp [inserting, taking]

end Accepting

namespace PooledServer

variable {s s' : PooledServer}

/-- The connections that are established and not destroyed. -/
def livePositions (s : PooledServer) : List Nat :=
  (List.range s.server.sessions.length).filter fun pos => At s.server.sessions pos Session.Live

theorem mem_livePositions {pos : Nat} :
    pos ∈ s.livePositions ↔ At s.server.sessions pos Session.Live := by
  rw [livePositions, List.mem_filter, decide_eq_true_eq, List.mem_range]
  refine and_iff_right_of_imp ?_
  rintro ⟨t, ht, -⟩
  exact (List.getElem?_eq_some_iff.mp ht).1

theorem livePositions_nodup : s.livePositions.Nodup := List.nodup_range.filter _

/-- There is a place for what is being accepted. -/
def HasPlace (s : PooledServer) : Prop :=
  s.server.mConnectionSet.length + s.accepting.taking ≤ TcpServer.MAX_CONNECTION_NUMS

/-- A live connection is in the set, or is being inserted. -/
theorem live_subset (h : Inv s) :
    s.livePositions ⊆ s.accepting.inserting ++ s.server.mConnectionSet := by
  intro pos hpos
  rw [List.mem_append]
  by_cases hacc : s.accepting = .established pos
  · left
    rw [hacc]
    exact List.mem_singleton_self pos
  · exact .inr (h.live pos (mem_livePositions.mp hpos) hacc)

/-- An accepted connection is dropped when the set is full. -/
theorem accept_ok {res : AcceptResult} (hrun : (step (.accept res)).run s = .ok () s') :
    s' = s ∨ s.MayAccept ∧ s.server.mConnectionSet.length ≠ TcpServer.MAX_CONNECTION_NUMS ∧
      s' = { s with
        server.sessions := s.server.sessions ++ [Session.created]
        accepting := .created s.server.sessions.length } := by
  by_cases hmay : s.MayAccept
  · have haccept : (accept res).run s = .ok () s ∨ ∃ e, (accept res).run s = .error e s := by
      change accept res s = _ ∨ ∃ e, accept res s = _
      unfold accept
      cases (TcpServer.accept s.server.mIpProtocol res).run s.server with
      | ok u srv => exact .inl rfl
      | error e srv => exact .inr ⟨e, rfl⟩
    simp only [step, EStateM.run_bind, EStateM.run_get, if_pos hmay] at hrun
    rcases haccept with haccept | ⟨e, haccept⟩
    · simp only [haccept] at hrun
      split at hrun
      · rename_i hroom
        cases hrun
        exact .inr ⟨hmay, hroom, rfl⟩
      · cases hrun
        exact .inl rfl
    · simp only [haccept] at hrun
      cases hrun
  · have hsame : s = s' := by simpa [step, EStateM.run_bind, EStateM.run_get, hmay] using hrun
    exact .inl hsame.symm

/-- **A step** keeps the place of what is being accepted. -/
theorem hasPlace_step {i : PooledEvent} (h : Inv s) (hp : s.HasPlace)
    (hrun : (step i).run s = .ok () s') : s'.HasPlace := by
  unfold HasPlace at hp ⊢
  cases i with
  | accept res =>
    rcases accept_ok hrun with rfl | ⟨⟨hidle, -⟩, hroom, rfl⟩
    · exact hp
    · rw [hidle] at hp
      show s.server.mConnectionSet.length + 1 ≤ _
      exact Nat.lt_of_le_of_ne hp hroom
  | establish cs =>
    cases moves_of_ok h.created hrun with
    | none _ => exact hp
    | established hacc _ _ =>
      rw [hacc] at hp
      exact hp
  | insert =>
    cases moves_of_ok h.created hrun with
    | none _ => exact hp
    | inserted hacc =>
      rw [hacc] at hp
      rw [List.length_append, List.length_singleton]
      exact hp
  | early pos mRevent io =>
    cases moves_of_ok h.created hrun with
    | none _ => exact hp
    | early _ _ => exact hp
  | conn pos i =>
    cases moves_of_ok h.created hrun with
    | none _ => exact hp
    | conn _ _ _ => exact hp
  | erase pos =>
    cases moves_of_ok h.created hrun with
    | none _ => exact hp
    | erased hpos =>
      have hle := List.length_erase_le (a := pos) (l := s.server.mConnectionSet)
      dsimp only
      omega

/-- The set holds no more than the limit, and no more connections are alive. -/
structure Limited (s : PooledServer) : Prop where
  set : s.server.mConnectionSet.length ≤ TcpServer.MAX_CONNECTION_NUMS
  live : s.livePositions.length ≤ TcpServer.MAX_CONNECTION_NUMS
  /-- Without threads in the pool, a connection is dropped when as many are alive as may be. -/
  full : s.maxThreadNum = 0 → s.MayAccept →
    (s.server.mConnectionSet.length = TcpServer.MAX_CONNECTION_NUMS ↔
      s.livePositions.length = TcpServer.MAX_CONNECTION_NUMS)

/-- Between two accepts of a server without threads in its pool, the set is the live
connections. -/
theorem length_set_eq (h : Inv s) (hstale : ¬ s.Stale) (hmay : s.MayAccept)
    (hmax : s.maxThreadNum = 0) : s.server.mConnectionSet.length = s.livePositions.length := by
  obtain ⟨hidle, herasing⟩ := hmay
  apply List.Perm.length_eq
  rw [List.perm_ext_iff_of_nodup h.setNodup livePositions_nodup]
  intro pos
  rw [mem_livePositions]
  refine ⟨fun hset => ?_, fun hlive => h.live pos hlive (by simp [hidle])⟩
  obtain ⟨-, t, ht, hest⟩ := h.member pos hset
  refine ⟨t, ht, hest, ?_⟩
  by_contra hgone
  exact hstale ⟨pos, ⟨t, ht, hest, hgone⟩, by simp [herasing hmax], .inr hset⟩

theorem limited_of_inv (h : Inv s) (hp : s.HasPlace)
    (hstale : s.maxThreadNum = 0 → ¬ s.Stale) : s.Limited where
  set := (Nat.le_add_right _ _).trans hp
  live := by
    have hlen := (livePositions_nodup.subperm (live_subset h)).length_le
    have htaking := s.accepting.length_inserting_le
    unfold HasPlace at hp
    rw [List.length_append] at hlen
    omega
  full := by
    intro hmax hmay
    rw [length_set_eq h (hstale hmax) hmay hmax]

/-- **The limit holds** in every state of every run, for any number of threads. -/
theorem limited_always (maxThreadNum : Nat) (mIpProtocol : IpProtocol)
    (events : List PooledEvent) :
    Always step (fun r => ∀ s, r = .ok () s → s.Limited) (start maxThreadNum mIpProtocol)
      events := by
  refine always_of_invariant
    (I := fun s => Inv s ∧ s.HasPlace ∧ (s.maxThreadNum = 0 → ¬ s.Stale)) ?_ ?_ ?_ ?_ events
  · rintro s ⟨h, hp, hstale⟩ s' hs
    cases hs
    exact limited_of_inv h hp hstale
  · rintro s i s' ⟨h, hp, hstale⟩ hrun
    have hsame := (moves_of_ok h.created hrun).maxThreadNum
    refine ⟨inv_step h hrun, hasPlace_step h hp hrun, fun hmax => ?_⟩
    rw [hsame] at hmax
    rw [stale_step h hrun, not_or, not_not]
    exact ⟨hstale hmax, insertedFirst_of_no_threads h hmax i⟩
  · intro s i e s' _ _ s'' hs
    cases hs
  · exact ⟨inv_start _ _, Nat.zero_le _, fun _ => not_stale_start _ _⟩

end PooledServer

end SimpleTcp
