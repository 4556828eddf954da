import Mathlib.Logic.Relation
import SimpleTcp.Chat.Server
import SimpleTcp.Tcp.Delivery

/-!
# The moves of the chat server

Every event of the chat server is a few moves: a connection is established or closed, a piece of
its input is stored and at most one request taken from it, a message is appended to the send
buffers of all clients, or nothing that matters to the chat happens. The properties of the chat are
shown for the moves, and never for a handler.

## Main definitions

* `Move`: what an event of the chat server is made of
* `Serving`: the clients are the connected connections

## Main results

* `Move.serving`: the moves keep the clients and the connections together
-/

namespace SimpleTcp

open TcpConnection

namespace ChatServer

variable {s s' : ChatServer} {conn : Nat}

/-- `piece` was stored, and no request found in what then waits. -/
structure Waited (s : ChatServer) (conn : Nat) (piece : Bytes) (t : ChatServer) : Prop where
  next : nextRequest ((s.conns conn).conn.mRecvBuffer.readable ++ piece) = none
  eq : ∃ b : TcpBuffer, b.HasRoom ∧
    b.readable = (s.conns conn).conn.mRecvBuffer.readable ++ piece ∧
    t = { s with
      conns := Function.update s.conns conn { s.conns conn with conn.mRecvBuffer := b }
      pieces := Function.update s.pieces conn (s.pieces conn ++ [piece]) }

/-- `piece` was stored, and `request` taken from the front of what then waited. -/
structure Taken (s : ChatServer) (conn : Nat) (piece request : Bytes) (t : ChatServer) :
    Prop where
  next : nextRequest ((s.conns conn).conn.mRecvBuffer.readable ++ piece) = some request
  le_max : ((s.conns conn).conn.mRecvBuffer.readable ++ piece).length ≤ maxSize
  eq : ∃ b : TcpBuffer, b.HasRoom ∧
    b.readable =
      ((s.conns conn).conn.mRecvBuffer.readable ++ piece).drop request.length ∧
    t = { s with
      conns := Function.update s.conns conn { s.conns conn with conn.mRecvBuffer := b }
      pieces := Function.update s.pieces conn (s.pieces conn ++ [piece])
      requests := Function.update s.requests conn (s.requests conn ++ [request]) }

/-- What an event of the chat server is made of. -/
inductive Move (s : ChatServer) : ChatServer → Prop
  | idle {conn : Nat} {k : Ctx} (h : Delivered (s.conns conn) k []) :
      Move s { s with conns := Function.update s.conns conn k }
  | established {conn : Nat} (h : s.conns conn = Ctx.created) :
      Move s { s with
        conns := Function.update s.conns conn Ctx.start
        mClients := if conn ∈ s.mClients then s.mClients else s.mClients.insert conn []
        log := s.log ++ [.established conn] }
  | closed {conn : Nat} (hopen : (s.conns conn).conn.mState ≠ .disConnected) :
      Move s { s with
        conns := Function.update s.conns conn (s.conns conn).closing
        mClients := s.mClients.erase conn
        log := s.log ++ [.destroyed conn] }
  | waited {conn : Nat} {piece : Bytes} {t : ChatServer} (h : Waited s conn piece t) : Move s t
  | ignored {conn : Nat} {piece request : Bytes} {t : ChatServer}
      (h : Taken s conn piece request t)
      (htype : ∀ type, type = requestType ((s.conns conn).conn.mRecvBuffer.readable ++ piece) →
        type ≠ .Message ∧ type ≠ .Register) : Move s t
  | registered {conn : Nat} {piece request : Bytes} {t : ChatServer}
      (h : Taken s conn piece request t)
      (htype : requestType ((s.conns conn).conn.mRecvBuffer.readable ++ piece) = .Register)
      (hlen : RequestHdr.size ≤ request.length) (hmem : conn ∈ s.mClients) :
      Move s { t with
        mClients := s.mClients.insert conn (cStr (request.drop RequestHdr.size))
        log := s.log ++ [.register conn (request.drop RequestHdr.size)] }
  | said {conn : Nat} {piece request name : Bytes} {t : ChatServer} {conns : Nat → Ctx}
      (h : Taken s conn piece request t)
      (htype : requestType ((s.conns conn).conn.mRecvBuffer.readable ++ piece) = .Message)
      (hlen : RequestHdr.size ≤ request.length) (hname : s.mClients.lookup conn = some name)
      (hall : ∀ d, Delivered (t.conns d) (conns d)
        (if d ∈ s.mClients then [chatMessage name (request.drop RequestHdr.size)] else [])) :
      Move s { t with
        conns := conns
        log := s.log ++ [.message conn (request.drop RequestHdr.size)] }

/-- The clients are the connected connections, which nothing has shut down or queued a close
for, and what was sent to a connection and is not written waits. -/
structure Serving (s : ChatServer) : Prop where
  sound : ∀ c, (s.conns c).Sound
  mem_iff : ∀ c, c ∈ s.mClients ↔ (s.conns c).conn.mState = .connected
  not_half : ∀ c, (s.conns c).conn.mState ≠ .halfClosed
  closing : ∀ c, .close ∈ (s.conns c).mPendingTasks → (s.conns c).conn.mState = .disConnected
  pending : ∀ c, (s.conns c).Pending

theorem start_serving : start.Serving where
  sound _ := Ctx.created_sound
  mem_iff c := iff_of_false (AList.notMem_empty c) (by simp [start, Ctx.created, create])
  not_half _ := by simp [start, Ctx.created, create]
  closing _ h := absurd h List.not_mem_nil
  pending _ := Ctx.created_pending

theorem Serving.of_kept (hs : s.Serving) (hmem : ∀ c, c ∈ s'.mClients ↔ c ∈ s.mClients)
    (hkept : ∀ c, Kept (s.conns c) (s'.conns c)) : s'.Serving where
  sound c := (hkept c).sound
  mem_iff c := by rw [hmem, hs.mem_iff, (hkept c).mState]
  not_half c := by
    rw [(hkept c).mState]
    exact hs.not_half c
  closing c h := by
    rw [(hkept c).mState]
    exact hs.closing c ((hkept c).tasks _ h)
  pending c := (hkept c).pending (hs.pending c)

/-- Only one connection has changed, and is a client as it is connected. -/
theorem Serving.of_update (hs : s.Serving) {k : Ctx}
    (hconns : s'.conns = Function.update s.conns conn k)
    (hother : ∀ c ≠ conn, c ∈ s'.mClients ↔ c ∈ s.mClients)
    (hmem : conn ∈ s'.mClients ↔ k.conn.mState = .connected) (hsound : k.Sound)
    (hhalf : k.conn.mState ≠ .halfClosed)
    (hclosing : .close ∈ k.mPendingTasks → k.conn.mState = .disConnected) (hpending : k.Pending) :
    s'.Serving := by
  have hself : s'.conns conn = k := by rw [hconns, Function.update_self]
  have hrest : ∀ c, c ≠ conn → s'.conns c = s.conns c := fun c hc => by
    rw [hconns, Function.update_of_ne hc]
  refine ⟨fun c => ?_, fun c => ?_, fun c => ?_, fun c => ?_, fun c => ?_⟩ <;>
    by_cases hc : c = conn
  · rw [hc, hself]
    exact hsound
  · rw [hrest c hc]
    exact hs.sound c
  · rw [hc, hself]
    exact hmem
  · rw [hrest c hc, hother c hc]
    exact hs.mem_iff c
  · rw [hc, hself]
    exact hhalf
  · rw [hrest c hc]
    exact hs.not_half c
  · rw [hc, hself]
    exact hclosing
  · rw [hrest c hc]
    exact hs.closing c
  · rw [hc, hself]
    exact hpending
  · rw [hrest c hc]
    exact hs.pending c

/-- Only one connection has changed. -/
theorem kept_update (hs : s.Serving) {k : Ctx} (hk : Kept (s.conns conn) k) (c : Nat) :
    Kept (s.conns c) (Function.update s.conns conn k c) := by
  by_cases hc : c = conn
  · rw [hc, Function.update_self]
    exact hk
  · rw [Function.update_of_ne hc]
    exact ⟨hs.sound c, rfl, fun _ => id, id⟩

theorem Taken.kept {piece request : Bytes} {t : ChatServer} (h : Taken s conn piece request t)
    (hs : s.Serving) (c : Nat) : Kept (s.conns c) (t.conns c) := by
  obtain ⟨b, hb, -, rfl⟩ := h.eq
  exact kept_update hs (.received (hs.sound conn) hb) c

theorem Taken.mClients {piece request : Bytes} {t : ChatServer}
    (h : Taken s conn piece request t) : t.mClients = s.mClients := by
  obtain ⟨b, -, -, rfl⟩ := h.eq
  rfl

theorem Taken.log {piece request : Bytes} {t : ChatServer}
    (h : Taken s conn piece request t) : t.log = s.log := by
  obtain ⟨b, -, -, rfl⟩ := h.eq
  rfl

/-- **The moves keep the clients and the connections together.** -/
theorem Move.serving (h : Move s s') (hs : s.Serving) : s'.Serving := by
  cases h with
  | idle h => exact hs.of_kept (fun _ => Iff.rfl) (kept_update hs h.kept)
  | @established conn h =>
    have hnot : conn ∉ s.mClients := by
      rw [hs.mem_iff, h]
      simp [Ctx.created, create]
    have hstart : Ctx.start.conn.mState = .connected := rfl
    refine hs.of_update rfl (fun c hc => ?_) ?_ Ctx.start_sound (by simp [hstart])
      (fun h => absurd h List.not_mem_nil) Ctx.start_pending
    · dsimp only
      rw [if_neg hnot, AList.mem_insert]
      simp [hc]
    · dsimp only
      rw [if_neg hnot, AList.mem_insert]
      exact iff_of_true (.inl rfl) hstart
  | @closed conn hopen =>
    have hstate : (s.conns conn).closing.conn.mState = .disConnected := rfl
    refine hs.of_update rfl (fun c hc => ?_) ?_ (hs.sound conn).closing (by simp [hstate])
      (fun _ => hstate) (hs.pending conn).closing
    · dsimp only
      rw [AList.mem_erase]
      simp [hc]
    · dsimp only
      rw [AList.mem_erase, hstate]
      simp
  | waited h =>
    obtain ⟨b, hb, -, rfl⟩ := h.eq
    exact hs.of_kept (fun _ => Iff.rfl)
      (kept_update hs (.received (hs.sound _) hb))
  | ignored h =>
    refine hs.of_kept (fun _ => ?_) (h.kept hs)
    rw [h.mClients]
  | registered h _ _ hmem =>
    refine hs.of_kept (fun c => ?_) (h.kept hs)
    dsimp only
    rw [AList.mem_insert]
    constructor
    · rintro (rfl | hc)
      · exact hmem
      · exact hc
    · exact .inr
  | said h _ _ _ hall =>
    refine hs.of_kept (fun c => ?_) (fun c => ?_)
    · dsimp only
      rw [h.mClients]
    · have ht := h.kept hs c
      exact ⟨(hall c).sound, (hall c).mState.trans ht.mState,
        fun t hmem => ht.tasks t ((hall c).tasks t hmem),
        fun hp => (hall c).pending (ht.pending hp)⟩

theorem serving_of_moves (hs : s.Serving) (h : Relation.ReflTransGen Move s s') :
    s'.Serving := by
  induction h with
  | refl => exact hs
  | tail _ hmove ih => exact hmove.serving ih

end ChatServer

end SimpleTcp
