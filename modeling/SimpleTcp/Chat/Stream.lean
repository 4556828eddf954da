import SimpleTcp.Chat.Room

/-!
# The requests of a chat client

The requests of a client are frames on a stream that `read(2)` cuts anywhere, and the message
callback takes at most one of them each time it is called. So the server handles the first of the
requests a client has written, each exactly as it was written; but a client that writes faster than
its events come is answered later and later, because nothing wakes the server for a request that
waits in the receive buffer.

A header that no request of a client has may stop this for good: a length of zero takes nothing
from the stream, and a length that no buffer can have is waited for.

## Main definitions

* `ChatLog.ofRequest`: the line that a request leaves in the log
* `Inbox`, `Inbox.after`: what a connection's own pieces make of it
* `ChatServer.Handled`: the requests that were handled, and their number
* `Stuck`: the headers behind which nothing is handled

## Main results

* `nextRequest_eq`: what a look finds on the stream of a client
* `inbox_eq_after`: the input of a connection is handled as its own pieces say
* `handled_always`: the requests that are handled, throughout every run
* `stuck_of_run`: a stuck connection stays stuck
-/

namespace SimpleTcp

/-! ### Looking at a stream -/

theorem ofBytes_take {bs : Bytes} :
    RequestHdr.ofBytes (bs.take RequestHdr.size) = RequestHdr.ofBytes bs := by
  simp only [RequestHdr.ofBytes, RequestHdr.size, Vec.slice, List.drop_take, List.take_take,
    List.drop_zero]
  rfl

/-- The header of the first request, as soon as it is there. -/
theorem ofBytes_of_prefix {a : Request} {bs rest : Bytes} (h : bs <+: a.bytes ++ rest)
    (hsize : RequestHdr.size ≤ bs.length) : RequestHdr.ofBytes bs = a.hdr := by
  obtain ⟨later, hlater⟩ := h
  calc RequestHdr.ofBytes bs
    _ = RequestHdr.ofBytes ((bs ++ later).take RequestHdr.size) := by
      rw [List.take_append_of_le_length hsize, ofBytes_take]
    _ = RequestHdr.ofBytes (a.bytes ++ rest) := by rw [ofBytes_take, hlater]
    _ = a.hdr := by rw [a.bytes_eq, List.append_assoc, RequestHdr.ofBytes_toBytes_append]

theorem nextRequest_append (a : Request) (rest : Bytes) :
    nextRequest (a.bytes ++ rest) = some a.bytes := by
  have hlen : a.bytes.length ≤ (a.bytes ++ rest).length := by
    rw [List.length_append]
    omega
  have hsize : RequestHdr.size ≤ (a.bytes ++ rest).length := by
    have := a.length_bytes
    omega
  have hhdr := ofBytes_of_prefix (List.prefix_refl (a.bytes ++ rest)) hsize
  unfold nextRequest
  rw [ofBytes_take, hhdr, a.mReqLength_hdr]
  dsimp only
  rw [if_pos ⟨hsize, hlen⟩, List.take_left]

theorem nextRequest_of_short {a : Request} {bs rest : Bytes} (h : bs <+: a.bytes ++ rest)
    (hshort : bs.length < a.bytes.length) : nextRequest bs = none := by
  unfold nextRequest
  dsimp only
  rw [if_neg]
  rintro ⟨hsize, hlen⟩
  rw [ofBytes_take, ofBytes_of_prefix h hsize, a.mReqLength_hdr] at hlen
  omega

/-- **A look at the stream of a client** finds the first request, if it is there as a whole. -/
theorem nextRequest_eq {as : List Request} {bs : Bytes} (h : bs <+: requestCode.stream as) :
    nextRequest bs = (requestCode.decode bs).map fun found => found.1.bytes := by
  rcases requestCode.decode_prefix h with ⟨hnone, hzero⟩ | ⟨a, as', rest, -, hbs, -, hsome⟩
  · rw [hnone, Option.map_none]
    cases as with
    | nil =>
      obtain rfl : bs = [] := List.prefix_nil.mp h
      rfl
    | cons a as =>
      rw [Frames.Code.stream_cons] at h
      refine nextRequest_of_short h (Nat.lt_of_not_le fun hle => ?_)
      have hone : requestCode.whole (a :: as) bs.length ≠ 0 := by
        rw [Frames.Code.whole, if_pos (show (requestCode.encode a).length ≤ bs.length from hle)]
        omega
      exact hone hzero
  · rw [hsome, Option.map_some, hbs]
    exact nextRequest_append a rest

/-! ### Requests and the log -/

/-- The line that a request of a connection leaves in the log. -/
def ChatLog.ofRequest (conn : Nat) (request : Bytes) : Option ChatLog :=
  if RequestHdr.size ≤ request.length then
    if requestType request = .Message then some (.message conn (request.drop RequestHdr.size))
    else if requestType request = .Register then
      some (.register conn (request.drop RequestHdr.size))
    else none
  else none

/-- The line is about a request of the connection. -/
def ChatLog.SaidBy (conn : Nat) : ChatLog → Prop
  | .message c _ | .register c _ => c = conn
  | _ => False

instance (conn : Nat) : DecidablePred (ChatLog.SaidBy conn) := fun line => by
  unfold ChatLog.SaidBy
  split <;> infer_instance

/-- The line of a request of a client. -/
def Request.line (conn : Nat) (a : Request) : Option ChatLog :=
  if a.mReqType = .Message then some (.message conn a.data)
  else if a.mReqType = .Register then some (.register conn a.data)
  else none

theorem ofRequest_bytes (conn : Nat) (a : Request) :
    ChatLog.ofRequest conn a.bytes = a.line conn := by
  have hsize : RequestHdr.size ≤ a.bytes.length := by
    rw [a.length_bytes]
    omega
  have hpre : a.bytes <+: a.bytes ++ [] := List.prefix_append _ _
  have htype : requestType a.bytes = a.mReqType := by
    rw [requestType, ofBytes_take, ofBytes_of_prefix hpre hsize]
    rfl
  have hdata : a.bytes.drop RequestHdr.size = a.data := by
    rw [a.bytes_eq, ← a.hdr.length_toBytes, List.drop_left]
  rw [ChatLog.ofRequest, if_pos hsize, htype, hdata]
  rfl

/-! ### The input of one connection -/

/-- What was read from a connection, the requests taken from it, what waits, and the lines of the
requests in the log. -/
structure Inbox where
  pieces : List Bytes
  requests : List Bytes
  waiting : Bytes
  lines : List ChatLog

namespace Inbox

def empty : Inbox := ⟨[], [], [], []⟩

/-- A piece is read, and one look is taken at what then waits. -/
def arrive (conn : Nat) (i : Inbox) (piece : Bytes) : Inbox :=
  match nextRequest (i.waiting ++ piece) with
  | none => { i with pieces := i.pieces ++ [piece], waiting := i.waiting ++ piece }
  | some request =>
    { pieces := i.pieces ++ [piece]
      requests := i.requests ++ [request]
      waiting := (i.waiting ++ piece).drop request.length
      lines := i.lines ++ (ChatLog.ofRequest conn request).toList }

def after (conn : Nat) (pieces : List Bytes) : Inbox := pieces.foldl (arrive conn) empty

@[simp] theorem after_nil (conn : Nat) : after conn [] = empty := rfl

@[simp] theorem after_concat (conn : Nat) (pieces : List Bytes) (piece : Bytes) :
    after conn (pieces ++ [piece]) = (after conn pieces).arrive conn piece := by
  simp [after]

theorem pieces_arrive (conn : Nat) (i : Inbox) (piece : Bytes) :
    (i.arrive conn piece).pieces = i.pieces ++ [piece] := by
  unfold arrive
  split <;> rfl

/-- **On the stream of a client** the connection is read as a reader of frames reads it. -/
theorem after_stream (conn : Nat) {as : List Request} {pieces : List Bytes}
    (h : pieces.flatten <+: requestCode.stream as) :
    (after conn pieces).waiting = (Frames.Reader.run requestCode pieces).waiting ∧
      (after conn pieces).requests =
        (Frames.Reader.run requestCode pieces).taken.map Request.bytes ∧
      (after conn pieces).lines =
        (Frames.Reader.run requestCode pieces).taken.filterMap (Request.line conn) := by
  induction pieces using List.reverseRecOn with
  | nil => exact ⟨rfl, rfl, rfl⟩
  | append_singleton pieces piece ih =>
    rw [List.flatten_append, List.flatten_singleton] at h
    have hshort := (List.prefix_append _ _).trans h
    obtain ⟨hwaiting, hrequests, hlines⟩ := ih hshort
    -- what waits, with the piece, is the beginning of the rest of the stream
    obtain ⟨htaken, hall⟩ := Frames.reads_run requestCode hshort
    obtain ⟨later, rfl⟩ := htaken
    rw [← hall, List.append_assoc, Frames.Code.stream_append, List.prefix_append_right_inj] at h
    have hnext := nextRequest_eq h
    rw [after_concat, Frames.Reader.run_concat]
    unfold arrive Frames.Reader.arrive
    rw [hwaiting, hnext]
    rcases requestCode.decode_prefix h with ⟨hnone, -⟩ | ⟨a, as', rest, -, hrest, -, hsome⟩
    · rw [hnone, Option.map_none]
      exact ⟨rfl, hrequests, hlines⟩
    · rw [hsome, Option.map_some]
      refine ⟨?_, ?_, ?_⟩
      · dsimp only
        rw [hrest]
        exact List.drop_left
      · dsimp only
        rw [hrequests, List.map_append, List.map_singleton]
      · dsimp only
        rw [hlines, List.filterMap_append, ofRequest_bytes]
        cases hline : a.line conn <;> simp [hline]

end Inbox

namespace ChatServer

open TcpConnection

variable {s s' : ChatServer}

/-- The input of a connection, as the server has it. -/
def inbox (s : ChatServer) (conn : Nat) : Inbox where
  pieces := s.pieces conn
  requests := s.requests conn
  waiting := (s.conns conn).conn.mRecvBuffer.readable
  lines := s.log.filter (ChatLog.SaidBy conn)

/-- The line of a request is one of its connection. -/
theorem filter_saidBy_concat (log : List ChatLog) (conn : Nat) (line : ChatLog) :
    (log ++ [line]).filter (ChatLog.SaidBy conn) =
      log.filter (ChatLog.SaidBy conn) ++ if line.SaidBy conn then [line] else [] := by
  rw [List.filter_append]
  congr 1
  by_cases h : line.SaidBy conn <;> simp [h]

/-- A move that reads nothing from the connection. -/
theorem inbox_of_same {conn : Nat} (hpieces : s'.pieces conn = s.pieces conn)
    (hrequests : s'.requests conn = s.requests conn)
    (hreadable : (s'.conns conn).conn.mRecvBuffer.readable =
      (s.conns conn).conn.mRecvBuffer.readable)
    (hlog : s'.log.filter (ChatLog.SaidBy conn) = s.log.filter (ChatLog.SaidBy conn)) :
    s'.inbox conn = s.inbox conn := by
  rw [inbox, hpieces, hrequests, hreadable, hlog]
  rfl

theorem readable_update {conn : Nat} {k : Ctx}
    (hk : k.conn.mRecvBuffer.readable = (s.conns conn).conn.mRecvBuffer.readable) (c : Nat) :
    (Function.update s.conns conn k c).conn.mRecvBuffer.readable =
      (s.conns c).conn.mRecvBuffer.readable := by
  by_cases hc : c = conn
  · rw [hc, Function.update_self, hk]
  · rw [Function.update_of_ne hc]

theorem filter_ofRequest (conn c : Nat) (request : Bytes) :
    (ChatLog.ofRequest conn request).toList.filter (ChatLog.SaidBy c) =
      if c = conn then (ChatLog.ofRequest conn request).toList else [] := by
  have hsaid : ∀ line ∈ (ChatLog.ofRequest conn request).toList, line.SaidBy c ↔ c = conn := by
    intro line hl
    unfold ChatLog.ofRequest at hl
    split_ifs at hl
    · obtain rfl := List.mem_singleton.mp hl
      exact eq_comm
    · obtain rfl := List.mem_singleton.mp hl
      exact eq_comm
    all_goals exact absurd hl List.not_mem_nil
  by_cases hc : c = conn
  · rw [if_pos hc, List.filter_eq_self]
    exact fun line hl => decide_eq_true ((hsaid line hl).mpr hc)
  · rw [if_neg hc, List.filter_eq_nil_iff]
    exact fun line hl hby => hc ((hsaid line hl).mp (of_decide_eq_true hby))

/-- What was taken from a connection, and the line it leaves, arrive in its inbox. -/
theorem Taken.inbox {conn : Nat} {piece request : Bytes} {t u : ChatServer}
    (h : Taken s conn piece request t) (hpieces : u.pieces = t.pieces)
    (hrequests : u.requests = t.requests)
    (hreadable : ∀ c, (u.conns c).conn.mRecvBuffer.readable =
      (t.conns c).conn.mRecvBuffer.readable)
    (hlog : u.log = s.log ++ (ChatLog.ofRequest conn request).toList) (c : Nat) :
    u.inbox c = s.inbox c ∨ ∃ piece, ((s.inbox c).waiting ++ piece).length ≤ maxSize ∧
      u.inbox c = (s.inbox c).arrive c piece := by
  have hfilter := filter_ofRequest conn c request
  obtain ⟨b, -, hb, rfl⟩ := h.eq
  by_cases hc : c = conn
  · subst hc
    rw [if_pos rfl] at hfilter
    refine .inr ⟨piece, h.le_max, ?_⟩
    have hself : (u.conns c).conn.mRecvBuffer.readable =
        ((s.conns c).conn.mRecvBuffer.readable ++ piece).drop request.length := by
      rw [hreadable]
      simp only [Function.update_self, hb]
    unfold Inbox.arrive
    simp only [ChatServer.inbox, hpieces, hrequests, hself, hlog, List.filter_append, hfilter,
      h.next, Function.update_self]
  · rw [if_neg hc] at hfilter
    refine .inl (inbox_of_same ?_ ?_ ?_ ?_)
    · rw [hpieces]
      exact Function.update_of_ne hc _ _
    · rw [hrequests]
      exact Function.update_of_ne hc _ _
    · rw [hreadable]
      simp only [Function.update_of_ne hc]
    · rw [hlog, List.filter_append, hfilter, List.append_nil]

/-- The request itself has the type that a look at the bytes finds. -/
theorem ofRequest_of_next {conn : Nat} {bs request : Bytes} (h : nextRequest bs = some request) :
    ChatLog.ofRequest conn request =
      if RequestHdr.size ≤ request.length then
        if requestType bs = .Message then some (.message conn (request.drop RequestHdr.size))
        else if requestType bs = .Register then
          some (.register conn (request.drop RequestHdr.size))
        else none
      else none := by
  unfold nextRequest at h
  dsimp only at h
  split at h
  · rename_i hle
    have hrequest := Option.some.inj h
    by_cases hsize : RequestHdr.size ≤ request.length
    · have htype : requestType request = requestType bs := by
        rw [← hrequest, List.length_take] at hsize
        rw [requestType, requestType, ← hrequest, List.take_take, Nat.min_eq_left (by omega)]
      rw [ChatLog.ofRequest, htype]
    · rw [ChatLog.ofRequest, if_neg hsize, if_neg hsize]
  · cases h

/-- **A move reads nothing** from a connection, or one piece with one look at it. -/
theorem Move.inbox (h : Move s s') (conn : Nat) :
    s'.inbox conn = s.inbox conn ∨ ∃ piece,
      ((s.inbox conn).waiting ++ piece).length ≤ maxSize ∧
        s'.inbox conn = (s.inbox conn).arrive conn piece := by
  cases h with
  | idle h => exact .inl (inbox_of_same rfl rfl (readable_update h.readable conn) rfl)
  | @established c h =>
    refine .inl (inbox_of_same rfl rfl (readable_update (k := Ctx.start) (by rw [h]; rfl) conn) ?_)
    rw [filter_saidBy_concat, if_neg (show ¬ (ChatLog.established c).SaidBy conn from id),
      List.append_nil]
  | @closed c hopen =>
    refine .inl (inbox_of_same rfl rfl (readable_update (k := (s.conns c).closing) rfl conn) ?_)
    rw [filter_saidBy_concat, if_neg (show ¬ (ChatLog.destroyed c).SaidBy conn from id),
      List.append_nil]
  | @waited c piece t h =>
    obtain ⟨b, hroom, hb, rfl⟩ := h.eq
    by_cases hc : conn = c
    · subst hc
      refine .inr ⟨piece, ?_, ?_⟩
      · have hw := hroom.write_le
        have hm := hroom.le_max
        show ((s.conns conn).conn.mRecvBuffer.readable ++ piece).length ≤ maxSize
        rw [← hb, hroom.length_readable, hroom.readablebytes_eq]
        omega
      · unfold Inbox.arrive
        simp only [ChatServer.inbox, h.next, Function.update_self, hb]
    · refine .inl (inbox_of_same ?_ rfl ?_ rfl)
      · exact Function.update_of_ne hc _ _
      · simp only [Function.update_of_ne hc]
  | @ignored c piece request t h htype =>
    refine h.inbox rfl rfl (fun _ => rfl) ?_ conn
    obtain ⟨hmsg, hreg⟩ := htype _ rfl
    rw [h.log, ofRequest_of_next h.next, if_neg hmsg, if_neg hreg, ite_self]
    exact (List.append_nil _).symm
  | @registered c piece request t h htype hlen hmem =>
    have hne : ChatRequestType.Register ≠ ChatRequestType.Message := by decide
    apply h.inbox
    · rfl
    · rfl
    · exact fun _ => rfl
    · rw [ofRequest_of_next h.next, if_pos hlen, htype, if_neg hne, if_pos rfl]
      rfl
  | @said c piece request name t conns h htype hlen hname hall =>
    apply h.inbox
    · rfl
    · rfl
    · exact fun d => (hall d).readable
    · rw [ofRequest_of_next h.next, if_pos hlen, htype, if_pos rfl]
      rfl

theorem inbox_of_moves (conn : Nat) (h : Relation.ReflTransGen Move s s') {I : Inbox → Prop}
    (hI : ∀ i piece, (i.waiting ++ piece).length ≤ maxSize → I i → I (i.arrive conn piece))
    (hs : I (s.inbox conn)) : I (s'.inbox conn) := by
  induction h with
  | refl => exact hs
  | tail _ hmove ih =>
    rcases hmove.inbox conn with hsame | ⟨piece, hmax, harrive⟩
    · rw [hsame]
      exact ih
    · rw [harrive]
      exact hI _ piece hmax ih

/-- A completed run from a state with the clients and the connections together. -/
theorem moves_of_run (hs : s.Serving) {events : List ChatEvent}
    (h : (Machine.exec step events).run s = .ok () s') : Relation.ReflTransGen Move s s' := by
  induction events generalizing s with
  | nil =>
    cases h
    exact .refl
  | cons i events ih =>
    obtain ⟨s₁, hstep, hrest⟩ := Machine.exec_cons_eq_ok h
    have hmoves := step_moves hs i
    rw [hstep] at hmoves
    exact hmoves.trans (ih (serving_of_moves hs hmoves) hrest)

/-- **The input of a connection** is handled as its own pieces say, whatever the others send. -/
theorem inbox_eq_after (h : Relation.ReflTransGen Move start s) (conn : Nat) :
    s.inbox conn = Inbox.after conn (s.pieces conn) := by
  have hafter : s.inbox conn = Inbox.after conn (s.inbox conn).pieces := by
    refine inbox_of_moves conn (I := fun i => i = Inbox.after conn i.pieces) h ?_ ?_
    · intro i piece _ hi
      rw [Inbox.pieces_arrive, Inbox.after_concat, ← hi]
    · show Inbox.mk [] [] TcpBuffer.fresh.readable [] = Inbox.empty
      rw [TcpBuffer.readable_fresh, Inbox.empty]
  exact hafter

/-- The requests of a client that were handled: those in front, as they were written, and as many
as the cuts of its stream allow. -/
structure Handled (as : List Request) (conn : Nat) (s : ChatServer) : Prop where
  requests : s.requests conn = (as.take (s.requests conn).length).map Request.bytes
  lines : s.log.filter (ChatLog.SaidBy conn) =
    (as.take (s.requests conn).length).filterMap (Request.line conn)
  waiting : (s.requests conn).flatten ++ (s.conns conn).conn.mRecvBuffer.readable =
    (s.pieces conn).flatten
  at_most : ∀ before after, s.pieces conn = before ++ after →
    (s.requests conn).length ≤ requestCode.whole as before.flatten.length + after.length
  at_least : ∃ before after, s.pieces conn = before ++ after ∧
    (s.requests conn).length = requestCode.whole as before.flatten.length + after.length

theorem handled_of_inbox {as : List Request} {conn : Nat}
    (h : s.inbox conn = Inbox.after conn (s.pieces conn))
    (hstream : (s.pieces conn).flatten <+: requestCode.stream as) : s.Handled as conn := by
  obtain ⟨hwaiting, hrequests, hlines⟩ := Inbox.after_stream conn hstream
  obtain ⟨⟨later, rfl⟩, hall⟩ := Frames.reads_run requestCode hstream
  rw [← h] at hwaiting hrequests hlines
  have hlen : (s.requests conn).length =
      (Frames.Reader.run requestCode (s.pieces conn)).taken.length := by
    rw [show s.requests conn = _ from hrequests, List.length_map]
  refine ⟨?_, ?_, ?_, fun before after hcut => ?_, ?_⟩
  · rw [hlen, List.take_left]
    exact hrequests
  · rw [hlen, List.take_left]
    exact hlines
  · rw [show s.requests conn = _ from hrequests,
      show (s.conns conn).conn.mRecvBuffer.readable = _ from hwaiting, ← List.flatMap_def]
    exact hall
  · rw [hlen]
    rw [hcut] at hstream ⊢
    exact Frames.length_taken_le requestCode hstream
  · rw [hlen]
    exact Frames.exists_length_taken_eq requestCode hstream

/-- **The requests of every client** whose stream is one of requests are handled in order, each as
it was written, in every state of every run. -/
theorem handled_always (events : List ChatEvent) :
    Machine.Always step (fun r => ∀ s, r = .ok () s → ∀ conn as,
      (s.pieces conn).flatten <+: requestCode.stream as → s.Handled as conn) start events := by
  refine Machine.always_of_invariant
    (I := fun s => s.Serving ∧ Relation.ReflTransGen Move start s) ?_ ?_ ?_
    ⟨start_serving, .refl⟩ events
  · rintro s ⟨-, hmoves⟩ s' h conn as hstream
    cases h
    exact handled_of_inbox (inbox_eq_after hmoves conn) hstream
  · rintro s i s' ⟨hs, hmoves⟩ h
    have hstep := step_moves hs i
    rw [h] at hstep
    exact ⟨serving_of_moves hs hstep, hmoves.trans hstep⟩
  · intro s i e s' _ _ s'' h
    cases h

end ChatServer

/-! ### Headers that nothing gets past -/

/-- The header in front takes nothing, or is waited for until the buffer can hold no more. -/
def Stuck (bs : Bytes) : Prop :=
  let hdr := RequestHdr.ofBytes bs
  RequestHdr.size ≤ bs.length ∧ (hdr.mReqLength.toNat = 0 ∨ maxSize < hdr.mReqLength.toNat)

instance : DecidablePred Stuck := fun bs => by
  unfold Stuck
  infer_instance

theorem Stuck.append {bs : Bytes} (h : Stuck bs) (more : Bytes) : Stuck (bs ++ more) := by
  obtain ⟨hsize, hlen⟩ := h
  have hhdr : RequestHdr.ofBytes (bs ++ more) = RequestHdr.ofBytes bs := by
    rw [← ofBytes_take, List.take_append_of_le_length hsize, ofBytes_take]
  refine ⟨?_, ?_⟩
  · rw [List.length_append]
    omega
  · rw [hhdr]
    exact hlen

theorem nextRequest_of_stuck {bs : Bytes} (h : Stuck bs) (hmax : bs.length ≤ maxSize) :
    nextRequest bs = none ∨ nextRequest bs = some [] := by
  obtain ⟨hsize, hlen⟩ := h
  unfold nextRequest
  rw [ofBytes_take]
  dsimp only
  rcases hlen with hzero | hbig
  · rw [hzero, if_pos ⟨hsize, Nat.zero_le _⟩]
    exact .inr rfl
  · rw [if_neg (by omega)]
    exact .inl rfl

theorem Inbox.arrive_of_stuck (conn : Nat) {i : Inbox} {piece : Bytes} (h : Stuck i.waiting)
    (hmax : (i.waiting ++ piece).length ≤ maxSize) :
    (i.arrive conn piece).waiting = i.waiting ++ piece ∧
      (i.arrive conn piece).lines = i.lines := by
  unfold Inbox.arrive
  rcases nextRequest_of_stuck (h.append piece) hmax with hnone | hsome
  · rw [hnone]
    exact ⟨rfl, rfl⟩
  · rw [hsome]
    exact ⟨rfl, List.append_nil _⟩

namespace ChatServer

variable {s s' : ChatServer}

/-- **Behind a stuck header** nothing of a connection is handled any more: what it sends is stored,
and leaves no line in the log. -/
theorem stuck_of_run {before after : List ChatEvent} {conn : Nat}
    (hbefore : (Machine.exec step before).run start = .ok () s)
    (hstuck : Stuck (s.conns conn).conn.mRecvBuffer.readable)
    (hafter : (Machine.exec step after).run s = .ok () s') :
    (s.conns conn).conn.mRecvBuffer.readable <+: (s'.conns conn).conn.mRecvBuffer.readable ∧
      s'.log.filter (ChatLog.SaidBy conn) = s.log.filter (ChatLog.SaidBy conn) := by
  have hs := serving_of_moves start_serving (moves_of_run start_serving hbefore)
  refine inbox_of_moves conn (I := fun i => (s.inbox conn).waiting <+: i.waiting ∧
    i.lines = (s.inbox conn).lines) (moves_of_run hs hafter) ?_ ⟨List.prefix_refl _, rfl⟩
  rintro i piece hmax ⟨⟨more, hmore⟩, hlines⟩
  have hi : Stuck i.waiting := by
    rw [← hmore]
    exact hstuck.append more
  obtain ⟨hwaiting, hsame⟩ := Inbox.arrive_of_stuck conn hi hmax
  rw [hwaiting, hsame, ← hmore, List.append_assoc]
  exact ⟨List.prefix_append _ _, hlines⟩

/-- A client sends a header of zeros, and then a message that nobody hears. -/
def zeroHeader : List ChatEvent :=
  [.establish 7, .event 7 EPOLLIN ⟨.bytes (List.replicate 16 0), .accepted 0, 0, [7]⟩]

theorem stuck_zeroHeader : ∃ s s', (Machine.exec step zeroHeader).run start = .ok () s ∧
    (Machine.exec step
      [.event 7 EPOLLIN ⟨.bytes (normalRequest [104, 105]), .accepted 0, 0, [7]⟩]).run s =
        .ok () s' ∧
    (s.conns 7).conn.mRecvBuffer.readable <+: (s'.conns 7).conn.mRecvBuffer.readable ∧
    s'.log.filter (ChatLog.SaidBy 7) = s.log.filter (ChatLog.SaidBy 7) := by
  obtain ⟨s, hs, s', hs', hstuck⟩ :
      ∃ s ∈ Machine.returned ((Machine.exec step zeroHeader).run start),
        ∃ s' ∈ Machine.returned ((Machine.exec step
          [.event 7 EPOLLIN ⟨.bytes (normalRequest [104, 105]), .accepted 0, 0, [7]⟩]).run s),
          Stuck (s.conns 7).conn.mRecvBuffer.readable := by
    decide +kernel
  have hbefore := Machine.eq_ok_of_mem_returned hs
  have hafter := Machine.eq_ok_of_mem_returned hs'
  exact ⟨s, s', hbefore, hafter, stuck_of_run hbefore hstuck hafter⟩

end ChatServer

end SimpleTcp
