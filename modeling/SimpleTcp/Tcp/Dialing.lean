import SimpleTcp.Tcp.Changes

/-!
# Sockets that connect

The kernel connects a socket in its own time. A client learns of it in two ways: `SO_ERROR` right
after `connect(2)`, which is 0 also while the connect is in progress, or the write event of a
channel that watches the socket. In both cases it queues the change to `Connected`, which does not
say for which socket it was queued.

## Main definitions

* `ConnectStatus`: what has become of the connect of a socket
* `Dialer`, `Dialer.step`: a client with the sockets it has made, and with the socket of every
  change to `Connected` that is queued
* `Dialer.KernelOk`: what the kernel answers
* `Dialer.InTurn`: the change to `Connected` comes in its turn
* `Dialer.OverEstablished`: `doConnected` finds the socket it was queued for, established

## Main results

* `Dialer.inv_step`: what is known of the queued changes
* `Dialer.overEstablished_iff`: the runs in which the client connects over established sockets
-/

namespace SimpleTcp

open TcpConnection Machine

/-- What has become of the connect of a socket; an error is pending until `SO_ERROR` is read. -/
inductive ConnectStatus where
  | inProgress
  | completed
  | failed (soError : Errno)
  deriving DecidableEq, Repr

namespace ConnectStatus

/-- What `getsockopt(SO_ERROR)` returns. -/
def soError : ConnectStatus → Errno
  | failed e => e
  | _ => 0

/-- `getsockopt(SO_ERROR)` clears the error that it returns. -/
def cleared : ConnectStatus → ConnectStatus
  | failed _ => failed 0
  | st => st

end ConnectStatus

/-- A queued change to `Connected`: its socket, the run of `doConnecting` in whose time it was
queued, and whether this run has queued it at once. -/
structure Promise where
  socket : Nat
  dial : Nat
  atOnce : Bool
  deriving DecidableEq

/-- The sockets are those that `doConnecting` has made, in order; `mConnSocket` is the last one or
null. The promises stand for the queued changes to `Connected`, in the order of the queue. -/
structure Dialer where
  client : TcpClient
  sockets : List ConnectStatus
  dials : Nat
  promises : List Promise

inductive DialEvent where
  /-- A step of the client; a socket that it makes has the status. -/
  | client (i : ClientEvent) (made : ConnectStatus)
  /-- The kernel decides a connect. -/
  | decide (pos : Nat) (status : ConnectStatus)

namespace Dialer

open TcpClient

def start (mConnRandomDelay : Nat) : Dialer := ⟨TcpClient.create mConnRandomDelay, [], 0, []⟩

/-- The error callback of the connecting socket runs, and reads `SO_ERROR`. -/
def ReadsError (s : TcpClient) : ClientEvent → Prop
  | .connEvent mRevent _ => s.mConnChannel ≠ none ∧ Channel.Errors mRevent
  | _ => False

instance (s : TcpClient) : ∀ i, Decidable (ReadsError s i)
  | .connEvent _ _ => inferInstanceAs (Decidable (_ ∧ ¬ (_ ∧ _) ∧ _))
  | .connect _ _ | .disconnect | .timer _ | .event _ _ _ | .calls _ _ | .queue _ _ | .release _
  | .task _ _ => inferInstanceAs (Decidable False)

/-- The sockets when the step has run. -/
def socketsAfter (d : Dialer) (i : ClientEvent) (made : ConnectStatus) : List ConnectStatus :=
  match d.client.dial i with
  | some (.socket _) => d.sockets ++ [made.cleared]
  | _ =>
    if ReadsError d.client i then d.sockets.modify (d.sockets.length - 1) ConnectStatus.cleared
    else d.sockets

def dialsAfter (d : Dialer) (i : ClientEvent) : Nat :=
  if d.client.dial i = none then d.dials else d.dials + 1

/-- The step has taken the client to `s`. A change to `Connected` that has left the queue is the
first one; one that has joined it belongs to the present socket. -/
def after (d : Dialer) (i : ClientEvent) (made : ConnectStatus) (s : TcpClient) : Dialer where
  client := s
  sockets := d.socketsAfter i made
  dials := d.dialsAfter i
  promises :=
    d.promises.drop (d.client.promised - (d.client.taken i).promised) ++
      List.replicate (s.promised - (d.client.taken i).promised)
        ⟨(d.socketsAfter i made).length - 1, d.dialsAfter i, d.client.dial i ≠ none⟩

def step : DialEvent → EStateM Stop Dialer Unit
  | .client i made => fun d =>
    match (TcpClient.step i).run d.client with
    | .ok _ s => .ok () (d.after i made s)
    | .error e s => .error e { d with client := s }
  | .decide pos status => modify fun d =>
    if d.sockets[pos]? = some .inProgress then { d with sockets := d.sockets.set pos status } else d

/-- What the kernel answers: `SO_ERROR` of a socket, and a write event of the connecting socket,
without error or hang-up, only when it is connected. -/
def KernelOk (d : Dialer) : DialEvent → Prop
  | .client i made =>
    (∀ errCode, d.client.dial i = some (.socket errCode) → errCode = made.soError) ∧
      (∀ a, d.client.asks i = some a → a.newState = .connected →
        ∀ status, d.sockets.getLast? = some status → a.io.soError = status.soError) ∧
      ∀ mRevent errno, i = .connEvent mRevent errno → d.client.mConnChannel ≠ none →
        Channel.Writes mRevent → d.sockets.getLast? = some .completed
  | .decide _ _ => True

/-- When the change to `Connected` is admitted, `doConnecting` has not run since the change was
queued, and, if it was `doConnecting` that queued it, the connect has completed by now. -/
def InTurn (d : Dialer) : DialEvent → Prop
  | .client i _ => d.client.Enters i .connected → ∀ p, d.promises.head? = some p →
    p.dial = d.dials ∧ (p.atOnce = true → d.sockets[p.socket]? = some .completed)
  | .decide _ _ => True

/-- When `doConnected` runs, `mConnSocket` is the socket for which it was queued, and the connect of
this socket has completed. -/
def OverEstablished (d : Dialer) : DialEvent → Prop
  | .client i _ => d.client.Enters i .connected → d.client.mConnSocket = true ∧
    ∃ p, d.promises.head? = some p ∧ p.socket + 1 = d.sockets.length ∧
      d.sockets[p.socket]? = some .completed
  | .decide _ _ => True

variable {d d' : Dialer} {i : ClientEvent} {made : ConnectStatus}

/-! ### The sockets -/

theorem socketsAfter_of_socket {errCode : Errno} (h : d.client.dial i = some (.socket errCode)) :
    d.socketsAfter i made = d.sockets ++ [made.cleared] := by
  rw [socketsAfter, h]

/-- A connect that has completed stays so. -/
theorem socketsAfter_completed {pos : Nat} (h : d.sockets[pos]? = some .completed) :
    (d.socketsAfter i made)[pos]? = some .completed := by
  have hlt : pos < d.sockets.length := (List.getElem?_eq_some_iff.mp h).1
  rw [socketsAfter]
  split
  · rwa [List.getElem?_append_left hlt]
  · split
    · rw [List.getElem?_modify, h]
      split <;> rfl
    · exact h

theorem length_socketsAfter_of_not_socket
    (h : ∀ errCode, d.client.dial i ≠ some (.socket errCode)) :
    (d.socketsAfter i made).length = d.sockets.length := by
  rw [socketsAfter]
  split
  · exact absurd ‹_› (h _)
  · split
    · exact List.length_modify _ _ _
    · rfl

/-! ### What a step of the client does to its promises -/

/-- The step runs no `doConnecting` and queues no change to `Connected`. -/
structure Quiet (s : TcpClient) (i : ClientEvent) (s' : TcpClient) : Prop where
  dial : s.dial i = none
  promised : s'.promised = (s.taken i).promised
  mConnSocket : s'.mConnSocket = s.mConnSocket ∨ s'.mConnSocket = false
  connecting : s'.mState = .connecting → s.mState = .connecting ∧
    s'.mConnSocket = s.mConnSocket ∧ s'.mConnChannel = s.mConnChannel

section

variable {s s' : TcpClient} {a : Ask}

/-- A step is quiet, or a write event of the connecting socket, or a run of `doConnecting`. -/
theorem quiet_or (h : Moves s i s') :
    Quiet s i s' ∨
      (∃ mRevent errno, i = .connEvent mRevent errno ∧ s.mConnChannel ≠ none ∧
        Channel.Writes mRevent ∧
        s' = { s with mPendingTasks := s.mPendingTasks ++ [.transState .connected] }) ∨
      ∃ a : Ask, s.dial i = some a.io.connect ∧
        Dialed { s.taken i with mState := .connecting } a.io.connect s' := by
  cases h with
  | refused ha hadm =>
    refine .inl ⟨dial_of_not_admits ha hadm, rfl, .inl (taken_mConnSocket s i), fun hst => ?_⟩
    exact ⟨taken_mState s i ▸ hst, taken_mConnSocket s i, taken_mConnChannel s i⟩
  | @disconnect _ a s₁ ha hst hold hs =>
    have hcount : promised s₁ = promised { s.taken i with mState := .disconnect } :=
      promised_of_idle hs
    refine .inl ⟨dial_of_ne ha (by simp [hst]), ?_, .inl ?_, fun hnew => ?_⟩
    · exact (promised_append rfl (by simp)).trans hcount
    · exact hs.mConnSocket.trans (taken_mConnSocket s i)
    · exact absurd (hs.mState.symm.trans hnew) (by simp)
  | connecting ha hst hold hs => exact .inr (.inr ⟨_, dial_of_connecting ha hst hold, hs⟩)
  | connected ha hst hold hsocket hs =>
    -- the socket has moved into the connection, and `mConnSocket` is null
    have hcount := (promised_of_idle hs).trans (rfl : _ = (s.taken i).promised)
    refine .inl ⟨dial_of_ne ha (by simp [hst]), hcount, .inr hs.mConnSocket, ?_⟩
    exact fun hnew => absurd (hs.mState.symm.trans hnew) (by simp [joined])
  | forceDisconnected ha hst hold =>
    refine .inl ⟨dial_of_ne ha (by simp [hst]), promised_append rfl (by simp), .inl ?_, ?_⟩
    · exact taken_mConnSocket s i
    · exact fun hnew => absurd hnew (by simp)
  | asked hc =>
    exact .inl ⟨dial_of_asks_none rfl, promised_append rfl (by simp), .inl rfl,
      fun hst => ⟨hst, rfl, rfl⟩⟩
  | failed hch hm hdelay =>
    exact .inl ⟨dial_of_asks_none rfl, promised_append rfl (by simp), .inl rfl,
      fun hst => ⟨hst, rfl, rfl⟩⟩
  | written hch hm => exact .inr (.inl ⟨_, _, rfl, hch, hm, rfl⟩)
  | started hts =>
    refine .inl ⟨dial_of_asks_none (by simp [asks, hts]), ?_, .inl rfl, fun hst => ⟨hst, rfl, rfl⟩⟩
    simp [promised, taken, hts]
  | aside ha hs =>
    refine .inl ⟨dial_of_asks_none (asks_of_aside ha), promised_of_idle hs, .inl ?_, fun hst => ?_⟩
    · exact hs.mConnSocket.trans (taken_mConnSocket s i)
    · exact ⟨taken_mState s i ▸ hs.mState ▸ hst, hs.mConnSocket.trans (taken_mConnSocket s i),
        hs.mConnChannel.trans (taken_mConnChannel s i)⟩

end

/-! ### The invariant -/

/-- What is known of the queued changes. Those of an earlier run of `doConnecting` belong to a
socket that has been replaced; those of the last run belong to the socket that the client connects,
and were queued at once or when it was connected. -/
structure Inv (d : Dialer) : Prop where
  count : d.promises.length = d.client.promised
  bound : ∀ p ∈ d.promises, p.dial ≤ d.dials ∧ p.socket < d.sockets.length
  stale : ∀ p ∈ d.promises, p.dial < d.dials →
    p.socket + 1 < d.sockets.length ∨ d.client.mConnSocket = false
  watched : d.client.mState = .connecting → d.client.mConnChannel ≠ none →
    d.client.mConnSocket = true
  current : d.client.mState = .connecting → ∀ p ∈ d.promises, p.dial = d.dials →
    d.client.mConnSocket = true ∧ p.socket + 1 = d.sockets.length ∧
      (p.atOnce = false → d.sockets[p.socket]? = some .completed)

variable {s : TcpClient}

@[simp] theorem sockets_after : (d.after i made s).sockets = d.socketsAfter i made := rfl

@[simp] theorem dials_after : (d.after i made s).dials = d.dialsAfter i := rfl

/-- A promise was there before the step, or the step has made it. -/
theorem mem_after {p : Promise} (hp : p ∈ (d.after i made s).promises) :
    p ∈ d.promises ∨ (d.client.taken i).promised < s.promised ∧
      p = ⟨(d.socketsAfter i made).length - 1, d.dialsAfter i, d.client.dial i ≠ none⟩ := by
  rcases List.mem_append.mp hp with hold | hnew
  · exact .inl (List.mem_of_mem_drop hold)
  · obtain ⟨hpos, rfl⟩ := List.mem_replicate.mp hnew
    exact .inr ⟨by omega, rfl⟩

theorem length_after (h : Inv d) (hle : (d.client.taken i).promised ≤ s.promised) :
    (d.after i made s).promises.length = s.promised := by
  have hcount := h.count
  have htaken := promised_taken_le d.client i
  simp only [after, List.length_append, List.length_drop, List.length_replicate]
  omega

theorem inv_quiet (h : Inv d) (hq : Quiet d.client i s) : Inv (d.after i made s) := by
  have hdials : d.dialsAfter i = d.dials := if_pos hq.dial
  have hlen : (d.socketsAfter i made).length = d.sockets.length :=
    length_socketsAfter_of_not_socket (by simp [hq.dial])
  have hmem : ∀ p ∈ (d.after i made s).promises, p ∈ d.promises := by
    intro p hp
    refine (mem_after hp).resolve_right fun hnew => ?_
    exact absurd hq.promised hnew.1.ne'
  refine ⟨length_after h hq.promised.ge, ?_, ?_, ?_, ?_⟩
  · intro p hp
    rw [dials_after, sockets_after, hdials, hlen]
    exact h.bound p (hmem p hp)
  · intro p hp
    rw [dials_after, sockets_after, hdials, hlen]
    intro hlt
    rcases h.stale p (hmem p hp) hlt with hsock | hnull
    · exact .inl hsock
    · -- null stays null until `doConnecting` runs
      exact .inr (hq.mConnSocket.elim (·.trans hnull) id)
  · intro hst hch
    obtain ⟨hold, hsock, hchan⟩ := hq.connecting hst
    exact hsock.trans (h.watched hold (hchan ▸ hch))
  · intro hst p hp
    rw [dials_after, sockets_after, hdials, hlen]
    intro hdial
    obtain ⟨hold, hsock, -⟩ := hq.connecting hst
    obtain ⟨hset, hlast, hdone⟩ := h.current hold p (hmem p hp) hdial
    exact ⟨hsock.trans hset, hlast, fun hat => socketsAfter_completed (hdone hat)⟩

/-- A write event, by which the kernel says that the connecting socket is connected. -/
theorem inv_written (h : Inv d) {mRevent : EventMask} {errno : Errno}
    (hch : d.client.mConnChannel ≠ none) (hm : Channel.Writes mRevent)
    (hlast : d.sockets.getLast? = some .completed) :
    Inv (d.after (.connEvent mRevent errno) made
      { d.client with
        mPendingTasks := d.client.mPendingTasks ++ [.transState .connected] }) := by
  have hdials : d.dialsAfter (.connEvent mRevent errno) = d.dials := rfl
  have hpos : 0 < d.sockets.length := by
    rw [List.length_pos_iff]
    rintro hnil
    simp [hnil] at hlast
  -- the write callback does not read `SO_ERROR`
  have hsockets : d.socketsAfter (.connEvent mRevent errno) made = d.sockets := by
    have hno : ¬ ReadsError d.client (.connEvent mRevent errno) := fun he => hm.1.2 he.2.2
    simp [socketsAfter, dial, asks, hno]
  have hnew : ∀ p ∈ (d.after (.connEvent mRevent errno) made { d.client with
      mPendingTasks := d.client.mPendingTasks ++ [.transState .connected] }).promises,
      p ∈ d.promises ∨ p = ⟨d.sockets.length - 1, d.dials, false⟩ := by
    intro p hp
    refine (mem_after hp).imp_right fun hp => ?_
    rw [hp.2, hsockets]
    rfl
  refine ⟨length_after h (by simp [promised, taken]), ?_, ?_, ?_, ?_⟩
  · intro p hp
    rw [dials_after, sockets_after, hdials, hsockets]
    rcases hnew p hp with hold | rfl
    · exact h.bound p hold
    · exact ⟨le_rfl, Nat.sub_lt hpos Nat.one_pos⟩
  · intro p hp
    rw [dials_after, sockets_after, hdials, hsockets]
    rcases hnew p hp with hold | rfl
    · exact h.stale p hold
    · exact fun hlt => absurd hlt (lt_irrefl _)
  · exact h.watched
  · intro hst p hp
    rw [dials_after, sockets_after, hdials, hsockets]
    rcases hnew p hp with hold | rfl
    · exact h.current hst p hold
    · refine fun _ => ⟨h.watched hst hch, Nat.sub_add_cancel hpos, fun _ => ?_⟩
      · rwa [List.getLast?_eq_getElem?] at hlast

/-- A run of `doConnecting`. What was promised before is stale now. -/
theorem inv_dialed (h : Inv d) {r : ConnectResult} (hdial : d.client.dial i = some r)
    (hs : Dialed { d.client.taken i with mState := .connecting } r s) :
    Inv (d.after i made s) := by
  have hdials : d.dialsAfter i = d.dials + 1 := if_neg (by simp [hdial])
  have hle : (d.client.taken i).promised ≤ s.promised := by
    cases hs <;> simp [promised, retried, cleared]
  -- a new socket stands behind the others, or `mConnSocket` is null and nothing is promised
  have hgrow : d.sockets.length ≤ (d.socketsAfter i made).length ∧
      ((d.socketsAfter i made).length = d.sockets.length + 1 ∧ s.mConnSocket = true ∨
        s.mConnSocket = false ∧ s.mConnChannel = none ∧
          s.promised = (d.client.taken i).promised) := by
    cases hs with
    | failed =>
      refine ⟨(length_socketsAfter_of_not_socket (by simp [hdial])).ge, .inr ⟨rfl, rfl, ?_⟩⟩
      exact promised_append rfl (by simp)
    | watched herr => simp [socketsAfter_of_socket hdial]
    | atOnce => simp [socketsAfter_of_socket hdial]
    | refused herr => simp [socketsAfter_of_socket hdial]
  obtain ⟨hlen, hgrow⟩ := hgrow
  refine ⟨length_after h hle, ?_, ?_, ?_, ?_⟩
  · intro p hp
    rw [dials_after, sockets_after, hdials]
    rcases mem_after hp with hold | ⟨hnew, rfl⟩
    · have hbound := h.bound p hold
      omega
    · rcases hgrow with ⟨hsucc, -⟩ | ⟨-, -, hsame⟩
      · exact ⟨hdials.le, Nat.sub_lt (by omega) Nat.one_pos⟩
      · omega
  · intro p hp hlt
    rcases hgrow with ⟨hsucc, -⟩ | ⟨hnull, -⟩
    · rcases mem_after hp with hold | ⟨hnew, rfl⟩
      · have hbound := h.bound p hold
        exact .inl (by rw [sockets_after]; omega)
      · exact absurd hlt (lt_irrefl _)
    · exact .inr hnull
  · intro hst hch
    rcases hgrow with ⟨-, hset⟩ | ⟨-, hnone, -⟩
    · exact hset
    · exact absurd hnone hch
  · intro hst p hp hnow
    rw [dials_after, hdials] at hnow
    rcases mem_after hp with hold | ⟨hnew, rfl⟩
    · -- an old promise does not carry the new number
      have hbound := h.bound p hold
      omega
    · rcases hgrow with ⟨hsucc, hset⟩ | ⟨-, -, hsame⟩
      · refine ⟨hset, ?_, fun hat => ?_⟩
        · exact Nat.sub_add_cancel (by omega)
        · simp [hdial] at hat
      · omega

theorem inv_decide (h : Inv d) {pos : Nat} {status : ConnectStatus}
    (hpos : d.sockets[pos]? = some .inProgress) :
    Inv { d with sockets := d.sockets.set pos status } := by
  have hkeep : ∀ q : Nat, d.sockets[q]? = some .completed →
      (d.sockets.set pos status)[q]? = some .completed := by
    intro q hq
    -- the connect that is decided was in progress
    have hne : pos ≠ q := by
      rintro rfl
      rw [hpos] at hq
      cases hq
    rwa [List.getElem?_set_ne hne]
  refine ⟨h.count, ?_, ?_, h.watched, ?_⟩
  · intro p hp
    simpa using h.bound p hp
  · intro p hp
    simpa using h.stale p hp
  · intro hst p hp hdial
    obtain ⟨hset, hlast, hdone⟩ := h.current hst p hp hdial
    exact ⟨hset, by simpa using hlast, fun hat => hkeep _ (hdone hat)⟩

theorem run_client (d : Dialer) (i : ClientEvent) (made : ConnectStatus) :
    (step (.client i made)).run d =
      match (TcpClient.step i).run d.client with
      | .ok _ s => .ok () (d.after i made s)
      | .error e s => .error e { d with client := s } := rfl

theorem run_decide (d : Dialer) (pos : Nat) (status : ConnectStatus) :
    (step (.decide pos status)).run d = .ok ()
      (if d.sockets[pos]? = some .inProgress then { d with sockets := d.sockets.set pos status }
      else d) := rfl

/-- Every completed step keeps the invariant, given what the kernel answers. -/
theorem inv_step (h : Inv d) {j : DialEvent} (hj : d.KernelOk j)
    (hrun : (step j).run d = .ok () d') : Inv d' := by
  cases j with
  | client i made =>
    rw [run_client] at hrun
    cases hok : (TcpClient.step i).run d.client with
    | ok u s =>
      rw [hok] at hrun
      cases hrun
      rcases quiet_or (moves_of_ok hok) with
        hq | ⟨mRevent, errno, rfl, hch, hm, rfl⟩ | ⟨a, hdial, hs⟩
      · exact inv_quiet h hq
      · exact inv_written h hch hm (hj.2.2 mRevent errno rfl hch hm)
      · exact inv_dialed h hdial hs
    | error e s =>
      rw [hok] at hrun
      cases hrun
  | decide pos status =>
    rw [run_decide] at hrun
    obtain rfl := EStateM.Result.ok.inj hrun |>.2
    split
    · exact inv_decide h ‹_›
    · exact h

theorem start_inv (mConnRandomDelay : Nat) : Inv (start mConnRandomDelay) :=
  ⟨rfl, by simp [start], by simp [start], by simp [start, TcpClient.create],
    by simp [start]⟩

/-! ### Connecting in turn -/

/-- The change to `Connected` is asked for by a task, whose promise is the first one. -/
theorem exists_head_of_enters (h : Inv d) (hi : d.client.Enters i .connected) :
    ∃ p ∈ d.promises, d.promises.head? = some p := by
  obtain ⟨a, ha, hst, -⟩ := hi
  have hmem : .transState .connected ∈ d.client.mPendingTasks := by
    obtain ⟨-, -, t, ts, -, hts, htask⟩ := task_of_asks_ne ha (by simp [hst])
    rw [hst] at htask
    rcases htask with rfl | ⟨hnew, -⟩
    · exact hts ▸ List.mem_cons_self
    · cases hnew
  have hpos : 0 < d.promises.length := by
    rw [h.count]
    exact List.count_pos_iff.mpr hmem
  cases hp : d.promises with
  | nil => simp [hp] at hpos
  | cons p ps => exact ⟨p, List.mem_cons_self, rfl⟩

/-- What the invariant says of the change whose turn it is. -/
theorem overEstablished_iff_inTurn (h : Inv d) (j : DialEvent) :
    d.OverEstablished j ↔ d.InTurn j := by
  cases j with
  | decide pos status => exact Iff.rfl
  | client i made =>
    refine forall_congr' fun hi => ?_
    obtain ⟨p, hp, hhead⟩ := exists_head_of_enters h hi
    have hst : d.client.mState = .connecting := by
      obtain ⟨a, -, -, hadm⟩ := hi
      exact hadm
    constructor
    · rintro ⟨hset, q, hq, hlast, hdone⟩ q' hq'
      obtain rfl : q = q' := Option.some.inj (hq.symm.trans hq')
      obtain rfl : p = q := Option.some.inj (hhead.symm.trans hq)
      refine ⟨?_, fun _ => hdone⟩
      -- an earlier run of `doConnecting` would have left its socket replaced, or null
      by_contra hne
      rcases h.stale p hp (lt_of_le_of_ne (h.bound p hp).1 hne) with hlt | hnull
      · omega
      · rw [hset] at hnull
        cases hnull
    · intro hturn
      obtain ⟨hdial, hdone⟩ := hturn p hhead
      obtain ⟨hset, hlast, hwrite⟩ := h.current hst p hp hdial
      refine ⟨hset, p, hhead, hlast, ?_⟩
      -- a change that a write event has queued is for a connect that was over then
      cases hat : p.atOnce with
      | true => exact hdone hat
      | false => exact hwrite hat

/-- **A client connects over established sockets** in the runs in which the change to `Connected`
comes in its turn, and in no others. -/
theorem overEstablished_iff {mConnRandomDelay : Nat} {js : List DialEvent}
    (hk : Along step KernelOk (start mConnRandomDelay) js) :
    Along step OverEstablished (start mConnRandomDelay) js ↔
      Along step InTurn (start mConnRandomDelay) js := by
  refine Along.congr (P := KernelOk) (I := Inv) ?_ ?_ (start_inv mConnRandomDelay) hk
  · intro d j hd
    exact overEstablished_iff_inTurn hd j
  · intro d j d' hd hj hrun
    exact inv_step hd hj hrun

/-! ### A connect that is taken for done at once -/

section

/-- `connect` makes a socket whose `SO_ERROR` is 0, and the change to `Connected` is run. -/
def connectAtOnce (made : ConnectStatus) : List DialEvent :=
  let io : TransIo := ⟨.socket 0, 0, [], 0⟩
  [.client (.connect false io) made, .client (.task io ⟨.accepted 0, 0, []⟩) made]

/-- The client between the two steps. -/
def connectingAtOnce (made : ConnectStatus) : Dialer :=
  ⟨{ TcpClient.create 250 with
      mState := .connecting
      mConnSocket := true
      mPendingTasks := [.transState .connected] }, [made.cleared], 1, [⟨0, 1, true⟩]⟩

theorem along_connectAtOnce {P : Dialer → DialEvent → Prop} {made : ConnectStatus} :
    Along step P (start 250) (connectAtOnce made) ↔
      P (start 250) (.client (.connect false ⟨.socket 0, 0, [], 0⟩) made) ∧
        P (connectingAtOnce made)
          (.client (.task ⟨.socket 0, 0, [], 0⟩ ⟨.accepted 0, 0, []⟩) made) := by
  have hrun : (step (.client (.connect false ⟨.socket 0, 0, [], 0⟩) made)).run (start 250) =
      .ok () (connectingAtOnce made) := rfl
  constructor
  · rintro ⟨hfirst, hrest⟩
    exact ⟨hfirst, (hrest _ hrun).1⟩
  · rintro ⟨hfirst, hsecond⟩
    refine ⟨hfirst, fun d hd => ?_⟩
    obtain rfl := (EStateM.Result.ok.inj (hrun.symm.trans hd)).2
    exact ⟨hsecond, fun _ _ => trivial⟩

theorem kernelOk_connectAtOnce {made : ConnectStatus} (h : made = .inProgress ∨ made = .completed) :
    Along step KernelOk (start 250) (connectAtOnce made) := by
  have hzero : made.soError = 0 ∧ made.cleared.soError = 0 := by
    rcases h with rfl | rfl <;> exact ⟨rfl, rfl⟩
  refine along_connectAtOnce.mpr ⟨⟨?_, ?_, ?_⟩, ⟨?_, ?_, ?_⟩⟩
  · rintro errCode hdial
    cases hdial
    exact hzero.1.symm
  · rintro a ha hst
    cases ha
    cases hst
  · rintro mRevent errno hi
    cases hi
  · rintro errCode hdial
    cases hdial
  · rintro a ha - status hstatus
    cases ha
    cases hstatus
    exact hzero.2.symm
  · rintro mRevent errno hi
    cases hi

/-- The kernel has completed the connect at once. -/
theorem overEstablished_completed :
    Along step OverEstablished (start 250) (connectAtOnce .completed) := by
  refine (overEstablished_iff (kernelOk_connectAtOnce (.inr rfl))).mpr ?_
  refine along_connectAtOnce.mpr ⟨?_, ?_⟩
  · rintro - p hp
    cases hp
  · rintro - p hp
    cases hp
    exact ⟨rfl, fun _ => rfl⟩

/-- The connect is still in progress, and its `SO_ERROR` is 0. -/
theorem not_overEstablished_inProgress :
    ¬ ∀ (mConnRandomDelay : Nat) (js : List DialEvent),
        Along step KernelOk (start mConnRandomDelay) js →
          Along step OverEstablished (start mConnRandomDelay) js := by
  intro h
  have halong := h 250 (connectAtOnce .inProgress) (kernelOk_connectAtOnce (.inl rfl))
  have hlast := (along_connectAtOnce.mp halong).2
  have henters : (connectingAtOnce .inProgress).client.Enters
      (.task ⟨.socket 0, 0, [], 0⟩ ⟨.accepted 0, 0, []⟩) .connected := ⟨_, rfl, rfl, rfl⟩
  obtain ⟨-, p, hp, -, hdone⟩ := hlast henters
  cases hp
  cases hdone

end

end Dialer

end SimpleTcp
