import SimpleTcp.Library.Transition
import SimpleTcp.Net.Socket
import SimpleTcp.Tcp.Changes

/-!
# The descriptors of a client

A client that connects opens descriptors, and its sockets close them. The socket of an attempt is
`mConnSocket`; it moves into the connection when the connect is done, and a later attempt destroys
it otherwise. A connection is destroyed with the last reference to it; others may hold references
too, and keep its socket when the client has dropped its own. Only the parts of the client that
touch its sockets are here; how the rest of a function ends is an argument.

An attempt whose `connect(2)` fails at once leaves its descriptor open, and owned by nobody.

## Main definitions

* `ClientSockets`, `ClientSockets.transStateInLoop`: the sockets of a client, and its changes of
  state
* `ClientSockets.step`: a change of state, or a reference that others take or drop
* `ClientSockets.NoLeak`: every descriptor is closed, or owned by one of the sockets of the client
* `ClientSockets.KeepsSockets`: the steps that leave no descriptor behind

## Main results

* `ClientSockets.moves_of_step`: what a change of state does to the sockets
* `ClientSockets.noLeak_iff`: the runs without a leak are those whose steps keep the sockets
* `ClientSockets.noLeak_iff_of_unshared`: what is left of this where nobody else takes a reference
* `ClientSockets.exists_run_of_client`: the sockets follow every completed run of the client
-/

namespace SimpleTcp

open Transition

/-- A connection, with the references to it that others hold: a callback that runs, or the user. -/
structure HeldConnection where
  mpSocket : Option Socket
  copies : ℕ
  deriving DecidableEq, Repr

/-- `others` are the connections to which only others hold references. -/
structure ClientSockets where
  kernel : Descriptors
  mServerAddr : SocketAddr
  mState : ClientState
  mConnSocket : Option Socket
  mConnection : Option HeldConnection
  others : List HeldConnection
  deriving DecidableEq

abbrev SocketsM := EStateM Stop ClientSockets

/-- What a change of state meets: the memory and the system calls of `createTcpClientSocket`, the
error pending on the connected socket, what stops `destroyConnection` before it resets the socket,
and what stops the rest of the function. -/
structure SocketsIo where
  memory : Socket
  calls : ConnectCalls
  soError : Errno
  disableAll : Option Stop
  rest : Option Stop

/-- The destructor of a pointer to a socket. -/
def Descriptors.reset (k : Descriptors) : Option Socket → Descriptors
  | none => k
  | some s => k.close s.mFd

namespace ClientSockets

/-- `TcpClient::TcpClient`. -/
def create (serverAddr : SocketAddr) : ClientSockets where
  kernel := .empty
  mServerAddr := serverAddr
  mState := .disconnect
  mConnSocket := none
  mConnection := none
  others := []

def onKernel {α : Type} (x : DescriptorM α) : SocketsM α := fun s =>
  match x.run s.kernel with
  | .ok a k => .ok a { s with kernel := k }
  | .error e k => .error e { s with kernel := k }

/-- What comes after the last access to a socket. -/
def endsWith : Option Stop → SocketsM Unit
  | none => pure ()
  | some e => throw e

/-- `mConnSocket = nullptr`. -/
def resetConnSocket (s : ClientSockets) : ClientSockets :=
  { s with kernel := s.kernel.reset s.mConnSocket, mConnSocket := none }

/-- `mConnection` gives up its reference. The last one takes the connection with it. -/
def dropConnection (s : ClientSockets) : ClientSockets :=
  match s.mConnection with
  | none => s
  | some c =>
    if c.copies = 0 then { s with kernel := s.kernel.reset c.mpSocket, mConnection := none }
    else { s with mConnection := none, others := c :: s.others }

/-- `mConnection->mpSocket = nullptr`. -/
def resetSocket (s : ClientSockets) : ClientSockets :=
  match s.mConnection with
  | none => s
  | some c =>
    { s with
      kernel := s.kernel.reset c.mpSocket
      mConnection := some { c with mpSocket := none } }

def doConnecting (io : SocketsIo) : SocketsM Unit := do
  -- the socket of the previous attempt is dropped first
  modify resetConnSocket
  let socket ← onKernel (Socket.createTcpClientSocket io.memory (← get).mServerAddr io.calls)
  modify fun s => { s with mConnSocket := socket }
  endsWith io.rest

def doConnected (io : SocketsIo) : SocketsM Unit := do
  assertTrue ((← get).mConnSocket ≠ none)
  assertTrue (io.soError = 0)
  let socket := (← get).mConnSocket
  -- the socket moves into the new connection, which takes the place of the old one
  modify fun s => { s with mConnSocket := none }
  modify dropConnection
  modify fun s => { s with mConnection := some ⟨socket, 0⟩ }
  endsWith io.rest

/-- `TcpConnection::destroyConnection`. An exception is logged, and the socket stays. -/
def destroyConnection : Option Stop → SocketsM Unit
  | none => modify resetSocket
  | some e => if e.isException then pure () else throw e

def doDisconnected (io : SocketsIo) : SocketsM Unit := do
  assertTrue ((← get).mConnection ≠ none)
  destroyConnection io.disableAll
  modify dropConnection
  endsWith io.rest

/-- The function behind a state; `doForceDisconnected` only queues a task. -/
def enter (newState : ClientState) (io : SocketsIo) : SocketsM Unit :=
  match newState with
  | .disconnect => doDisconnected io
  | .connecting => doConnecting io
  | .connected => doConnected io
  | .forceDisconnected => endsWith io.rest

def transStateInLoop (newState : ClientState) (io : SocketsIo) : SocketsM Unit := do
  if TcpClient.Admits (← get).mState newState then
    modify fun s => { s with mState := newState }
    enter newState io

end ClientSockets

inductive SocketsEvent where
  /-- A call of `transStateInLoop`: by `connect()`, by the timer of a retry or by a task. -/
  | transState (newState : ClientState) (io : SocketsIo)
  /-- Another reference to `mConnection` is taken. -/
  | copy
  /-- Such a reference is dropped. -/
  | release
  /-- A reference to the connection at the position is copied, which only others hold. -/
  | copyOther (pos : ℕ)
  /-- A reference to this connection is dropped, which may be the last. -/
  | releaseOther (pos : ℕ)

namespace ClientSockets

/-- An exception that leaves a change of state leaves the client as it is; the other stops end the
process. -/
def step (s : ClientSockets) : SocketsEvent → Option ClientSockets
  | .transState newState io =>
    match (transStateInLoop newState io).run s with
    | .ok _ s' => some s'
    | .error e s' => if e.isException then some s' else none
  | .copy => s.mConnection.map fun c =>
    { s with mConnection := some { c with copies := c.copies + 1 } }
  | .release =>
    match s.mConnection with
    | some ⟨socket, n + 1⟩ => some { s with mConnection := some ⟨socket, n⟩ }
    | _ => none
  | .copyOther pos => s.others[pos]?.map fun c =>
    { s with others := s.others.set pos { c with copies := c.copies + 1 } }
  | .releaseOther pos =>
    match s.others[pos]? with
    | some ⟨socket, 1⟩ =>
      some { s with kernel := s.kernel.reset socket, others := s.others.eraseIdx pos }
    | some ⟨socket, n + 2⟩ => some { s with others := s.others.set pos ⟨socket, n + 1⟩ }
    | _ => none

/-- The descriptors of `mConnSocket` and of the socket in `mConnection`. -/
def owned (s : ClientSockets) : List ℕ :=
  (s.mConnSocket.toList ++ (s.mConnection.bind HeldConnection.mpSocket).toList).map Socket.mFd

/-- Every descriptor opened so far is closed, once and without an owner, or it is open and has
exactly one owner. -/
def NoLeak (s : ClientSockets) : Prop :=
  ∀ fd < s.kernel.opened,
    (s.kernel.closed.count fd = 1 ∧ fd ∉ s.owned) ∨
      (fd ∉ s.kernel.closed ∧ s.owned.count fd = 1)

/-- When the client drops its reference to the connection, nobody else keeps its socket. -/
def Drops (s : ClientSockets) : Prop :=
  ∀ c ∈ s.mConnection, c.copies = 0 ∨ c.mpSocket = none

/-- The steps that leave no descriptor behind: an attempt that gets as far as `connect(2)` does not
fail there at once, and the client drops its reference to a connection whose socket is open only
when nobody else holds one. -/
def KeepsSockets (s : ClientSockets) : SocketsEvent → Prop
  | .transState newState io => TcpClient.Admits s.mState newState →
    match newState with
    | .connecting => ¬ (io.calls.Opens ∧ io.calls.FailsAtOnce)
    | .connected => s.Drops
    | .disconnect => io.disableAll = none ∨ s.Drops
    | .forceDisconnected => True
  | _ => True

variable {s s' : ClientSockets} {newState : ClientState} {io : SocketsIo}

/-! ### What a change of state does -/

/-- The client has entered the state, and the function behind it begins. -/
def entering (s : ClientSockets) (newState : ClientState) : ClientSockets :=
  { s with mState := newState }

/-- A new attempt has opened its descriptor. -/
def attempting (s : ClientSockets) : ClientSockets :=
  { s.resetConnSocket with kernel := s.resetConnSocket.kernel.opening }

/-- The socket has moved into a new connection, which has taken the place of the old one. -/
def joined (s : ClientSockets) : ClientSockets :=
  { dropConnection { s with mConnSocket := none } with mConnection := some ⟨s.mConnSocket, 0⟩ }

/-- What a change of state does to the sockets, whether it returns or throws. -/
inductive Moves (s : ClientSockets) : ClientState → SocketsIo → ClientSockets → Prop
  | refused {newState : ClientState} {io : SocketsIo} : ¬ TcpClient.Admits s.mState newState →
    Moves s newState io s
  | noDescriptor {io : SocketsIo} : TcpClient.Admits s.mState .connecting → ¬ io.calls.Opens →
    Moves s .connecting io (s.entering .connecting).resetConnSocket
  | failed {io : SocketsIo} : TcpClient.Admits s.mState .connecting → io.calls.Opens →
    io.calls.FailsAtOnce →
    Moves s .connecting io (s.entering .connecting).attempting
  | connecting {io : SocketsIo} {socket : Socket} : TcpClient.Admits s.mState .connecting →
    io.calls.Opens → ¬ io.calls.FailsAtOnce → socket.mFd = s.kernel.opened →
    Moves s .connecting io { (s.entering .connecting).attempting with mConnSocket := some socket }
  | connected {io : SocketsIo} : TcpClient.Admits s.mState .connected → s.mConnSocket ≠ none →
    Moves s .connected io (s.entering .connected).joined
  | disconnected {io : SocketsIo} : TcpClient.Admits s.mState .disconnect → s.mConnection ≠ none →
    io.disableAll = none →
    Moves s .disconnect io (s.entering .disconnect).resetSocket.dropConnection
  | kept {io : SocketsIo} : TcpClient.Admits s.mState .disconnect → s.mConnection ≠ none →
    io.disableAll ≠ none → Moves s .disconnect io (s.entering .disconnect).dropConnection
  | forceDisconnected {io : SocketsIo} : TcpClient.Admits s.mState .forceDisconnected →
    Moves s .forceDisconnected io (s.entering .forceDisconnected)

@[simp] theorem opened_reset (k : Descriptors) (o : Option Socket) :
    (k.reset o).opened = k.opened := by
  cases o <;> rfl

@[simp] theorem final_endsWith (e : Option Stop) (s : ClientSockets) :
    Machine.final ((endsWith e).run s) = s := by
  cases e <;> rfl

/-- The stops that a step survives. -/
def Survives (r : EStateM.Result Stop ClientSockets Unit) : Prop :=
  match r with
  | .ok _ _ => True
  | .error e _ => e.isException = true

theorem step_transState_eq_some_iff : step s (.transState newState io) = some s' ↔
    Survives ((transStateInLoop newState io).run s) ∧
      Machine.final ((transStateInLoop newState io).run s) = s' := by
  rw [step]
  cases (transStateInLoop newState io).run s with
  | ok u s₁ => simp [Survives, Machine.final]
  | error e s₁ => simp [Survives, Machine.final]

theorem run_transStateInLoop (s : ClientSockets) (newState : ClientState) (io : SocketsIo) :
    (transStateInLoop newState io).run s =
      if TcpClient.Admits s.mState newState then (enter newState io).run (s.entering newState)
      else .ok () s := by
  by_cases hadm : TcpClient.Admits s.mState newState
  · rw [if_pos hadm]
    exact congrArg (EStateM.run · s) (if_pos hadm)
  · rw [if_neg hadm]
    have hpure : (pure () : SocketsM Unit).run s = .ok () s := rfl
    exact (congrArg (EStateM.run · s) (if_neg hadm)).trans hpure

theorem run_onKernel {α : Type} (x : DescriptorM α) (s : ClientSockets) :
    (onKernel x).run s =
      match x.run s.kernel with
      | .ok a k => .ok a { s with kernel := k }
      | .error e k => .error e { s with kernel := k } := by
  unfold onKernel EStateM.run
  rfl

theorem run_doConnecting (s : ClientSockets) (io : SocketsIo) :
    (doConnecting io).run s =
      match (Socket.createTcpClientSocket io.memory s.mServerAddr io.calls).run
          s.resetConnSocket.kernel with
      | .ok socket k =>
        (endsWith io.rest).run { s.resetConnSocket with kernel := k, mConnSocket := socket }
      | .error e k => .error e { s.resetConnSocket with kernel := k } := by
  simp only [doConnecting, EStateM.run_bind, EStateM.run_modify, EStateM.run_get, run_onKernel]
  rw [show s.resetConnSocket.mServerAddr = s.mServerAddr from rfl]
  cases (Socket.createTcpClientSocket io.memory s.mServerAddr io.calls).run
      s.resetConnSocket.kernel with
  | ok socket k => rfl
  | error e k => rfl

theorem moves_doConnecting (hadm : TcpClient.Admits s.mState .connecting) :
    Moves s .connecting io (Machine.final ((doConnecting io).run (s.entering .connecting))) := by
  rw [run_doConnecting]
  by_cases hopens : io.calls.Opens
  · by_cases hfails : io.calls.FailsAtOnce
    · rw [Socket.createTcpClientSocket_of_failsAtOnce hopens hfails]
      simp only [final_endsWith]
      exact .failed hadm hopens hfails
    · obtain ⟨socket, hfd, hrun⟩ := Socket.createTcpClientSocket_of_opens hopens hfails
      rw [hrun]
      simp only [final_endsWith]
      exact .connecting hadm hopens hfails (hfd.trans (opened_reset _ _))
  · rcases Socket.createTcpClientSocket_of_not_opens hopens with hrun | ⟨errno, hrun⟩
    · rw [hrun]
      simp only [final_endsWith]
      exact .noDescriptor hadm hopens
    · rw [hrun]
      exact .noDescriptor hadm hopens

theorem run_doConnected (hsocket : s.mConnSocket ≠ none) (herr : io.soError = 0) :
    (doConnected io).run s = (endsWith io.rest).run s.joined := by
  simp only [doConnected, EStateM.run_bind, EStateM.run_get, assertTrue_pos hsocket,
    EStateM.run_pure, assertTrue_pos herr, EStateM.run_modify]
  rfl

theorem run_doConnected_of_not (h : ¬ (s.mConnSocket ≠ none ∧ io.soError = 0)) :
    (doConnected io).run s = .error .fatal s := by
  by_cases hsocket : s.mConnSocket ≠ none
  · have herr : ¬ io.soError = 0 := fun herr => h ⟨hsocket, herr⟩
    simp [doConnected, EStateM.run_bind, EStateM.run_get, assertTrue_pos hsocket,
      assertTrue_neg herr]
  · simp [doConnected, EStateM.run_bind, EStateM.run_get, assertTrue_neg hsocket]

theorem moves_doConnected (hadm : TcpClient.Admits s.mState .connected)
    (h : Survives ((doConnected io).run (s.entering .connected))) :
    Moves s .connected io (Machine.final ((doConnected io).run (s.entering .connected))) := by
  by_cases hchecks : (s.entering .connected).mConnSocket ≠ none ∧ io.soError = 0
  · rw [run_doConnected hchecks.1 hchecks.2, final_endsWith]
    exact .connected hadm hchecks.1
  · rw [run_doConnected_of_not hchecks] at h
    cases h

theorem run_doDisconnected (hconn : s.mConnection ≠ none) :
    (doDisconnected io).run s =
      match (destroyConnection io.disableAll).run s with
      | .ok _ s₁ => (endsWith io.rest).run s₁.dropConnection
      | .error e s₁ => .error e s₁ := by
  simp only [doDisconnected, EStateM.run_bind, EStateM.run_get, assertTrue_pos hconn,
    EStateM.run_pure, EStateM.run_modify]
  cases (destroyConnection io.disableAll).run s with
  | ok u s₁ => rfl
  | error e s₁ => rfl

theorem run_doDisconnected_of_none (hconn : s.mConnection = none) :
    (doDisconnected io).run s = .error .fatal s := by
  simp [doDisconnected, EStateM.run_bind, EStateM.run_get, assertTrue_neg, hconn]

theorem moves_doDisconnected (hadm : TcpClient.Admits s.mState .disconnect)
    (h : Survives ((doDisconnected io).run (s.entering .disconnect))) :
    Moves s .disconnect io (Machine.final ((doDisconnected io).run (s.entering .disconnect))) := by
  by_cases hconn : (s.entering .disconnect).mConnection = none
  · rw [run_doDisconnected_of_none hconn] at h
    cases h
  · rw [run_doDisconnected hconn] at h ⊢
    cases hstop : io.disableAll with
    | none =>
      rw [destroyConnection, EStateM.run_modify]
      simp only [final_endsWith]
      exact .disconnected hadm hconn hstop
    | some e =>
      rw [hstop, destroyConnection] at h
      rw [destroyConnection]
      by_cases he : e.isException = true
      · -- the exception is caught, and the socket stays
        rw [if_pos he, EStateM.run_pure]
        simp only [final_endsWith]
        exact .kept hadm hconn (by rw [hstop]; exact Option.some_ne_none e)
      · rw [if_neg he] at h
        exact absurd h he

/-- **Every change of state is one of the moves.** -/
theorem moves_of_step (h : step s (.transState newState io) = some s') :
    Moves s newState io s' := by
  obtain ⟨hsurvives, rfl⟩ := step_transState_eq_some_iff.mp h
  rw [run_transStateInLoop] at hsurvives ⊢
  by_cases hadm : TcpClient.Admits s.mState newState
  · rw [if_pos hadm] at hsurvives ⊢
    cases newState with
    | disconnect => exact moves_doDisconnected hadm hsurvives
    | connecting => exact moves_doConnecting hadm
    | connected => exact moves_doConnected hadm hsurvives
    | forceDisconnected =>
      rw [enter, final_endsWith]
      exact .forceDisconnected hadm
  · rw [if_neg hadm]
    exact .refused hadm

/-! ### The balance -/

/-- One if the pointer holds the socket of the descriptor. -/
def holds (o : Option Socket) (fd : ℕ) : ℕ := (o.toList.map Socket.mFd).count fd

@[simp] theorem holds_none (fd : ℕ) : holds none fd = 0 := rfl

theorem holds_some (socket : Socket) (fd : ℕ) :
    holds (some socket) fd = if socket.mFd = fd then 1 else 0 := by
  simp [holds, List.count_singleton]

/-- How often the descriptor is closed, plus how many sockets of the client own it. -/
def weight (s : ClientSockets) (fd : ℕ) : ℕ :=
  s.kernel.closed.count fd + holds s.mConnSocket fd +
    holds (s.mConnection.bind HeldConnection.mpSocket) fd

/-- One if the descriptor goes with a connection that others keep when the client drops it. -/
def lost (s : ClientSockets) (fd : ℕ) : ℕ :=
  match s.mConnection with
  | none => 0
  | some c => if c.copies = 0 then 0 else holds c.mpSocket fd

theorem noLeak_iff_weight : s.NoLeak ↔ ∀ fd < s.kernel.opened, s.weight fd = 1 := by
  refine forall₂_congr fun fd _ => ?_
  have howned : s.owned.count fd =
      holds s.mConnSocket fd + holds (s.mConnection.bind HeldConnection.mpSocket) fd := by
    rw [owned, List.map_append, List.count_append, holds, holds]
  rw [weight, ← List.count_eq_zero, ← List.count_eq_zero, howned]
  omega

theorem count_closed_reset (k : Descriptors) (o : Option Socket) (fd : ℕ) :
    (k.reset o).closed.count fd = k.closed.count fd + holds o fd := by
  cases o with
  | none => rfl
  | some socket => simp [Descriptors.reset, Descriptors.close, List.count_cons, holds_some]

theorem weight_resetConnSocket (s : ClientSockets) (fd : ℕ) :
    s.resetConnSocket.weight fd = s.weight fd := by
  simp only [resetConnSocket, weight, count_closed_reset, holds_none]
  omega

theorem weight_attempting (s : ClientSockets) (fd : ℕ) : s.attempting.weight fd = s.weight fd :=
  s.weight_resetConnSocket fd

theorem opened_attempting (s : ClientSockets) :
    s.attempting.kernel.opened = s.kernel.opened + 1 :=
  congrArg (· + 1) (opened_reset _ _)

/-- The descriptor of the attempt has got its owner. -/
theorem weight_attempting_socket (s : ClientSockets) (socket : Socket) (fd : ℕ) :
    weight { s.attempting with mConnSocket := some socket } fd =
      s.weight fd + if socket.mFd = fd then 1 else 0 := by
  have hweight := s.weight_attempting fd
  simp only [weight, attempting, resetConnSocket, holds_none, holds_some] at hweight ⊢
  omega

theorem weight_resetSocket (s : ClientSockets) (fd : ℕ) :
    s.resetSocket.weight fd = s.weight fd := by
  cases hc : s.mConnection with
  | none => simp [resetSocket, weight, hc]
  | some c =>
    simp [resetSocket, weight, hc, count_closed_reset]
    omega

theorem resetSocket_eq (s : ClientSockets) :
    ∃ k conn, k.opened = s.kernel.opened ∧
      s.resetSocket = { s with kernel := k, mConnection := conn } := by
  cases hc : s.mConnection with
  | none =>
    obtain ⟨k, addr, state, socket, conn, others⟩ := s
    cases hc
    exact ⟨k, none, rfl, rfl⟩
  | some c => exact ⟨_, _, opened_reset _ _, by rw [resetSocket, hc]⟩

/-- The descriptor is closed with the connection, or lost with it. -/
theorem weight_dropConnection (s : ClientSockets) (fd : ℕ) :
    s.dropConnection.weight fd + s.lost fd = s.weight fd := by
  cases hc : s.mConnection with
  | none => simp [dropConnection, weight, lost, hc]
  | some c =>
    by_cases hcopies : c.copies = 0
    · simp [dropConnection, weight, lost, hc, hcopies, count_closed_reset]
      omega
    · simp [dropConnection, weight, lost, hc, hcopies]

theorem dropConnection_eq (s : ClientSockets) :
    ∃ k others, k.opened = s.kernel.opened ∧
      s.dropConnection = { s with kernel := k, mConnection := none, others := others } := by
  cases hc : s.mConnection with
  | none =>
    obtain ⟨k, addr, state, socket, conn, others⟩ := s
    cases hc
    exact ⟨k, others, rfl, rfl⟩
  | some c =>
    by_cases hcopies : c.copies = 0
    · exact ⟨s.kernel.reset c.mpSocket, s.others, opened_reset _ _,
        by simp [dropConnection, hc, hcopies]⟩
    · exact ⟨s.kernel, c :: s.others, rfl, by simp [dropConnection, hc, hcopies]⟩

/-- The socket that moves keeps its descriptor; that of the old connection may be lost. -/
theorem weight_joined (s : ClientSockets) (fd : ℕ) :
    s.joined.weight fd + s.lost fd = s.weight fd := by
  have hdrop := weight_dropConnection { s with mConnSocket := none } fd
  obtain ⟨k, others, -, heq⟩ := dropConnection_eq { s with mConnSocket := none }
  have hlost : lost { s with mConnSocket := none } fd = s.lost fd := rfl
  rw [heq, hlost] at hdrop
  rw [joined, heq]
  simp only [weight, holds_none, Option.bind_none, Option.bind_some] at hdrop ⊢
  omega

theorem lost_of_drops (h : s.Drops) (fd : ℕ) : s.lost fd = 0 := by
  cases hc : s.mConnection with
  | none => simp [lost, hc]
  | some c => rcases h c hc with hcopies | hsocket <;> simp [lost, *]

theorem weight_dropConnection_of_drops (h : s.Drops) (fd : ℕ) :
    s.dropConnection.weight fd = s.weight fd := by
  have hweight := s.weight_dropConnection fd
  rwa [lost_of_drops h, Nat.add_zero] at hweight

theorem weight_joined_of_drops (h : s.Drops) (fd : ℕ) : s.joined.weight fd = s.weight fd := by
  have hweight := s.weight_joined fd
  rwa [lost_of_drops h, Nat.add_zero] at hweight

theorem exists_lost (h : ¬ s.Drops) : ∃ fd, s.lost fd = 1 := by
  simp only [Drops, not_forall, not_or] at h
  obtain ⟨c, hc, hcopies, hsocket⟩ := h
  obtain ⟨socket, hsocket⟩ := Option.ne_none_iff_exists'.mp hsocket
  rw [Option.mem_def] at hc
  exact ⟨socket.mFd, by simp [lost, hc, hcopies, hsocket, holds_some]⟩

theorem opened_dropConnection (s : ClientSockets) :
    s.dropConnection.kernel.opened = s.kernel.opened := by
  obtain ⟨k, others, hk, heq⟩ := s.dropConnection_eq
  rw [heq, hk]

theorem opened_joined (s : ClientSockets) : s.joined.kernel.opened = s.kernel.opened :=
  opened_dropConnection _

theorem mConnection_dropConnection (s : ClientSockets) : s.dropConnection.mConnection = none := by
  obtain ⟨k, others, -, heq⟩ := s.dropConnection_eq
  rw [heq]

theorem others_dropConnection (hdrops : s.Drops) (h : ∀ c ∈ s.others, c.mpSocket = none) :
    ∀ c ∈ s.dropConnection.others, c.mpSocket = none := by
  cases hc : s.mConnection with
  | none => simpa [dropConnection, hc] using h
  | some c =>
    by_cases hcopies : c.copies = 0
    · simpa [dropConnection, hc, hcopies] using h
    · simp only [dropConnection, hc, hcopies, if_false, List.forall_mem_cons]
      exact ⟨(hdrops c hc).resolve_left hcopies, h⟩

/-- Every descriptor opened so far is closed or owned, and the connections that only others keep
have no socket. -/
structure Inv (s : ClientSockets) : Prop where
  weight : ∀ fd, s.weight fd = if fd < s.kernel.opened then 1 else 0
  others : ∀ c ∈ s.others, c.mpSocket = none

theorem Inv.noLeak (h : Inv s) : s.NoLeak := noLeak_iff_weight.mpr fun fd hfd => by
  rw [h.weight, if_pos hfd]

theorem inv_create (addr : SocketAddr) : Inv (create addr) where
  weight _ := rfl
  others := by simp [create]

/-- No descriptor is opened, and none is lost. -/
theorem Inv.of_weight (hs : Inv s) (hopened : s'.kernel.opened = s.kernel.opened)
    (hweight : ∀ fd, s'.weight fd = s.weight fd) (hothers : ∀ c ∈ s'.others, c.mpSocket = none) :
    Inv s' where
  weight fd := by rw [hweight, hs.weight, hopened]
  others := hothers

/-- The socket of the connection is gone before the client drops it. -/
theorem drops_resetSocket (s : ClientSockets) : s.resetSocket.Drops := by
  intro c hmem
  cases hc : s.mConnection with
  | none => simp [resetSocket, hc] at hmem
  | some c' =>
    right
    simp only [resetSocket, hc, Option.mem_def, Option.some.injEq] at hmem
    rw [← hmem]

theorem inv_of_moves (hs : Inv s) (hkeep : s.KeepsSockets (.transState newState io))
    (h : Moves s newState io s') : Inv s' := by
  cases h with
  | refused hadm => exact hs
  | noDescriptor hadm hopens =>
    exact hs.of_weight (opened_reset _ _) (weight_resetConnSocket _) hs.others
  | failed hadm hopens hfails => exact absurd ⟨hopens, hfails⟩ (hkeep hadm)
  | @connecting _ socket hadm hopens hfails hfd =>
    refine ⟨fun fd => ?_, hs.others⟩
    have hopened : (s.entering .connecting).attempting.kernel.opened = s.kernel.opened + 1 :=
      opened_attempting _
    have hweight : (s.entering .connecting).weight fd = _ := hs.weight fd
    change _ = if fd < (s.entering .connecting).attempting.kernel.opened then 1 else 0
    -- the new descriptor is the one that the new socket owns
    rw [weight_attempting_socket, hweight, hfd, hopened]
    split <;> split <;> split <;> omega
  | connected hadm hsocket =>
    have hdrops : (s.entering .connected).Drops := hkeep hadm
    exact hs.of_weight (opened_joined _) (weight_joined_of_drops hdrops)
      (others_dropConnection hdrops hs.others)
  | disconnected hadm hconn hstop =>
    have hdrops := drops_resetSocket (s.entering .disconnect)
    obtain ⟨k, conn, hopened, heq⟩ := (s.entering .disconnect).resetSocket_eq
    have hothers : ∀ c ∈ (s.entering .disconnect).resetSocket.others, c.mpSocket = none := by
      rw [heq]
      exact hs.others
    refine hs.of_weight ((opened_dropConnection _).trans ?_) (fun fd => ?_)
      (others_dropConnection hdrops hothers)
    · rw [heq, hopened]
      rfl
    · rw [weight_dropConnection_of_drops hdrops, weight_resetSocket]
      rfl
  | kept hadm hconn hstop =>
    have hdrops : (s.entering .disconnect).Drops := (hkeep hadm).resolve_left hstop
    exact hs.of_weight (opened_dropConnection _) (weight_dropConnection_of_drops hdrops)
      (others_dropConnection hdrops hs.others)
  | forceDisconnected hadm => exact ⟨hs.weight, hs.others⟩

/-- A descriptor that is lost is one of those opened. -/
theorem Inv.lt_of_lost (hs : Inv s) {fd : ℕ} (h : s.lost fd = 1) :
    fd < s.kernel.opened ∧ s.weight fd = 1 := by
  have hle := s.weight_dropConnection fd
  have hweight := hs.weight fd
  split at hweight
  · exact ⟨‹_›, hweight⟩
  · omega

/-- The change of state loses a descriptor. -/
theorem not_noLeak_of_moves (hs : Inv s) (hkeep : ¬ s.KeepsSockets (.transState newState io))
    (h : Moves s newState io s') : ¬ s'.NoLeak := by
  obtain ⟨hadm, hkeep⟩ := Classical.not_imp.mp hkeep
  rw [noLeak_iff_weight]
  intro hno
  cases h with
  | refused hrefused => exact hrefused hadm
  | noDescriptor _ hopens => exact hopens (not_not.mp hkeep).1
  | failed _ hopens hfails =>
    -- the descriptor that was opened last has no owner
    have hone := hno s.kernel.opened
    have hweight : (s.entering .connecting).weight s.kernel.opened = _ := hs.weight s.kernel.opened
    rw [weight_attempting, hweight, if_neg (lt_irrefl _), opened_attempting] at hone
    exact absurd (hone (Nat.lt_succ_self _)) (by decide)
  | connecting _ hopens hfails hfd => exact hfails (not_not.mp hkeep).2
  | connected _ hsocket =>
    obtain ⟨fd, hlost⟩ := exists_lost hkeep
    obtain ⟨hfd, hone⟩ := hs.lt_of_lost hlost
    have hweight : (s.entering .connected).joined.weight fd + s.lost fd = s.weight fd :=
      weight_joined _ fd
    have hone' := hno fd ((opened_joined _).symm ▸ hfd)
    omega
  | disconnected _ hconn hstop => exact hkeep (.inl hstop)
  | kept _ hconn hstop =>
    obtain ⟨fd, hlost⟩ := exists_lost fun hdrops => hkeep (.inr hdrops)
    obtain ⟨hfd, hone⟩ := hs.lt_of_lost hlost
    have hweight : (s.entering .disconnect).dropConnection.weight fd + s.lost fd = s.weight fd :=
      weight_dropConnection _ fd
    have hone' := hno fd ((opened_dropConnection _).symm ▸ hfd)
    omega
  | forceDisconnected _ => exact hkeep trivial

/-! ### Runs -/

/-- The reference changes hands; the socket stays where it is. -/
theorem weight_copies {c : HeldConnection} (hc : s.mConnection = some c) (copies fd : ℕ) :
    weight { s with mConnection := some { c with copies := copies } } fd = s.weight fd := by
  simp [weight, hc]

theorem others_set (hs : Inv s) {socket : Option Socket} (hc : socket = none) (pos copies : ℕ) :
    ∀ c' ∈ s.others.set pos ⟨socket, copies⟩, c'.mpSocket = none := by
  intro c' hmem
  rcases List.mem_or_eq_of_mem_set hmem with hmem | rfl
  · exact hs.others c' hmem
  · exact hc

theorem inv_step {i : SocketsEvent} (hs : Inv s) (hkeep : s.KeepsSockets i)
    (h : step s i = some s') : Inv s' := by
  cases i with
  | transState newState io => exact inv_of_moves hs hkeep (moves_of_step h)
  | copy =>
    obtain ⟨c, hc, rfl⟩ := Option.map_eq_some_iff.mp h
    exact hs.of_weight rfl (weight_copies hc _) hs.others
  | release =>
    rw [step] at h
    split at h
    · rename_i hc
      cases h
      exact hs.of_weight rfl (weight_copies hc _) hs.others
    · cases h
  | copyOther pos =>
    obtain ⟨c, hc, rfl⟩ := Option.map_eq_some_iff.mp h
    have hnone : c.mpSocket = none := hs.others c (List.mem_of_getElem? hc)
    exact hs.of_weight rfl (fun _ => rfl) (others_set hs hnone pos _)
  | releaseOther pos =>
    rw [step] at h
    split at h
    · rename_i socket hc
      cases h
      -- the last reference goes, and there is no socket left to destroy
      obtain rfl : socket = none := hs.others _ (List.mem_of_getElem? hc)
      exact hs.of_weight rfl (fun _ => rfl) fun c hmem =>
        hs.others c (List.mem_of_mem_eraseIdx hmem)
    · rename_i hc
      cases h
      have hnone : _ = none := hs.others _ (List.mem_of_getElem? hc)
      exact hs.of_weight rfl (fun _ => rfl) (others_set hs hnone pos _)
    · cases h

theorem keepsSockets_of_noLeak {i : SocketsEvent} (hs : Inv s) (h : step s i = some s')
    (hno : s'.NoLeak) : s.KeepsSockets i := by
  cases i with
  | transState newState io =>
    by_contra hkeep
    exact not_noLeak_of_moves hs hkeep (moves_of_step h) hno
  | copy => trivial
  | release => trivial
  | copyOther pos => trivial
  | releaseOther pos => trivial

/-- **A run leaks no descriptor exactly when its steps keep the sockets.** -/
theorem noLeak_iff (serverAddr : SocketAddr) (is : List SocketsEvent) :
    Always step NoLeak (create serverAddr) is ↔
      Along step KeepsSockets (create serverAddr) is :=
  always_iff_along (fun _ => Inv.noLeak) (fun _ _ _ => inv_step)
    (fun _ _ _ => keepsSockets_of_noLeak) (inv_create serverAddr)

/-- A first attempt at a network without a route: `connect(2)` fails at once, with `ENETUNREACH`. -/
def unreachable : SocketsEvent :=
  .transState .connecting
    { memory := .zeroed
      calls := { inet_pton := 1, socket := none, connect := some 101, getsockname := none }
      soError := 0
      disableAll := none
      rest := none }

theorem unreachable_leaks :
    ¬ Always step NoLeak (create ⟨ascii "192.0.2.1", .ipv4, 80⟩) [unreachable] := by
  intro h
  have hrun : run step (create ⟨ascii "192.0.2.1", .ipv4, 80⟩) [unreachable] =
      some { create ⟨ascii "192.0.2.1", .ipv4, 80⟩ with
        kernel := ⟨1, []⟩
        mState := .connecting } := rfl
  have hleak := h [unreachable] _ List.prefix_rfl hrun 0 Nat.zero_lt_one
  exact absurd hleak (by decide)

/-- The step is no attempt whose connect fails at once. -/
def KeepsAttempt (s : ClientSockets) : SocketsEvent → Prop
  | .transState .connecting io => TcpClient.Admits s.mState .connecting →
    ¬ (io.calls.Opens ∧ io.calls.FailsAtOnce)
  | _ => True

/-- Only the client holds a reference to its connection. -/
def Unshared (s : ClientSockets) : Prop := ∀ c ∈ s.mConnection, c.copies = 0

theorem Unshared.drops (hs : s.Unshared) : s.Drops := fun c hc => .inl (hs c hc)

theorem Unshared.keepsSockets_iff (hs : s.Unshared) {i : SocketsEvent} :
    s.KeepsSockets i ↔ s.KeepsAttempt i := by
  cases i with
  | transState newState io =>
    cases newState with
    | disconnect => exact iff_of_true (fun _ => .inr hs.drops) trivial
    | connecting => exact Iff.rfl
    | connected => exact iff_of_true (fun _ => hs.drops) trivial
    | forceDisconnected => exact iff_of_true (fun _ => trivial) trivial
  | _ => exact Iff.rfl

theorem unshared_of_moves (hs : s.Unshared) (h : Moves s newState io s') : s'.Unshared := by
  cases h with
  | connected hadm hsocket =>
    -- nobody has seen the new connection yet
    rintro c ⟨⟩
    rfl
  | disconnected hadm hconn hstop =>
    intro c hc
    rw [mConnection_dropConnection] at hc
    cases hc
  | kept hadm hconn hstop =>
    intro c hc
    rw [mConnection_dropConnection] at hc
    cases hc
  | _ => exact hs

theorem unshared_step {i : SocketsEvent} (hs : s.Unshared) (hi : i ≠ .copy)
    (h : step s i = some s') : s'.Unshared := by
  cases i with
  | transState newState io => exact unshared_of_moves hs (moves_of_step h)
  | copy => exact absurd rfl hi
  | release =>
    rw [step] at h
    split at h
    · rename_i hc
      exact absurd (hs _ hc) (Nat.succ_ne_zero _)
    · cases h
  | copyOther pos =>
    obtain ⟨c, -, rfl⟩ := Option.map_eq_some_iff.mp h
    exact hs
  | releaseOther pos =>
    rw [step] at h
    split at h <;> cases h <;> exact hs

/-- **Where nobody else takes a reference**, only an attempt whose connect fails at once leaks. -/
theorem noLeak_iff_of_unshared (serverAddr : SocketAddr) {is : List SocketsEvent}
    (hcopy : ∀ i ∈ is, i ≠ .copy) :
    Always step NoLeak (create serverAddr) is ↔
      Along step KeepsAttempt (create serverAddr) is := by
  refine always_iff_along_of (W := (· ≠ .copy)) (I := fun s => Inv s ∧ s.Unshared)
    (fun s hs => hs.1.noLeak) ?_ ?_ ⟨inv_create serverAddr, by simp [Unshared, create]⟩ hcopy
  · intro s i s' hs hi hkeep h
    have hkeep' := hs.2.keepsSockets_iff.mpr hkeep
    exact ⟨inv_step hs.1 hkeep' h, unshared_step hs.2 hi h⟩
  · intro s i s' hs hi h hno
    exact hs.2.keepsSockets_iff.mp (keepsSockets_of_noLeak hs.1 h hno)

/-! ### The sockets follow the client -/

/-- The client and its sockets are in the same state. -/
structure Follows (c : TcpClient) (s : ClientSockets) : Prop where
  mState : s.mState = c.mState
  mConnSocket : s.mConnSocket ≠ none ↔ c.mConnSocket = true
  mConnection : s.mConnection = none ↔ c.mConnection = none

/-- The system calls have the result that the client meets. -/
def Reports (calls : ConnectCalls) : ConnectResult → Prop
  | .noSocket errno => calls.inet_pton = 1 ∧ calls.socket = some errno
  | .failed => calls.inet_pton ≠ 1 ∨ (calls.Opens ∧ calls.FailsAtOnce)
  | .socket _ => calls.Opens ∧ ¬ calls.FailsAtOnce

/-- Nothing but the calls decides how the change of state ends. -/
def quiet (calls : ConnectCalls) : SocketsIo := ⟨.zeroed, calls, 0, none, none⟩

/-- The change of state finds what it asserts. -/
theorem survives_quiet (calls : ConnectCalls)
    (hconn : newState = .disconnect → s.mConnection ≠ none)
    (hsocket : newState = .connected → s.mConnSocket ≠ none) :
    Survives ((transStateInLoop newState (quiet calls)).run s) := by
  rw [run_transStateInLoop]
  by_cases hadm : TcpClient.Admits s.mState newState
  · rw [if_pos hadm]
    cases newState with
    | disconnect =>
      have hne : (s.entering .disconnect).mConnection ≠ none := hconn rfl
      rw [enter, run_doDisconnected hne]
      trivial
    | connecting =>
      rw [enter, run_doConnecting]
      by_cases hopens : (quiet calls).calls.Opens
      · by_cases hfails : (quiet calls).calls.FailsAtOnce
        · rw [Socket.createTcpClientSocket_of_failsAtOnce hopens hfails]
          trivial
        · obtain ⟨socket, -, hrun⟩ := Socket.createTcpClientSocket_of_opens hopens hfails
          rw [hrun]
          trivial
      · rcases Socket.createTcpClientSocket_of_not_opens hopens with hrun | ⟨errno, hrun⟩
        · rw [hrun]
          trivial
        · rw [hrun]
          rfl
    | connected =>
      have hne : (s.entering .connected).mConnSocket ≠ none := hsocket rfl
      rw [enter, run_doConnected hne rfl]
      trivial
    | forceDisconnected => trivial
  · rw [if_neg hadm]
    trivial

theorem exists_moves (s : ClientSockets) (newState : ClientState) (calls : ConnectCalls)
    (hconn : newState = .disconnect → s.mConnection ≠ none)
    (hsocket : newState = .connected → s.mConnSocket ≠ none) :
    ∃ s', run step s [.transState newState (quiet calls)] = some s' ∧
      Moves s newState (quiet calls) s' := by
  have hstep := step_transState_eq_some_iff.mpr ⟨survives_quiet calls hconn hsocket, rfl⟩
  exact ⟨_, run_cons_eq_some.mpr ⟨_, hstep, rfl⟩, moves_of_step hstep⟩

variable {c c' : TcpClient} {calls : ConnectCalls}

/-- The step leaves the state and the sockets of the client alone. -/
theorem Follows.of_eq (h : Follows c s) (hstate : c'.mState = c.mState)
    (hsocket : c'.mConnSocket = c.mConnSocket) (hconn : c'.mConnection = c.mConnection) :
    Follows c' s where
  mState := h.mState.trans hstate.symm
  mConnSocket := by rw [h.mConnSocket, hsocket]
  mConnection := by rw [h.mConnection, hconn]

theorem follows_create (mConnRandomDelay : Nat) (addr : SocketAddr) :
    Follows (TcpClient.create mConnRandomDelay) (create addr) where
  mState := rfl
  mConnSocket := by simp [create, TcpClient.create]
  mConnection := by simp [create, TcpClient.create]

/-- A change to `Disconnect` that is completed has found a connection. -/
theorem mConnection_of_disconnected {i : ClientEvent} {a : TcpClient.Ask} (ha : c.asks i = some a)
    (hst : a.newState = .disconnect) (hstate : c.mState = .connected)
    (hrun : (TcpClient.step i).run c = .ok () c') : c.mConnection ≠ none := by
  intro hnone
  rw [← TcpClient.taken_mConnection c i] at hnone
  have hadm : TcpClient.Admits c.mState .disconnect := hstate
  rw [TcpClient.run_step_of_asks ha, TcpClient.run_transStateInLoop, TcpClient.taken_mState, hst,
    if_pos hadm] at hrun
  simp [TcpClient.enter, hst, TcpClient.doDisconnected, EStateM.run_bind, EStateM.run_get,
    assertTrue_neg, hnone] at hrun

theorem reports_socket_iff {r : ConnectResult} (h : Reports calls r) :
    (calls.Opens ∧ ¬ calls.FailsAtOnce) ↔ ∃ errCode, r = .socket errCode := by
  cases r with
  | noSocket errno => simp [ConnectCalls.Opens, h.2]
  | failed =>
    rcases h with haddr | ⟨-, hfails⟩
    · simp [ConnectCalls.Opens, haddr]
    · simp [hfails]
  | socket errCode => simp [h.1, h.2]

theorem dialed_socket_iff {r : ConnectResult} (h : TcpClient.Dialed c r c') :
    c'.mConnSocket = true ↔ ∃ errCode, r = .socket errCode := by
  cases h <;> simp [TcpClient.cleared, TcpClient.retried]

/-- Both dial, and both have a socket then or neither has one. -/
theorem Follows.connecting {r : ConnectResult} (h : Follows c s) (hold : c.mState ≠ .connected)
    (hdialed : TcpClient.Dialed { c with mState := .connecting } r c')
    (hreports : Reports calls r) :
    ∃ is s', run step s is = some s' ∧ Follows c' s' := by
  have hsocket := dialed_socket_iff hdialed
  rw [← reports_socket_iff hreports] at hsocket
  have hstate : c'.mState = .connecting := by cases hdialed <;> rfl
  have hconn : c'.mConnection = c.mConnection := by cases hdialed <;> rfl
  obtain ⟨s', hrun, hmoves⟩ := exists_moves s .connecting calls nofun nofun
  refine ⟨_, s', hrun, ?_⟩
  cases hmoves with
  | refused hrefused => exact absurd (h.mState ▸ hold) hrefused
  | noDescriptor _ hopens =>
    refine ⟨hstate.symm, ?_, hconn ▸ h.mConnection⟩
    rw [hsocket]
    exact ⟨fun hne => absurd rfl hne, fun hsock => absurd hsock.1 hopens⟩
  | failed _ hopens hfails =>
    refine ⟨hstate.symm, ?_, hconn ▸ h.mConnection⟩
    rw [hsocket]
    exact ⟨fun hne => absurd rfl hne, fun hsock => absurd hfails hsock.2⟩
  | connecting _ hopens hfails hfd =>
    refine ⟨hstate.symm, ?_, hconn ▸ h.mConnection⟩
    rw [hsocket]
    exact ⟨fun _ => ⟨hopens, hfails⟩, fun _ => Option.some_ne_none _⟩

theorem Follows.connected (calls : ConnectCalls) (h : Follows c s) (hold : c.mState = .connecting)
    (hsocket : c.mConnSocket = true)
    (hidle : TcpClient.Idle (TcpClient.joined { c with mState := .connected }) c') :
    ∃ is s', run step s is = some s' ∧ Follows c' s' := by
  obtain ⟨s', hrun, hmoves⟩ := exists_moves s .connected calls nofun
    fun _ => h.mConnSocket.mpr hsocket
  refine ⟨_, s', hrun, ?_⟩
  cases hmoves with
  | refused hrefused => exact absurd (h.mState.trans hold) hrefused
  | connected _ _ =>
    obtain ⟨k, others, -, heq⟩ :=
      dropConnection_eq { s.entering .connected with mConnSocket := none }
    refine ⟨?_, ?_, ?_⟩
    · rw [hidle.mState, joined, heq]
      rfl
    · rw [hidle.mConnSocket, joined, heq]
      simp [TcpClient.joined]
    · rw [hidle.mConnection, joined]
      simp [TcpClient.joined]

theorem Follows.disconnected (calls : ConnectCalls) (h : Follows c s) (hold : c.mState = .connected)
    (hne : c.mConnection ≠ none) (hstate : c'.mState = .disconnect)
    (hsocket : c'.mConnSocket = c.mConnSocket) (hconn : c'.mConnection = none) :
    ∃ is s', run step s is = some s' ∧ Follows c' s' := by
  obtain ⟨s', hrun, hmoves⟩ := exists_moves s .disconnect calls
    (fun _ hnone => hne (h.mConnection.mp hnone)) nofun
  refine ⟨_, s', hrun, ?_⟩
  cases hmoves with
  | refused hrefused => exact absurd (h.mState.trans hold) hrefused
  | kept _ _ hstop => exact absurd rfl hstop
  | disconnected _ _ _ =>
    obtain ⟨k, others, -, hdrop⟩ := (s.entering .disconnect).resetSocket.dropConnection_eq
    obtain ⟨k', conn, -, hreset⟩ := (s.entering .disconnect).resetSocket_eq
    rw [hreset] at hdrop
    rw [hreset, hdrop]
    refine ⟨hstate.symm, ?_, ?_⟩
    · rw [hsocket]
      exact h.mConnSocket
    · simp [hconn]

theorem Follows.forceDisconnected (calls : ConnectCalls) (h : Follows c s)
    (hadm : TcpClient.Admits c.mState .forceDisconnected) (hstate : c'.mState = .forceDisconnected)
    (hsocket : c'.mConnSocket = c.mConnSocket) (hconn : c'.mConnection = c.mConnection) :
    ∃ is s', run step s is = some s' ∧ Follows c' s' := by
  obtain ⟨s', hrun, hmoves⟩ := exists_moves s .forceDisconnected calls nofun nofun
  refine ⟨_, s', hrun, ?_⟩
  cases hmoves with
  | refused hrefused => exact absurd (h.mState ▸ hadm) hrefused
  | forceDisconnected _ =>
    exact ⟨hstate.symm, by rw [hsocket]; exact h.mConnSocket, by rw [hconn]; exact h.mConnection⟩

/-- **A completed step of the client is a step of its sockets, or leaves them alone.** -/
theorem follows_step {i : ClientEvent} (h : Follows c s)
    (hrun : (TcpClient.step i).run c = .ok () c')
    (hcalls : ∀ a, c.asks i = some a → Reports calls a.io.connect) :
    ∃ is s', run step s is = some s' ∧ Follows c' s' := by
  have hstay (hsame : Follows c' s) : ∃ is s', run step s is = some s' ∧ Follows c' s' :=
    ⟨[], s, rfl, hsame⟩
  have htaken : Follows (c.taken i) s :=
    h.of_eq (TcpClient.taken_mState c i) (TcpClient.taken_mConnSocket c i)
      (TcpClient.taken_mConnection c i)
  have hmState := TcpClient.taken_mState c i
  cases TcpClient.moves_of_ok hrun with
  | refused ha hadm => exact hstay htaken
  | disconnect ha hst hold hidle =>
    have hne := mConnection_of_disconnected ha hst hold hrun
    rw [← TcpClient.taken_mConnection c i] at hne
    exact htaken.disconnected calls (hmState.trans hold) hne hidle.mState hidle.mConnSocket rfl
  | connecting ha hst hold hdialed =>
    exact htaken.connecting (hmState ▸ hold) hdialed (hcalls _ ha)
  | connected ha hst hold hsocket hidle =>
    exact htaken.connected calls (hmState.trans hold) hsocket hidle
  | forceDisconnected ha hst hadm =>
    exact htaken.forceDisconnected calls (hmState ▸ hadm) rfl rfl rfl
  | asked hne => exact hstay (h.of_eq rfl rfl rfl)
  | failed hch he hdelay => exact hstay (h.of_eq rfl rfl rfl)
  | written hch hw => exact hstay (h.of_eq rfl rfl rfl)
  | started hts => exact hstay (h.of_eq rfl rfl rfl)
  | aside haside hidle =>
    exact hstay (htaken.of_eq hidle.mState hidle.mConnSocket hidle.mConnection)

/-- A step of the client, with the system calls behind it. -/
def clientStep (i : ClientEvent × ConnectCalls) : ClientM Unit := TcpClient.step i.1

/-- The calls have the results that the step meets. -/
def Answers (c : TcpClient) (i : ClientEvent × ConnectCalls) : Prop :=
  ∀ a, c.asks i.1 = some a → Reports i.2 a.io.connect

theorem follows_run {is : List (ClientEvent × ConnectCalls)} (h : Follows c s)
    (hrun : (Machine.exec clientStep is).run c = .ok () c')
    (hcalls : Machine.Along clientStep Answers c is) :
    ∃ js s', run step s js = some s' ∧ Follows c' s' := by
  induction is generalizing c s with
  | nil =>
    cases hrun
    exact ⟨[], s, rfl, h⟩
  | cons i is ih =>
    obtain ⟨c₁, hi, hrest⟩ := Machine.exec_cons_eq_ok hrun
    obtain ⟨hanswers, hcalls⟩ := (Machine.along_cons_ok hi).mp hcalls
    obtain ⟨js₁, s₁, hrun₁, hfollows₁⟩ := follows_step h hi hanswers
    obtain ⟨js₂, s₂, hrun₂, hfollows₂⟩ := ih hfollows₁ hrest hcalls
    exact ⟨js₁ ++ js₂, s₂, by rw [run_append, hrun₁, Option.bind_some, hrun₂], hfollows₂⟩

/-- **The sockets follow every completed run of the client.** -/
theorem exists_run_of_client (mConnRandomDelay : Nat) (serverAddr : SocketAddr)
    {is : List (ClientEvent × ConnectCalls)}
    (hrun : (Machine.exec clientStep is).run (TcpClient.create mConnRandomDelay) = .ok () c')
    (hcalls : Machine.Along clientStep Answers (TcpClient.create mConnRandomDelay) is) :
    ∃ js s', run step (create serverAddr) js = some s' ∧ Follows c' s' :=
  follows_run (follows_create mConnRandomDelay serverAddr) hrun hcalls

end ClientSockets

end SimpleTcp
