import SimpleTcp.Net.Socket
import SimpleTcp.Tcp.Life

/-!
# A server and its connections

A `TcpServer` accepts connections and serves each of them as a session. Which thread serves which
connection, and how the steps of the threads interleave, is said of a server with its pool of loops;
here are its data and its `accept`.

## Main definitions

* `TcpServer`: the server, its connections and its connection set
* `TcpServer.accept`: what `Socket::accept` does to it
* `TcpServer.RunsClose`: the step of a session that erases its connection

## Main results

* `TcpServer.accept_eq_accept_socket`: the accept of the server is that of its listen socket
-/

namespace SimpleTcp

/-- What `accept4(2)` gives: a peer, or an error. -/
inductive AcceptResult where
  | peer
  | failed (errno : Errno)
  deriving DecidableEq, Repr

/-- `mConnectionSet` holds the positions of its members among the connections accepted so far. -/
structure TcpServer where
  mIpProtocol : IpProtocol
  sessions : List Session
  mConnectionSet : List Nat

namespace TcpServer

def MAX_CONNECTION_NUMS : Nat := 256

def start (mIpProtocol : IpProtocol) : TcpServer := ⟨mIpProtocol, [], []⟩

/-- `Socket::accept`. The address is read as the alternative that the protocol of the listen socket
names, and the variant always holds the first one. -/
def accept (mIpProtocol : IpProtocol) (res : AcceptResult) : EStateM Stop TcpServer Unit :=
  match res with
  | .failed errno => throw (.networkException errno)
  | .peer =>
    match mIpProtocol with
    | .ipv4 => pure ()
    | .ipv6 => throw .badVariantAccess

/-- What the server sees of a result of `accept4`. -/
def acceptResult : Except Errno Bytes → AcceptResult
  | .ok _ => .peer
  | .error errno => .failed errno

/-- The accept of the server ends as that of its listen socket does. -/
theorem accept_eq_accept_socket {protocol : IpProtocol} (s : ListenSocket protocol)
    (memory : Socket) (accept4 : Except Errno Bytes) (name : Option Bytes) (k : Descriptors)
    (srv : TcpServer) :
    (accept protocol (acceptResult accept4)).run srv =
      match (s.socket.accept memory accept4 name).run k with
      | .ok _ _ => .ok () srv
      | .error e _ => .error e srv := by
  cases accept4 with
  | error errno =>
    rw [s.accept_failed]
    rfl
  | ok data =>
    cases protocol with
    | ipv4 =>
      rw [s.accept_ipv4 memory data name k rfl]
      rfl
    | ipv6 =>
      rw [s.accept_ipv6]
      rfl

/-- The task is the one that the close callback has queued. -/
def RunsClose (s : Session) (i : SessionEvent) : Prop :=
  match i, s.batch with
  | .task _, some (.close :: _) => True
  | _, _ => False

instance (s : Session) (i : SessionEvent) : Decidable (RunsClose s i) := by
  unfold RunsClose
  split <;> infer_instance

end TcpServer

end SimpleTcp
