import SimpleTcp.Http.StringHelper

/-!
# Sockets

A `Socket` owns a descriptor from its construction on; its destructor closes it. Between `socket(2)`
or `accept4(2)` and the construction of its owner a descriptor is a bare number. The kernel gives
numbers again when they are closed; here a descriptor is named by its place among those opened, so
that the name stays with it.

An address goes through the kernel as the bytes of a `sockaddr`, and leaves as a text. `accept`
lets the kernel write into a `std::variant` whose alternative is settled when it is constructed.

## Main definitions

* `Descriptors`, `DescriptorM`: the descriptors opened and closed so far
* `SocketAddr`, `Socket`: an address, and a descriptor with its addresses
* `SockaddrIn`, `SockaddrIn6`, `transAddrToString`: the addresses of the kernel, and their texts
* `SockaddrVariant`: the variant of `accept`
* `Socket.createTcpClientSocket`, `Socket.createTcpListenSocket`, `Socket.listen`, `Socket.accept`
* `ListenSocket`: a socket that `accept` may be called on

## Main results

* `Socket.createTcpClientSocket_of_opens`, `Socket.createTcpClientSocket_of_failsAtOnce`: a connect
  gives its descriptor to a socket, or leaves it open when it fails at once
* `ListenSocket.accept_ipv4`, `ListenSocket.accept_ipv6`: `accept` on a listen socket
-/

namespace SimpleTcp

inductive IpProtocol where
  | ipv4
  | ipv6
  deriving DecidableEq, Repr

/-! ### Descriptors -/

/-- The descriptors opened so far are `0, …, opened - 1`; each close is recorded. -/
structure Descriptors where
  opened : ℕ
  closed : List ℕ
  deriving DecidableEq, Repr

abbrev DescriptorM := EStateM Stop Descriptors

namespace Descriptors

def empty : Descriptors := ⟨0, []⟩

/-- One more is opened. -/
def opening (k : Descriptors) : Descriptors := { k with opened := k.opened + 1 }

def openFd : DescriptorM ℕ := do
  let fd := (← get).opened
  modify opening
  return fd

/-- `::close`. -/
def close (k : Descriptors) (fd : ℕ) : Descriptors := { k with closed := fd :: k.closed }

end Descriptors

open Descriptors (openFd)

/-! ### Addresses -/

structure SocketAddr where
  mIpAddr : Bytes
  mIpProtocol : IpProtocol
  mPort : UInt16
  deriving DecidableEq, Repr

/-- The two bytes of `htons(port)`. -/
def htons (port : UInt16) : Bytes := [(port.toNat / 256).toUInt8, port.toNat.toUInt8]

/-- `ntohs`, from the two bytes. -/
def ntohs (bytes : Bytes) : UInt16 :=
  (bytes.foldl (fun (port : ℕ) c => port * 256 + c.toNat) 0).toUInt16

/-- `sockaddr_in`, with the members that are read. -/
structure SockaddrIn where
  sin_port : Bytes
  sin_addr : Bytes

/-- `sockaddr_in6`, with the members that are read. -/
structure SockaddrIn6 where
  sin6_port : Bytes
  sin6_addr : Bytes

/-- The object at the start of the storage: the family comes before the port. -/
def SockaddrIn.ofBytes (storage : Bytes) : SockaddrIn :=
  ⟨Vec.slice storage 2 2, Vec.slice storage 4 4⟩

/-- The flow information comes between the port and the address. -/
def SockaddrIn6.ofBytes (storage : Bytes) : SockaddrIn6 :=
  ⟨Vec.slice storage 2 2, Vec.slice storage 8 16⟩

/-- `sizeof`, for the address of the protocol. -/
def sockaddrLen : IpProtocol → ℕ
  | .ipv4 => 16
  | .ipv6 => 28

/-- The text of an IPv4 address: numerals, with a dot behind each but the last. -/
def SockaddrIn.transAddrToString (addr : SockaddrIn) : Bytes :=
  addr.sin_addr.zipIdx.foldl (fun result (c, i) =>
    let result := result ++ toDecimal c.toNat
    if i ≠ 4 - 1 then result ++ [46] else result) []

/-- The text of an IPv6 address: its bytes as characters, with `::` behind every fourth. -/
def SockaddrIn6.transAddrToString (addr : SockaddrIn6) : Bytes :=
  addr.sin6_addr.zipIdx.foldl (fun result (c, i) =>
    let result := result ++ [c]
    if (i + 1) % 4 = 0 then result ++ [58, 58] else result) []

/-- `std::variant<sockaddr_in, sockaddr_in6>`: the storage of the alternatives, and behind it the
index of the one it holds. -/
structure SockaddrVariant where
  storage : Bytes
  index : ℕ

namespace SockaddrVariant

/-- The default constructor makes the first alternative, of zeros. -/
def create : SockaddrVariant := ⟨List.replicate 28 0, 0⟩

/-- The kernel writes at the address of the variant, which is that of its storage. -/
def write (v : SockaddrVariant) (data : Bytes) : SockaddrVariant :=
  { v with storage := Vec.copyInto v.storage 0 data }

/-- `std::get<sockaddr_in>`. -/
def getIn (v : SockaddrVariant) : Except Stop SockaddrIn :=
  if v.index = 0 then .ok (.ofBytes v.storage) else .error .badVariantAccess

/-- `std::get<sockaddr_in6>`. -/
def getIn6 (v : SockaddrVariant) : Except Stop SockaddrIn6 :=
  if v.index = 1 then .ok (.ofBytes v.storage) else .error .badVariantAccess

/-- The translation of the address in `Socket::accept`. -/
def peerAddr (v : SockaddrVariant) : IpProtocol → Except Stop SocketAddr
  | .ipv4 => do
    let addr ← v.getIn
    return ⟨addr.transAddrToString, .ipv4, ntohs addr.sin_port⟩
  | .ipv6 => do
    let addr ← v.getIn6
    return ⟨addr.transAddrToString, .ipv6, ntohs addr.sin6_port⟩

end SockaddrVariant

/-! ### Sockets -/

structure Socket where
  mFd : ℕ
  mIsListenSocket : Bool
  mIsTCPSocket : Bool
  mIsUDPSocket : Bool
  mMaxListenQueue : ℤ
  mLocalAddr : SocketAddr
  mPeerAddr : SocketAddr
  deriving DecidableEq, Repr

/-- What the system calls of `createTcpClientSocket` give: the result of `inet_pton`, the errors of
`socket(2)` and `connect(2)`, and the address of `getsockname(2)`. -/
structure ConnectCalls where
  inet_pton : ℤ
  socket : Option Errno
  connect : Option Errno
  getsockname : Option Bytes

namespace Socket

/-- What the constructor finds in memory of zeros. -/
def zeroed : Socket := ⟨0, false, false, false, 0, ⟨[], .ipv4, 0⟩, ⟨[], .ipv4, 0⟩⟩

/-- `Socket::Socket`, in the memory of `memory`: the members it does not initialise keep what is
there. -/
def create (memory : Socket) (fd : ℕ) : Socket where
  mFd := fd
  mIsListenSocket := false
  mIsTCPSocket := memory.mIsTCPSocket
  mIsUDPSocket := memory.mIsUDPSocket
  mMaxListenQueue := 0
  mLocalAddr := { memory.mLocalAddr with mIpAddr := [] }
  mPeerAddr := { memory.mPeerAddr with mIpAddr := [] }

def getIpProtocol (s : Socket) : IpProtocol := s.mLocalAddr.mIpProtocol

def createTcpNonblockingSocket : Option Errno → DescriptorM ℕ
  | some errno => throw (.systemException errno)
  | none => openFd

/-- `getsockname(2)` gives an address, or the old one stays. -/
def setLocalAddr (s : Socket) (protocol : IpProtocol) : Option Bytes → Socket
  | none => s
  | some name =>
    match protocol with
    | .ipv4 =>
      let addr := SockaddrIn.ofBytes name
      { s with mLocalAddr := ⟨addr.transAddrToString, .ipv4, ntohs addr.sin_port⟩ }
    | .ipv6 =>
      let addr := SockaddrIn6.ofBytes name
      { s with mLocalAddr := ⟨addr.transAddrToString, .ipv6, ntohs addr.sin6_port⟩ }

/-- An error of `connect(2)` that is not a connect in progress. -/
def failedResult (err : Errno) : Bool :=
  err ≠ 0 && err ≠ Errno.EINPROGRESS && err ≠ Errno.EINTR && err ≠ Errno.EISCONN

/-- The branches of the two protocols make the same calls, with the family of each. -/
def createTcpClientSocket (memory : Socket) (serverSocketAddr : SocketAddr) (io : ConnectCalls) :
    DescriptorM (Option Socket) := do
  if io.inet_pton ≠ 1 then
    return none
  let socketFd ← createTcpNonblockingSocket io.socket
  if io.connect.any failedResult then
    -- `result` is still null, and `socketFd` a bare number
    return none
  let result := (create memory socketFd).setLocalAddr serverSocketAddr.mIpProtocol io.getsockname
  return some { result with
    mPeerAddr := serverSocketAddr
    mIsTCPSocket := true
    mIsUDPSocket := false }

def createTcpListenSocket (memory : Socket) (serverSocketAddr : SocketAddr) (maxListenQueue : ℤ)
    (socket : Option Errno) : DescriptorM Socket := do
  let socketFd ← createTcpNonblockingSocket socket
  let result := create memory socketFd
  return { result with
    mIsListenSocket := true
    mMaxListenQueue := maxListenQueue
    mIsTCPSocket := true
    mIsUDPSocket := false
    mLocalAddr := { result.mLocalAddr with
      mPort := serverSocketAddr.mPort
      mIpProtocol := serverSocketAddr.mIpProtocol } }

/-- A failure of `bind(2)` or `listen(2)` is a `LOG_FATAL`. -/
def listen (s : Socket) (bind listen : Option Errno) (getsockname : Option Bytes) :
    Except Stop Socket := do
  assertTrue (s.mIsListenSocket = true)
  assertTrue (s.mIsTCPSocket = true)
  if bind ≠ none then throw .fatal
  if listen ≠ none then throw .fatal
  return s.setLocalAddr s.mLocalAddr.mIpProtocol getsockname

/-- `accept4(2)` gives the address that it has written, or an error. -/
def accept (s memory : Socket) (accept4 : Except Errno Bytes) (getsockname : Option Bytes) :
    DescriptorM Socket := do
  assertTrue (s.mIsListenSocket = true)
  assertTrue (s.mIsTCPSocket = true)
  match accept4 with
  | .error errno => throw (.networkException errno)
  | .ok data =>
    let connectedFd ← openFd
    let clientAddr := SockaddrVariant.create.write (data.take (sockaddrLen s.getIpProtocol))
    let result := create memory connectedFd
    match clientAddr.peerAddr s.getIpProtocol with
    | .ok peerAddr =>
      let result := { result with mPeerAddr := peerAddr }
      return result.setLocalAddr s.getIpProtocol getsockname
    | .error e =>
      -- the owner is destroyed on the way out
      modify fun k => k.close result.mFd
      throw e

section

variable {s s' : Socket} {protocol : IpProtocol} {name : Option Bytes}

@[simp] theorem setLocalAddr_mFd : (s.setLocalAddr protocol name).mFd = s.mFd := by
  cases name <;> cases protocol <;> rfl

@[simp] theorem setLocalAddr_mPeerAddr :
    (s.setLocalAddr protocol name).mPeerAddr = s.mPeerAddr := by
  cases name <;> cases protocol <;> rfl

@[simp] theorem setLocalAddr_mIsListenSocket :
    (s.setLocalAddr protocol name).mIsListenSocket = s.mIsListenSocket := by
  cases name <;> cases protocol <;> rfl

@[simp] theorem setLocalAddr_mIsTCPSocket :
    (s.setLocalAddr protocol name).mIsTCPSocket = s.mIsTCPSocket := by
  cases name <;> cases protocol <;> rfl

/-- The address of `getsockname` is read as one of the protocol that the socket has. -/
theorem getIpProtocol_setLocalAddr : (s.setLocalAddr s.getIpProtocol name).getIpProtocol =
    s.getIpProtocol := by
  cases name with
  | none => rfl
  | some name => cases h : s.getIpProtocol <;> rfl

end

end Socket

/-! ### The socket of a client -/

/-- `createTcpClientSocket` gets as far as `connect(2)`. -/
def ConnectCalls.Opens (io : ConnectCalls) : Prop := io.inet_pton = 1 ∧ io.socket = none

/-- `connect(2)` fails at once. -/
def ConnectCalls.FailsAtOnce (io : ConnectCalls) : Prop := io.connect.any Socket.failedResult = true

instance (io : ConnectCalls) : Decidable io.Opens := inferInstanceAs (Decidable (_ ∧ _))

instance (io : ConnectCalls) : Decidable io.FailsAtOnce := inferInstanceAs (Decidable (_ = _))

namespace Socket

section

variable {memory : Socket} {addr : SocketAddr} {io : ConnectCalls} {k : Descriptors}

/-- Without a descriptor there is a null pointer or an exception. -/
theorem createTcpClientSocket_of_not_opens (h : ¬ io.Opens) :
    (createTcpClientSocket memory addr io).run k = .ok none k ∨
      ∃ errno,
        (createTcpClientSocket memory addr io).run k = .error (.systemException errno) k := by
  by_cases haddr : io.inet_pton = 1
  · cases hsocket : io.socket with
    | none => exact absurd ⟨haddr, hsocket⟩ h
    | some errno => exact .inr ⟨errno, by simp [createTcpClientSocket, haddr, hsocket]; rfl⟩
  · exact .inl (by simp [createTcpClientSocket, haddr])

/-- A connect that fails at once leaves its descriptor open. -/
theorem createTcpClientSocket_of_failsAtOnce (h : io.Opens) (hfails : io.FailsAtOnce) :
    (createTcpClientSocket memory addr io).run k = .ok none k.opening := by
  obtain ⟨haddr, hsocket⟩ := h
  rw [ConnectCalls.FailsAtOnce] at hfails
  rw [createTcpClientSocket, if_neg (not_not.mpr haddr), hsocket]
  simp only [hfails, if_true]
  rfl

/-- Every other connect gives its descriptor to a socket. -/
theorem createTcpClientSocket_of_opens (h : io.Opens) (hfails : ¬ io.FailsAtOnce) :
    ∃ s, s.mFd = k.opened ∧
      (createTcpClientSocket memory addr io).run k = .ok (some s) k.opening := by
  obtain ⟨haddr, hsocket⟩ := h
  rw [ConnectCalls.FailsAtOnce] at hfails
  rw [createTcpClientSocket, if_neg (not_not.mpr haddr), hsocket]
  simp only [hfails]
  exact ⟨_, setLocalAddr_mFd, rfl⟩

end

end Socket

/-! ### Listen sockets -/

/-- A socket that `createTcpListenSocket` has made for the protocol. -/
structure ListenSocket (protocol : IpProtocol) where
  socket : Socket
  isListenSocket : socket.mIsListenSocket = true
  isTCPSocket : socket.mIsTCPSocket = true
  ipProtocol : socket.getIpProtocol = protocol

namespace ListenSocket

section

variable {protocol : IpProtocol} {memory s' : Socket} {addr : SocketAddr} {maxListenQueue : ℤ}
  {socket bind listen : Option Errno} {name : Option Bytes} {k k' : Descriptors}

theorem createTcpListenSocket_eq_ok
    (h : (Socket.createTcpListenSocket memory addr maxListenQueue socket).run k = .ok s' k') :
    s'.mIsListenSocket = true ∧ s'.mIsTCPSocket = true ∧ s'.getIpProtocol = addr.mIpProtocol := by
  cases socket with
  | some errno => cases h
  | none =>
    cases h
    exact ⟨rfl, rfl, rfl⟩

/-- The result of `createTcpListenSocket`. -/
def ofCreate
    (h : (Socket.createTcpListenSocket memory addr maxListenQueue socket).run k = .ok s' k') :
    ListenSocket addr.mIpProtocol where
  socket := s'
  isListenSocket := (createTcpListenSocket_eq_ok h).1
  isTCPSocket := (createTcpListenSocket_eq_ok h).2.1
  ipProtocol := (createTcpListenSocket_eq_ok h).2.2

theorem listen_eq_ok (s : ListenSocket protocol) (h : s.socket.listen bind listen name = .ok s') :
    s' = s.socket.setLocalAddr s.socket.getIpProtocol name := by
  rw [Socket.listen, assertTrue_pos s.isListenSocket, assertTrue_pos s.isTCPSocket] at h
  cases bind <;> cases listen <;> cases h
  rfl

/-- The socket listens. -/
def ofListen (s : ListenSocket protocol) (h : s.socket.listen bind listen name = .ok s') :
    ListenSocket protocol where
  socket := s'
  isListenSocket := by rw [s.listen_eq_ok h, Socket.setLocalAddr_mIsListenSocket, s.isListenSocket]
  isTCPSocket := by rw [s.listen_eq_ok h, Socket.setLocalAddr_mIsTCPSocket, s.isTCPSocket]
  ipProtocol := by rw [s.listen_eq_ok h, Socket.getIpProtocol_setLocalAddr, s.ipProtocol]

end

variable (memory : Socket) (data : Bytes) (name : Option Bytes) (k : Descriptors)

theorem accept_failed {protocol : IpProtocol} (s : ListenSocket protocol) (errno : Errno) :
    (s.socket.accept memory (.error errno) name).run k = .error (.networkException errno) k := by
  rw [Socket.accept, assertTrue_pos s.isListenSocket, assertTrue_pos s.isTCPSocket]
  rfl

/-- The first alternative of the variant is the one that is read. -/
theorem accept_ipv4 (s : ListenSocket .ipv4) {addr : SockaddrIn}
    (haddr : .ofBytes (SockaddrVariant.create.write (data.take 16)).storage = addr) :
    (s.socket.accept memory (.ok data) name).run k =
      .ok ({ Socket.create memory k.opened with
          mPeerAddr := ⟨addr.transAddrToString, .ipv4, ntohs addr.sin_port⟩ }.setLocalAddr
        .ipv4 name) k.opening := by
  rw [Socket.accept, assertTrue_pos s.isListenSocket, assertTrue_pos s.isTCPSocket, s.ipProtocol,
    ← haddr]
  rfl

/-- The variant still holds its first alternative, and the new socket is destroyed. -/
theorem accept_ipv6 (s : ListenSocket .ipv6) :
    (s.socket.accept memory (.ok data) name).run k =
      .error .badVariantAccess (k.opening.close k.opened) := by
  rw [Socket.accept, assertTrue_pos s.isListenSocket, assertTrue_pos s.isTCPSocket, s.ipProtocol]
  rfl

end ListenSocket

end SimpleTcp
