import SimpleTcp.Net.Socket

/-!
# Addresses of peers

The address of a peer is translated to a text when the peer is accepted, and a text is translated
back when a client connects. For IPv4 the two translations undo each other. For IPv6 the address is
never translated: `accept` reads the alternative that its variant does not hold. The text that the
encoder of IPv6 makes would not do either, since it ends at the first zero byte of the address.

`inet_pton` is not part of the library. For IPv4 it is given by its documentation; for IPv6 any
decoder is allowed.

## Main definitions

* `inet_pton`: the translation back
* `Peer`, `Peer.sockaddr`: a peer, and what the kernel reports of it
* `PeerSurvives`: the accepted socket has the address of the peer, as a text that tells it

## Main results

* `inet_pton4_transAddrToString`: the round trip of IPv4
* `not_exists_inet_pton6`: no decoder undoes the encoder of IPv6
* `peerSurvives_iff`: addresses survive exactly on the listen sockets of IPv4
-/

namespace SimpleTcp

/-! ### `inet_pton` -/

/-- A part of a dotted address: a number of one to three digits, at most 255. -/
def octet (s : Bytes) : Option UInt8 :=
  if s ≠ [] ∧ s.length ≤ 3 ∧ s.all isDigit ∧ digitsValue s ≤ 255 then
    some (digitsValue s).toUInt8
  else none

/-- `inet_pton(AF_INET, …)`: four parts, with dots between them. -/
def inet_pton4 (text : Bytes) : Option Bytes :=
  let parts := text.splitOn 46
  if parts.length = 4 then parts.mapM octet else none

/-- `inet_pton(…, mIpAddr.data(), …)`, where it returns 1. The text ends at the first zero byte. -/
def inet_pton (inet_pton6 : Bytes → Option Bytes) (protocol : IpProtocol) (mIpAddr : Bytes) :
    Option Bytes :=
  match protocol with
  | .ipv4 => inet_pton4 (cStr mIpAddr)
  | .ipv6 => inet_pton6 (cStr mIpAddr)

/-! ### Peers -/

/-- The length of an address. -/
def addrLen : IpProtocol → ℕ
  | .ipv4 => 4
  | .ipv6 => 16

/-- A peer, as the kernel knows it. The flow and the scope are those of an IPv6 address. -/
structure Peer (protocol : IpProtocol) where
  addr : Bytes
  port : UInt16
  flowinfo : Bytes
  scope_id : Bytes
  length_addr : addr.length = addrLen protocol
  length_flowinfo : flowinfo.length = 4
  length_scope_id : scope_id.length = 4

/-- The `sockaddr` that `accept4` writes: the family in the order of the host, the rest in that of
the network. -/
def Peer.sockaddr {protocol : IpProtocol} (peer : Peer protocol) : Bytes :=
  match protocol with
  | .ipv4 => [2, 0] ++ htons peer.port ++ peer.addr ++ List.replicate 8 0
  | .ipv6 => [10, 0] ++ htons peer.port ++ peer.flowinfo ++ peer.addr ++ peer.scope_id

/-- `accept` gives a socket with the protocol and the port of the peer, and with a text that
`inet_pton` takes for its address, as `createTcpClientSocket` does, and that no accepted peer of
another address has. -/
def PeerSurvives {protocol : IpProtocol} (inet_pton6 : Bytes → Option Bytes)
    (s : ListenSocket protocol) (memory : Socket) (name : Option Bytes) (k : Descriptors)
    (peer : Peer protocol) : Prop :=
  ∃ result k', (s.socket.accept memory (.ok peer.sockaddr) name).run k = .ok result k' ∧
    result.mPeerAddr.mIpProtocol = protocol ∧ result.mPeerAddr.mPort = peer.port ∧
    inet_pton inet_pton6 protocol result.mPeerAddr.mIpAddr = some peer.addr ∧
    ∀ (s' : ListenSocket protocol) (memory' : Socket) (name' : Option Bytes)
      (other : Peer protocol) (result' : Socket) (k₁ k₂ : Descriptors),
      (s'.socket.accept memory' (.ok other.sockaddr) name').run k₁ = .ok result' k₂ →
      result'.mPeerAddr.mIpAddr = result.mPeerAddr.mIpAddr → other.addr = peer.addr

/-! ### The text of an IPv4 address -/

theorem ntohs_htons (port : UInt16) : ntohs (htons port) = port := by
  have hlt : port.toNat < 65536 := port.toNat_lt
  apply UInt16.toNat_inj.mp
  simp only [ntohs, htons, List.foldl_cons, List.foldl_nil, Nat.toUInt8, Nat.toUInt16,
    UInt8.toNat_ofNat', UInt16.toNat_ofNat']
  omega

/-- A numeral has digits only. -/
theorem not_mem_decimal {c : UInt8} (h : isDigit c = false) (n : ℕ) : c ∉ decimal n := fun hmem =>
  Bool.false_ne_true (h.symm.trans (isDigit_decimal n c hmem))

/-- A byte has one to three digits. -/
theorem length_decimal_le {n : ℕ} (h : n < 1000) : (decimal n).length ≤ 3 := by
  rw [decimal, List.length_map]
  exact (Nat.length_toDigits_le_iff (by decide) (by decide)).mpr h

theorem decimal_ne_nil (n : ℕ) : decimal n ≠ [] := fun h =>
  Nat.toDigits_ne_nil (List.map_eq_nil_iff.mp h)

theorem octet_decimal (c : UInt8) : octet (decimal c.toNat) = some c := by
  have hlt : c.toNat < 256 := c.toNat_lt
  rw [octet, if_pos, digitsValue_decimal]
  · simp
  · refine ⟨decimal_ne_nil _, length_decimal_le (by omega), ?_, ?_⟩
    · exact List.all_eq_true.mpr (isDigit_decimal _)
    · rw [digitsValue_decimal]
      omega

theorem mapM_octet (addr : Bytes) :
    (addr.map fun c => decimal c.toNat).mapM octet = some addr := by
  induction addr with
  | nil => rfl
  | cons c addr ih => simp [octet_decimal, ih]

theorem toDecimal_natCast (n : ℕ) : toDecimal n = decimal n := toDecimal_eq_iff.mpr rfl

theorem transAddrToString_eq_intercalate {addr : SockaddrIn} (h : addr.sin_addr.length = 4) :
    addr.transAddrToString = [46].intercalate (addr.sin_addr.map fun c => decimal c.toNat) := by
  obtain ⟨port, sin_addr⟩ := addr
  match sin_addr, h with
  | [a, b, c, d], _ =>
    simp [SockaddrIn.transAddrToString, toDecimal_natCast, List.intercalate]

/-- The characters of the text are digits and dots. -/
theorem zero_not_mem_transAddrToString {addr : SockaddrIn} (h : addr.sin_addr.length = 4) :
    (0 : UInt8) ∉ addr.transAddrToString := by
  have hzero (c : UInt8) : (0 : UInt8) ∉ decimal c.toNat := not_mem_decimal rfl c.toNat
  obtain ⟨port, sin_addr⟩ := addr
  match sin_addr, h with
  | [a, b, c, d], _ => simp [SockaddrIn.transAddrToString, toDecimal_natCast, hzero]

/-- **The round trip of IPv4**, for every address. -/
theorem inet_pton4_transAddrToString {addr : SockaddrIn} (h : addr.sin_addr.length = 4) :
    inet_pton4 (cStr addr.transAddrToString) = some addr.sin_addr := by
  rw [cStr_of_not_mem (zero_not_mem_transAddrToString h), transAddrToString_eq_intercalate h,
    inet_pton4]
  have hne : addr.sin_addr.map (fun c => decimal c.toNat) ≠ [] := by
    intro hnil
    rw [List.map_eq_nil_iff.mp hnil] at h
    cases h
  have hsplit : ([46].intercalate (addr.sin_addr.map fun c => decimal c.toNat)).splitOn 46 =
      addr.sin_addr.map fun c => decimal c.toNat := by
    refine List.splitOn_intercalate 46 ?_ hne
    intro part hpart
    obtain ⟨c, -, rfl⟩ := List.mem_map.mp hpart
    exact not_mem_decimal rfl c.toNat
  rw [hsplit, if_pos (by rw [List.length_map, h]), mapM_octet]

/-! ### The text of an IPv6 address -/

/-- What the encoder makes of the byte at the position. -/
def piece6 (p : UInt8 × ℕ) : Bytes := p.1 :: if (p.2 + 1) % 4 = 0 then [58, 58] else []

theorem transAddrToString_eq_flatMap (addr : SockaddrIn6) :
    addr.transAddrToString = addr.sin6_addr.zipIdx.flatMap piece6 := by
  rw [SockaddrIn6.transAddrToString, List.flatMap_eq_foldl]
  congr 1
  funext result p
  by_cases h : (p.2 + 1) % 4 = 0 <;> simp [piece6, h]

/-- **No decoder undoes the encoder of IPv6**: the text of every address that starts with a zero
byte is the empty one. -/
theorem not_exists_inet_pton6 :
    ¬ ∃ inet_pton6 : Bytes → Option Bytes, ∀ addr : SockaddrIn6, addr.sin6_addr.length = 16 →
      inet_pton6 (cStr addr.transAddrToString) = some addr.sin6_addr := by
  rintro ⟨inet_pton6, hdecode⟩
  have htext : ∀ rest : Bytes, cStr (SockaddrIn6.transAddrToString ⟨[], 0 :: rest⟩) = [] := by
    intro rest
    rw [transAddrToString_eq_flatMap, List.zipIdx_cons, List.flatMap_cons]
    rfl
  have hzeros := hdecode ⟨[], List.replicate 16 0⟩ rfl
  have hones := hdecode ⟨[], 0 :: List.replicate 15 1⟩ rfl
  rw [List.replicate_succ, htext] at hzeros
  rw [htext] at hones
  exact absurd (hzeros.symm.trans hones) (by decide)

/-! ### Accepting a peer -/

section

variable (memory : Socket) (name : Option Bytes) (k : Descriptors)

/-- The kernel writes the address where the first alternative has it. -/
theorem sockaddrIn_ofBytes (peer : Peer .ipv4) :
    SockaddrIn.ofBytes (SockaddrVariant.create.write (peer.sockaddr.take 16)).storage =
      ⟨htons peer.port, peer.addr⟩ := by
  obtain ⟨addr, port, flowinfo, scope_id, haddr, -, -⟩ := peer
  match addr, haddr with
  | [a, b, c, d], _ => rfl

theorem accept_peer (s : ListenSocket .ipv4) (peer : Peer .ipv4) :
    ∃ result k', (s.socket.accept memory (.ok peer.sockaddr) name).run k = .ok result k' ∧
      result.mPeerAddr =
        ⟨SockaddrIn.transAddrToString ⟨htons peer.port, peer.addr⟩, .ipv4, peer.port⟩ := by
  rw [s.accept_ipv4 memory peer.sockaddr name k (sockaddrIn_ofBytes peer)]
  refine ⟨_, _, rfl, ?_⟩
  rw [Socket.setLocalAddr_mPeerAddr, ntohs_htons]

theorem peerSurvives_ipv4 (inet_pton6 : Bytes → Option Bytes) (s : ListenSocket .ipv4)
    (peer : Peer .ipv4) : PeerSurvives inet_pton6 s memory name k peer := by
  obtain ⟨result, k', hrun, haddr⟩ := accept_peer memory name k s peer
  have hdecode (peer : Peer .ipv4) :
      inet_pton4 (cStr (SockaddrIn.transAddrToString ⟨htons peer.port, peer.addr⟩)) =
        some peer.addr := inet_pton4_transAddrToString peer.length_addr
  refine ⟨result, k', hrun, by rw [haddr], by rw [haddr], ?_, ?_⟩
  · rw [haddr]
    exact hdecode peer
  · intro s' memory' name' other result' k₁ k₂ hrun' htext
    obtain ⟨_, _, hother, haddr'⟩ := accept_peer memory' name' k₁ s' other
    cases hother.symm.trans hrun'
    rw [haddr, haddr'] at htext
    -- one text is decoded to one address
    have hsame := (hdecode other).symm.trans ((congrArg (inet_pton4 ∘ cStr) htext).trans
      (hdecode peer))
    exact Option.some.inj hsame

theorem not_peerSurvives_ipv6 (inet_pton6 : Bytes → Option Bytes) (s : ListenSocket .ipv6)
    (peer : Peer .ipv6) : ¬ PeerSurvives inet_pton6 s memory name k peer := by
  rintro ⟨result, k', hrun, -⟩
  rw [s.accept_ipv6] at hrun
  cases hrun

end

/-- **Addresses survive exactly on the listen sockets of IPv4**, whatever the peer. -/
theorem peerSurvives_iff {protocol : IpProtocol} (inet_pton6 : Bytes → Option Bytes)
    (s : ListenSocket protocol) (memory : Socket) (name : Option Bytes) (k : Descriptors)
    (peer : Peer protocol) :
    PeerSurvives inet_pton6 s memory name k peer ↔ protocol = .ipv4 := by
  cases protocol with
  | ipv4 => exact ⟨fun _ => rfl, fun _ => peerSurvives_ipv4 memory name k inet_pton6 s peer⟩
  | ipv6 =>
    constructor
    · intro h
      exact absurd h (not_peerSurvives_ipv6 memory name k inet_pton6 s peer)
    · intro h
      cases h

/-- A peer on the same host. -/
def loopback6 : Peer .ipv6 :=
  ⟨List.replicate 15 0 ++ [1], 40000, [0, 0, 0, 0], [0, 0, 0, 0], rfl, rfl, rfl⟩

/-- The listen socket of a server of IPv6. -/
def listenSocket6 : ListenSocket .ipv6 :=
  .ofCreate (rfl : (Socket.createTcpListenSocket .zeroed ⟨[], .ipv6, 8080⟩ 256 none).run .empty =
    .ok _ _)

/-- The decoder is the one that would do for this peer, and `accept` throws. -/
theorem loopback6_not_survives :
    ¬ PeerSurvives (fun _ => some loopback6.addr) listenSocket6 .zeroed none ⟨1, []⟩ loopback6 := by
  rintro ⟨result, k', hrun, -⟩
  cases hrun

end SimpleTcp
