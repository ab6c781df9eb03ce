import Punchgate.Library.FiniteMap
import Mathlib.Data.String.Basic

/-!
# Identifiers, names and addresses

The data the node passes around. Peer ids, connection ids and query ids come from
libp2p and are only ever compared, so each is a number; a multiaddr is the list of
its protocol components. Text forms of libp2p values and the iteration order of
hash collections are not determined by the program. They are read from an
environment, together with the clock.
-/

namespace Punchgate

/-- A libp2p peer id: the bytes of its multihash, read as one number. -/
structure PeerId where
  /-- The multihash. -/
  multihash : ℕ
  deriving DecidableEq, Inhabited

/-- A libp2p connection id. -/
structure ConnectionId where
  /-- The number libp2p assigned to the connection. -/
  id : ℕ
  deriving DecidableEq, Inhabited

/-- The id of a Kademlia query. -/
structure QueryId where
  /-- The number libp2p assigned to the query. -/
  id : ℕ
  deriving DecidableEq, Inhabited

/-- The name of a service. -/
structure ServiceName where
  /-- The text of the name. -/
  name : String
  deriving DecidableEq, Inhabited

/-- A point on the monotonic clock, in nanoseconds. -/
abbrev Instant := ℕ

/-- A span of time, in nanoseconds. -/
abbrev Duration := ℕ

/-- `Duration::from_secs`. -/
def Duration.fromSecs (secs : ℕ) : Duration := secs * 1000000000

/-- `saturating_add` on an unsigned integer with the given largest value. -/
def saturatingAdd (max a b : ℕ) : ℕ := min (a + b) max

/-- `u32::MAX`. -/
def u32Max : ℕ := 2 ^ 32 - 1

/-- `u64::MAX`, also `usize::MAX` on the supported platforms. -/
def u64Max : ℕ := 2 ^ 64 - 1

/-- `Ipv4Addr`, by octets. -/
structure Ipv4Addr where
  /-- The first octet. -/
  a : UInt8
  /-- The second octet. -/
  b : UInt8
  /-- The third octet. -/
  c : UInt8
  /-- The fourth octet. -/
  d : UInt8
  deriving DecidableEq

/-- `0.0.0.0`. -/
def Ipv4Addr.isUnspecified (ip : Ipv4Addr) : Bool := ip = ⟨0, 0, 0, 0⟩

/-- `127.0.0.0/8`. -/
def Ipv4Addr.isLoopback (ip : Ipv4Addr) : Bool := ip.a = 127

/-- `10.0.0.0/8`, `172.16.0.0/12` and `192.168.0.0/16`. -/
def Ipv4Addr.isPrivate (ip : Ipv4Addr) : Bool :=
  ip.a = 10 || (ip.a = 172 && 16 ≤ ip.b && ip.b ≤ 31) || (ip.a = 192 && ip.b = 168)

/-- `Ipv6Addr`, as a 128-bit word. -/
structure Ipv6Addr where
  /-- The address bits. -/
  bits : BitVec 128
  deriving DecidableEq

/-- `::`. -/
def Ipv6Addr.isUnspecified (ip : Ipv6Addr) : Bool := ip.bits = 0

/-- `::1`. -/
def Ipv6Addr.isLoopback (ip : Ipv6Addr) : Bool := ip.bits = 1

/-- `std::net::IpAddr`. -/
inductive IpAddr
  | v4 (ip : Ipv4Addr)
  | v6 (ip : Ipv6Addr)
  deriving DecidableEq

/-- `std::net::SocketAddr`. -/
structure SocketAddr where
  /-- The address of the host. -/
  ip : IpAddr
  /-- The port. -/
  port : UInt16
  deriving DecidableEq

/-- The protocol components of a multiaddr the program looks at. Every other kind
of component is kept by its text. -/
inductive Protocol
  | ip4 (ip : Ipv4Addr)
  | ip6 (ip : Ipv6Addr)
  | tcp (port : UInt16)
  | udp (port : UInt16)
  | quic
  | quicV1
  | p2p (peer : PeerId)
  | p2pCircuit
  | other (text : String)
  deriving DecidableEq

/-- A multiaddr: its protocol components from left to right. -/
structure Multiaddr where
  /-- The components. -/
  protocols : List Protocol
  deriving DecidableEq, Inhabited

/-- `HostAddr`. -/
inductive HostAddr
  | v4 (ip : Ipv4Addr)
  | v6 (ip : Ipv6Addr)
  | domain (name : String)
  deriving DecidableEq

/-- `ServiceAddr`. -/
structure ServiceAddr where
  /-- The host to connect or bind to. -/
  host : HostAddr
  /-- The port. -/
  port : UInt16
  deriving DecidableEq

/-- `KademliaKey`: the bytes of a DHT record key. -/
structure KademliaKey where
  /-- The key bytes. -/
  bytes : List UInt8
  deriving DecidableEq

/-- `SERVICE_KEY_PREFIX`. -/
def serviceKeyPrefix : String := "/punchgate/svc/"

/-- `KademliaKey::for_service`. -/
def KademliaKey.forService (name : ServiceName) : KademliaKey :=
  ⟨(serviceKeyPrefix ++ name.name).toUTF8.toList⟩

/-- A requested tunnel: the service to reach and the local address to bind. -/
abbrev Intent := ServiceName × ServiceAddr

/-- What one pass of the program reads from its surroundings: the clock, the text
forms of libp2p values, and the order in which hash collections are walked. -/
structure Env where
  /-- The value of the monotonic clock. -/
  now : Instant
  /-- `PeerId::to_string`. -/
  peerText : PeerId → String
  /-- `Multiaddr::to_string`. -/
  addrText : Multiaddr → String
  /-- The iteration order of collections keyed by peer. -/
  peerOrder : Enumeration PeerId
  /-- The iteration order of collections keyed by service name. -/
  serviceOrder : Enumeration ServiceName
  /-- The iteration order of collections keyed by address. -/
  addrOrder : Enumeration Multiaddr
  /-- The iteration order of sets of connection ids. -/
  connectionOrder : Enumeration ConnectionId

/-- The components of a multiaddr as numbers: a tag and the content. -/
def Protocol.code : Protocol → List ℕ
  | .ip4 ip => [0, ip.a.toNat, ip.b.toNat, ip.c.toNat, ip.d.toNat]
  | .ip6 ip => [1, ip.bits.toNat]
  | .tcp port => [2, port.toNat]
  | .udp port => [3, port.toNat]
  | .quic => [4]
  | .quicV1 => [5]
  | .p2p peer => [6, peer.multihash]
  | .p2pCircuit => [7]
  | .other text => 8 :: text.toList.map Char.toNat

/-- Different components have different codes. -/
theorem Protocol.code_injective : Function.Injective Protocol.code := by
  intro x y h
  cases x <;> cases y <;> simp [code] at h
  case ip4.ip4 x y =>
    obtain ⟨ha, hb, hc, hd⟩ := h
    cases x
    cases y
    simp_all [UInt8.toNat_inj]
  case ip6.ip6 x y =>
    cases x
    cases y
    simpa [BitVec.toNat_inj] using h
  case tcp.tcp => simpa [UInt16.toNat_inj] using h
  case udp.udp => simpa [UInt16.toNat_inj] using h
  case p2p.p2p x y =>
    cases x
    cases y
    simpa using h
  case other.other x y =>
    have hchar : Function.Injective Char.toNat := fun _ _ => Char.toNat_inj.mp
    have hlist : x.toList = y.toList := List.map_injective_iff.mpr hchar h
    rw [String.toList_inj.mp hlist]
  all_goals rfl

/-- The environment at time zero in which every collection is walked in increasing
order and a peer is written as its number. -/
def Env.sorted : Env where
  now := 0
  peerText p := toString p.multihash
  addrText a := toString (a.protocols.map Protocol.code)
  peerOrder := .sortedBy PeerId.multihash fun ⟨_⟩ ⟨_⟩ h => by simpa using h
  serviceOrder := .sortedBy ServiceName.name fun ⟨_⟩ ⟨_⟩ h => by simpa using h
  addrOrder := .sortedBy (fun a => a.protocols.map Protocol.code) fun ⟨_⟩ ⟨_⟩ h => by
    simpa using List.map_injective_iff.mpr Protocol.code_injective h
  connectionOrder := .sortedBy ConnectionId.id fun ⟨_⟩ ⟨_⟩ h => by simpa using h

/-- `str::contains` for a text pattern. -/
def containsText (text pattern : String) : Bool := decide (pattern.toList <:+: text.toList)

end Punchgate
