import Punchgate.Types

/-!
# Address classification

The predicates of `external_addr.rs`, and the address predicates of the tunnel and
peer machines, over the protocol components of a multiaddr.
-/

namespace Punchgate

/-- `needs_external_rewrite`. -/
def needsExternalRewrite (ip : Ipv4Addr) : Bool :=
  ip.isUnspecified || ip.isPrivate || ip.isLoopback

/-- `is_circuit_addr`, also named `has_p2p_circuit` and `has_circuit` in the source. -/
def hasP2pCircuit (addr : Multiaddr) : Bool := addr.protocols.any (· = .p2pCircuit)

/-- `has_public_ip`. -/
def hasPublicIp (addr : Multiaddr) : Bool :=
  addr.protocols.any fun
    | .ip4 ip => !needsExternalRewrite ip
    | .ip6 ip => !ip.isLoopback && !ip.isUnspecified
    | _ => false

/-- `is_valid_external_candidate`. -/
def isValidExternalCandidate (addr : Multiaddr) : Bool := !hasP2pCircuit addr && hasPublicIp addr

/-- One round of the loop of `extract_public_ip_port`: the last public IP and the
last port seen so far. -/
def scanPublicIpPort (seen : Option IpAddr × Option UInt16) :
    Protocol → Option IpAddr × Option UInt16
  | .ip4 ip => if needsExternalRewrite ip then seen else (some (.v4 ip), seen.2)
  | .ip6 ip => if ip.isLoopback || ip.isUnspecified then seen else (some (.v6 ip), seen.2)
  | .udp port => (seen.1, some port)
  | .tcp port => (seen.1, some port)
  | _ => seen

/-- `extract_public_ip_port`. -/
def extractPublicIpPort (addr : Multiaddr) : Option (IpAddr × UInt16) :=
  match addr.protocols.foldl scanPublicIpPort (none, none) with
  | (some ip, some port) => some (ip, port)
  | _ => none

/-- `extract_public_ip`. -/
def extractPublicIp (addr : Multiaddr) : Option IpAddr := (extractPublicIpPort addr).map Prod.fst

/-- `is_loopback_addr`. -/
def isLoopbackAddr (addr : Multiaddr) : Bool :=
  addr.protocols.any fun
    | .ip4 ip => ip.isLoopback
    | .ip6 ip => ip.isLoopback
    | _ => false

/-- `has_udp_and_quic`. -/
def hasUdpAndQuic (addr : Multiaddr) : Bool :=
  (addr.protocols.any fun | .udp _ => true | _ => false) &&
    addr.protocols.any fun | .quic => true | .quicV1 => true | _ => false

/-- `is_supported_direct_candidate`. -/
def isSupportedDirectCandidate (addr : Multiaddr) : Bool :=
  !hasP2pCircuit addr && hasUdpAndQuic addr && hasPublicIp addr

/-- `extract_peer_id`: the first peer id named in an address. -/
def extractPeerId (addr : Multiaddr) : Option PeerId :=
  addr.protocols.findSome? fun | .p2p peer => some peer | _ => none

/-- `extract_quic_udp_port`: the first UDP port named in an address. -/
def extractQuicUdpPort (addr : Multiaddr) : Option UInt16 :=
  addr.protocols.findSome? fun | .udp port => some port | _ => none

end Punchgate
