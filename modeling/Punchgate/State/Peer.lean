import Punchgate.State.Event

/-!
# The peer machine

`PeerState` decides when the node has joined the network and which relay it asks
for a reservation.
-/

namespace Punchgate

/-- `PeerState`. -/
structure PeerState where
  /-- The life-cycle phase of the node. -/
  phase : Phase
  /-- What is known about the local NAT. -/
  natStatus : NatStatus
  /-- A relay reservation is held. -/
  relayReserved : Bool
  /-- The addresses known of each peer. -/
  knownPeers : FiniteMap PeerId (Finset Multiaddr)
  /-- The bootstrap peers. -/
  bootstrapPeers : Finset PeerId
  /-- The Kademlia bootstrap query has succeeded. -/
  kadBootstrapped : Bool
  /-- The confirmed external addresses. -/
  externalAddrs : Finset Multiaddr
  deriving DecidableEq

namespace PeerState

/-- `PeerState::new`. -/
def new : PeerState where
  phase := .joining
  natStatus := .unknown
  relayReserved := false
  knownPeers := ∅
  bootstrapPeers := ∅
  kadBootstrapped := false
  externalAddrs := ∅

/-- `prefer_public_addr`: a public address, else one that is not loopback, else any. -/
def preferPublicAddr (env : Env) (addrs : Finset Multiaddr) : Option Multiaddr :=
  let listed := env.addrOrder.toList addrs
  (listed.find? hasPublicIp).or ((listed.find? fun a => !isLoopbackAddr a).or listed.head?)

/-- `replace_stale_public_addr_for_ip`: forget the other addresses with the same public IP. -/
def replaceStalePublicAddrForIp (entry : Finset Multiaddr) (addr : Multiaddr) : Finset Multiaddr :=
  match extractPublicIp addr with
  | none => entry
  | some ip => entry.filter fun known => known = addr ∨ extractPublicIp known ≠ some ip

/-- `PeerState::maybe_request_relay`. -/
def maybeRequestRelay (env : Env) (s : PeerState) : List Command :=
  match s.natStatus, s.relayReserved with
  | .isPrivate, false =>
    match (s.knownPeers.entries env.peerOrder).find? fun e => decide (e.1 ∈ s.bootstrapPeers) with
    | some (peer, addrs) =>
      match preferPublicAddr env addrs with
      | some addr => [.requestRelayReservation peer addr]
      | none => []
    | none => []
  | _, _ => []

/-- `PeerState::maybe_become_ready`. -/
def maybeBecomeReady (s : PeerState) : PeerState :=
  if s.phase = .joining ∧ s.kadBootstrapped = true ∧ s.externalAddrs ≠ ∅ then
    { s with phase := .ready }
  else s

/-- Record one address of a peer, as the branches for new connections and mDNS do. -/
def addKnownAddr (s : PeerState) (peer : PeerId) (addr : Multiaddr) : PeerState :=
  { s with knownPeers := s.knownPeers.insert peer (insert addr (s.knownPeers.getD peer ∅)) }

/-- One expired mDNS record: drop the address, and the peer with its last address. -/
def expireKnownAddr (s : PeerState) (record : PeerId × Multiaddr) : PeerState :=
  match s.knownPeers.get? record.1 with
  | none => s
  | some addrs =>
    if addrs.erase record.2 = ∅ then { s with knownPeers := s.knownPeers.erase record.1 }
    else { s with knownPeers := s.knownPeers.insert record.1 (addrs.erase record.2) }

/-- One listed address of an identified peer: the address set of the peer and the
commands so far. -/
def mergeIdentified (peer : PeerId) (acc : Finset Multiaddr × List Command) (addr : Multiaddr) :
    Finset Multiaddr × List Command :=
  let entry := replaceStalePublicAddrForIp acc.1 addr
  (insert addr entry,
    if addr ∉ entry ∧ hasPublicIp addr = true then acc.2 ++ [.kademliaAddAddress peer addr]
    else acc.2)

/-- The branch of `PeerState::transition` for `PeerIdentified`. -/
def onPeerIdentified (env : Env) (s : PeerState) (peer : PeerId) (listenAddrs : List Multiaddr) :
    PeerState × List Command :=
  let merged := listenAddrs.foldl (mergeIdentified peer) (s.knownPeers.getD peer ∅, [])
  let s' := { s with knownPeers := s.knownPeers.insert peer merged.1 }
  (s', merged.2 ++ if peer ∈ s'.bootstrapPeers then s'.maybeRequestRelay env else [])

/-- The branch of `PeerState::transition` for `NatStatusChanged`. -/
def onNatStatusChanged (env : Env) (s : PeerState) (status : NatStatus) :
    PeerState × List Command :=
  let s' := { s with natStatus := status }
  match status, s.relayReserved with
  | .isPrivate, false => (s', s'.maybeRequestRelay env)
  | .isPublic, true => ({ s' with relayReserved := false }, [])
  | _, _ => (s', [])

/-- The branch of `PeerState::transition` for `ConnectionLost` with no connection left. -/
def onFullyDisconnected (s : PeerState) (peer : PeerId) : PeerState × List Command :=
  let s' := { s with
    knownPeers := s.knownPeers.erase peer
    relayReserved := if peer ∈ s.bootstrapPeers then false else s.relayReserved }
  if s'.phase = .ready ∧ s'.knownPeers.isEmpty = true ∧ s'.bootstrapPeers ≠ ∅ then
    ({ s' with phase := .joining, kadBootstrapped := false }, [.kademliaBootstrap])
  else (s', [])

/-- `PeerState::transition`. -/
def transition (env : Env) (s : PeerState) : Event → PeerState × List Command
  | .bootstrapConnected peer addr =>
    ({ s.addKnownAddr peer addr with bootstrapPeers := insert peer s.bootstrapPeers },
      .kademliaAddAddress peer addr ::
        if s.phase = .shuttingDown then [] else [.kademliaBootstrap])
  | .kademliaBootstrapOk => (maybeBecomeReady { s with kadBootstrapped := true }, [])
  | .natStatusChanged status => s.onNatStatusChanged env status
  | .discoveryTimeout =>
    if s.phase = .joining ∧ s.kadBootstrapped = true ∧ s.knownPeers.isEmpty = false then
      ({ s with phase := .ready }, [])
    else (s, [])
  | .mdnsDiscovered peers =>
    (peers.foldl (fun s r => s.addKnownAddr r.1 r.2) s,
      peers.map fun r => .kademliaAddAddress r.1 r.2)
  | .mdnsExpired peers => (peers.foldl expireKnownAddr s, [])
  | .peerIdentified peer listenAddrs _ => s.onPeerIdentified env peer listenAddrs
  | .relayReservationAccepted _ => ({ s with relayReserved := true }, [])
  | .relayReservationFailed _ _ =>
    let s' := { s with relayReserved := false }
    (s', s'.maybeRequestRelay env)
  | .noBootstrapPeers => (if s.phase = .joining then { s with phase := .ready } else s, [])
  | .externalAddrConfirmed addr =>
    (maybeBecomeReady { s with externalAddrs := insert addr s.externalAddrs }, [])
  | .externalAddrExpired addr => ({ s with externalAddrs := s.externalAddrs.erase addr }, [])
  | .shutdownRequested => ({ s with phase := .shuttingDown }, [.shutdown])
  | .connectionLost peer remaining =>
    if remaining = 0 then s.onFullyDisconnected peer else (s, [])
  | .listeningOn _ | .kademliaBootstrapFailed _ | .holePunchFailed _ _
  | .holePunchAttemptStarted _ _ | .holePunchAttemptFailed _ _ _ | .holePunchAttemptTimeout _ _
  | .dhtPeerLookupComplete _ _ | .dhtServiceResolved _ _ | .dhtServiceFailed _ _
  | .tunnelDialFailed _ _ | .tunnelPeerConnected _ _ | .phaseChanged _ _ => (s, [])

end PeerState

end Punchgate
