import Punchgate.ExternalAddr

/-!
# Events and commands

The alphabet of the state machines: what they are told and what they ask for.
-/

namespace Punchgate

/-- `Phase`. -/
inductive Phase
  | joining
  | ready
  | shuttingDown
  deriving DecidableEq

/-- `NatStatus`. -/
inductive NatStatus
  | unknown
  | isPublic
  | isPrivate
  deriving DecidableEq

/-- `NatMapping`. -/
inductive NatMapping
  | endpointIndependent
  | addressDependent
  | unknown
  deriving DecidableEq

/-- `Event`. -/
inductive Event
  | listeningOn (addr : Multiaddr)
  | bootstrapConnected (peer : PeerId) (addr : Multiaddr)
  | shutdownRequested
  | kademliaBootstrapOk
  | kademliaBootstrapFailed (reason : String)
  | mdnsDiscovered (peers : List (PeerId × Multiaddr))
  | mdnsExpired (peers : List (PeerId × Multiaddr))
  | peerIdentified (peer : PeerId) (listenAddrs : List Multiaddr) (observedAddr : Multiaddr)
  | natStatusChanged (status : NatStatus)
  | discoveryTimeout
  | relayReservationAccepted (relayPeer : PeerId)
  | relayReservationFailed (relayPeer : PeerId) (reason : String)
  | connectionLost (peer : PeerId) (remainingConnections : UInt32)
  | noBootstrapPeers
  | externalAddrConfirmed (addr : Multiaddr)
  | externalAddrExpired (addr : Multiaddr)
  | dhtPeerLookupComplete (peer : PeerId) (connected : Bool)
  | dhtServiceResolved (serviceName : ServiceName) (providers : List (PeerId × Bool))
  | dhtServiceFailed (serviceName : ServiceName) (reason : String)
  | tunnelDialFailed (peer : PeerId) (reason : String)
  | tunnelPeerConnected (peer : PeerId) (relayed : Bool)
  | holePunchAttemptStarted (peer : PeerId) (attemptId : ℕ)
  | holePunchFailed (remotePeer : PeerId) (reason : String)
  | holePunchAttemptFailed (remotePeer : PeerId) (attemptId : ℕ) (reason : String)
  | holePunchAttemptTimeout (peer : PeerId) (attemptId : ℕ)
  | phaseChanged (old new : Phase)
  deriving DecidableEq

/-- `Command`. -/
inductive Command
  | kademliaBootstrap
  | kademliaAddAddress (peer : PeerId) (addr : Multiaddr)
  | requestRelayReservation (relayPeer : PeerId) (relayAddr : Multiaddr)
  | shutdown
  | publishServices
  | dhtLookupPeer (peer : PeerId)
  | dhtGetProviders (serviceName : ServiceName) (key : KademliaKey)
  | dialPeer (peer : PeerId)
  | dialPeerWithAddrs (peer : PeerId) (addrs : List Multiaddr) (attemptId : ℕ)
  | disconnectPeer (peer : PeerId)
  | spawnTunnel (peer : PeerId) (service : ServiceName) (bind : ServiceAddr)
  deriving DecidableEq

/-- The provider query for a service, as every branch of the source builds it. -/
def Command.getProviders (serviceName : ServiceName) : Command :=
  .dhtGetProviders serviceName (KademliaKey.forService serviceName)

/-- The commands that open the tunnels of a list of intents over one peer. -/
def spawnTunnels (peer : PeerId) (specs : List Intent) : List Command :=
  specs.map fun spec => .spawnTunnel peer spec.1 spec.2

end Punchgate
