import Punchgate.State.App

/-!
# The swarm interface

What the node uses of the libp2p swarm. The swarm itself is not part of the
program: its state is an arbitrary type, its operations are a record of functions,
and the events it reports are the inputs of the node loop.
-/

namespace Punchgate

/-- `ConnectedPoint`. -/
inductive ConnectedPoint
  | dialer (address : Multiaddr)
  | listener (localAddr sendBackAddr : Multiaddr)
  deriving DecidableEq

/-- `ConnectedPoint::get_remote_address`. -/
def ConnectedPoint.remoteAddress : ConnectedPoint → Multiaddr
  | .dialer address => address
  | .listener _ sendBackAddr => sendBackAddr

/-- `endpoint_is_relayed`, also `is_relayed` in the event translation. -/
def ConnectedPoint.isRelayed : ConnectedPoint → Bool
  | .dialer address => hasP2pCircuit address
  | .listener localAddr sendBackAddr => hasP2pCircuit localAddr || hasP2pCircuit sendBackAddr

/-- The result of a provider query. -/
inductive GetProvidersResult
  | foundProviders (providers : Finset PeerId)
  | finishedWithNoAdditionalRecord
  | error (text : String)
  deriving DecidableEq

/-- The behaviour events the node translates. -/
inductive BehaviourEvent
  | kadBootstrap (id : QueryId) (result : Except String Unit) (last : Bool)
  | kadGetClosestPeers (id : QueryId) (last : Bool)
  | kadGetProviders (id : QueryId) (result : GetProvidersResult)
  | mdnsDiscovered (list : List (PeerId × Multiaddr))
  | mdnsExpired (list : List (PeerId × Multiaddr))
  | identifyReceived (peer : PeerId) (listenAddrs : List Multiaddr) (observedAddr : Multiaddr)
  | autonatStatusChanged (new : NatStatus)
  | reservationReqAccepted (relayPeer : PeerId)
  | dcutr (remotePeer : PeerId) (result : Except String ConnectionId)
  | other

/-- The swarm events the node looks at. -/
inductive SwarmEvent
  | newListenAddr (address : Multiaddr)
  | connectionEstablished (peer : PeerId) (connectionId : ConnectionId)
      (endpoint : ConnectedPoint)
  | connectionClosed (peer : PeerId) (connectionId : ConnectionId) (numEstablished : UInt32)
  | dialing (peer : Option PeerId) (connectionId : ConnectionId)
  | outgoingConnectionError (peer : Option PeerId) (connectionId : ConnectionId)
      (error : String)
  | externalAddrConfirmed (address : Multiaddr)
  | externalAddrExpired (address : Multiaddr)
  | listenerClosed (reason : Except String Unit) (addresses : List Multiaddr)
  | behaviour (event : BehaviourEvent)
  | other

/-- `DialOpts`: a peer, dialed only while no other dial to it is in progress, or an address. -/
inductive DialOpts
  | peerNotDialing (peer : PeerId) (addresses : List Multiaddr)
  | address (addr : Multiaddr)
  deriving DecidableEq

/-- `DialError`, as far as the node tells its kinds apart. -/
inductive DialError
  | dialPeerConditionFalse
  | other (text : String)
  deriving DecidableEq

/-- The requests to the swarm whose answer the node ignores. -/
inductive SwarmRequest
  | closeConnection (connectionId : ConnectionId)
  | disconnectPeer (peer : PeerId)
  | addExternalAddress (addr : Multiaddr)
  | removeExternalAddress (addr : Multiaddr)
  | newExternalAddrCandidate (addr : Multiaddr)
  | addKadAddress (peer : PeerId) (addr : Multiaddr)
  | listenOn (addr : Multiaddr)
  | startProviding (key : KademliaKey)
  | putRecord (key : KademliaKey) (value : ServiceName)
  deriving DecidableEq

/-- The operations of a swarm with states of type `Sw`. -/
structure SwarmApi (Sw : Type) where
  /-- `Swarm::is_connected`. -/
  isConnected : Sw → PeerId → Bool
  /-- `Swarm::dial`. -/
  dial : Sw → DialOpts → Sw × Except DialError Unit
  /-- `kademlia.bootstrap`, with the query id when a query was started. -/
  bootstrap : Sw → Sw × Option QueryId
  /-- `kademlia.get_closest_peers`. -/
  getClosestPeers : Sw → PeerId → Sw × QueryId
  /-- `kademlia.get_providers`. -/
  getProviders : Sw → KademliaKey → Sw × QueryId
  /-- Every request whose answer is ignored. -/
  request : Sw → SwarmRequest → Sw

end Punchgate
