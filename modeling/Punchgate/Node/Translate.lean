import Punchgate.Node.Execute

/-!
# Translating swarm events

A swarm event becomes a list of domain events. Answered queries are forgotten on
the way.
-/

namespace Punchgate

/-- `is_active_bootstrap_result`. -/
def isActiveBootstrapResult (eventId : QueryId) (active : Option QueryId) (stepLast : Bool) :
    Bool :=
  active = some eventId && stepLast

/-- One component of the loop of `extract_relay_peer_from_addrs`: the last peer id and
whether a circuit marker was seen. -/
def scanRelayPeer (seen : Option PeerId × Bool) : Protocol → Option PeerId × Bool
  | .p2p peer => (some peer, seen.2)
  | .p2pCircuit => (seen.1, true)
  | _ => seen

/-- `extract_relay_peer_from_addrs`. -/
def extractRelayPeerFromAddrs (addrs : List Multiaddr) : Option PeerId :=
  addrs.findSome? fun addr =>
    match addr.protocols.foldl scanRelayPeer (none, false) with
    | (peer, true) => peer
    | (_, false) => none

/-- The order of provider candidates: connected peers first, ties by text. -/
def providerBefore (env : Env) (a b : PeerId × Bool) : Prop :=
  (a.2 = true ∧ b.2 = false) ∨ (a.2 = b.2 ∧ env.peerText a.1 ≤ env.peerText b.1)

instance (env : Env) : DecidableRel (providerBefore env) := fun a b =>
  inferInstanceAs (Decidable ((a.2 = true ∧ b.2 = false) ∨
    (a.2 = b.2 ∧ env.peerText a.1 ≤ env.peerText b.1)))

/-- `translate_get_providers`, for a query that is still remembered as being for
`serviceName`. -/
def translateGetProviders (env : Env) (serviceName : ServiceName) (isConnected : PeerId → Bool) :
    GetProvidersResult → List Event
  | .foundProviders providers =>
    match ((env.peerOrder.toList providers).map fun p => (p, isConnected p)).insertionSort
        (providerBefore env) with
    | [] => [.dhtServiceFailed serviceName "no providers found"]
    | p :: ps => [.dhtServiceResolved serviceName (p :: ps)]
  | .finishedWithNoAdditionalRecord => [.dhtServiceFailed serviceName "no providers found"]
  | .error text => [.dhtServiceFailed serviceName text]

/-- `translate_behaviour_event`. -/
def translateBehaviourEvent (env : Env) (ctx : ExecutionContext) (isConnected : PeerId → Bool) :
    BehaviourEvent → List Event × ExecutionContext
  | .kadBootstrap id result last =>
    (if isActiveBootstrapResult id ctx.activeBootstrapQuery last then
        match result with
        | .ok _ => [.kademliaBootstrapOk]
        | .error text => [.kademliaBootstrapFailed text]
      else [], ctx)
  | .kadGetClosestPeers id last =>
    match last, ctx.kadTunnelQueries.get? id with
    | true, some target =>
      ([.dhtPeerLookupComplete target (isConnected target)],
        { ctx with kadTunnelQueries := ctx.kadTunnelQueries.erase id })
    | _, _ => ([], ctx)
  | .kadGetProviders id result =>
    match ctx.kadServiceQueries.get? id with
    | some serviceName =>
      (translateGetProviders env serviceName isConnected result,
        { ctx with kadServiceQueries := ctx.kadServiceQueries.erase id })
    | none => ([], ctx)
  | .mdnsDiscovered list => ([.mdnsDiscovered list], ctx)
  | .mdnsExpired list => ([.mdnsExpired list], ctx)
  | .identifyReceived peer listenAddrs observedAddr =>
    ([.peerIdentified peer listenAddrs observedAddr], ctx)
  | .autonatStatusChanged new => ([.natStatusChanged new], ctx)
  | .reservationReqAccepted relayPeer => ([.relayReservationAccepted relayPeer], ctx)
  | .dcutr _ (.ok _) => ([], ctx)
  | .dcutr remotePeer (.error text) => ([.holePunchFailed remotePeer text], ctx)
  | .other => ([], ctx)

/-- `translate_swarm_event`. -/
def translateSwarmEvent (env : Env) (bootstrapPeers : Finset PeerId) (ctx : ExecutionContext)
    (isConnected : PeerId → Bool) : SwarmEvent → List Event × ExecutionContext
  | .newListenAddr address => ([.listeningOn address], ctx)
  | .connectionEstablished peer _ endpoint =>
    ((if peer ∈ bootstrapPeers then [.bootstrapConnected peer endpoint.remoteAddress] else []) ++
      [.tunnelPeerConnected peer endpoint.isRelayed], ctx)
  | .behaviour event => translateBehaviourEvent env ctx isConnected event
  | .listenerClosed (.error text) addresses =>
    (match extractRelayPeerFromAddrs addresses with
      | some relayPeer => [.relayReservationFailed relayPeer text]
      | none => [], ctx)
  | .listenerClosed (.ok _) _ => ([], ctx)
  | .outgoingConnectionError (some peer) _ error =>
    (if peer ∉ bootstrapPeers ∧ containsText error "local peer id" = false then
      [.tunnelDialFailed peer error] else [], ctx)
  | .outgoingConnectionError none _ _ => ([], ctx)
  | .externalAddrConfirmed address => ([.externalAddrConfirmed address], ctx)
  | .externalAddrExpired address => ([.externalAddrExpired address], ctx)
  | .connectionClosed _ _ _ | .dialing _ _ | .other => ([], ctx)

end Punchgate
