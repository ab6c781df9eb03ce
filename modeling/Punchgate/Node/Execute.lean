import Punchgate.Node.Swarm

/-!
# Executing commands

The commands of the state machines become requests to the swarm; started queries
are remembered until the swarm answers them.
-/

namespace Punchgate

/-- `ExposedService`. -/
structure ExposedService where
  /-- The name under which the service is published. -/
  name : ServiceName
  /-- Where the service listens. -/
  localAddr : ServiceAddr
  deriving DecidableEq

/-- `ExecutionContext`, without the handles of spawned tasks. -/
structure ExecutionContext where
  /-- The running bootstrap query. -/
  activeBootstrapQuery : Option QueryId
  /-- The peer each running peer lookup is for. -/
  kadTunnelQueries : FiniteMap QueryId PeerId
  /-- The service each running provider query is for. -/
  kadServiceQueries : FiniteMap QueryId ServiceName
  /-- `DirectPeerRegistry`. -/
  directPeers : Finset PeerId
  deriving DecidableEq

/-- The context at startup. -/
def ExecutionContext.new : ExecutionContext := ⟨none, ∅, ∅, ∅⟩

/-- The listen address of a relay reservation: the relay's transport address, its
peer id and the circuit marker. -/
def relayListenAddr (relayPeer : PeerId) (relayAddr : Multiaddr) : Multiaddr :=
  ⟨(relayAddr.protocols.takeWhile fun | .p2p _ => false | _ => true) ++
    [.p2p relayPeer, .p2pCircuit]⟩

section Execute

variable {Sw : Type} (api : SwarmApi Sw)

/-- `publish_services`. -/
def publishServices (exposed : List ExposedService) (swarm : Sw) : Sw :=
  exposed.foldl (fun swarm svc =>
    let key := KademliaKey.forService svc.name
    api.request (api.request swarm (.startProviding key)) (.putRecord key svc.name)) swarm

/-- One round of the loop of `execute_commands`. -/
def executeCommand (exposed : List ExposedService) (world : Sw × ExecutionContext) :
    Command → Sw × ExecutionContext
  | .kademliaBootstrap =>
    let (swarm, queryId) := api.bootstrap world.1
    (swarm, { world.2 with activeBootstrapQuery := queryId })
  | .kademliaAddAddress peer addr => (api.request world.1 (.addKadAddress peer addr), world.2)
  | .requestRelayReservation relayPeer relayAddr =>
    (api.request world.1 (.listenOn (relayListenAddr relayPeer relayAddr)), world.2)
  | .publishServices => (publishServices api exposed world.1, world.2)
  | .shutdown => world
  | .dhtLookupPeer peer =>
    let (swarm, queryId) := api.getClosestPeers world.1 peer
    (swarm, { world.2 with
      kadTunnelQueries := world.2.kadTunnelQueries.insert queryId peer })
  | .dhtGetProviders serviceName key =>
    let (swarm, queryId) := api.getProviders world.1 key
    (swarm, { world.2 with
      kadServiceQueries := world.2.kadServiceQueries.insert queryId serviceName })
  | .dialPeer peer => ((api.dial world.1 (.peerNotDialing peer [])).1, world.2)
  | .dialPeerWithAddrs peer addrs _ => ((api.dial world.1 (.peerNotDialing peer addrs)).1, world.2)
  | .disconnectPeer peer => (api.request world.1 (.disconnectPeer peer), world.2)
  | .spawnTunnel _ _ _ => world

/-- `execute_commands`. -/
def executeCommands (exposed : List ExposedService) (world : Sw × ExecutionContext)
    (commands : List Command) : Sw × ExecutionContext :=
  commands.foldl (executeCommand api exposed) world

end Execute

end Punchgate
