import Punchgate.Node.Backoff
import Punchgate.Node.ConnectionState
import Punchgate.Node.Translate

/-!
# The node loop

`node::run` owns the connection bookkeeping and the composed state machine. Every
pass of its loop serves one branch of `select!`: a swarm event, one of its timers, or
the shutdown signal. A pass is a step of a Mealy machine whose outputs record every
event that was delivered to the state machine.
-/

namespace Punchgate

/-- `HOLE_PUNCH_TIMEOUT`. -/
def holePunchTimeout : Duration := Duration.fromSecs 30

/-- `TunnelSpec`. -/
structure TunnelSpec where
  /-- The peer the tunnel leads to. -/
  remotePeer : PeerId
  /-- The service to reach. -/
  serviceName : ServiceName
  /-- The local address to bind. -/
  bindAddr : ServiceAddr
  deriving DecidableEq

/-- `TunnelByNameSpec`. -/
structure TunnelByNameSpec where
  /-- The service to reach. -/
  serviceName : ServiceName
  /-- The local address to bind. -/
  bindAddr : ServiceAddr
  deriving DecidableEq

/-- `NodeConfig`, as far as the loop depends on it. -/
structure NodeConfig where
  /-- The bootstrap addresses. -/
  bootstrapAddrs : List Multiaddr
  /-- The services this node exposes. -/
  exposed : List ExposedService
  /-- The tunnels to a given peer. -/
  tunnelSpecs : List TunnelSpec
  /-- The tunnels to a service name. -/
  tunnelByNameSpecs : List TunnelByNameSpec

namespace NodeConfig

/-- The bootstrap addresses that name their peer. -/
def bootstrapPeersWithAddrs (cfg : NodeConfig) : List (PeerId × Multiaddr) :=
  cfg.bootstrapAddrs.filterMap fun addr => (extractPeerId addr).map (·, addr)

/-- The peers named by the bootstrap addresses. -/
def bootstrapPeerIds (cfg : NodeConfig) : Finset PeerId :=
  (cfg.bootstrapPeersWithAddrs.map Prod.fst).toFinset

/-- The calls by which `run` configures the tunnel machine. -/
def tunnelCalls (cfg : NodeConfig) (natMapping : NatMapping) : List ConfigCall :=
  (cfg.tunnelSpecs.map fun t => .addPeerTunnel t.remotePeer t.serviceName t.bindAddr) ++
    (cfg.tunnelByNameSpecs.map fun t => .addServiceTunnel t.serviceName t.bindAddr) ++
    [.setNatMapping natMapping]

end NodeConfig

/-- The background probe for a port mapping. -/
inductive PortMappingProbe
  | notSpawned
  | running
  | finished
  deriving DecidableEq

/-- The variables of `run` that live across passes of its loop. -/
structure NodeState (Sw : Type) where
  /-- The composed state machine. -/
  app : AppState
  /-- The connection bookkeeping. -/
  conn : ConnectionStateMachine
  /-- The swarm. -/
  swarm : Sw
  /-- Running queries and the registry of direct peers. -/
  ctx : ExecutionContext
  /-- The delays of bootstrap reconnects. -/
  backoff : ReconnectBackoff
  /-- The scheduled bootstrap reconnects. -/
  pendingReconnects : FiniteMap PeerId Instant
  /-- The confirmed external address of each public IP. -/
  confirmedExternalByIp : FiniteMap IpAddr Multiaddr
  /-- The external address of each public IP as bootstrap peers observed it. -/
  bootstrapObservedExternalByIp : FiniteMap IpAddr Multiaddr
  /-- The discovery timeout has been delivered. -/
  discoveryTimeoutFired : Bool
  /-- The state of the port mapping probe. -/
  portMapping : PortMappingProbe

/-- A branch of `select!`. A swarm event comes with the swarm as it is after the
event, and with the result of the port mapping probe if that has finished by then. -/
inductive LoopBranch (Sw : Type)
  | swarmEvent (event : SwarmEvent) (swarm : Sw) (probe : Option (Option (Ipv4Addr × UInt16)))
  | discoveryDeadline
  | reconnectTimer
  | holePunchTimer
  | shutdownSignal

/-- One pass of the loop: the branch it serves and the environment it runs in. -/
structure LoopInput (Sw : Type) where
  /-- The environment of the pass. -/
  env : Env
  /-- The branch that is served. -/
  branch : LoopBranch Sw

/-- The place of `run` that delivers an event. -/
inductive DeliverySource
  | portMapping
  | eventList
  | arming
  | holePunchTimer
  | discoveryDeadline
  | shutdownSignal
  deriving DecidableEq

/-- A record of one event delivered to the state machine. -/
structure Delivery where
  /-- The place of `run` that delivered the event. -/
  source : DeliverySource
  /-- The delivered event. -/
  event : Event
  /-- The state machine before the event. -/
  before : AppState
  /-- The commands it answered with. -/
  commands : List Command
  /-- The state machine after the event. -/
  after : AppState
  /-- The connection bookkeeping at that time. -/
  conn : ConnectionStateMachine

namespace NodeState

variable {Sw : Type} (api : SwarmApi Sw) (cfg : NodeConfig) (env : Env)

/-- Deliver an event to the state machine and execute the commands it answers with. -/
def deliver (source : DeliverySource) (n : NodeState Sw) (event : Event) :
    NodeState Sw × Delivery :=
  let (app, commands) := n.app.transition env event
  let (swarm, ctx) := executeCommands api cfg.exposed (n.swarm, n.ctx) commands
  ({ n with app := app, swarm := swarm, ctx := ctx },
    ⟨source, event, n.app, commands, app, n.conn⟩)

/-- One target peer of `arm_hole_punch_for_tunnel_targets`. -/
def armPeer (acc : NodeState Sw × List Delivery) (peer : PeerId) :
    NodeState Sw × List Delivery :=
  match acc.1.conn.startHolePunchAttempt env peer holePunchTimeout with
  | (_, none) => acc
  | (conn, some attemptId) =>
    let (n, delivery) := deliver api cfg env .arming { acc.1 with conn := conn }
      (.holePunchAttemptStarted peer attemptId)
    (n, acc.2 ++ [delivery])

/-- `arm_hole_punch_for_tunnel_targets`. -/
def armHolePunchForTunnelTargets (n : NodeState Sw) : NodeState Sw × List Delivery :=
  if n.app.phase = .shuttingDown then (n, [])
  else (n.app.tunnel.holepunchTargetPeers env).foldl (armPeer api cfg env) (n, [])

/-- The head of the event loop: a reported hole-punch failure becomes the failure of the
active attempt, or is dropped when there is none; a failure of another attempt is
dropped. -/
def attributeFailure (conn : ConnectionStateMachine) : Event → Option Event
  | .holePunchFailed remotePeer reason =>
    (conn.activeAttemptStats remotePeer).map fun stats =>
      .holePunchAttemptFailed remotePeer stats.attemptId reason
  | .holePunchAttemptFailed remotePeer attemptId reason =>
    match conn.activeAttemptStats remotePeer with
    | some stats =>
      if stats.attemptId ≠ attemptId then none
      else some (.holePunchAttemptFailed remotePeer attemptId reason)
    | none => some (.holePunchAttemptFailed remotePeer attemptId reason)
  | event => some event

/-- Replace the external address of a public IP by a new bootstrap observation. -/
def adoptObservation (n : NodeState Sw) (ip : IpAddr) (addr : Multiaddr) : NodeState Sw :=
  let previous := n.bootstrapObservedExternalByIp.get? ip
  let observed := n.bootstrapObservedExternalByIp.insert ip addr
  let swarm :=
    match previous with
    | some prev => if prev ≠ addr then api.request n.swarm (.removeExternalAddress prev) else n.swarm
    | none => n.swarm
  let swarm :=
    if previous ≠ some addr then
      api.request (api.request swarm (.addExternalAddress addr)) (.newExternalAddrCandidate addr)
    else swarm
  { n with bootstrapObservedExternalByIp := observed, swarm := swarm }

/-- What the loop does with an identify message before it is delivered. -/
def observeIdentify (n : NodeState Sw) : Event → NodeState Sw
  | .peerIdentified peer _ observedAddr =>
    let n :=
      if cfg.bootstrapPeerIds = ∅ then
        { n with swarm := api.request n.swarm (.addExternalAddress observedAddr) }
      else n
    if peer ∈ cfg.bootstrapPeerIds ∧ n.conn.hasRelayedConnection peer = false ∧
        isValidExternalCandidate observedAddr = true then
      match extractPublicIpPort observedAddr with
      | some (ip, _) => n.adoptObservation api ip observedAddr
      | none => n
    else n
  | _ => n

/-- One event of the event list of a pass. -/
def feed (n : NodeState Sw) (event : Event) : NodeState Sw × List Delivery :=
  match attributeFailure n.conn event with
  | none => (n, [])
  | some event =>
    let (n, delivery) := deliver api cfg env .eventList (n.observeIdentify api cfg event) event
    let (n, armed) := n.armHolePunchForTunnelTargets api cfg env
    (n, delivery :: armed)

/-- The event list of a pass, up to the event after which the node shuts down. -/
def feedAll (n : NodeState Sw) : List Event → NodeState Sw × List Delivery
  | [] => (n, [])
  | event :: events =>
    let (n, deliveries) := n.feed api cfg env event
    if n.app.phase = .shuttingDown then (n, deliveries)
    else
      let (n, rest) := n.feedAll events
      (n, deliveries ++ rest)

/-! ## The branch for swarm events -/

/-- Connection bookkeeping for a swarm event: the node, the synthetic events, and the
bootstrap peer that is now fully disconnected. -/
def bookkeep (n : NodeState Sw) : SwarmEvent → NodeState Sw × List Event × Option PeerId
  | .connectionEstablished peer connectionId endpoint =>
    let (conn, update) := n.conn.onConnectionEstablished env peer connectionId endpoint.isRelayed
    let (conn, started) :=
      if endpoint.isRelayed && n.app.tunnel.hasHolepunchIntent peer then
        conn.startHolePunchAttempt env peer holePunchTimeout
      else (conn, none)
    let ctx :=
      if update.directConnectionEstablished then
        { n.ctx with directPeers := insert peer n.ctx.directPeers }
      else n.ctx
    let swarm := update.relayedConnectionsToClose.foldl
      (fun swarm id => api.request swarm (.closeConnection id)) n.swarm
    ({ n with conn := conn, ctx := ctx, swarm := swarm },
      ((started.or update.startedAttemptId).toList.map fun attemptId =>
        .holePunchAttemptStarted peer attemptId), none)
  | .connectionClosed peer connectionId numEstablished =>
    let (conn, update) := n.conn.onConnectionClosed peer connectionId numEstablished
    let remaining := UInt32.ofNat (saturatingAdd u64Max (conn.relayedConnectionCount peer)
      (conn.directConnectionCount peer))
    let ctx :=
      if update.clearDirectRegistry then
        { n.ctx with directPeers := n.ctx.directPeers.erase peer }
      else n.ctx
    ({ n with conn := conn, ctx := ctx }, [.connectionLost peer remaining],
      if update.peerFullyDisconnected = true ∧ peer ∈ cfg.bootstrapPeerIds then some peer
      else none)
  | .dialing (some peer) connectionId =>
    ({ n with conn := (n.conn.onDialing peer connectionId).1 }, [], none)
  | .outgoingConnectionError peer connectionId error =>
    ({ n with conn := (n.conn.onOutgoingConnectionError peer connectionId error).1 }, [], none)
  | _ => (n, [], none)

/-- Schedule a reconnect to a bootstrap peer after its next delay. -/
def scheduleReconnect (n : NodeState Sw) (peer : PeerId) : NodeState Sw :=
  match n.backoff.scheduleReconnect peer with
  | (_, none) => n
  | (backoff, some (_, delay)) =>
    { n with
      backoff := backoff
      pendingReconnects := n.pendingReconnects.insert peer (env.now + delay) }

/-- Bootstrap reconnect scheduling for a swarm event. -/
def trackBootstrap (n : NodeState Sw) (event : SwarmEvent)
    (fullyDisconnected : Option PeerId) : NodeState Sw :=
  let n :=
    match event with
    | .connectionEstablished peer _ _ =>
      if peer ∈ cfg.bootstrapPeerIds then
        { n with
          backoff := n.backoff.reset peer
          pendingReconnects := n.pendingReconnects.erase peer }
      else n
    | _ => n
  let n :=
    match fullyDisconnected with
    | some peer => n.scheduleReconnect env peer
    | none => n
  match event with
  | .outgoingConnectionError (some peer) _ _ =>
    if peer ∈ cfg.bootstrapPeerIds ∧ api.isConnected n.swarm peer = false ∧
        n.pendingReconnects.contains peer = false then
      n.scheduleReconnect env peer
    else n
  | _ => n

/-- External address bookkeeping for a swarm event. -/
def trackExternalAddrs (n : NodeState Sw) : SwarmEvent → NodeState Sw
  | .externalAddrConfirmed address =>
    match extractPublicIpPort address with
    | some (ip, _) =>
      let swarm :=
        match n.confirmedExternalByIp.get? ip with
        | some prev =>
          if prev ≠ address then api.request n.swarm (.removeExternalAddress prev) else n.swarm
        | none => n.swarm
      { n with
        confirmedExternalByIp := n.confirmedExternalByIp.insert ip address
        swarm := swarm }
    | none => n
  | .externalAddrExpired address =>
    match extractPublicIpPort address with
    | some (ip, _) =>
      if n.confirmedExternalByIp.get? ip = some address then
        { n with confirmedExternalByIp := n.confirmedExternalByIp.erase ip }
      else n
    | none => n
  | _ => n

/-- Start the port mapping probe with the first usable listen address. -/
def spawnPortMapping (n : NodeState Sw) : SwarmEvent → NodeState Sw
  | .newListenAddr address =>
    if n.portMapping = .notSpawned ∧ cfg.bootstrapAddrs ≠ [] ∧
        (extractQuicUdpPort address).isSome = true then
      { n with portMapping := .running }
    else n
  | _ => n

/-- Pick up the result of the port mapping probe once it has finished. An IPv6 address
would end the process, so the mapped address is an IPv4 one. -/
def pollPortMapping (n : NodeState Sw) (probe : Option (Option (Ipv4Addr × UInt16))) :
    NodeState Sw × List Delivery :=
  match n.portMapping, probe with
  | .running, some none => ({ n with portMapping := .finished }, [])
  | .running, some (some (ip, port)) =>
    let n := { n with
      portMapping := .finished
      swarm := api.request n.swarm (.addExternalAddress ⟨[.ip4 ip, .udp port, .quicV1]⟩) }
    let (n, delivery) := deliver api cfg env .portMapping n (.natStatusChanged .isPublic)
    (n, [delivery])
  | _, _ => (n, [])

/-- The bookkeeping of a pass up to the event list: the node, the event list, and what
was delivered meanwhile. -/
def prepare (n : NodeState Sw) (event : SwarmEvent)
    (probe : Option (Option (Ipv4Addr × UInt16))) :
    NodeState Sw × List Event × List Delivery :=
  let n := n.spawnPortMapping cfg event
  let (n, synthetic, fullyDisconnected) := n.bookkeep api cfg env event
  let n := n.trackBootstrap api cfg env event fullyDisconnected
  let n := n.trackExternalAddrs api event
  let (n, probed) := n.pollPortMapping api cfg env probe
  let (translated, ctx) := translateSwarmEvent env cfg.bootstrapPeerIds n.ctx
    (api.isConnected n.swarm) event
  ({ n with ctx := ctx }, synthetic ++ translated, probed)

/-- The branch for swarm events. -/
def onSwarmEvent (n : NodeState Sw) (event : SwarmEvent) (swarm : Sw)
    (probe : Option (Option (Ipv4Addr × UInt16))) : NodeState Sw × List Delivery :=
  let (n, events, probed) := prepare api cfg env { n with swarm := swarm } event probe
  let (n, deliveries) := n.feedAll api cfg env events
  (n, probed ++ deliveries)

/-! ## The timer branches -/

/-- One due peer of the reconnect timer. -/
def reconnectPeer (n : NodeState Sw) (peer : PeerId) : NodeState Sw :=
  let n := { n with pendingReconnects := n.pendingReconnects.erase peer }
  match n.backoff.addrs.get? peer with
  | none => n
  | some addr =>
    match api.dial n.swarm (.address addr) with
    | (swarm, .ok _) => { n with swarm := swarm }
    | (swarm, .error _) => { n with swarm := swarm }.scheduleReconnect env peer

/-- The reconnect timer branch. -/
def onReconnectTimer (n : NodeState Sw) : NodeState Sw :=
  ((n.pendingReconnects.entries env.peerOrder).filter fun e => e.2 ≤ env.now).foldl
    (fun n e => n.reconnectPeer api env e.1) n

/-- One due attempt of the hole-punch timer. -/
def expireAttempt (acc : NodeState Sw × List Delivery) (due : PeerId × ℕ) :
    NodeState Sw × List Delivery :=
  if acc.1.conn.peerIsRelayOnly due.1 then
    let (n, delivery) := deliver api cfg env .holePunchTimer acc.1
      (.holePunchAttemptTimeout due.1 due.2)
    (n, acc.2 ++ [delivery])
  else acc

/-- The hole-punch timer branch. -/
def onHolePunchTimer (n : NodeState Sw) : NodeState Sw × List Delivery :=
  let (conn, due) := n.conn.takeDueHolePunchTimeouts env env.now
  due.foldl (expireAttempt api cfg env) ({ n with conn := conn }, [])

/-- One pass of the loop. The loop has ended once the node is shutting down. -/
def pass (n : NodeState Sw) (branch : LoopBranch Sw) : NodeState Sw × List Delivery :=
  if n.app.phase = .shuttingDown then (n, [])
  else
    match branch with
    | .swarmEvent event swarm probe => n.onSwarmEvent api cfg env event swarm probe
    | .discoveryDeadline =>
      if n.discoveryTimeoutFired then (n, [])
      else
        let (n, delivery) := deliver api cfg env .discoveryDeadline
          { n with discoveryTimeoutFired := true } .discoveryTimeout
        (n, [delivery])
    | .reconnectTimer => (n.onReconnectTimer api env, [])
    | .holePunchTimer => n.onHolePunchTimer api cfg env
    | .shutdownSignal =>
      let (n, delivery) := deliver api cfg env .shutdownSignal n .shutdownRequested
      (n, [delivery])

/-- The node when `run` enters its loop; `swarm` is the swarm after the listen
addresses were opened and the bootstrap addresses dialed. -/
def start (natMapping : NatMapping) (swarm : Sw) : NodeState Sw :=
  let n : NodeState Sw :=
    { app := ⟨{ PeerState.new with bootstrapPeers := cfg.bootstrapPeerIds },
        .configured (cfg.tunnelCalls natMapping)⟩
      conn := .new
      swarm := swarm
      ctx := .new
      backoff := .new cfg.bootstrapPeersWithAddrs
      pendingReconnects := ∅
      confirmedExternalByIp := ∅
      bootstrapObservedExternalByIp := ∅
      discoveryTimeoutFired := false
      portMapping := .notSpawned }
  (deliver api cfg env .eventList n
    (if cfg.bootstrapAddrs = [] then .noBootstrapPeers else .natStatusChanged .isPrivate)).1

end NodeState

/-- The loop of `node::run` as a Mealy machine. -/
def nodeLoop {Sw : Type} (api : SwarmApi Sw) (cfg : NodeConfig) :
    Mealy.Machine (NodeState Sw) (LoopInput Sw) Delivery where
  step n input := n.pass api cfg input.env input.branch

end Punchgate
