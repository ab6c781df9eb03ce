import Punchgate.Node.Delivery

/-!
# Bookkeeping of a swarm event

Before its event list is fed, a pass has booked the swarm event: connections were
opened or closed in the books, and an attempt may have been started. Everything else
that happens up to that point leaves both machines alone, except that a finished port
mapping is delivered.
-/

namespace Punchgate

/-- `remaining_connections`: the number of tracked connections as a `u32`. -/
def PeerLink.remaining (l : PeerLink) : UInt32 :=
  UInt32.ofNat (saturatingAdd u64Max (l.relayed.getD ∅).card (l.direct.getD ∅).card)

/-- The events a pass is fed with apart from new and lost connections and from its own
attempts. -/
def Event.ordinary : Event → Bool
  | .tunnelPeerConnected _ _ | .connectionLost _ _ | .holePunchAttemptStarted _ _
  | .holePunchAttemptFailed _ _ _ | .holePunchAttemptTimeout _ _ | .shutdownRequested => false
  | _ => true

/-- A new or a lost connection. -/
def SwarmEvent.isConnection : SwarmEvent → Bool
  | .connectionEstablished _ _ _ | .connectionClosed _ _ _ => true
  | _ => false

/-- What bookkeeping makes of the links, and the synthetic events it leaves. -/
inductive Booked (c : ConnectionStateMachine) (t : TunnelState) :
    SwarmEvent → ConnectionStateMachine → List Event → Prop
  /-- A relayed connection, with which an attempt starts. -/
  | relayedStarted {q id endpoint d} (attemptId : ℕ) (hrelayed : endpoint.isRelayed = true)
      (hintent : (t.view q).intent = true) (hstart : ((c.link q).openRelayed id).Startable)
      (hlink : ∀ p, d.link p =
        if p = q then ((c.link p).openRelayed id).start attemptId else c.link p) :
      Booked c t (.connectionEstablished q id endpoint) d [.holePunchAttemptStarted q attemptId]
  /-- A relayed connection, with which no attempt starts. -/
  | relayed {q id endpoint d} (hrelayed : endpoint.isRelayed = true)
      (hnot : ¬((t.view q).intent = true ∧ ((c.link q).openRelayed id).Startable))
      (hlink : ∀ p, d.link p = if p = q then (c.link p).openRelayed id else c.link p) :
      Booked c t (.connectionEstablished q id endpoint) d []
  /-- A direct connection. -/
  | direct {q id endpoint d} (hrelayed : endpoint.isRelayed = false)
      (hlink : ∀ p, d.link p = if p = q then (c.link p).openDirect id else c.link p) :
      Booked c t (.connectionEstablished q id endpoint) d []
  /-- A lost connection. -/
  | closed {q id num d}
      (hlink : ∀ p, d.link p = if p = q then (c.link p).close id num else c.link p) :
      Booked c t (.connectionClosed q id num) d [.connectionLost q (d.link q).remaining]
  /-- Any other event. -/
  | other {event d} (hevent : event.isConnection = false) (hlink : ∀ p, d.link p = c.link p) :
      Booked c t event d []

/-- Only new and lost connections leave synthetic events. -/
theorem Booked.synthetic_eq_nil {c d : ConnectionStateMachine} {t : TunnelState}
    {event : SwarmEvent} {synthetic : List Event} (h : Booked c t event d synthetic)
    (hevent : event.isConnection = false) : synthetic = [] := by
  cases h <;> first | rfl | cases hevent

namespace NodeState

variable {Sw : Type} (api : SwarmApi Sw) (cfg : NodeConfig) (env : Env)

/-- What bookkeeping does to links and which events it leaves. -/
theorem bookkeep_booked (n : NodeState Sw) (event : SwarmEvent) :
    Booked n.conn n.app.tunnel event (n.bookkeep api cfg env event).1.conn
      (n.bookkeep api cfg env event).2.1 := by
  cases event with
  | connectionEstablished q id endpoint =>
    have hopen := fun p => n.conn.onConnectionEstablished_link env p q id endpoint.isRelayed
    have hupdate : (n.conn.onConnectionEstablished env q id endpoint.isRelayed).2.startedAttemptId =
        none := by
      unfold ConnectionStateMachine.onConnectionEstablished
      cases endpoint.isRelayed <;> rfl
    unfold bookkeep
    dsimp only
    rw [hupdate, Option.or_none]
    cases hrelayed : endpoint.isRelayed with
    | false =>
      rw [hrelayed] at hopen
      exact .direct hrelayed hopen
    | true =>
      rw [hrelayed] at hopen
      simp only [if_true] at hopen
      have hq := hopen q
      rw [if_pos rfl] at hq
      cases hintent : n.app.tunnel.hasHolepunchIntent q with
      | false =>
        refine .relayed hrelayed (fun h => ?_) hopen
        have hcontra : n.app.tunnel.hasHolepunchIntent q = true := h.1
        rw [hintent] at hcontra
        cases hcontra
      | true =>
        rw [Bool.and_self, if_pos rfl]
        rcases (n.conn.onConnectionEstablished env q id true).1.startHolePunchAttempt_cases env q
            holePunchTimeout with ⟨hnot, heq⟩ | ⟨hstart, d, a, heq, hlink⟩
        · rw [heq]
          rw [hq] at hnot
          exact .relayed hrelayed (fun h => hnot h.2) hopen
        · rw [heq]
          rw [hq] at hstart
          refine .relayedStarted a hrelayed hintent hstart fun p => ?_
          rw [hlink p, hopen p]
          split <;> rfl
  | connectionClosed q id num =>
    exact .closed fun p => n.conn.onConnectionClosed_link p q id num
  | dialing peer id =>
    cases peer with
    | none =>
      refine .other ?_ fun p => ?_
      · rfl
      · rfl
    | some q =>
      refine .other ?_ fun p => ?_
      · rfl
      · exact n.conn.onDialing_link p q id
  | outgoingConnectionError peer id error =>
    refine .other ?_ fun p => ?_
    · rfl
    · exact n.conn.onOutgoingConnectionError_link p peer id error
  | _ =>
    refine .other ?_ fun _ => ?_
    · rfl
    · rfl

/-- The bookkeeping of connections leaves the state machine alone. -/
theorem bookkeep_app (n : NodeState Sw) (event : SwarmEvent) :
    (n.bookkeep api cfg env event).1.app = n.app := by
  cases event with
  | connectionEstablished q id endpoint => rfl
  | dialing peer id => cases peer <;> rfl
  | _ => rfl

/-- Only the reconnects of bootstrap peers differ. -/
def SameButReconnects (n m : NodeState Sw) : Prop :=
  ∃ backoff pending, m = { n with backoff := backoff, pendingReconnects := pending }

/-- Scheduling a reconnect changes nothing else. -/
theorem SameButReconnects.scheduleReconnect {n m : NodeState Sw} (h : SameButReconnects n m)
    (peer : PeerId) : SameButReconnects n (m.scheduleReconnect env peer) := by
  obtain ⟨backoff, pending, rfl⟩ := h
  unfold NodeState.scheduleReconnect
  split
  · exact ⟨_, _, rfl⟩
  · exact ⟨_, _, rfl⟩

/-- Tracking bootstrap peers changes their reconnects only. -/
theorem trackBootstrap_same (n : NodeState Sw) (event : SwarmEvent)
    (fullyDisconnected : Option PeerId) :
    SameButReconnects n (n.trackBootstrap api cfg env event fullyDisconnected) := by
  have hite {c : Prop} [Decidable c] {m m' : NodeState Sw} (h : SameButReconnects n m)
      (h' : SameButReconnects n m') : SameButReconnects n (if c then m else m') := by
    split <;> assumption
  have hself : SameButReconnects n n := ⟨_, _, rfl⟩
  cases fullyDisconnected with
  | none =>
    cases event with
    | connectionEstablished peer id endpoint => exact hite ⟨_, _, rfl⟩ hself
    | outgoingConnectionError peer id error =>
      cases peer with
      | none => exact hself
      | some peer => exact hite (hself.scheduleReconnect env peer) hself
    | _ => exact hself
  | some lost =>
    have hlost := hself.scheduleReconnect env lost
    cases event with
    | connectionEstablished peer id endpoint =>
      exact (hite ⟨_, _, rfl⟩ hself).scheduleReconnect env lost
    | outgoingConnectionError peer id error =>
      cases peer with
      | none => exact hlost
      | some peer => exact hite (hlost.scheduleReconnect env peer) hlost
    | _ => exact hlost

/-- A reconnect dials at most once and changes nothing besides but the reconnects. -/
theorem reconnectPeer_same (n : NodeState Sw) (peer : PeerId) :
    ∃ swarm, (swarm = n.swarm ∨ ∃ addr, swarm = (api.dial n.swarm (.address addr)).1) ∧
      SameButReconnects { n with swarm := swarm } (n.reconnectPeer api env peer) := by
  unfold reconnectPeer
  dsimp only
  split
  · exact ⟨n.swarm, Or.inl rfl, _, _, rfl⟩
  · rename_i addr _
    refine ⟨(api.dial n.swarm (.address addr)).1, Or.inr ⟨addr, rfl⟩, ?_⟩
    split
    · rename_i heq
      rw [heq]
      exact ⟨_, _, rfl⟩
    · rename_i heq
      rw [heq]
      exact SameButReconnects.scheduleReconnect env ⟨_, _, rfl⟩ peer

/-- **Reconnect rule.** The reconnect timer changes nothing but the reconnects and what its dials
make of the swarm. -/
theorem onReconnectTimer_same {R : Sw → Sw → Prop} (hrefl : ∀ sw, R sw sw)
    (htrans : ∀ {a b c}, R a b → R b c → R a c)
    (hdial : ∀ sw addr, R sw (api.dial sw (.address addr)).1) (n : NodeState Sw) :
    ∃ swarm, R n.swarm swarm ∧
      SameButReconnects { n with swarm := swarm } (n.onReconnectTimer api env) := by
  unfold onReconnectTimer
  refine List.foldlRecOn _ _ (motive := fun m : NodeState Sw =>
    ∃ swarm, R n.swarm swarm ∧ SameButReconnects { n with swarm := swarm } m)
    ⟨n.swarm, hrefl _, _, _, rfl⟩ fun m hm e _ => ?_
  obtain ⟨swarm, hswarm, _, _, rfl⟩ := hm
  obtain ⟨swarm', hone, _, _, heq⟩ := reconnectPeer_same api env _ e.1
  rw [heq]
  refine ⟨swarm', ?_, _, _, rfl⟩
  rcases hone with rfl | ⟨addr, rfl⟩
  · exact hswarm
  · exact htrans hswarm (hdial _ addr)

/-- The reconnect timer changes nothing but the swarm and the reconnects. -/
theorem onReconnectTimer_frame (n : NodeState Sw) :
    ∃ swarm, SameButReconnects { n with swarm := swarm } (n.onReconnectTimer api env) := by
  obtain ⟨swarm, -, hsame⟩ := onReconnectTimer_same api env (R := fun _ _ => True)
    (fun _ => trivial) (fun _ _ => trivial) (fun _ _ => trivial) n
  exact ⟨swarm, hsame⟩

/-- Tracking bootstrap peers leaves both machines alone. -/
theorem trackBootstrap_frame (n : NodeState Sw) (event : SwarmEvent)
    (fullyDisconnected : Option PeerId) :
    (n.trackBootstrap api cfg env event fullyDisconnected).conn = n.conn ∧
      (n.trackBootstrap api cfg env event fullyDisconnected).app = n.app := by
  obtain ⟨_, _, heq⟩ := trackBootstrap_same api cfg env n event fullyDisconnected
  rw [heq]
  exact ⟨rfl, rfl⟩

/-- Tracking external addresses makes at most one request and changes nothing besides but the
confirmed addresses. -/
theorem trackExternalAddrs_same (n : NodeState Sw) (event : SwarmEvent) :
    ∃ swarm confirmed, (swarm = n.swarm ∨ ∃ r, swarm = api.request n.swarm r) ∧
      n.trackExternalAddrs api event =
        { n with swarm := swarm, confirmedExternalByIp := confirmed } := by
  have hself : ∃ swarm confirmed, (swarm = n.swarm ∨ ∃ r, swarm = api.request n.swarm r) ∧
      n = { n with swarm := swarm, confirmedExternalByIp := confirmed } :=
    ⟨_, _, Or.inl rfl, rfl⟩
  cases event with
  | externalAddrConfirmed address =>
    unfold trackExternalAddrs
    dsimp only
    split
    · refine ⟨_, _, ?_, rfl⟩
      split
      · split
        · exact Or.inr ⟨_, rfl⟩
        · exact Or.inl rfl
      · exact Or.inl rfl
    · exact hself
  | externalAddrExpired address =>
    unfold trackExternalAddrs
    dsimp only
    split
    · split
      · exact ⟨_, _, Or.inl rfl, rfl⟩
      · exact hself
    · exact hself
  | _ => exact hself

/-- Tracking external addresses leaves both machines alone. -/
theorem trackExternalAddrs_frame (n : NodeState Sw) (event : SwarmEvent) :
    (n.trackExternalAddrs api event).conn = n.conn ∧
      (n.trackExternalAddrs api event).app = n.app := by
  obtain ⟨_, _, -, heq⟩ := trackExternalAddrs_same api n event
  rw [heq]
  exact ⟨rfl, rfl⟩

/-- Starting the port mapping probe changes nothing else. -/
theorem spawnPortMapping_same (n : NodeState Sw) (event : SwarmEvent) :
    ∃ mapping, n.spawnPortMapping cfg event = { n with portMapping := mapping } := by
  cases event with
  | newListenAddr address =>
    unfold spawnPortMapping
    dsimp only
    split
    · exact ⟨_, rfl⟩
    · exact ⟨_, rfl⟩
  | _ => exact ⟨_, rfl⟩

/-- Starting the port mapping probe leaves both machines alone. -/
theorem spawnPortMapping_frame (n : NodeState Sw) (event : SwarmEvent) :
    (n.spawnPortMapping cfg event).conn = n.conn ∧ (n.spawnPortMapping cfg event).app = n.app := by
  obtain ⟨_, heq⟩ := spawnPortMapping_same cfg n event
  rw [heq]
  exact ⟨rfl, rfl⟩

/-- A delivery of a finished port mapping: it leaves the tunnel machine alone. -/
structure ProbeDelivery (n : NodeState Sw) (c : ConnectionStateMachine) (d : Delivery) : Prop where
  /-- The delivery stems from the port mapping. -/
  source : d.source = .portMapping
  /-- It reports a public address. -/
  event : d.event = .natStatusChanged .isPublic
  /-- It starts from the state machine of the node. -/
  before : d.before = n.app
  /-- It acts on no peer. -/
  commands : ∀ p, commandsFor p d.commands = []
  /-- It leaves the tunnel machine alone. -/
  after : d.after.tunnel = n.app.tunnel
  /-- The books are those of the pass. -/
  conn : d.conn = c

/-- Picking up the port mapping delivers at most that and leaves the tunnel machine and the
books alone. -/
theorem pollPortMapping_frame (n : NodeState Sw) (probe : Option (Option (Ipv4Addr × UInt16))) :
    (n.pollPortMapping api cfg env probe).1.conn = n.conn ∧
      (n.pollPortMapping api cfg env probe).1.app.tunnel = n.app.tunnel ∧
      ((n.pollPortMapping api cfg env probe).1.app.phase = .shuttingDown →
        n.app.phase = .shuttingDown) ∧
      ∀ d ∈ (n.pollPortMapping api cfg env probe).2, ProbeDelivery n n.conn d := by
  unfold pollPortMapping
  split
  · exact ⟨rfl, rfl, fun h => h, fun d hd => by cases hd⟩
  · have htunnel := n.app.transition_tunnel env (.natStatusChanged .isPublic)
    refine ⟨rfl, htunnel, fun h => ?_, fun d hd => ?_⟩
    · exact (AppState.phase_transition env n.app (.natStatusChanged .isPublic) h).resolve_right
        fun heq => by cases heq
    · rw [List.mem_singleton.mp hd]
      refine ⟨rfl, rfl, rfl, fun p => ?_, htunnel, rfl⟩
      exact ((n.app.transition_refines env p (.natStatusChanged .isPublic)).eq_of_quiet
        (fun h => by cases h) rfl).2
  · exact ⟨rfl, rfl, fun h => h, fun d hd => by cases hd⟩

/-- What happens to a node up to the event list of a swarm event. -/
structure Prepared (n : NodeState Sw) (event : SwarmEvent)
    (r : NodeState Sw × List Event × List Delivery) : Prop where
  /-- The event was booked, and its translation follows the synthetic events. -/
  booked : ∃ synthetic ctx isConnected, Booked n.conn n.app.tunnel event r.1.conn synthetic ∧
    r.2.1 = synthetic ++
      (translateSwarmEvent env cfg.bootstrapPeerIds ctx isConnected event).1
  /-- The tunnel machine was left alone. -/
  tunnel : r.1.app.tunnel = n.app.tunnel
  /-- The node was not shut down. -/
  phase : r.1.app.phase = .shuttingDown → n.app.phase = .shuttingDown
  /-- Only a finished port mapping was delivered. -/
  probed : ∀ d ∈ r.2.2, ProbeDelivery n r.1.conn d

/-- A pass prepares its event list by booking its event. -/
theorem prepare_prepared (n : NodeState Sw) (event : SwarmEvent)
    (probe : Option (Option (Ipv4Addr × UInt16))) :
    Prepared cfg env n event (n.prepare api cfg env event probe) := by
  have hspawn := spawnPortMapping_frame cfg n event
  have hbooked := bookkeep_booked api cfg env (n.spawnPortMapping cfg event) event
  have happ := bookkeep_app api cfg env (n.spawnPortMapping cfg event) event
  have hboot := trackBootstrap_frame api cfg env
    ((n.spawnPortMapping cfg event).bookkeep api cfg env event).1 event
    ((n.spawnPortMapping cfg event).bookkeep api cfg env event).2.2
  have haddrs := trackExternalAddrs_frame api
    (((n.spawnPortMapping cfg event).bookkeep api cfg env event).1.trackBootstrap api cfg env event
      ((n.spawnPortMapping cfg event).bookkeep api cfg env event).2.2) event
  obtain ⟨hconn, htunnel, hphase, hprobed⟩ := pollPortMapping_frame api cfg env
    ((((n.spawnPortMapping cfg event).bookkeep api cfg env event).1.trackBootstrap api cfg env event
      ((n.spawnPortMapping cfg event).bookkeep api cfg env event).2.2).trackExternalAddrs api event)
    probe
  rw [haddrs.1, hboot.1] at hconn hprobed
  rw [haddrs.2, hboot.2, happ, hspawn.2] at htunnel hphase
  rw [hspawn.1, hspawn.2] at hbooked
  refine ⟨⟨_, _, _, ?_, rfl⟩, htunnel, hphase, fun d hd => ?_⟩
  · exact hconn ▸ hbooked
  · have hd := hprobed d hd
    refine ⟨hd.source, hd.event, ?_, hd.commands, ?_, hd.conn.trans hconn.symm⟩
    · rw [hd.before, haddrs.2, hboot.2, happ, hspawn.2]
    · rw [hd.after, haddrs.2, hboot.2, happ, hspawn.2]

end NodeState

/-! ## Event lists -/

/-- What a swarm event that is no connection can tell. -/
inductive SwarmEvent.Tells : SwarmEvent → Event → Prop
  | listening {address} : Tells (.newListenAddr address) (.listeningOn address)
  | externalConfirmed {address} :
    Tells (.externalAddrConfirmed address) (.externalAddrConfirmed address)
  | externalExpired {address} : Tells (.externalAddrExpired address) (.externalAddrExpired address)
  | dialFailed {peer id error} :
    Tells (.outgoingConnectionError (some peer) id error) (.tunnelDialFailed peer error)
  | reservationFailed {relayPeer text addresses} :
    Tells (.listenerClosed (.error text) addresses) (.relayReservationFailed relayPeer text)
  | bootstrapOk {id result last} :
    Tells (.behaviour (.kadBootstrap id result last)) .kademliaBootstrapOk
  | bootstrapFailed {id result last text} :
    Tells (.behaviour (.kadBootstrap id result last)) (.kademliaBootstrapFailed text)
  | lookedUp {id last peer connected} :
    Tells (.behaviour (.kadGetClosestPeers id last)) (.dhtPeerLookupComplete peer connected)
  | resolved {id result svc providers} :
    Tells (.behaviour (.kadGetProviders id result)) (.dhtServiceResolved svc providers)
  | notResolved {id result svc text} :
    Tells (.behaviour (.kadGetProviders id result)) (.dhtServiceFailed svc text)
  | mdnsDiscovered {list} : Tells (.behaviour (.mdnsDiscovered list)) (.mdnsDiscovered list)
  | mdnsExpired {list} : Tells (.behaviour (.mdnsExpired list)) (.mdnsExpired list)
  | identified {peer addrs observed} :
    Tells (.behaviour (.identifyReceived peer addrs observed)) (.peerIdentified peer addrs observed)
  | natStatus {new} : Tells (.behaviour (.autonatStatusChanged new)) (.natStatusChanged new)
  | reservationAccepted {relayPeer} :
    Tells (.behaviour (.reservationReqAccepted relayPeer)) (.relayReservationAccepted relayPeer)
  | holePunchFailed {peer text} :
    Tells (.behaviour (.dcutr peer (.error text))) (.holePunchFailed peer text)

/-- A provider query tells one event. -/
theorem translateGetProviders_tells (env : Env) (svc : ServiceName) (isConnected : PeerId → Bool)
    (id : QueryId) (result : GetProvidersResult) :
    ∃ e, translateGetProviders env svc isConnected result = [e] ∧
      SwarmEvent.Tells (.behaviour (.kadGetProviders id result)) e := by
  cases result with
  | foundProviders providers =>
    unfold translateGetProviders
    dsimp only
    split
    · exact ⟨_, rfl, .notResolved⟩
    · exact ⟨_, rfl, .resolved⟩
  | finishedWithNoAdditionalRecord => exact ⟨_, rfl, .notResolved⟩
  | error text => exact ⟨_, rfl, .notResolved⟩

/-- A swarm event that is no new or lost connection tells one event at most. -/
theorem translateSwarmEvent_tells (env : Env) (bootstrapPeers : Finset PeerId)
    (ctx : ExecutionContext) (isConnected : PeerId → Bool) (event : SwarmEvent)
    (hevent : event.isConnection = false) :
    (translateSwarmEvent env bootstrapPeers ctx isConnected event).1 = [] ∨
    ∃ e, (translateSwarmEvent env bootstrapPeers ctx isConnected event).1 = [e] ∧
      event.Tells e := by
  cases event with
  | connectionEstablished => cases hevent
  | connectionClosed => cases hevent
  | newListenAddr => exact Or.inr ⟨_, rfl, .listening⟩
  | externalAddrConfirmed => exact Or.inr ⟨_, rfl, .externalConfirmed⟩
  | externalAddrExpired => exact Or.inr ⟨_, rfl, .externalExpired⟩
  | dialing => exact Or.inl rfl
  | other => exact Or.inl rfl
  | outgoingConnectionError peer id error =>
    cases peer with
    | none => exact Or.inl rfl
    | some peer =>
      unfold translateSwarmEvent
      dsimp only
      split
      · exact Or.inr ⟨_, rfl, .dialFailed⟩
      · exact Or.inl rfl
  | listenerClosed reason addresses =>
    cases reason with
    | ok => exact Or.inl rfl
    | error text =>
      unfold translateSwarmEvent
      dsimp only
      split
      · exact Or.inr ⟨_, rfl, .reservationFailed⟩
      · exact Or.inl rfl
  | behaviour event =>
    cases event with
    | kadBootstrap id result last =>
      unfold translateSwarmEvent translateBehaviourEvent
      dsimp only
      split
      · cases result with
        | ok => exact Or.inr ⟨_, rfl, .bootstrapOk⟩
        | error text => exact Or.inr ⟨_, rfl, .bootstrapFailed⟩
      · exact Or.inl rfl
    | kadGetClosestPeers id last =>
      unfold translateSwarmEvent translateBehaviourEvent
      dsimp only
      split
      · exact Or.inr ⟨_, rfl, .lookedUp⟩
      · exact Or.inl rfl
    | kadGetProviders id result =>
      unfold translateSwarmEvent translateBehaviourEvent
      dsimp only
      split
      · exact Or.inr (translateGetProviders_tells env _ isConnected id result)
      · exact Or.inl rfl
    | dcutr peer result =>
      cases result with
      | ok => exact Or.inl rfl
      | error text => exact Or.inr ⟨_, rfl, .holePunchFailed⟩
    | mdnsDiscovered => exact Or.inr ⟨_, rfl, .mdnsDiscovered⟩
    | mdnsExpired => exact Or.inr ⟨_, rfl, .mdnsExpired⟩
    | identifyReceived => exact Or.inr ⟨_, rfl, .identified⟩
    | autonatStatusChanged => exact Or.inr ⟨_, rfl, .natStatus⟩
    | reservationReqAccepted => exact Or.inr ⟨_, rfl, .reservationAccepted⟩
    | other => exact Or.inl rfl

/-- Whatever a translated event is, it was told by the swarm event. -/
theorem tells_of_mem_translateSwarmEvent {env : Env} {bootstrapPeers : Finset PeerId}
    {ctx : ExecutionContext} {isConnected : PeerId → Bool} {event : SwarmEvent} {e : Event}
    (hevent : event.isConnection = false)
    (he : e ∈ (translateSwarmEvent env bootstrapPeers ctx isConnected event).1) :
    event.Tells e := by
  rcases translateSwarmEvent_tells env bootstrapPeers ctx isConnected event hevent with
    hnil | ⟨f, hone, hf⟩
  · rw [hnil] at he
    cases he
  · rw [hone] at he
    rwa [List.mem_singleton.mp he]

/-- A swarm event that is no new or lost connection leads to at most one event, an
ordinary one. -/
theorem translateSwarmEvent_ordinary (env : Env) (bootstrapPeers : Finset PeerId)
    (ctx : ExecutionContext) (isConnected : PeerId → Bool) (event : SwarmEvent)
    (hevent : event.isConnection = false) :
    (translateSwarmEvent env bootstrapPeers ctx isConnected event).1 = [] ∨
    ∃ e, (translateSwarmEvent env bootstrapPeers ctx isConnected event).1 = [e] ∧
      e.ordinary = true := by
  rcases translateSwarmEvent_tells env bootstrapPeers ctx isConnected event hevent with
    hnil | ⟨e, hone, htells⟩
  · exact Or.inl hnil
  · exact Or.inr ⟨e, hone, by cases htells <;> rfl⟩

/-- Translated events are no attempts. -/
theorem translateSwarmEvent_attempts (env : Env) (bootstrapPeers : Finset PeerId)
    (ctx : ExecutionContext) (isConnected : PeerId → Bool) (event : SwarmEvent) :
    ∀ e ∈ (translateSwarmEvent env bootstrapPeers ctx isConnected event).1,
      e.failedAttempt = none ∧ ∀ q a, e ≠ .holePunchAttemptStarted q a := by
  intro e he
  cases hevent : event.isConnection with
  | false =>
    cases tells_of_mem_translateSwarmEvent hevent he <;> exact ⟨rfl, fun q a heq => by cases heq⟩
  | true =>
    cases event with
    | connectionEstablished q id endpoint =>
      rcases List.mem_append.mp he with he | he
      · split at he
        · rw [List.mem_singleton.mp he]
          exact ⟨rfl, fun _ _ heq => by cases heq⟩
        · cases he
      · rw [List.mem_singleton.mp he]
        exact ⟨rfl, fun _ _ heq => by cases heq⟩
    | connectionClosed => cases he
    | _ => cases hevent

/-- Synthetic events are no failed attempts. -/
theorem Booked.failedAttempt {c d : ConnectionStateMachine} {t : TunnelState} {event : SwarmEvent}
    {synthetic : List Event} (h : Booked c t event d synthetic) :
    ∀ e ∈ synthetic, e.failedAttempt = none := by
  intro e he
  cases h with
  | relayedStarted =>
    rw [List.mem_singleton.mp he]
    rfl
  | closed =>
    rw [List.mem_singleton.mp he]
    rfl
  | _ => cases he

/-- A prepared event list reports no failed attempt. -/
theorem NodeState.Prepared.failedAttempt {Sw : Type} {cfg : NodeConfig} {env : Env}
    {n : NodeState Sw} {event : SwarmEvent} {r : NodeState Sw × List Event × List Delivery}
    (h : Prepared cfg env n event r) : ∀ e ∈ r.2.1, e.failedAttempt = none := by
  obtain ⟨synthetic, ctx, isConnected, hbooked, hevents⟩ := h.booked
  intro e he
  rw [hevents] at he
  rcases List.mem_append.mp he with he | he
  · exact hbooked.failedAttempt e he
  · exact (translateSwarmEvent_attempts env cfg.bootstrapPeerIds ctx isConnected event e he).1

end Punchgate
