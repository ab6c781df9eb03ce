import Punchgate.Node.Operations
import Mathlib.Data.Set.Insert

/-!
# External addresses

Four records speak of the external addresses of the node. The swarm has a set of them. The loop
keeps, for each public IP, the confirmed address and the one its bootstrap peers observed. The
peer machine keeps those it was told of, and readiness rests on them. When the loop replaces the
address of a public IP, it withdraws the former one from the swarm. The swarm does not report
that, and nothing else tells the peer machine. This file says exactly when the peer machine is
left with an address that the swarm no longer has.
-/

namespace Punchgate

/-- The external addresses of a swarm change by the requests to add and to remove one, and by no
other operation. -/
structure SwarmApi.TracksExternal {Sw : Type} (api : SwarmApi Sw)
    (external : Sw → Set Multiaddr) : Prop where
  /-- An address can be added. -/
  added : ∀ sw addr, external (api.request sw (.addExternalAddress addr)) =
    insert addr (external sw)
  /-- An address can be removed. -/
  removed : ∀ sw addr, external (api.request sw (.removeExternalAddress addr)) =
    external sw \ {addr}
  /-- Other requests leave the addresses alone. -/
  requested : ∀ sw r, (∀ addr, r ≠ .addExternalAddress addr ∧ r ≠ .removeExternalAddress addr) →
    external (api.request sw r) = external sw
  /-- A dial leaves the addresses alone. -/
  dialed : ∀ sw opts, external (api.dial sw opts).1 = external sw
  /-- A bootstrap leaves the addresses alone. -/
  bootstrapped : ∀ sw, external (api.bootstrap sw).1 = external sw
  /-- A peer lookup leaves the addresses alone. -/
  lookedUp : ∀ sw peer, external (api.getClosestPeers sw peer).1 = external sw
  /-- A provider query leaves the addresses alone. -/
  queried : ∀ sw key, external (api.getProviders sw key).1 = external sw

/-- Between two passes, an address the swarm confirms has entered its set, and an address leaves
the set only by the expiry the swarm reports. -/
def ReportsExternal {Sw : Type} (external : Sw → Set Multiaddr) (n : NodeState Sw)
    (input : LoopInput Sw) : Prop :=
  match input.branch with
  | .swarmEvent (.externalAddrConfirmed addr) swarm _ => insert addr (external n.swarm) ⊆ external swarm
  | .swarmEvent (.externalAddrExpired addr) swarm _ => external n.swarm \ {addr} ⊆ external swarm
  | .swarmEvent _ swarm _ => external n.swarm ⊆ external swarm
  | _ => True

/-- An event that bears on the external addresses. -/
def Event.touchesExternal : Event → Bool
  | .externalAddrConfirmed _ | .externalAddrExpired _ | .peerIdentified _ _ _ => true
  | _ => false

/-- What a swarm event that bears on the external addresses tells the state machines. -/
def SwarmEvent.tellsExternal : SwarmEvent → Option Event
  | .externalAddrConfirmed addr => some (.externalAddrConfirmed addr)
  | .externalAddrExpired addr => some (.externalAddrExpired addr)
  | .behaviour (.identifyReceived peer addrs observed) => some (.peerIdentified peer addrs observed)
  | _ => none

/-- The address that another one replaces, of those kept for each public IP. -/
def replaced (byIp : FiniteMap IpAddr Multiaddr) (addr : Multiaddr) : Option Multiaddr :=
  (extractPublicIpPort addr).bind fun e => (byIp.get? e.1).filter fun previous => previous ≠ addr

/-- The addresses the peer machine holds after an event. -/
def heldAfter (held : Finset Multiaddr) : Event → Finset Multiaddr
  | .externalAddrConfirmed addr => insert addr held
  | .externalAddrExpired addr => held.erase addr
  | _ => held

namespace NodeState

variable {Sw : Type} (cfg : NodeConfig)

/-- The peer machine holds external addresses of the swarm only. -/
def HeldExternal (external : Sw → Set Multiaddr) (n : NodeState Sw) : Prop :=
  ∀ addr ∈ n.app.peer.externalAddrs, addr ∈ external n.swarm

/-- The address of a port mapping that the loop picks up. -/
def mapped (n : NodeState Sw) (probe : Option (Option (Ipv4Addr × UInt16))) : Option Multiaddr :=
  match n.portMapping, probe with
  | .running, some (some (ip, port)) => some ⟨[.ip4 ip, .udp port, .quicV1]⟩
  | _, _ => none

/-- The address that the one of a swarm event replaces. It is withdrawn, but a port mapping that
is picked up after a confirmation can add it again. -/
def withdraws (n : NodeState Sw) (probe : Option (Option (Ipv4Addr × UInt16))) :
    SwarmEvent → Option Multiaddr
  | .externalAddrConfirmed address =>
    (replaced n.confirmedExternalByIp address).filter fun previous => n.mapped probe ≠ some previous
  | .behaviour (.identifyReceived peer _ observed) =>
    if peer ∈ cfg.bootstrapPeerIds ∧ n.conn.hasRelayedConnection peer = false ∧
        isValidExternalCandidate observed = true then
      replaced n.bootstrapObservedExternalByIp observed
    else none
  | _ => none

/-- A pass withdraws no address that the peer machine holds. -/
def SparesHeld (n : NodeState Sw) (input : LoopInput Sw) : Prop :=
  match input.branch with
  | .swarmEvent event _ probe =>
    n.app.phase = .shuttingDown ∨
      ∀ addr ∈ n.withdraws cfg probe event, addr ∉ n.app.peer.externalAddrs
  | _ => True

instance (n : NodeState Sw) (input : LoopInput Sw) : Decidable (SparesHeld cfg n input) := by
  unfold SparesHeld
  split <;> infer_instance

end NodeState

/-! ## The peer machine -/

/-- A transition changes the held addresses by confirmations and expiries only. -/
theorem PeerState.transition_externalAddrs (env : Env) (s : PeerState) (e : Event) :
    (s.transition env e).1.externalAddrs = heldAfter s.externalAddrs e := by
  have hready (t : PeerState) : t.maybeBecomeReady.externalAddrs = t.externalAddrs := by
    unfold maybeBecomeReady
    split <;> rfl
  cases e with
  | kademliaBootstrapOk => exact hready { s with kadBootstrapped := true }
  | externalAddrConfirmed addr =>
    exact hready { s with externalAddrs := insert addr s.externalAddrs }
  | mdnsDiscovered peers =>
    obtain ⟨_, heq⟩ := foldl_addKnownAddr_same peers s
    have hheld := congrArg externalAddrs heq
    exact hheld
  | mdnsExpired peers =>
    obtain ⟨_, heq⟩ := foldl_expireKnownAddr_same peers s
    have hheld := congrArg externalAddrs heq
    exact hheld
  | natStatusChanged status =>
    simp only [transition, onNatStatusChanged]
    split <;> rfl
  | connectionLost peer remaining =>
    simp only [transition, onFullyDisconnected]
    split
    · split <;> rfl
    · rfl
  | discoveryTimeout =>
    simp only [transition]
    split <;> rfl
  | noBootstrapPeers =>
    simp only [transition]
    split <;> rfl
  | _ => rfl

/-- Only the events that bear on them change the held addresses. -/
theorem heldAfter_eq_self {held : Finset Multiaddr} {e : Event} (he : e.touchesExternal = false) :
    heldAfter held e = held := by
  cases e <;> first | rfl | cases he

namespace NodeState

variable {Sw : Type} {api : SwarmApi Sw} {external : Sw → Set Multiaddr} (cfg : NodeConfig)
  (env : Env)

/-! ## What leaves the addresses alone -/

/-- Commands leave the addresses of the swarm alone. -/
theorem executeCommands_external (htracks : api.TracksExternal external)
    (exposed : List ExposedService) (world : Sw × ExecutionContext) (cs : List Command) :
    external (executeCommands api exposed world cs).1 = external world.1 := by
  have hpublish (sw : Sw) : external (publishServices api exposed sw) = external sw := by
    refine List.foldlRecOn exposed _ (motive := fun sw' => external sw' = external sw) rfl
      fun sw' hsw' svc _ => ?_
    rw [htracks.requested _ _ (by simp), htracks.requested _ _ (by simp), hsw']
  refine List.foldlRecOn cs (executeCommand api exposed)
    (motive := fun world' => external world'.1 = external world.1) rfl fun world' h c _ => ?_
  cases c with
  | kademliaBootstrap => exact (htracks.bootstrapped _).trans h
  | kademliaAddAddress => exact (htracks.requested _ _ (by simp)).trans h
  | requestRelayReservation => exact (htracks.requested _ _ (by simp)).trans h
  | publishServices => exact (hpublish _).trans h
  | shutdown => exact h
  | dhtLookupPeer => exact (htracks.lookedUp _ _).trans h
  | dhtGetProviders => exact (htracks.queried _ _).trans h
  | dialPeer => exact (htracks.dialed _ _).trans h
  | dialPeerWithAddrs => exact (htracks.dialed _ _).trans h
  | disconnectPeer => exact (htracks.requested _ _ (by simp)).trans h
  | spawnTunnel => exact h

/-- The swarm has the same external addresses, and the peer machine holds the same. -/
def SameExternal (external : Sw → Set Multiaddr) (n m : NodeState Sw) : Prop :=
  external m.swarm = external n.swarm ∧ m.app.peer.externalAddrs = n.app.peer.externalAddrs

theorem SameExternal.refl (n : NodeState Sw) : SameExternal external n n := ⟨rfl, rfl⟩

theorem SameExternal.trans {n m l : NodeState Sw} (h : SameExternal external n m)
    (h' : SameExternal external m l) : SameExternal external n l :=
  ⟨h'.1.trans h.1, h'.2.trans h.2⟩

/-- A delivery leaves the addresses of the swarm alone. -/
theorem deliver_external (htracks : api.TracksExternal external) (source : DeliverySource)
    (n : NodeState Sw) (e : Event) :
    external (deliver api cfg env source n e).1.swarm = external n.swarm ∧
      (deliver api cfg env source n e).1.app.peer.externalAddrs =
        heldAfter n.app.peer.externalAddrs e :=
  ⟨executeCommands_external htracks cfg.exposed _ _,
    n.app.peer.transition_externalAddrs env e⟩

/-- Arming changes nothing about the addresses. -/
theorem arm_sameExternal (htracks : api.TracksExternal external) (n : NodeState Sw) :
    SameExternal external n (n.armHolePunchForTunnelTargets api cfg env).1 := by
  unfold armHolePunchForTunnelTargets
  split
  · exact .refl n
  · refine List.foldlRecOn (n.app.tunnel.holepunchTargetPeers env) (armPeer api cfg env)
      (motive := fun acc => SameExternal external n acc.1) (b := (n, [])) (.refl n)
      fun acc hacc q _ => ?_
    unfold armPeer
    split
    · exact hacc
    · rename_i conn a _
      exact hacc.trans (deliver_external cfg env htracks .arming { acc.1 with conn := conn }
        (.holePunchAttemptStarted q a))

/-- Only identify messages are observed. -/
theorem observeIdentify_eq_self (n : NodeState Sw) {e : Event} (he : e.touchesExternal = false) :
    n.observeIdentify api cfg e = n := by
  cases e <;> first | rfl | cases he

/-- An event is taken for another one only if neither bears on the addresses. -/
theorem attributeFailure_touchesExternal {conn : ConnectionStateMachine} {e e' : Event}
    (h : attributeFailure conn e = some e') :
    e' = e ∨ (e'.touchesExternal = false ∧ e.touchesExternal = false) := by
  cases e with
  | holePunchFailed q reason =>
    obtain ⟨_, _, rfl⟩ := Option.map_eq_some_iff.mp h
    exact Or.inr ⟨rfl, rfl⟩
  | holePunchAttemptFailed q a reason =>
    simp only [attributeFailure] at h
    split at h
    · split at h <;> cases h
      exact Or.inl rfl
    · cases h
      exact Or.inl rfl
  | _ =>
    cases h
    exact Or.inl rfl

/-- Feeding an event changes the addresses as observing it and telling it to the peer machine
do. -/
theorem feed_external (htracks : api.TracksExternal external) (n : NodeState Sw) (e : Event) :
    external (n.feed api cfg env e).1.swarm = external (n.observeIdentify api cfg e).swarm ∧
      (n.feed api cfg env e).1.app.peer.externalAddrs =
        heldAfter n.app.peer.externalAddrs e := by
  have htold (e' : Event) (he' : attributeFailure n.conn e = some e')
      (hobserve : n.observeIdentify api cfg e' = n.observeIdentify api cfg e)
      (hheld : heldAfter n.app.peer.externalAddrs e' = heldAfter n.app.peer.externalAddrs e) :
      external (n.feed api cfg env e).1.swarm = external (n.observeIdentify api cfg e).swarm ∧
        (n.feed api cfg env e).1.app.peer.externalAddrs =
          heldAfter n.app.peer.externalAddrs e := by
    have hdeliver := deliver_external cfg env htracks .eventList (n.observeIdentify api cfg e') e'
    have harm := arm_sameExternal cfg env htracks
      (deliver api cfg env .eventList (n.observeIdentify api cfg e') e').1
    rw [hobserve] at hdeliver harm
    rw [(observeIdentify_frame api cfg n e).2, hheld] at hdeliver
    unfold feed
    rw [he']
    dsimp only
    rw [hobserve]
    exact ⟨harm.1.trans hdeliver.1, harm.2.trans hdeliver.2⟩
  cases hattribute : attributeFailure n.conn e with
  | none =>
    unfold feed
    rw [hattribute]
    cases e <;> first | exact ⟨rfl, rfl⟩ | cases hattribute
  | some e' =>
    rcases attributeFailure_touchesExternal hattribute with rfl | ⟨he', he⟩
    · exact htold e' hattribute rfl rfl
    · refine htold e' hattribute ?_ ((heldAfter_eq_self he').trans (heldAfter_eq_self he).symm)
      rw [observeIdentify_eq_self cfg n he', observeIdentify_eq_self cfg n he]

/-- Feeding events that do not bear on them leaves the addresses alone. -/
theorem feedAll_sameExternal (htracks : api.TracksExternal external) {es : List Event}
    (hes : ∀ e ∈ es, e.touchesExternal = false) (n : NodeState Sw) :
    SameExternal external n (n.feedAll api cfg env es).1 := by
  induction es generalizing n with
  | nil => exact .refl n
  | cons e es ih =>
    have he := hes e (List.mem_cons_self ..)
    have hfeed := feed_external cfg env htracks n e
    rw [observeIdentify_eq_self cfg n he, heldAfter_eq_self he] at hfeed
    unfold feedAll
    dsimp only
    split
    · exact hfeed
    · exact SameExternal.trans hfeed (ih (fun e he => hes e (List.mem_cons_of_mem _ he)) _)

/-- The hole-punch timer leaves the addresses alone. -/
theorem onHolePunchTimer_sameExternal (htracks : api.TracksExternal external) (n : NodeState Sw) :
    SameExternal external n (n.onHolePunchTimer api cfg env).1 := by
  have hstart : SameExternal external n
      { n with conn := (n.conn.takeDueHolePunchTimeouts env env.now).1 } := ⟨rfl, rfl⟩
  unfold onHolePunchTimer
  refine List.foldlRecOn (n.conn.takeDueHolePunchTimeouts env env.now).2 (expireAttempt api cfg env)
    (motive := fun acc => SameExternal external n acc.1) (b := (_, [])) hstart
    fun acc hacc due _ => ?_
  unfold expireAttempt
  split
  · exact hacc.trans (deliver_external cfg env htracks .holePunchTimer acc.1
      (.holePunchAttemptTimeout due.1 due.2))
  · exact hacc

/-- Reconnects leave the addresses alone. -/
theorem onReconnectTimer_sameExternal (htracks : api.TracksExternal external) (n : NodeState Sw) :
    SameExternal external n (n.onReconnectTimer api env) := by
  obtain ⟨swarm, hswarm, _, _, heq⟩ := onReconnectTimer_same api env
    (R := fun a b => external b = external a) (fun _ => rfl) (fun h h' => h'.trans h)
    (fun sw addr => htracks.dialed sw (.address addr)) n
  rw [heq]
  exact ⟨hswarm, rfl⟩

/-- Picking up the port mapping adds its address. -/
theorem pollPortMapping_external (htracks : api.TracksExternal external) (n : NodeState Sw)
    (probe : Option (Option (Ipv4Addr × UInt16))) :
    (∀ addr, addr ∈ external (n.pollPortMapping api cfg env probe).1.swarm ↔
        n.mapped probe = some addr ∨ addr ∈ external n.swarm) ∧
      (n.pollPortMapping api cfg env probe).1.app.peer.externalAddrs =
        n.app.peer.externalAddrs := by
  unfold pollPortMapping mapped
  split
  · exact ⟨fun addr => by simp, rfl⟩
  · rename_i ip port heq
    rw [heq]
    have hdeliver := deliver_external cfg env htracks .portMapping { n with
      portMapping := .finished
      swarm := api.request n.swarm (.addExternalAddress ⟨[.ip4 ip, .udp port, .quicV1]⟩) }
      (.natStatusChanged .isPublic)
    refine ⟨fun addr => ?_, hdeliver.2⟩
    dsimp only
    rw [hdeliver.1, htracks.added, Set.mem_insert_iff]
    simp [eq_comm]
  · rename_i hnone
    refine ⟨fun addr => ?_, rfl⟩
    split
    · rename_i ip port heq _
      exact absurd rfl (hnone ip port heq)
    · simp

/-- Bookkeeping of a confirmed address withdraws the one it replaces. -/
theorem trackExternalAddrs_external (htracks : api.TracksExternal external) (n : NodeState Sw)
    (address addr : Multiaddr) :
    addr ∈ external (n.trackExternalAddrs api (.externalAddrConfirmed address)).swarm ↔
      addr ∈ external n.swarm ∧ replaced n.confirmedExternalByIp address ≠ some addr := by
  simp only [trackExternalAddrs, replaced]
  cases extractPublicIpPort address with
  | none => simp
  | some e =>
    dsimp only [Option.bind_some]
    cases n.confirmedExternalByIp.get? e.1 with
    | none => simp
    | some previous =>
      by_cases hne : previous = address
      · simp [hne, Option.filter]
      · simp [hne, Option.filter, htracks.removed, eq_comm]

/-- An adopted observation withdraws the one it replaces. -/
theorem adoptObservation_external (htracks : api.TracksExternal external) (n : NodeState Sw)
    {e : IpAddr × UInt16} {observed : Multiaddr} (he : extractPublicIpPort observed = some e)
    {addr : Multiaddr} (haddr : addr ∈ external n.swarm) :
    addr ∈ external (n.adoptObservation api e.1 observed).swarm ↔
      replaced n.bootstrapObservedExternalByIp observed ≠ some addr := by
  have hcandidate (sw : Sw) : external (api.request sw (.newExternalAddrCandidate observed)) =
      external sw := htracks.requested _ _ (by simp)
  simp only [adoptObservation, replaced, he, Option.bind_some]
  cases n.bootstrapObservedExternalByIp.get? e.1 with
  | none => simp [hcandidate, htracks.added, haddr]
  | some previous =>
    by_cases hne : previous = observed
    · simp [hne, Option.filter, haddr]
    · by_cases hprevious : previous = addr
      · subst hprevious
        simp [hne, Option.filter, hcandidate, htracks.added, htracks.removed]
      · simp [hne, Option.filter, hcandidate, htracks.added, htracks.removed, haddr, hprevious,
          Ne.symm hprevious]

/-- Observing an identify message withdraws what the observation replaces. -/
theorem observeIdentify_external (htracks : api.TracksExternal external) (n : NodeState Sw)
    (peer : PeerId) (addrs : List Multiaddr) (observed : Multiaddr)
    (probe : Option (Option (Ipv4Addr × UInt16))) {addr : Multiaddr}
    (haddr : addr ∈ external n.swarm) :
    addr ∈ external (n.observeIdentify api cfg (.peerIdentified peer addrs observed)).swarm ↔
      n.withdraws cfg probe (.behaviour (.identifyReceived peer addrs observed)) ≠ some addr := by
  have hfirst (m : NodeState Sw) (hm : m = if cfg.bootstrapPeerIds = ∅ then
      { n with swarm := api.request n.swarm (.addExternalAddress observed) } else n) :
      m.conn = n.conn ∧ m.bootstrapObservedExternalByIp = n.bootstrapObservedExternalByIp ∧
        addr ∈ external m.swarm := by
    subst hm
    split
    · refine ⟨rfl, rfl, ?_⟩
      rw [htracks.added]
      exact Set.mem_insert_of_mem _ haddr
    · exact ⟨rfl, rfl, haddr⟩
  unfold observeIdentify withdraws
  dsimp only
  generalize hm : (if cfg.bootstrapPeerIds = ∅ then
    { n with swarm := api.request n.swarm (.addExternalAddress observed) } else n) = m
  obtain ⟨hconn, hobserved, hmem⟩ := hfirst m hm.symm
  rw [hconn]
  split
  · cases hip : extractPublicIpPort observed with
    | none => simp [replaced, hip, hmem]
    | some e =>
      rw [← hobserved]
      exact adoptObservation_external htracks m hip hmem
  · simp [hmem]

/-- The translation of an event that does not bear on the addresses does not either. -/
theorem translate_touchesExternal (bootstrapPeers : Finset PeerId) (ctx : ExecutionContext)
    (isConnected : PeerId → Bool) {event : SwarmEvent} (hevent : event.tellsExternal = none) :
    ∀ e ∈ (translateSwarmEvent env bootstrapPeers ctx isConnected event).1,
      e.touchesExternal = false := by
  intro e he
  cases hconnection : event.isConnection with
  | false => cases tells_of_mem_translateSwarmEvent hconnection he <;> first | rfl | cases hevent
  | true =>
    cases event with
    | connectionEstablished q id endpoint =>
      rcases List.mem_append.mp he with he | he
      · split at he
        · rw [List.mem_singleton.mp he]
          rfl
        · cases he
      · rw [List.mem_singleton.mp he]
        rfl
    | connectionClosed => cases he
    | _ => cases hconnection

/-- The bookkeeping of connections leaves the addresses alone. -/
theorem bookkeep_sameExternal (htracks : api.TracksExternal external) (n : NodeState Sw)
    (event : SwarmEvent) :
    SameExternal external n (n.bookkeep api cfg env event).1 ∧
      ∀ e ∈ (n.bookkeep api cfg env event).2.1, e.touchesExternal = false := by
  refine ⟨⟨?_, congrArg (fun a => a.peer.externalAddrs) (bookkeep_app api cfg env n event)⟩, ?_⟩
  · cases event with
    | connectionEstablished q id endpoint =>
      refine List.foldlRecOn _ _ (motive := fun sw => external sw = external n.swarm) rfl
        fun sw hsw id _ => ?_
      rw [htracks.requested _ _ (by simp), hsw]
    | dialing peer id => cases peer <;> rfl
    | _ => rfl
  · have hbooked := bookkeep_booked api cfg env n event
    generalize (n.bookkeep api cfg env event).2.1 = synthetic at hbooked ⊢
    cases hbooked <;> simp [Event.touchesExternal]

/-- Preparing an event that does not bear on them takes no address from the swarm, and leaves such
events only. -/
theorem prepare_external (htracks : api.TracksExternal external) (n : NodeState Sw)
    {event : SwarmEvent} (hevent : event.tellsExternal = none)
    (probe : Option (Option (Ipv4Addr × UInt16))) :
    external n.swarm ⊆ external (n.prepare api cfg env event probe).1.swarm ∧
      (n.prepare api cfg env event probe).1.app.peer.externalAddrs = n.app.peer.externalAddrs ∧
      ∀ e ∈ (n.prepare api cfg env event probe).2.1, e.touchesExternal = false := by
  unfold prepare
  dsimp only
  have hspawn : SameExternal external n (n.spawnPortMapping cfg event) := by
    obtain ⟨_, heq⟩ := spawnPortMapping_same cfg n event
    rw [heq]
    exact .refl n
  generalize n.spawnPortMapping cfg event = m at hspawn ⊢
  obtain ⟨hbook, hsynthetic⟩ := bookkeep_sameExternal cfg env htracks m event
  generalize m.bookkeep api cfg env event = b at hbook hsynthetic ⊢
  have hboot : SameExternal external b.1 (b.1.trackBootstrap api cfg env event b.2.2) := by
    obtain ⟨_, _, heq⟩ := trackBootstrap_same api cfg env b.1 event b.2.2
    rw [heq]
    exact .refl b.1
  generalize b.1.trackBootstrap api cfg env event b.2.2 = t at hboot ⊢
  have haddrs : t.trackExternalAddrs api event = t := by
    cases event <;> first | rfl | cases hevent
  rw [haddrs]
  obtain ⟨hmapped, hheld⟩ := pollPortMapping_external cfg env htracks t probe
  have hsame := (hspawn.trans hbook).trans hboot
  refine ⟨fun addr haddr => (hmapped addr).mpr (Or.inr ?_), hheld.trans hsame.2, fun e he => ?_⟩
  · rw [hsame.1]
    exact haddr
  · rcases List.mem_append.mp he with he | he
    · exact hsynthetic e he
    · exact translate_touchesExternal env _ _ _ hevent e he

/-- A pass that serves no event about them takes no address from the swarm, and the peer machine
holds the same. -/
theorem onSwarmEvent_external (htracks : api.TracksExternal external) (n : NodeState Sw)
    {event : SwarmEvent} (hevent : event.tellsExternal = none) (swarm : Sw)
    (probe : Option (Option (Ipv4Addr × UInt16))) :
    external swarm ⊆ external (n.onSwarmEvent api cfg env event swarm probe).1.swarm ∧
      (n.onSwarmEvent api cfg env event swarm probe).1.app.peer.externalAddrs =
        n.app.peer.externalAddrs := by
  obtain ⟨hkept, hheld, hevents⟩ := prepare_external cfg env htracks { n with swarm := swarm }
    hevent probe
  have hfed := feedAll_sameExternal cfg env htracks hevents
    (prepare api cfg env { n with swarm := swarm } event probe).1
  exact ⟨hkept.trans hfed.1.symm.subset, hfed.2.trans hheld⟩

/-- Preparing an event that bears on the addresses tracks them and picks up the port mapping. -/
theorem prepare_told (htracks : api.TracksExternal external) (n : NodeState Sw)
    {event : SwarmEvent} {e : Event} (hevent : event.tellsExternal = some e)
    (probe : Option (Option (Ipv4Addr × UInt16))) :
    let m := (n.prepare api cfg env event probe).1
    (n.prepare api cfg env event probe).2.1 = [e] ∧
      m.app.peer.externalAddrs = n.app.peer.externalAddrs ∧ m.conn = n.conn ∧
      m.bootstrapObservedExternalByIp = n.bootstrapObservedExternalByIp ∧
      ∀ addr, addr ∈ external m.swarm ↔
        n.mapped probe = some addr ∨ addr ∈ external (n.trackExternalAddrs api event).swarm := by
  have hpoll (m : NodeState Sw) : (m.pollPortMapping api cfg env probe).1.conn = m.conn ∧
      (m.pollPortMapping api cfg env probe).1.bootstrapObservedExternalByIp =
        m.bootstrapObservedExternalByIp := by
    unfold pollPortMapping
    split <;> exact ⟨rfl, rfl⟩
  obtain ⟨sw, confirmed, -, heq⟩ := trackExternalAddrs_same api n event
  obtain ⟨hmapped, hheld⟩ := pollPortMapping_external cfg env htracks
    (n.trackExternalAddrs api event) probe
  obtain ⟨hconn, hobserved⟩ := hpoll (n.trackExternalAddrs api event)
  have hsame : (n.trackExternalAddrs api event).mapped probe = n.mapped probe := by
    rw [heq]
    rfl
  rw [hsame] at hmapped
  have hheld' : (n.trackExternalAddrs api event).app = n.app := by rw [heq]
  have hconn' : (n.trackExternalAddrs api event).conn = n.conn := by rw [heq]
  have hobserved' : (n.trackExternalAddrs api event).bootstrapObservedExternalByIp =
      n.bootstrapObservedExternalByIp := by rw [heq]
  rw [hheld'] at hheld
  rw [hconn'] at hconn
  rw [hobserved'] at hobserved
  cases event with
  | externalAddrConfirmed address =>
    cases hevent
    exact ⟨rfl, hheld, hconn, hobserved, hmapped⟩
  | externalAddrExpired address =>
    cases hevent
    exact ⟨rfl, hheld, hconn, hobserved, hmapped⟩
  | behaviour event =>
    cases event with
    | identifyReceived peer addrs observed =>
      cases hevent
      exact ⟨rfl, hheld, hconn, hobserved, hmapped⟩
    | _ => cases hevent
  | _ => cases hevent

/-- A pass that serves an event about them withdraws what the confirmed address or the observation
replaces, and tells the peer machine of the event. -/
theorem onSwarmEvent_told (htracks : api.TracksExternal external) (n : NodeState Sw)
    {event : SwarmEvent} {e : Event} (hevent : event.tellsExternal = some e) (swarm : Sw)
    (probe : Option (Option (Ipv4Addr × UInt16))) :
    (∀ addr ∈ external swarm,
      (addr ∈ external (n.onSwarmEvent api cfg env event swarm probe).1.swarm ↔
        n.withdraws cfg probe event ≠ some addr)) ∧
      (n.onSwarmEvent api cfg env event swarm probe).1.app.peer.externalAddrs =
        heldAfter n.app.peer.externalAddrs e := by
  obtain ⟨hevents, hheld, hconn, hobserved, hswarm⟩ := prepare_told cfg env htracks
    { n with swarm := swarm } hevent probe
  have hfeed := feed_external cfg env htracks
    (prepare api cfg env { n with swarm := swarm } event probe).1 e
  have hpass : (n.onSwarmEvent api cfg env event swarm probe).1 =
      ((prepare api cfg env { n with swarm := swarm } event probe).1.feed api cfg env e).1 := by
    rw [← feedAll_singleton, ← hevents]
    rfl
  rw [hpass, hfeed.1, hfeed.2, hheld]
  refine ⟨fun addr haddr => ?_, rfl⟩
  cases event with
  | externalAddrConfirmed address =>
    cases hevent
    refine (hswarm addr).trans ?_
    rw [trackExternalAddrs_external htracks]
    change n.mapped probe = some addr ∨ addr ∈ external swarm ∧ _ ↔
      (replaced n.confirmedExternalByIp address).filter _ ≠ some addr
    rw [and_iff_right haddr, Ne, Ne, Option.filter_eq_some_iff, decide_eq_true_eq, not_and,
      not_not, imp_iff_not_or, or_comm]
  | externalAddrExpired address =>
    cases hevent
    have hsame (m : NodeState Sw) :
        (m.trackExternalAddrs api (.externalAddrExpired address)).swarm = m.swarm := by
      unfold trackExternalAddrs
      dsimp only
      split
      · split <;> rfl
      · rfl
    refine iff_of_true ((hswarm addr).mpr (Or.inr ?_)) (by simp [withdraws])
    rw [hsame]
    exact haddr
  | behaviour event =>
    cases event with
    | identifyReceived peer addrs observed =>
      cases hevent
      rw [observeIdentify_external cfg htracks _ peer addrs observed probe
        ((hswarm addr).mpr (Or.inr haddr))]
      unfold withdraws
      dsimp only
      rw [hconn, hobserved]
    | _ => cases hevent
  | _ => cases hevent

/-- Other events withdraw nothing. -/
theorem withdraws_eq_none (n : NodeState Sw) {event : SwarmEvent}
    (hevent : event.tellsExternal = none) {probe : Option (Option (Ipv4Addr × UInt16))} :
    n.withdraws cfg probe event = none := by
  cases event with
  | behaviour event => cases event <;> first | rfl | cases hevent
  | _ => first | rfl | cases hevent

/-- An address that is withdrawn is held after the event if it was held before. -/
theorem mem_heldAfter_of_withdraws (n : NodeState Sw) {event : SwarmEvent} {e : Event}
    (hevent : event.tellsExternal = some e) {probe : Option (Option (Ipv4Addr × UInt16))}
    {addr : Multiaddr} (haddr : n.withdraws cfg probe event = some addr) :
    addr ∈ heldAfter n.app.peer.externalAddrs e ↔ addr ∈ n.app.peer.externalAddrs := by
  cases event with
  | externalAddrConfirmed address =>
    cases hevent
    obtain ⟨hreplaced, _⟩ := Option.filter_eq_some_iff.mp haddr
    obtain ⟨e, _, hprevious⟩ := Option.bind_eq_some_iff.mp hreplaced
    have hne : addr ≠ address := of_decide_eq_true (Option.filter_eq_some_iff.mp hprevious).2
    exact Finset.mem_insert.trans (or_iff_right hne)
  | externalAddrExpired address => cases haddr
  | behaviour event =>
    cases event with
    | identifyReceived =>
      cases hevent
      exact Iff.rfl
    | _ => cases hevent
  | _ => cases hevent

/-- What the peer machine is told to hold is in the set of the swarm by then. -/
theorem heldAfter_subset {n : NodeState Sw} {input : LoopInput Sw} {event : SwarmEvent} {e : Event}
    {swarm : Sw} {probe : Option (Option (Ipv4Addr × UInt16))} (h : n.HeldExternal external)
    (hevent : event.tellsExternal = some e) (hbranch : input.branch = .swarmEvent event swarm probe)
    (hreports : ReportsExternal external n input) :
    ∀ addr ∈ heldAfter n.app.peer.externalAddrs e, addr ∈ external swarm := by
  intro addr haddr
  unfold ReportsExternal at hreports
  rw [hbranch] at hreports
  cases event with
  | externalAddrConfirmed address =>
    cases hevent
    refine hreports ?_
    rcases Finset.mem_insert.mp haddr with rfl | haddr
    · exact Set.mem_insert _ _
    · exact Set.mem_insert_of_mem _ (h addr haddr)
  | externalAddrExpired address =>
    cases hevent
    obtain ⟨hne, hmem⟩ := Finset.mem_erase.mp haddr
    exact hreports ⟨h addr hmem, hne⟩
  | behaviour event =>
    have hgrown : external n.swarm ⊆ external swarm := hreports
    cases event with
    | identifyReceived =>
      cases hevent
      exact hgrown (h addr haddr)
    | _ => cases hevent
  | _ => cases hevent

/-- **Step.** A pass from a state in which the peer machine holds external addresses only leads to
such a state exactly if it withdraws no address that the peer machine holds. -/
theorem heldExternal_step_iff (htracks : api.TracksExternal external) (n : NodeState Sw)
    (input : LoopInput Sw) (h : n.HeldExternal external)
    (hreports : ReportsExternal external n input) :
    ((nodeLoop api cfg).step n input).1.HeldExternal external ↔ n.SparesHeld cfg input := by
  have hkept {m : NodeState Sw} (hsame : SameExternal external n m) : m.HeldExternal external := by
    intro addr haddr
    rw [hsame.1]
    rw [hsame.2] at haddr
    exact h addr haddr
  change (n.pass api cfg input.env input.branch).1.HeldExternal external ↔ _
  unfold SparesHeld pass
  by_cases hphase : n.app.phase = .shuttingDown
  · rw [if_pos hphase]
    refine iff_of_true h ?_
    cases input.branch <;> first | exact trivial | exact Or.inl hphase
  · rw [if_neg hphase]
    cases hbranch : input.branch with
    | swarmEvent event swarm probe =>
      dsimp only
      rw [or_iff_right hphase]
      cases htells : event.tellsExternal with
      | none =>
        obtain ⟨hswarm, hheld⟩ := onSwarmEvent_external cfg input.env htracks n htells swarm probe
        have hgrown : external n.swarm ⊆ external swarm := by
          unfold ReportsExternal at hreports
          rw [hbranch] at hreports
          cases event with
          | externalAddrConfirmed => cases htells
          | externalAddrExpired => cases htells
          | _ => exact hreports
        refine iff_of_true (fun addr haddr => hswarm (hgrown (h addr ?_))) ?_
        · rw [← hheld]
          exact haddr
        · rw [withdraws_eq_none cfg n htells]
          exact fun addr haddr => by cases haddr
      | some e =>
        obtain ⟨hswarm, hheld⟩ := onSwarmEvent_told cfg input.env htracks n htells swarm probe
        have hreported := heldAfter_subset h htells hbranch hreports
        have hwithdrawn {addr : Multiaddr} (haddr : n.withdraws cfg probe event = some addr) :=
          mem_heldAfter_of_withdraws cfg n htells haddr
        unfold HeldExternal
        rw [hheld]
        constructor
        · intro hafter addr haddr hmem
          have hmem' := (hwithdrawn haddr).mpr hmem
          exact (hswarm addr (hreported addr hmem')).mp (hafter addr hmem') haddr
        · intro hspared addr hmem
          refine (hswarm addr (hreported addr hmem)).mpr fun haddr => ?_
          exact hspared addr haddr ((hwithdrawn haddr).mp hmem)
    | discoveryDeadline =>
      refine iff_of_true ?_ trivial
      dsimp only
      split
      · exact h
      · exact hkept (deliver_external cfg input.env htracks .discoveryDeadline
          { n with discoveryTimeoutFired := true } .discoveryTimeout)
    | reconnectTimer =>
      exact iff_of_true (hkept (onReconnectTimer_sameExternal input.env htracks n)) trivial
    | holePunchTimer =>
      exact iff_of_true (hkept (onHolePunchTimer_sameExternal cfg input.env htracks n)) trivial
    | shutdownSignal =>
      exact iff_of_true (hkept (deliver_external cfg input.env htracks .shutdownSignal n
        .shutdownRequested)) trivial

end NodeState

/-- **The peer machine holds external addresses only, exactly.** If the addresses of the swarm
change by the requests of the node and by what the swarm reports, the peer machine holds addresses
of the swarm only in every state of a run if and only if no pass withdraws an address that the
peer machine holds. -/
theorem held_external_iff {Sw : Type} {api : SwarmApi Sw} {external : Sw → Set Multiaddr}
    (htracks : api.TracksExternal external) (cfg : NodeConfig) (env : Env)
    (natMapping : NatMapping) (swarm : Sw) {inputs : List (LoopInput Sw)}
    (hreports : (nodeLoop api cfg).Guarded (ReportsExternal external)
      (.start api cfg env natMapping swarm) inputs) :
    (nodeLoop api cfg).Always (NodeState.HeldExternal external)
        (.start api cfg env natMapping swarm) inputs ↔
      (nodeLoop api cfg).Guarded (NodeState.SparesHeld cfg)
        (.start api cfg env natMapping swarm) inputs := by
  have hstart : (NodeState.start api cfg env natMapping swarm).HeldExternal external := by
    intro addr haddr
    unfold NodeState.start at haddr
    rw [(NodeState.deliver_external cfg env htracks _ _ _).2] at haddr
    split at haddr <;> cases haddr
  exact hreports.always_iff (J := fun _ => True) trivial hstart (fun _ _ _ _ => trivial)
    fun n input _ hn hinput => NodeState.heldExternal_step_iff cfg htracks n input hn hinput

/-- A swarm that is its set of external addresses. -/
def addressApi : SwarmApi (Finset Multiaddr) where
  isConnected _ _ := false
  dial addrs _ := (addrs, .ok ())
  bootstrap addrs := (addrs, none)
  getClosestPeers addrs _ := (addrs, ⟨0⟩)
  getProviders addrs _ := (addrs, ⟨0⟩)
  request addrs
    | .addExternalAddress addr => insert addr addrs
    | .removeExternalAddress addr => addrs.erase addr
    | _ => addrs

/-- The external addresses of such a swarm. -/
def listed (addrs : Finset Multiaddr) : Set Multiaddr := ↑addrs

/-- They change by requests only. -/
theorem addressApi_tracksExternal : addressApi.TracksExternal listed where
  added addrs addr := Finset.coe_insert addr addrs
  removed addrs addr := Finset.coe_erase addr addrs
  requested addrs r hr := by
    cases r with
    | addExternalAddress addr => exact absurd rfl (hr addr).1
    | removeExternalAddress addr => exact absurd rfl (hr addr).2
    | _ => rfl
  dialed _ _ := rfl
  bootstrapped _ := rfl
  lookedUp _ _ := rfl
  queried _ _ := rfl

instance (n : NodeState (Finset Multiaddr)) (input : LoopInput (Finset Multiaddr)) :
    Decidable (ReportsExternal listed n input) := by
  unfold ReportsExternal
  split
  · rename_i addr swarm _ _
    exact decidable_of_iff (insert addr n.swarm ⊆ swarm) (by
      rw [← Finset.coe_subset, Finset.coe_insert]
      rfl)
  · rename_i addr swarm _ _
    exact decidable_of_iff (n.swarm.erase addr ⊆ swarm) (by
      rw [← Finset.coe_subset, Finset.coe_erase]
      rfl)
  · rename_i swarm _ _ _ _
    exact decidable_of_iff (n.swarm ⊆ swarm) Finset.coe_subset.symm
  · infer_instance

/-- A node with the bootstrap peer 9. -/
def bootstrapConfig : NodeConfig where
  bootstrapAddrs := [⟨[.ip4 ⟨203, 0, 113, 9⟩, .udp 4001, .quicV1, .p2p ⟨9⟩]⟩]
  exposed := []
  tunnelSpecs := []
  tunnelByNameSpecs := []

/-- An address of the node at a given port. -/
def portAddr (port : UInt16) : Multiaddr := ⟨[.ip4 ⟨198, 51, 100, 7⟩, .udp port, .quicV1]⟩

/-- An address is confirmed and expires. -/
def expiredRun : List (LoopInput (Finset Multiaddr)) :=
  [⟨.sorted, .swarmEvent (.externalAddrConfirmed (portAddr 4001)) {portAddr 4001} none⟩,
    ⟨.sorted, .swarmEvent (.externalAddrExpired (portAddr 4001)) ∅ none⟩]

/-- The peer machine holds the address while the swarm has it. -/
theorem held_external_iff_expired :
    (nodeLoop addressApi bootstrapConfig).Always (NodeState.HeldExternal listed)
      (.start addressApi bootstrapConfig .sorted .unknown ∅) expiredRun :=
  (held_external_iff addressApi_tracksExternal bootstrapConfig .sorted .unknown ∅
    (by decide)).mpr (by decide)

/-- The port of the node changes: a second address of the same IP is confirmed. -/
def portChange : List (LoopInput (Finset Multiaddr)) :=
  [⟨.sorted, .swarmEvent (.externalAddrConfirmed (portAddr 4001)) {portAddr 4001} none⟩,
    ⟨.sorted, .swarmEvent (.externalAddrConfirmed (portAddr 4002))
      {portAddr 4001, portAddr 4002} none⟩]

/-- The former address is withdrawn from the swarm, and the peer machine still holds it. -/
theorem withdrawn_address_held :
    (nodeLoop addressApi bootstrapConfig).Guarded (ReportsExternal listed)
        (.start addressApi bootstrapConfig .sorted .unknown ∅) portChange ∧
      ¬(nodeLoop addressApi bootstrapConfig).Always (NodeState.HeldExternal listed)
        (.start addressApi bootstrapConfig .sorted .unknown ∅) portChange := by
  refine ⟨by decide, ?_⟩
  rintro ⟨_, _, hheld⟩
  have hmem := hheld (portAddr 4001) (by decide)
  have hgone : portAddr 4001 ∉ ((nodeLoop addressApi bootstrapConfig).after
    (.start addressApi bootstrapConfig .sorted .unknown ∅) portChange).swarm := by decide
  exact hgone hmem

end Punchgate
