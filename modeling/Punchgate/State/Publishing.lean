import Punchgate.State.Composition
import Punchgate.State.Service

/-!
# Publishing and lookups

The tunnel machine publishes the services of the node and starts its lookups when it is told
that the node has become ready. It is told so by an event of the composed machine's own, made
from a comparison of phases. Here is what this comes to: how often a step publishes, and which
lookups the step into readiness asks for.
-/

namespace Punchgate

/-- `AppState` as a Mealy machine: every input is an event together with the environment it is
processed in. -/
def AppState.machine : Mealy.Machine AppState (Env × Event) Command where
  step a i := a.transition i.1 i.2

/-- A configured node: its bootstrap peers and the requested tunnels. -/
def AppState.configured (peers : Finset PeerId) (calls : List ConfigCall) : AppState :=
  ⟨.withBootstrapPeers peers, .configured calls⟩

/-- An event comes from outside: only changes of phase do not. -/
def Event.isExternal : Event → Bool
  | .phaseChanged _ _ => false
  | _ => true

/-- An event accepts a relay reservation. -/
def Event.acceptsReservation : Event → Bool
  | .relayReservationAccepted _ => true
  | _ => false

/-- A command furthers a tunnel: a lookup, a dial, a disconnect or the tunnel itself. -/
def Command.servesTunnel : Command → Bool
  | .dhtLookupPeer _ | .dhtGetProviders _ _ | .dialPeer _ | .dialPeerWithAddrs _ _ _
  | .disconnectPeer _ | .spawnTunnel _ _ _ => true
  | _ => false

/-- A step takes the node into the ready phase. -/
def AppState.EntersReady (a : AppState) (i : Env × Event) : Prop :=
  a.phase ≠ .ready ∧ (a.transition i.1 i.2).1.phase = .ready

instance (a : AppState) (i : Env × Event) : Decidable (a.EntersReady i) :=
  inferInstanceAs (Decidable (_ ∧ _))

/-- What a step publishes and looks up, and in which order its commands come. -/
structure AppState.PublishesOnReadiness (a : AppState) (i : Env × Event) : Prop where
  /-- The services are published on entering the ready phase and for an accepted reservation. -/
  publishes : (a.transition i.1 i.2).2.count .publishServices =
    (if a.EntersReady i then 1 else 0) + if i.2.acceptsReservation = true then 1 else 0
  /-- Entering the ready phase leaves the intents where they are. -/
  intents : a.EntersReady i → (a.transition i.1 i.2).1.tunnel = a.tunnel
  /-- Entering the ready phase looks up every peer that intents wait for, once, and no other. -/
  lookups : a.EntersReady i → ∀ p, (a.transition i.1 i.2).2.count (.dhtLookupPeer p) =
    if p ∈ a.tunnel.pendingByPeer.keys then 1 else 0
  /-- Entering the ready phase asks once for the providers of every service that intents wait
  for, and of no other. -/
  queries : a.EntersReady i → ∀ svc key,
    (a.transition i.1 i.2).2.count (.dhtGetProviders svc key) =
      if svc ∈ a.tunnel.pendingByService.keys ∧ key = .forService svc then 1 else 0
  /-- The commands of the peer machine come before those of the tunnel machine. -/
  ordered : ∃ cs, (a.transition i.1 i.2).2 = (a.peer.transition i.1 i.2).2 ++ cs ∧
    (∀ c ∈ (a.peer.transition i.1 i.2).2, c.fromPeer = true) ∧ ∀ c ∈ cs, c.fromPeer = false

variable {env : Env} {c : Command}

/-! ## The commands of the tunnel machine -/

namespace TunnelState

variable {s : TunnelState} {e : Event}

/-- Opened tunnels serve tunnels. -/
theorem servesTunnel_of_mem_spawnTunnels {p : PeerId} {specs : List Intent}
    (h : c ∈ spawnTunnels p specs) : c.servesTunnel = true := by
  obtain ⟨spec, _, rfl⟩ := List.mem_map.mp h
  rfl

/-- A dial serves tunnels. -/
theorem servesTunnel_of_dials {p : PeerId} (h : c.dials p = true) : c.servesTunnel = true := by
  cases c <;> first | rfl | cases h

/-- Routing a connected peer opens tunnels at most. -/
theorem servesTunnel_of_mem_routeConnectedPeer {p : PeerId} {specs : List Intent}
    (h : c ∈ (s.routeConnectedPeer p specs).2) : c.servesTunnel = true := by
  unfold routeConnectedPeer at h
  split at h
  · cases h
  · exact servesTunnel_of_mem_spawnTunnels h

/-- The commands of a resolved service serve its tunnels. -/
theorem servesTunnel_of_mem_onDhtServiceResolved {svc : ServiceName}
    {providers : List (PeerId × Bool)} (h : c ∈ (s.onDhtServiceResolved svc providers).2) :
    c.servesTunnel = true := by
  unfold onDhtServiceResolved at h
  split at h
  · cases h
  · split at h
    · rw [List.mem_singleton.mp h]
      rfl
    · dsimp only at h
      split at h
      · exact servesTunnel_of_mem_routeConnectedPeer h
      · rw [List.mem_singleton.mp h]
        rfl

/-- The commands of a failed dial serve tunnels. -/
theorem servesTunnel_of_mem_onTunnelDialFailed {q : PeerId} {reason : String}
    (h : c ∈ (s.onTunnelDialFailed env q reason).2) : c.servesTunnel = true := by
  rcases s.onTunnelDialFailed_cases env q reason with ⟨_, heq⟩ | ⟨_, _, _, _, _, heq⟩ |
    ⟨_, _, _, _, _, _, hdials, heq⟩ | ⟨_, _, heq⟩
  · rw [heq] at h
    cases h
  · rw [heq] at h
    cases h
  · rw [heq] at h
    rw [List.mem_singleton.mp h]
    exact servesTunnel_of_dials hdials
  · rw [heq] at h
    rcases mem_rerouteSpecsAfterDialFailure_commands h with ⟨_, rfl⟩ | ⟨_, rfl⟩ <;> rfl

/-- The commands of a failed hole punch serve tunnels. -/
theorem servesTunnel_of_mem_retryHolepunchAttempt {q : PeerId} {attemptId : ℕ}
    (h : c ∈ (s.retryHolepunchAttempt q attemptId).2) : c.servesTunnel = true := by
  rcases s.retryHolepunchAttempt_cases q attemptId with ⟨_, heq⟩ | ⟨_, _, _, _, heq⟩ |
    ⟨_, _, _, _, _, heq⟩
  · rw [heq] at h
    cases h
  · rw [heq] at h
    exact servesTunnel_of_mem_spawnTunnels h
  · rw [heq] at h
    rw [List.mem_singleton.mp h]
    rfl

/-- The commands of a full disconnect serve tunnels. -/
theorem servesTunnel_of_mem_onFullyDisconnected {q : PeerId}
    (h : c ∈ (s.onFullyDisconnected env q).2) : c.servesTunnel = true := by
  rcases s.onFullyDisconnected_cases env q with ⟨_, _, hdials, heq⟩ | ⟨_, _, _, heq⟩ |
    ⟨_, _, heq⟩
  · rw [heq] at h
    rw [List.mem_singleton.mp h]
    exact servesTunnel_of_dials hdials
  · rw [heq] at h
    rw [List.mem_singleton.mp h]
    rfl
  · rw [heq] at h
    cases h

/-- For an event from outside, a command of the tunnel machine serves tunnels, unless it
publishes the services through an accepted reservation. -/
theorem mem_transition_commands (he : e.isExternal = true) (h : c ∈ (s.transition env e).2) :
    c.servesTunnel = true ∨ c = .publishServices ∧ e.acceptsReservation = true := by
  cases e with
  | phaseChanged => cases he
  | relayReservationAccepted => exact Or.inr ⟨List.mem_singleton.mp h, rfl⟩
  | dhtPeerLookupComplete q connected =>
    left
    cases connected with
    | true =>
      simp only [transition] at h
      split at h
      · exact servesTunnel_of_mem_routeConnectedPeer h
      · cases h
    | false =>
      simp only [transition] at h
      split at h
      · rw [List.mem_singleton.mp h]
        rfl
      · cases h
  | dhtServiceResolved => exact Or.inl (servesTunnel_of_mem_onDhtServiceResolved h)
  | dhtServiceFailed =>
    left
    simp only [transition] at h
    split at h
    · rw [List.mem_singleton.mp h]
      rfl
    · cases h
  | tunnelDialFailed => exact Or.inl (servesTunnel_of_mem_onTunnelDialFailed h)
  | tunnelPeerConnected q relayed =>
    left
    cases relayed with
    | true =>
      simp only [transition, onRelayedConnection] at h
      split at h <;> cases h
    | false => exact servesTunnel_of_mem_spawnTunnels h
  | holePunchAttemptFailed => exact Or.inl (servesTunnel_of_mem_retryHolepunchAttempt h)
  | holePunchAttemptTimeout => exact Or.inl (servesTunnel_of_mem_retryHolepunchAttempt h)
  | connectionLost q remaining =>
    left
    simp only [transition] at h
    split at h
    · exact servesTunnel_of_mem_onFullyDisconnected h
    · cases h
  | _ => cases h

/-- For an event from outside, the tunnel machine publishes once for an accepted reservation. -/
theorem count_publishServices (env : Env) (s : TunnelState) (he : e.isExternal = true) :
    (s.transition env e).2.count .publishServices =
      if e.acceptsReservation = true then 1 else 0 := by
  by_cases haccepts : e.acceptsReservation = true
  · rw [if_pos haccepts]
    cases e <;> first | rfl | cases haccepts
  · rw [if_neg haccepts]
    refine List.count_eq_zero_of_not_mem fun h => ?_
    rcases mem_transition_commands he h with hserves | ⟨_, hyes⟩
    · cases hserves
    · exact haccepts hyes

end TunnelState

/-! ## The step into readiness -/

/-- The events that make a node ready do not concern the tunnel machine and answer no query. -/
theorem PeerState.PhaseStep.enters_ready {s s' : PeerState} {e : Event} {cs : List Command}
    (h : PhaseStep s e s' cs) (hs : s.phase ≠ .ready) (hs' : s'.phase = .ready)
    (t : TunnelState) : t.transition env e = (t, []) ∧ ∀ svc, e.answers svc = false := by
  cases h with
  | kept hphase => exact absurd (hphase.symm.trans hs') hs
  | queried hphase => exact absurd (hphase.symm.trans hs') hs
  | bootstrapped => exact ⟨rfl, fun svc => rfl⟩
  | confirmed => exact ⟨rfl, fun svc => rfl⟩
  | timedOut => exact ⟨rfl, fun svc => rfl⟩
  | alone => exact ⟨rfl, fun svc => rfl⟩
  | lost hbefore => exact absurd hbefore hs
  | shutDown => cases hs'

namespace AppState

variable {a : AppState} {i : Env × Event}

/-- The commands of a step: those of the peer machine, publishing and lookups on entering the
ready phase, and those of the tunnel machine. -/
theorem transition_commands (env : Env) (a : AppState) (e : Event) :
    (a.transition env e).2 = (a.peer.transition env e).2 ++
      ((if a.EntersReady (env, e) then .publishServices :: a.tunnel.initiateLookups env else []) ++
        (a.tunnel.transition env e).2) := by
  refine congrArg ((a.peer.transition env e).2 ++ ·) ?_
  change TunnelState.machine.outputs a.tunnel
    ((bridge a.phase (a.transition env e).1.phase ++ [e]).map (env, ·)) = _
  unfold bridge
  by_cases hsame : a.phase = (a.transition env e).1.phase
  · have hnot : ¬a.EntersReady (env, e) := fun h => h.1 (hsame.trans h.2)
    rw [if_pos hsame, if_neg hnot]
    exact List.append_nil _
  · have hkept := (transition_bridge env a.tunnel a.phase (a.transition env e).1.phase).1
    have houtputs : TunnelState.machine.outputs a.tunnel
        (([Event.phaseChanged a.phase (a.transition env e).1.phase] ++ [e]).map (env, ·)) =
        (a.tunnel.transition env (.phaseChanged a.phase (a.transition env e).1.phase)).2 ++
          (a.tunnel.transition env e).2 := by
      simp [Mealy.Machine.outputs, TunnelState.machine, hkept]
    rw [if_neg hsame, houtputs]
    congr 1
    by_cases hready : (a.transition env e).1.phase = .ready
    · have henters : a.EntersReady (env, e) := ⟨fun h => hsame (h.trans hready.symm), hready⟩
      rw [if_pos henters, hready]
      rfl
    · have hnot : ¬a.EntersReady (env, e) := fun h => hready h.2
      rw [if_neg hnot]
      cases hnew : (a.transition env e).1.phase with
      | ready => exact absurd hnew hready
      | joining => rfl
      | shuttingDown => rfl

/-- On entering the ready phase the peer machine speaks first, then come publishing and lookups,
and nothing else. -/
theorem EntersReady.transition_eq (h : a.EntersReady i) :
    (a.transition i.1 i.2).1.tunnel = a.tunnel ∧
      (a.transition i.1 i.2).2 = (a.peer.transition i.1 i.2).2 ++
        .publishServices :: a.tunnel.initiateLookups i.1 := by
  have htunnel : a.tunnel.transition i.1 i.2 = (a.tunnel, []) :=
    ((a.peer.transition_phase i.1 i.2).enters_ready h.1 h.2 a.tunnel).1
  constructor
  · rw [transition_tunnel, htunnel]
  · rw [transition_commands, if_pos h, htunnel, List.append_nil]

/-- Commands that serve tunnels are not those of the peer machine. -/
theorem fromPeer_of_servesTunnel (h : c.servesTunnel = true) : c.fromPeer = false := by
  cases c <;> first | rfl | cases h

/-- The commands on becoming ready belong to the tunnel machine. -/
theorem fromPeer_of_mem_initiateLookups {s : TunnelState}
    (h : c ∈ .publishServices :: s.initiateLookups env) : c.fromPeer = false := by
  rcases List.mem_cons.mp h with rfl | h
  · rfl
  · rcases List.mem_append.mp h with h | h
    · obtain ⟨peer, _, rfl⟩ := List.mem_map.mp h
      rfl
    · obtain ⟨svc, _, rfl⟩ := List.mem_map.mp h
      rfl

/-- The peer machine asks for none of the tunnel machine's commands. -/
theorem count_peer_commands {s : PeerState} {e : Event} (hc : c.fromPeer = false) :
    (s.transition env e).2.count c = 0 := by
  refine List.count_eq_zero_of_not_mem fun h => ?_
  rw [PeerState.fromPeer_of_mem_transition h] at hc
  cases hc

/-- The lookups contain each peer that intents wait for once. -/
theorem count_lookups (env : Env) (s : TunnelState) (p : PeerId) :
    (s.initiateLookups env).count (.dhtLookupPeer p) =
      if p ∈ s.pendingByPeer.keys then 1 else 0 := by
  have hqueries : ((env.serviceOrder.toList s.pendingByService.keys).map
      Command.getProviders).count (.dhtLookupPeer p) = 0 := by
    refine List.count_eq_zero_of_not_mem fun h => ?_
    obtain ⟨svc, _, heq⟩ := List.mem_map.mp h
    cases heq
  have hinj : Function.Injective Command.dhtLookupPeer := fun _ _ h => Command.dhtLookupPeer.inj h
  unfold TunnelState.initiateLookups
  rw [List.count_append, hqueries, List.count_map_of_injective _ _ hinj, Enumeration.count_toList,
    Nat.add_zero]

/-- The lookups contain each provider query for a service that intents wait for once. -/
theorem count_queries (env : Env) (s : TunnelState) (svc : ServiceName) (key : KademliaKey) :
    (s.initiateLookups env).count (.dhtGetProviders svc key) =
      if svc ∈ s.pendingByService.keys ∧ key = .forService svc then 1 else 0 := by
  have hlookups : ((env.peerOrder.toList s.pendingByPeer.keys).map
      Command.dhtLookupPeer).count (.dhtGetProviders svc key) = 0 := by
    refine List.count_eq_zero_of_not_mem fun h => ?_
    obtain ⟨peer, _, heq⟩ := List.mem_map.mp h
    cases heq
  unfold TunnelState.initiateLookups
  rw [List.count_append, hlookups, Nat.zero_add]
  by_cases hkey : key = .forService svc
  · have hinj : Function.Injective Command.getProviders := fun _ _ h =>
      (Command.dhtGetProviders.inj h).1
    have hcommand : Command.dhtGetProviders svc key = .getProviders svc := by rw [hkey]; rfl
    rw [hcommand, List.count_map_of_injective _ _ hinj, Enumeration.count_toList]
    exact if_congr (and_iff_left hkey).symm rfl rfl
  · rw [if_neg fun h => hkey h.2]
    refine List.count_eq_zero_of_not_mem fun h => ?_
    obtain ⟨name, _, heq⟩ := List.mem_map.mp h
    obtain ⟨rfl, hname⟩ := Command.dhtGetProviders.inj heq
    exact hkey hname.symm

/-- Every step on an event from outside publishes and looks up as readiness demands. -/
theorem publishesOnReadiness (a : AppState) (hi : i.2.isExternal = true) :
    a.PublishesOnReadiness i := by
  have hlookups (s : TunnelState) : (s.initiateLookups i.1).count .publishServices = 0 := by
    refine List.count_eq_zero_of_not_mem fun h => ?_
    rcases List.mem_append.mp h with h | h
    · obtain ⟨peer, _, heq⟩ := List.mem_map.mp h
      cases heq
    · obtain ⟨svc, _, heq⟩ := List.mem_map.mp h
      cases heq
  constructor
  case publishes =>
    rw [transition_commands, List.count_append, List.count_append, count_peer_commands rfl,
      TunnelState.count_publishServices _ _ hi, Nat.zero_add]
    congr 1
    by_cases h : a.EntersReady i
    · rw [if_pos h, if_pos h, List.count_cons_self, hlookups]
    · rw [if_neg h, if_neg h]
      rfl
  case intents =>
    intro h
    exact h.transition_eq.1
  case lookups =>
    intro h p
    rw [h.transition_eq.2, List.count_append, count_peer_commands rfl, Nat.zero_add,
      List.count_cons_of_ne (by simp), count_lookups]
  case queries =>
    intro h svc key
    rw [h.transition_eq.2, List.count_append, count_peer_commands rfl, Nat.zero_add,
      List.count_cons_of_ne (by simp), count_queries]
  case ordered =>
    refine ⟨_, transition_commands i.1 a i.2, fun c => PeerState.fromPeer_of_mem_transition,
      fun c hc => ?_⟩
    rcases List.mem_append.mp hc with hc | hc
    · split at hc
      · exact fromPeer_of_mem_initiateLookups hc
      · cases hc
    · rcases TunnelState.mem_transition_commands hi hc with hserves | ⟨rfl, _⟩
      · exact fromPeer_of_servesTunnel hserves
      · rfl

/-- **Publishing follows readiness.** Every step of every run on events from outside publishes
exactly on entering the ready phase and for an accepted reservation, starts all lookups on
entering the ready phase, and puts the commands of the peer machine first. -/
theorem publishes_on_readiness (peers : Finset PeerId) (calls : List ConfigCall)
    {is : List (Env × Event)} (his : ∀ i ∈ is, i.2.isExternal = true) :
    machine.Guarded PublishesOnReadiness (configured peers calls) is :=
  .of_forall_mem fun i hi a => a.publishesOnReadiness (his i hi)

/-- A node without bootstrap peers, which then reserves a relay. -/
theorem publishes_on_readiness_alone :
    machine.Guarded PublishesOnReadiness (configured ∅ [webTunnel])
      [(.sorted, .noBootstrapPeers), (.sorted, .relayReservationAccepted ⟨2⟩)] :=
  publishes_on_readiness ∅ [webTunnel] (by decide)

end AppState

end Punchgate
