import Punchgate.Node.Agreement

/-!
# Intents behind a relay while a direct path exists

The tunnel machine remembers of a peer whether its last reported connection was relayed,
the bookkeeping which connections are open. A relayed connection that is opened after a
direct one makes the two differ: new intents then wait for a direct connection that is
there already. Nothing else makes them wait.
-/

namespace Punchgate

/-- An event puts intents of the peer behind its relay. -/
def TunnelState.QueuesForDirect (s : TunnelState) (p : PeerId) : Event → Prop
  | .tunnelPeerConnected q true => q = p ∧ s.pendingByPeer.contains p = true
  | .dhtPeerLookupComplete q true =>
    q = p ∧ s.pendingByPeer.contains p = true ∧ p ∈ s.relayedPeers
  | .dhtServiceResolved svc ((q, true) :: _) =>
    q = p ∧ s.pendingByService.contains svc = true ∧ p ∈ s.relayedPeers
  | _ => False

/-- No intent waits for a hole punch while a direct connection is tracked. -/
def NodeState.DirectPathUsed {Sw : Type} (n : NodeState Sw) : Prop :=
  ∀ p, n.conn.hasDirectConnection p = true → n.app.tunnel.awaitingHolepunch.contains p = false

/-- A pass puts no intent behind a relay while a direct connection is tracked. -/
def QueuesNoneBesideDirect {Sw : Type} (api : SwarmApi Sw) (cfg : NodeConfig)
    (n : NodeState Sw) (input : LoopInput Sw) : Prop :=
  ∀ p, n.conn.hasDirectConnection p = true →
    ∀ e ∈ n.events api cfg input, ¬n.app.tunnel.QueuesForDirect p e

/-! ## One event -/

section Step

variable {s : TunnelState} {p : PeerId} {e : Event} {v : PeerView} {cs : List Command}

/-- A queueing event is one of those after which intents can wait. -/
theorem TunnelState.QueuesForDirect.mayQueue (h : s.QueuesForDirect p e) :
    e.mayQueue p = true := by
  unfold QueuesForDirect at h
  split at h
  · exact decide_eq_true h.1
  · exact decide_eq_true h.1
  · exact decide_eq_true h.1
  · exact h.elim

/-- Intents only begin to wait with a queueing event. -/
theorem PeerStep.awaiting_eq_none (h : PeerStep s p e v cs) (hqueue : ¬s.QueuesForDirect p e)
    (hnone : (s.view p).awaiting = none) : v.awaiting = none := by
  cases h with
  | @resolvedConnected svc rest binds hsvc =>
    have hrelayed : ¬(s.view p).relayed = true := fun hrelayed =>
      hqueue ⟨rfl, FiniteMap.contains_of_get? hsvc, of_decide_eq_true hrelayed⟩
    unfold PeerView.route
    rw [if_neg hrelayed]
    exact hnone
  | lookedUpConnected hpending =>
    have hrelayed : ¬(s.view p).relayed = true := fun hrelayed =>
      hqueue ⟨rfl, FiniteMap.contains_of_get? hpending, of_decide_eq_true hrelayed⟩
    unfold PeerView.route
    rw [if_neg hrelayed]
    exact hnone
  | relayedQueued hpending => exact absurd ⟨rfl, FiniteMap.contains_of_get? hpending⟩ hqueue
  | direct => rfl
  | retriesExhausted => rfl
  | lostAwaiting => rfl
  | _ => exact hnone

/-- Pending intents of a peer wait once it is connected over a relay. -/
theorem PeerStep.awaiting_of_relayed (h : PeerStep s p (.tunnelPeerConnected p true) v cs)
    (hpending : (s.view p).pending.isSome = true) : v.awaiting.isSome = true := by
  cases h with
  | idle hsubject => exact absurd rfl hsubject
  | failureIgnored he => cases he
  | retriesExhausted he => cases he
  | retryScheduled he => cases he
  | relayed hnone =>
    rw [hnone] at hpending
    cases hpending
  | relayedQueued => rfl

/-- Pending intents of a relayed peer wait once a lookup finds it connected. -/
theorem PeerStep.awaiting_of_lookedUp (h : PeerStep s p (.dhtPeerLookupComplete p true) v cs)
    (hpending : (s.view p).pending.isSome = true) (hrelayed : (s.view p).relayed = true) :
    v.awaiting.isSome = true := by
  cases h with
  | idle hsubject => exact absurd rfl hsubject
  | failureIgnored he => cases he
  | retriesExhausted he => cases he
  | retryScheduled he => cases he
  | lookedUpConnected =>
    unfold PeerView.route
    rw [if_pos hrelayed]
    rfl
  | lookedUpUnneeded hnone =>
    rw [hnone] at hpending
    cases hpending

/-- Intents of a service wait once its first provider is a relayed peer. -/
theorem TunnelState.awaiting_onDhtServiceResolved {svc : ServiceName}
    {rest : List (PeerId × Bool)} (hsvc : s.pendingByService.contains svc = true)
    (hrelayed : p ∈ s.relayedPeers) :
    ((s.onDhtServiceResolved svc ((p, true) :: rest)).1.view p).awaiting.isSome = true := by
  obtain ⟨binds, hbinds⟩ := FiniteMap.contains_iff.mp hsvc
  have hdedup : dedupProviderCandidates ((p, true) :: rest) =
      (p, true) :: dedupBy Prod.fst [p] rest := by
    simp [dedupProviderCandidates, dedupBy]
  obtain ⟨candidates, hstore⟩ := storeProviderCandidates_eq
    { s with pendingByService := s.pendingByService.erase svc } svc
    ((dedupBy Prod.fst [p] rest).map Prod.fst)
  unfold onDhtServiceResolved
  rw [hbinds]
  dsimp only
  rw [hdedup]
  dsimp only
  rw [hstore, if_pos rfl, (routeConnectedPeer_self _).1, PeerView.route, if_pos]
  · rfl
  · exact decide_eq_true hrelayed

/-- After a queueing event intents wait. -/
theorem TunnelState.QueuesForDirect.awaiting (env : Env) (h : s.QueuesForDirect p e) :
    ((s.transition env e).1.view p).awaiting.isSome = true := by
  have hstep := s.transition_refines env p e
  unfold QueuesForDirect at h
  split at h
  · obtain ⟨rfl, hpending⟩ := h
    exact hstep.awaiting_of_relayed hpending
  · obtain ⟨rfl, hpending, hrelayed⟩ := h
    exact hstep.awaiting_of_lookedUp hpending (decide_eq_true hrelayed)
  · obtain ⟨rfl, hsvc, hrelayed⟩ := h
    exact awaiting_onDhtServiceResolved hsvc hrelayed
  · exact h.elim

end Step

/-! ## One pass at one peer -/

/-- Arming changes neither the tracked connections nor the intents of a slice. -/
theorem PeerSlice.Armed.frame {x y : PeerSlice} (h : x.Armed y) :
    y.link.relayed = x.link.relayed ∧ y.link.direct = x.link.direct ∧
      y.view.awaiting = x.view.awaiting := by
  cases h with
  | unchanged => exact ⟨rfl, rfl, rfl⟩
  | begun => exact ⟨rfl, rfl, rfl⟩

/-- Events other than queueing ones leave a slice without waiting intents. -/
theorem PeerSlice.Told.awaiting_eq_none {p : PeerId} {e : Event} {x y : PeerSlice}
    (h : x.Told p e y) (hqueue : ∀ s : TunnelState, s.view p = x.view → ¬s.QueuesForDirect p e)
    (hnone : x.view.awaiting = none) : y.view.awaiting = none := by
  cases h with
  | intro hview _ hstep => exact hstep.awaiting_eq_none (hqueue _ hview) (hview ▸ hnone)

section Pass

variable {env : Env} {s : TunnelState} {p : PeerId} {x z : PeerSlice} {events : List Event}

/-- A peer with a direct connection is not reachable over a relay only. -/
theorem PeerLink.relayOnly_of_direct {l : PeerLink} (h : l.direct.isSome = true) :
    l.relayOnly = false := by
  rw [relayOnly, h, Bool.not_true, Bool.and_false]

/-- Queueing at a new connection, on views. -/
theorem TunnelState.queuesForDirect_connected :
    s.QueuesForDirect p (.tunnelPeerConnected p true) ↔ (s.view p).pending.isSome = true :=
  ⟨fun h => h.2, fun h => ⟨rfl, h⟩⟩

/-- A direct connection ends every wait for one. -/
theorem awaiting_of_direct {y : PeerSlice} (htold : x.Told p (.tunnelPeerConnected p false) y) :
    y.view.awaiting = none := by
  cases htold with
  | intro hview hfailed hstep =>
    cases hstep with
    | idle hsubject => exact absurd rfl hsubject
    | failureIgnored he => cases he
    | retriesExhausted he => cases he
    | retryScheduled he => cases he
    | direct => rfl

/-- The first direct connection of a peer ends every wait. -/
theorem PeerPass.awaiting_of_first_direct (hpass : PeerPass env s p x events z)
    (hbefore : x.link.direct = none) (hafter : z.link.direct.isSome = true) :
    z.view.awaiting = none := by
  have hkept {y : PeerSlice} (harmed : y.Armed z) (hlink : y.link.direct = none) : False := by
    rw [harmed.frame.2.1, hlink] at hafter
    cases hafter
  cases hpass with
  | idle =>
    rw [hbefore] at hafter
    cases hafter
  | begun a _ harm => exact (hkept (.begun a harm) hbefore).elim
  | told _ _ _ harmed => exact (hkept harmed hbefore).elim
  | relayedStarted _ _ _ _ htold harmed =>
    exact (hkept harmed ((congrArg PeerLink.direct htold.link_eq).trans hbefore)).elim
  | relayed _ _ htold harmed =>
    exact (hkept harmed ((congrArg PeerLink.direct htold.link_eq).trans hbefore)).elim
  | direct _ htold harmed =>
    rw [harmed.frame.2.2]
    exact awaiting_of_direct htold
  | @closed id num _ _ htold harmed =>
    have hlink : (x.link.close id num).direct = none := by
      rw [(x.link.close_tracked id num).2, hbefore]
      rfl
    exact (hkept harmed ((congrArg PeerLink.direct htold.link_eq).trans hlink)).elim
  | timedOut =>
    have hnone : x.link.expire.direct = none := hbefore
    rw [hnone] at hafter
    cases hafter
  | expired =>
    have hnone : x.link.expire.direct = none := hbefore
    rw [hnone] at hafter
    cases hafter

/-- Without a queueing event nothing begins to wait beside a direct connection. -/
theorem PeerPass.awaiting_eq_none (hpass : PeerPass env s p x events z) (hview : s.view p = x.view)
    (hdirect : x.link.direct.isSome = true) (hnone : x.view.awaiting = none)
    (hqueue : ∀ e ∈ events, ¬s.QueuesForDirect p e) : z.view.awaiting = none := by
  have hsame {s' : TunnelState} (hview' : s'.view p = x.view)
      (h : s'.QueuesForDirect p (.tunnelPeerConnected p true)) :
      s.QueuesForDirect p (.tunnelPeerConnected p true) := by
    rw [TunnelState.queuesForDirect_connected] at h ⊢
    rw [hview, ← hview']
    exact h
  cases hpass with
  | idle => exact hnone
  | begun => exact hnone
  | @told e e' _ _ he' _ harmed =>
    rw [harmed.frame.2.2]
    refine (s.transition_refines env p e').awaiting_eq_none ?_ (hview ▸ hnone)
    rcases he' with rfl | ⟨q, a, reason, rfl, rfl⟩
    · exact hqueue e' (List.mem_singleton_self e')
    · exact id
  | relayedStarted _ _ hstart =>
    have hrelay := hstart.1
    rw [PeerLink.relayOnly_of_direct (l := x.link.openRelayed _) hdirect] at hrelay
    cases hrelay
  | relayed _ hevents htold harmed =>
    rw [harmed.frame.2.2]
    refine htold.awaiting_eq_none (fun s' hview' h => ?_) hnone
    exact hqueue _ ((hevents _).mpr rfl).1 (hsame hview' h)
  | direct _ htold harmed =>
    rw [harmed.frame.2.2]
    exact awaiting_of_direct htold
  | closed htold harmed =>
    rw [harmed.frame.2.2]
    exact htold.awaiting_eq_none (fun _ _ => id) hnone
  | timedOut _ _ hview' h =>
    exact h.awaiting_eq_none id (hview' ▸ hnone)
  | expired => exact hnone

/-- A queueing event makes intents wait beside a direct connection. -/
theorem PeerPass.awaiting_of_queues {e : Event} (hpass : PeerPass env s p x events z)
    (hview : s.view p = x.view) (hdirect : x.link.direct.isSome = true) (he : e ∈ events)
    (hqueue : s.QueuesForDirect p e) :
    z.link.direct.isSome = true ∧ z.view.awaiting.isSome = true := by
  have hnever (h : ∀ e ∈ events, e.mayQueue p = false) : False := by
    have hmay := hqueue.mayQueue
    rw [h e he] at hmay
    cases hmay
  cases hpass with
  | idle h => exact (hnever h).elim
  | begun _ h => exact (hnever h).elim
  | @told f e' _ _ he' _ harmed =>
    rw [List.mem_singleton.mp he] at hqueue
    rcases he' with rfl | ⟨q, a, reason, rfl, rfl⟩
    · refine ⟨?_, ?_⟩
      · rw [harmed.frame.2.1]
        exact hdirect
      · rw [harmed.frame.2.2]
        exact hqueue.awaiting env
    · exact hqueue.elim
  | relayedStarted _ _ hstart =>
    have hrelay := hstart.1
    rw [PeerLink.relayOnly_of_direct (l := x.link.openRelayed _) hdirect] at hrelay
    cases hrelay
  | relayed _ hevents htold harmed =>
    rw [(hevents e).mp ⟨he, hqueue.mayQueue⟩, TunnelState.queuesForDirect_connected, hview] at hqueue
    refine ⟨?_, ?_⟩
    · rw [harmed.frame.2.1, htold.link_eq]
      exact hdirect
    · rw [harmed.frame.2.2]
      cases htold with
      | intro hview' _ hstep => exact hstep.awaiting_of_relayed (hview' ▸ hqueue)
  | direct h => exact (hnever h).elim
  | closed =>
    rw [List.mem_singleton.mp he] at hqueue
    exact hqueue.elim
  | timedOut => cases he
  | expired => cases he

end Pass

/-! ## Runs -/

section Runs

variable {Sw : Type} (api : SwarmApi Sw) (cfg : NodeConfig)

/-- **Step.** A pass keeps direct paths in use exactly if it queues nothing beside one. -/
theorem directPathUsed_step_iff (n : NodeState Sw) (input : LoopInput Sw)
    (h : n.DirectPathUsed) :
    ((nodeLoop api cfg).step n input).1.DirectPathUsed ↔ QueuesNoneBesideDirect api cfg n input := by
  have hnone (p : PeerId) (hdirect : n.conn.hasDirectConnection p = true) :
      (n.slice p).view.awaiting = none := by
    have hcontains := h p hdirect
    rwa [TunnelState.contains_awaiting, Option.isSome_eq_false_iff, Option.isNone_iff_eq_none]
      at hcontains
  constructor
  · intro hused p hdirect e he hqueue
    have hpass := n.pass_refines api cfg p input
    obtain ⟨hdirect', hawaiting⟩ := hpass.awaiting_of_queues rfl hdirect he hqueue
    have hcontains := hused p hdirect'
    rw [TunnelState.contains_awaiting] at hcontains
    exact Bool.false_ne_true (hcontains.symm.trans hawaiting)
  · intro hqueue p hdirect'
    have hpass := n.pass_refines api cfg p input
    rw [TunnelState.contains_awaiting, Option.isSome_eq_false_iff, Option.isNone_iff_eq_none]
    cases hdirect : n.conn.hasDirectConnection p with
    | true => exact hpass.awaiting_eq_none rfl hdirect (hnone p hdirect) (hqueue p hdirect)
    | false =>
      refine hpass.awaiting_of_first_direct ?_ hdirect'
      rwa [ConnectionStateMachine.hasDirectConnection_eq, Option.isSome_eq_false_iff,
        Option.isNone_iff_eq_none] at hdirect

end Runs

/-- **Direct paths are used, exactly.** In all states of a run no intent waits for a hole punch
while a direct connection is tracked if and only if no pass of the run delivers an event that
queues intents behind a relay while a direct connection to their peer is tracked. -/
theorem direct_path_used_iff {Sw : Type} (api : SwarmApi Sw) (cfg : NodeConfig) (env : Env)
    (natMapping : NatMapping) (swarm : Sw) (inputs : List (LoopInput Sw)) :
    (nodeLoop api cfg).Always NodeState.DirectPathUsed (.start api cfg env natMapping swarm) inputs ↔
      (nodeLoop api cfg).Guarded (QueuesNoneBesideDirect api cfg)
        (.start api cfg env natMapping swarm) inputs := by
  refine Mealy.Machine.always_iff inputs (fun p hdirect => ?_) (directPathUsed_step_iff api cfg)
  obtain ⟨pending, hslice⟩ := NodeState.start_slice (p := p) api cfg env natMapping swarm
  have hlink : ((NodeState.start api cfg env natMapping swarm).conn.link p).direct = none :=
    congrArg (PeerLink.direct ∘ PeerSlice.link) hslice
  rw [ConnectionStateMachine.hasDirectConnection_eq, hlink] at hdirect
  cases hdirect

/-- A tunnel to a service name and nothing else. -/
def serviceConfig : NodeConfig where
  bootstrapAddrs := []
  exposed := []
  tunnelSpecs := []
  tunnelByNameSpecs := [⟨webIntent.1, webIntent.2⟩]

/-- A direct connection to peer 1 is followed by a relayed one, and then the peer is found to
provide the service. -/
def relayBesideDirectRun : List (LoopInput SampleSwarm) :=
  [⟨.sorted, .swarmEvent (.connectionEstablished ⟨1⟩ ⟨1⟩ (directEndpoint ⟨1⟩)) ⟨[⟨1⟩], 1⟩ none⟩,
    ⟨.sorted, .swarmEvent (.connectionEstablished ⟨1⟩ ⟨2⟩ (relayedEndpoint ⟨1⟩)) ⟨[⟨1⟩], 1⟩ none⟩,
    ⟨.sorted, .swarmEvent (.behaviour (.kadGetProviders ⟨0⟩ (.foundProviders {⟨1⟩})))
      ⟨[⟨1⟩], 1⟩ none⟩]

/-- The tunnel waits for a hole punch although the peer is connected directly. -/
theorem waits_beside_direct_path :
    ¬(nodeLoop sampleApi serviceConfig).Always NodeState.DirectPathUsed
      (.start sampleApi serviceConfig .sorted .unknown ⟨[], 0⟩) relayBesideDirectRun := by
  intro h
  have hused := Mealy.Machine.always_iff_forall_prefixes.mp h relayBesideDirectRun
    (List.prefix_refl _) ⟨1⟩ (by decide)
  revert hused
  decide

end Punchgate
