import Punchgate.Node.Disconnect
import Punchgate.Node.Operations

/-!
# The registry of direct peers

The tunnels learn from a registry of their own whether a peer is reachable directly. The loop
marks a peer there when a direct connection to it opens, and clears it when the bookkeeping says
so at a closed connection. Nothing else writes to the registry, so it agrees with the books of
direct connections after every pass, and these agree with the connections that are open.
-/

namespace Punchgate

/-- The registry after a swarm event was booked. -/
def registryAfter (c : ConnectionStateMachine) (registry : Finset PeerId) :
    SwarmEvent → Finset PeerId
  | .connectionEstablished peer _ endpoint =>
    if endpoint.isRelayed then registry else insert peer registry
  | .connectionClosed peer id num =>
    if (c.onConnectionClosed peer id num).2.clearDirectRegistry then registry.erase peer
    else registry
  | _ => registry

/-- The registry holds the peers with a direct connection in the books. -/
def RegistryAgrees (registry : Finset PeerId) (c : ConnectionStateMachine) : Prop :=
  ∀ p, p ∈ registry ↔ (c.link p).direct.isSome = true

/-! ## What clears a peer -/

namespace ConnectionStateMachine

/-- The last connection of a peer was removed if it had some before and has none after. -/
theorem removeConnectionId_exhausted (m : FiniteMap PeerId (Finset ConnectionId)) (q : PeerId)
    (id : ConnectionId) :
    (removeConnectionId m q id).2 = true ↔
      (m.get? q).isSome = true ∧ removeFrom (m.get? q) id = none := by
  unfold removeConnectionId removeFrom
  cases m.get? q with
  | none => simp
  | some ids => by_cases hempty : ids.erase id = ∅ <;> simp [Option.filter, hempty]

/-- A peer is cleared if its last direct connection was removed or none of its connections is
left. -/
theorem clearDirectRegistry_iff (c : ConnectionStateMachine) (q : PeerId) (id : ConnectionId)
    (num : UInt32) :
    (c.onConnectionClosed q id num).2.clearDirectRegistry = true ↔
      ((c.link q).direct.isSome = true ∧ removeFrom (c.link q).direct id = none) ∨
        (c.onConnectionClosed q id num).2.peerFullyDisconnected = true := by
  change ((removeConnectionId c.directConnections q id).2 ||
    (c.onConnectionClosed q id num).2.peerFullyDisconnected) = true ↔ _
  rw [Bool.or_eq_true, removeConnectionId_exhausted]
  rfl

end ConnectionStateMachine

/-- Booking an event keeps the agreement. -/
theorem RegistryAgrees.booked {c d : ConnectionStateMachine} {registry : Finset PeerId}
    {t : TunnelState} {event : SwarmEvent} {synthetic : List Event} (h : RegistryAgrees registry c)
    (hbooked : Booked c t event d synthetic) :
    RegistryAgrees (registryAfter c registry event) d := by
  have hrelayed {q : PeerId} {id : ConnectionId} {endpoint : ConnectedPoint}
      (hr : endpoint.isRelayed = true) (hdirect : ∀ p, (d.link p).direct = (c.link p).direct) :
      RegistryAgrees (registryAfter c registry (.connectionEstablished q id endpoint)) d := by
    intro p
    rw [registryAfter, if_pos hr, hdirect p]
    exact h p
  cases hbooked with
  | relayedStarted _ hr _ _ hlink =>
    refine hrelayed hr fun p => ?_
    rw [hlink p]
    split <;> rfl
  | relayed hr _ hlink =>
    refine hrelayed hr fun p => ?_
    rw [hlink p]
    split <;> rfl
  | @direct q id endpoint _ hr hlink =>
    intro p
    rw [registryAfter, if_neg (by simp [hr]), Finset.mem_insert, hlink p, h p]
    by_cases hp : p = q
    · simp [hp, PeerLink.openDirect]
    · simp [hp]
  | @closed q id num _ hlink =>
    have hclear := c.clearDirectRegistry_iff q id num
    have hfully := peerFullyDisconnected_iff c q id num
    -- The direct connections of the peer that are left in the books.
    have hrest := ((c.link q).close_tracked id num).2
    have hnone (hgone : ((c.link q).close id num).untracked = true) :
        removeFrom (c.link q).direct id = none :=
      hrest.symm.trans (PeerLink.of_untracked hgone).2.1
    intro p
    rw [hlink p]
    by_cases hp : p = q
    · subst hp
      rw [if_pos rfl, hrest, registryAfter]
      split
      · rename_i hcleared
        refine iff_of_false (Finset.notMem_erase p registry) ?_
        have hempty : removeFrom (c.link p).direct id = none :=
          (hclear.mp hcleared).elim (fun hlast => hlast.2) fun hgone => hnone (hfully.mp hgone).2
        rw [hempty]
        exact Bool.false_ne_true
      · rename_i hkept
        rw [h p]
        constructor
        · intro hsome
          rw [← Option.ne_none_iff_isSome]
          exact fun hempty => hkept (hclear.mpr (Or.inl ⟨hsome, hempty⟩))
        · intro hsome
          cases hdirect : (c.link p).direct with
          | none =>
            rw [hdirect] at hsome
            cases hsome
          | some _ => rfl
    · rw [if_neg hp, ← h p, registryAfter]
      split
      · exact Finset.mem_erase.trans (and_iff_right hp)
      · rfl
  | other hevent hlink =>
    have hsame : registryAfter c registry event = registry := by
      cases event <;> first | rfl | cases hevent
    intro p
    rw [hsame, hlink p]
    exact h p

/-! ## Who writes to the registry -/

namespace NodeState

variable {Sw : Type} (api : SwarmApi Sw) (cfg : NodeConfig) (env : Env)

/-- Commands leave the registry alone. -/
theorem executeCommands_directPeers (exposed : List ExposedService) (world : Sw × ExecutionContext)
    (cs : List Command) :
    (executeCommands api exposed world cs).2.directPeers = world.2.directPeers := by
  refine List.foldlRecOn cs (executeCommand api exposed)
    (motive := fun world' => world'.2.directPeers = world.2.directPeers) rfl fun world' h c _ => ?_
  cases c <;> exact h

/-- Deliveries leave the registry alone. -/
theorem stable_directPeers (registry : Finset PeerId) :
    Stable api cfg env (fun n => n.ctx.directPeers = registry) fun _ => True where
  own _ _ := trivial
  booked _ _ _ h := h
  observed n e h := by
    obtain ⟨_, _, _, heq⟩ := observeIdentify_same api cfg n e
    rw [heq]
    exact h
  delivered _ n e _ h :=
    (executeCommands_directPeers api cfg.exposed (n.swarm, n.ctx) (n.app.transition env e).2).trans h

/-- The bookkeeping of connections writes to the registry. -/
theorem bookkeep_directPeers (n : NodeState Sw) (event : SwarmEvent) :
    (n.bookkeep api cfg env event).1.ctx.directPeers =
      registryAfter n.conn n.ctx.directPeers event := by
  cases event with
  | connectionEstablished q id endpoint =>
    have hupdate : (n.conn.onConnectionEstablished env q id
        endpoint.isRelayed).2.directConnectionEstablished = !endpoint.isRelayed := by
      unfold ConnectionStateMachine.onConnectionEstablished
      cases endpoint.isRelayed <;> rfl
    unfold bookkeep registryAfter
    dsimp only
    rw [hupdate]
    cases endpoint.isRelayed <;> rfl
  | connectionClosed q id num =>
    unfold bookkeep registryAfter
    dsimp only
    split <;> rfl
  | dialing peer id => cases peer <;> rfl
  | _ => rfl

/-- The translation of an event leaves the registry alone. -/
theorem translateSwarmEvent_directPeers (bootstrapPeers : Finset PeerId) (ctx : ExecutionContext)
    (isConnected : PeerId → Bool) (event : SwarmEvent) :
    (translateSwarmEvent env bootstrapPeers ctx isConnected event).2.directPeers =
      ctx.directPeers := by
  have htranslated := translateSwarmEvent_translated env bootstrapPeers ctx isConnected event
  generalize hctx : (translateSwarmEvent env bootstrapPeers ctx isConnected event).2 = ctx'
    at htranslated ⊢
  cases htranslated <;> rfl

/-- Picking up the port mapping leaves the registry alone. -/
theorem pollPortMapping_directPeers (n : NodeState Sw)
    (probe : Option (Option (Ipv4Addr × UInt16))) :
    (n.pollPortMapping api cfg env probe).1.ctx.directPeers = n.ctx.directPeers := by
  unfold pollPortMapping
  split
  · rfl
  · exact executeCommands_directPeers api cfg.exposed _ _
  · rfl

/-- Up to the event list, the registry is written to as the event is booked. -/
theorem prepare_directPeers (n : NodeState Sw) (event : SwarmEvent)
    (probe : Option (Option (Ipv4Addr × UInt16))) :
    (n.prepare api cfg env event probe).1.ctx.directPeers =
      registryAfter n.conn n.ctx.directPeers event := by
  have hspawn : (n.spawnPortMapping cfg event).ctx = n.ctx := by
    obtain ⟨_, heq⟩ := spawnPortMapping_same cfg n event
    rw [heq]
  have haddrs (m : NodeState Sw) : (m.trackExternalAddrs api event).ctx = m.ctx := by
    obtain ⟨_, _, -, heq⟩ := trackExternalAddrs_same api m event
    rw [heq]
  have hbookkeep := bookkeep_directPeers api cfg env (n.spawnPortMapping cfg event) event
  rw [hspawn, (spawnPortMapping_frame cfg n event).1] at hbookkeep
  obtain ⟨backoff, pending, hboot⟩ := trackBootstrap_same api cfg env
    ((n.spawnPortMapping cfg event).bookkeep api cfg env event).1 event
    ((n.spawnPortMapping cfg event).bookkeep api cfg env event).2.2
  unfold prepare
  dsimp only
  rw [translateSwarmEvent_directPeers, pollPortMapping_directPeers, haddrs, hboot]
  exact hbookkeep

/-- Reconnects leave the registry alone. -/
theorem onReconnectTimer_directPeers (n : NodeState Sw) :
    (n.onReconnectTimer api env).ctx.directPeers = n.ctx.directPeers := by
  obtain ⟨_, _, _, heq⟩ := onReconnectTimer_frame api env n
  rw [heq]

/-- A pass writes to the registry as the event it serves is booked. -/
theorem pass_directPeers (n : NodeState Sw) (input : LoopInput Sw) :
    ((nodeLoop api cfg).step n input).1.ctx.directPeers =
      match n.served input with
      | some event => registryAfter n.conn n.ctx.directPeers event
      | none => n.ctx.directPeers := by
  have hstable := stable_directPeers api cfg input.env n.ctx.directPeers
  change (n.pass api cfg input.env input.branch).1.ctx.directPeers = _
  cases hbranch : input.branch with
  | swarmEvent event swarm probe =>
    unfold served pass
    split
    · rfl
    · rw [hbranch]
      have hprepare := prepare_directPeers api cfg input.env { n with swarm := swarm } event probe
      exact (stable_directPeers api cfg input.env _).feedAll (fun _ _ _ _ _ => trivial) hprepare
  | _ =>
    have hnone : n.served input = none := by
      unfold served
      rw [hbranch]
      split <;> rfl
    rw [hnone]
    exact hstable.pass _ (fun _ => onReconnectTimer_directPeers api input.env n)
      (fun _ _ _ heq => by cases heq) rfl

end NodeState

/-! ## Runs -/

section Runs

variable {Sw : Type} (api : SwarmApi Sw) (cfg : NodeConfig)

/-- The registry and the books of a node, against what is open. -/
structure RegistryBooks (x : NodeState Sw × ConnectionLedger) : Prop where
  /-- The registry holds the peers with a direct connection in the books. -/
  registry : RegistryAgrees x.1.ctx.directPeers x.1.conn
  /-- Every tracked connection is open. -/
  books : Books x.1.conn x.2
  /-- Every open direct connection is tracked. -/
  live : LiveDirectTracked x.1.conn x.2

/-- **Step.** A pass that serves events in order keeps the registry and the books. -/
theorem registryBooks_step (x : NodeState Sw × ConnectionLedger) (input : LoopInput Sw)
    (h : RegistryBooks x) (horderly : ServesOrderly x input) :
    RegistryBooks ((nodeLedger api cfg).step x input).1 := by
  refine ⟨?_, books_step api cfg x input h.books horderly,
    (NodeState.liveDirectTracked_step api cfg x input h.live).1⟩
  obtain ⟨c, hserved, htracked⟩ := x.1.pass_tracked api cfg input
  have hregistry := x.1.pass_directPeers api cfg input
  have hc : RegistryAgrees ((nodeLoop api cfg).step x.1 input).1.ctx.directPeers c := by
    cases hevent : x.1.served input with
    | none =>
      rw [hevent] at hserved hregistry
      intro p
      rw [hregistry, (hserved p).2]
      exact h.registry p
    | some event =>
      rw [hevent] at hserved hregistry
      obtain ⟨synthetic, hbooked⟩ := hserved
      rw [hregistry]
      exact h.registry.booked hbooked
  intro p
  exact (hc p).trans (by rw [← (htracked p).1.2]; rfl)

/-- The loop starts with no direct peer. -/
theorem registryBooks_start (env : Env) (natMapping : NatMapping) (swarm : Sw) :
    RegistryBooks (NodeState.start api cfg env natMapping swarm, ConnectionLedger.new) := by
  refine ⟨fun p => ?_, books_start api cfg env natMapping swarm, fun id p h => by cases h⟩
  have hnone : (NodeState.start api cfg env natMapping swarm).ctx.directPeers = ∅ :=
    NodeState.executeCommands_directPeers api cfg.exposed _ _
  rw [hnone]
  exact iff_of_false (Finset.notMem_empty p) Bool.false_ne_true

/-- In such a state the registry holds the peers with an open direct connection. -/
theorem RegistryBooks.mem_iff {x : NodeState Sw × ConnectionLedger} (h : RegistryBooks x)
    (p : PeerId) : p ∈ x.1.ctx.directPeers ↔ ∃ id, x.2.live.get? id = some (p, false) := by
  rw [h.registry p]
  constructor
  · intro hsome
    obtain ⟨ids, hids⟩ := Option.isSome_iff_exists.mp hsome
    have hnonempty : ids.Nonempty := by
      rw [Finset.nonempty_iff_ne_empty]
      rintro rfl
      exact h.books.direct_ne p hids
    obtain ⟨id, hid⟩ := hnonempty
    exact ⟨id, h.books.direct p id (by rw [hids]; exact hid)⟩
  · rintro ⟨id, hlive⟩
    obtain ⟨ids, hids, _⟩ := h.live id p hlive
    rw [hids]
    rfl

end Runs

/-- **The registry agrees with the open direct connections.** In a run whose connections have
unique ids and are closed only while they are open, the registry holds after each pass exactly
the peers with an open direct connection, whatever number of connections the swarm counts. -/
theorem direct_registry_agrees {Sw : Type} (api : SwarmApi Sw) (cfg : NodeConfig) (env : Env)
    (natMapping : NatMapping) (swarm : Sw) {inputs : List (LoopInput Sw)}
    (horderly : (nodeLedger api cfg).Guarded ServesOrderly
      (.start api cfg env natMapping swarm, .new) inputs) :
    (nodeLedger api cfg).Always
      (fun x => ∀ p, p ∈ x.1.ctx.directPeers ↔ ∃ id, x.2.live.get? id = some (p, false))
      (.start api cfg env natMapping swarm, .new) inputs :=
  have halways : (nodeLedger api cfg).Always RegistryBooks
      (.start api cfg env natMapping swarm, .new) inputs :=
    horderly.always (registryBooks_start api cfg env natMapping swarm)
      (registryBooks_step api cfg)
  halways.mono fun _ h => h.mem_iff

/-- The registry agrees while a relayed connection is upgraded and both connections close. -/
theorem direct_registry_agrees_upgrade :
    (nodeLedger sampleApi webConfig).Always
      (fun x => ∀ p, p ∈ x.1.ctx.directPeers ↔ ∃ id, x.2.live.get? id = some (p, false))
      (.start sampleApi webConfig .sorted .unknown ⟨[], 0⟩, .new) upgradeRun :=
  direct_registry_agrees sampleApi webConfig .sorted .unknown ⟨[], 0⟩ (by decide)

/-- The peer is in the registry while the direct connection is open. -/
example : ((nodeLedger sampleApi webConfig).after
    (.start sampleApi webConfig .sorted .unknown ⟨[], 0⟩, .new)
    (upgradeRun.take 2)).1.ctx.directPeers = {⟨1⟩} := by
  decide

end Punchgate
