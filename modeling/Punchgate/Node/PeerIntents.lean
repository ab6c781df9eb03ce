import Punchgate.Node.Disconnect
import Punchgate.Node.ServiceLookups

/-!
# Pending intents in the loop

Intents that are pending for a peer are woken by the end of a lookup or of a dial. The loop
remembers the lookups; the dials are the swarm's. A dial that the swarm refuses produces no
event, and `execute_commands` does no more than log the refusal. So intents stay pending without
anything to wake them, as do those for which the failure of a dial is taken for a dial to the
node itself, or is left to a hole punch.
-/

namespace Punchgate

namespace NodeState

variable {Sw : Type}

/-- A lookup of the peer is open, or a dial to it is in progress. -/
def Woken (dialing : Sw → PeerId → ℕ) (p : PeerId) (n : NodeState Sw) : Prop :=
  n.ctx.kadTunnelQueries.HasValue p ∨ 0 < dialing n.swarm p

/-- Pending intents for the peer are going to be woken. -/
def PeerAttended (dialing : Sw → PeerId → ℕ) (p : PeerId) (n : NodeState Sw) : Prop :=
  n.app.tunnel.pendingByPeer.contains p = true → n.Woken dialing p

instance (dialing : Sw → PeerId → ℕ) (p : PeerId) (n : NodeState Sw) :
    Decidable (n.Woken dialing p) := inferInstanceAs (Decidable (_ ∨ _))

instance (dialing : Sw → PeerId → ℕ) (p : PeerId) (n : NodeState Sw) :
    Decidable (n.PeerAttended dialing p) := inferInstanceAs (Decidable (_ → _))

/-- The swarm when the commands of the tunnel machine for an event are executed: those of the
peer machine come first. -/
def dialSwarm (api : SwarmApi Sw) (cfg : NodeConfig) (env : Env) (n : NodeState Sw) (e : Event) :
    Sw :=
  (executeCommands api cfg.exposed (n.swarm, n.ctx) (n.app.peer.transition env e).2).1

/-- An event leaves pending intents to a hole punch, or the swarm refuses the dial they are to
wait for. -/
def Strands (api : SwarmApi Sw) (cfg : NodeConfig) (env : Env) (p : PeerId) (n : NodeState Sw)
    (e : Event) : Prop :=
  n.app.tunnel.Ignores p e ∨ ∃ addrs, n.app.tunnel.Redials env p e addrs ∧
    api.refuses (n.dialSwarm api cfg env e) p addrs = true

end NodeState

/-- A pass strands the intents for a peer: with no other lookup of the peer open and no dial to it
in progress, they are left to a hole punch, or the dial they are to wait for is refused, or the
failure of a dial is taken for a dial to the node itself. The dial is refused by the swarm as it
is once the port mapping has been picked up. -/
def NodeState.StrandsPeer {Sw : Type} (api : SwarmApi Sw) (cfg : NodeConfig)
    (dialing : Sw → PeerId → ℕ) (p : PeerId) (n : NodeState Sw) (input : LoopInput Sw) : Prop :=
  match input.branch with
  | .swarmEvent event swarm probe =>
    let m := (({ n with swarm := swarm } : NodeState Sw).pollPortMapping api cfg input.env probe).1
    n.app.phase ≠ .shuttingDown ∧ dialing m.swarm p = 0 ∧
      match event with
      | .behaviour (.kadGetClosestPeers id true) =>
        n.ctx.kadTunnelQueries.get? id = some p ∧
          ¬(n.ctx.kadTunnelQueries.erase id).HasValue p ∧ api.isConnected m.swarm p = false ∧
          m.Strands api cfg input.env p (.dhtPeerLookupComplete p false)
      | .outgoingConnectionError peer _ error =>
        peer = some p ∧ ¬n.ctx.kadTunnelQueries.HasValue p ∧
          (containsText error "local peer id" = true ∧
              n.app.tunnel.pendingByPeer.contains p = true ∨
            m.Strands api cfg input.env p (.tunnelDialFailed p error))
      | .connectionClosed peer id num =>
        peer = p ∧ ¬n.ctx.kadTunnelQueries.HasValue p ∧
          ((n.conn.link p).close id num).remaining = 0 ∧
          m.Strands api cfg input.env p (.connectionLost p 0)
      | _ => False
  | _ => False

/-- The events that may strand intents. -/
def SwarmEvent.isDialOrLookup : SwarmEvent → Bool
  | .behaviour _ | .outgoingConnectionError _ _ _ | .connectionClosed _ _ _ => true
  | _ => false

/-! ## One delivery -/

section Deliver

variable {Sw : Type} {api : SwarmApi Sw} {cfg : NodeConfig} {env : Env} {n m : NodeState Sw}
  {issued : Sw → Set QueryId} {dialing : Sw → PeerId → ℕ} {p : PeerId} {since : Prop}

/-- A dial that the swarm does not refuse is in progress afterwards. -/
theorem dialing_pos_of_not_refuses (hdials : api.CountsDials dialing)
    {exposed : List ExposedService} {world : Sw × ExecutionContext} {c : Command}
    {addrs : List Multiaddr} (hc : c.dialed = some (p, addrs))
    (hrefuses : api.refuses world.1 p addrs = false) :
    0 < dialing (executeCommand api exposed world c).1 p := by
  have hswarm : (executeCommand api exposed world c).1 =
      (api.dial world.1 (.peerNotDialing p addrs)).1 := by
    cases c <;> cases hc <;> rfl
  have hdial : api.Operates world.1 (api.dial world.1 (.peerNotDialing p addrs)).1 := .dial _
  have hkept := hdials.kept _ _ hdial p
  rw [hswarm]
  unfold SwarmApi.refuses at hrefuses
  cases hresult : (api.dial world.1 (.peerNotDialing p addrs)).2 with
  | ok _ =>
    have haccepted := hdials.accepted world.1 (.peerNotDialing p addrs) p rfl hresult
    omega
  | error reason =>
    cases reason with
    | dialPeerConditionFalse =>
      have hbusy := hdials.busy world.1 p addrs hresult
      omega
    | other text =>
      rw [hresult] at hrefuses
      cases hrefuses

namespace NodeState

/-- The wake-up of a peer stays arranged while commands are executed. -/
theorem Woken.deliver (hlookups : api.Numbers issued api.getClosestPeers)
    (hdials : api.CountsDials dialing)
    (hnumbered : Numbered issued ExecutionContext.kadTunnelQueries (n.swarm, n.ctx))
    (h : n.Woken dialing p) (source : DeliverySource) (e : Event) :
    (deliver api cfg env source n e).1.Woken dialing p := by
  have hoperated := executeCommands_operated api cfg.exposed (n.swarm, n.ctx)
    (n.app.transition env e).2
  have hregister : Registers api cfg.exposed issued ExecutionContext.kadTunnelQueries
      Command.lookedUp := hlookups.registers_lookups
  have hstored := (hregister.executeCommands (n.swarm, n.ctx) (n.app.transition env e).2
    hnumbered).2 p
  rcases h with hlookup | hdialing
  · exact Or.inl (hstored (Or.inl hlookup))
  · exact Or.inr (lt_of_lt_of_le hdialing (hdials.operated hoperated p))

/-- A dial that is not refused is in progress once the event is delivered. -/
theorem woken_deliver_of_dial (hdials : api.CountsDials dialing) (source : DeliverySource)
    {e : Event} {c : Command} {addrs : List Multiaddr} (hc : c.dialed = some (p, addrs))
    (hcs : (n.app.tunnel.transition env e).2 = [c])
    (hrefuses : api.refuses (n.dialSwarm api cfg env e) p addrs = false) :
    (deliver api cfg env source n e).1.Woken dialing p := by
  have hnot : ¬n.app.EntersReady (env, e) := by
    intro henters
    obtain ⟨hidle, _⟩ := (n.app.peer.transition_phase env e).enters_ready henters.1 henters.2
      n.app.tunnel
    rw [hidle] at hcs
    cases hcs
  have hcommands : (n.app.transition env e).2 = (n.app.peer.transition env e).2 ++ [c] := by
    rw [AppState.transition_commands, if_neg hnot, hcs, List.nil_append]
  right
  change 0 < dialing (executeCommands api cfg.exposed (n.swarm, n.ctx)
    (n.app.transition env e).2).1 p
  rw [hcommands, executeCommands_append]
  exact dialing_pos_of_not_refuses hdials hc hrefuses

/-- A delivered event leaves the intents of a peer attended to if they were, or if the event is
to wake them, unless it strands them. So does the event that makes the node ready. -/
theorem peerAttended_deliver (hlookups : api.Numbers issued api.getClosestPeers)
    (hdials : api.CountsDials dialing)
    (hnumbered : Numbered issued ExecutionContext.kadTunnelQueries (n.swarm, n.ctx))
    (source : DeliverySource) {e : Event}
    (h : (n.PeerAttended dialing p ∨ e.settles = some p) ∧
        (n.Woken dialing p ∨ ¬n.Strands api cfg env p e) ∨ n.app.EntersReady (env, e)) :
    (deliver api cfg env source n e).1.PeerAttended dialing p := by
  intro hpending
  have hregister : Registers api cfg.exposed issued ExecutionContext.kadTunnelQueries
      Command.lookedUp := hlookups.registers_lookups
  have hasked (hmem : .dhtLookupPeer p ∈ (n.app.transition env e).2) :
      (deliver api cfg env source n e).1.Woken dialing p :=
    Or.inl ((hregister.executeCommands (n.swarm, n.ctx) (n.app.transition env e).2 hnumbered).2 p
      (Or.inr ⟨_, hmem, rfl⟩))
  have hkept (hwoken : n.Woken dialing p) :
      (deliver api cfg env source n e).1.Woken dialing p :=
    hwoken.deliver hlookups hdials hnumbered source e
  have hafter : (n.app.tunnel.transition env e).1.pendingByPeer.contains p = true := by
    rw [← AppState.transition_tunnel]
    exact hpending
  rcases h with ⟨hbefore, hok⟩ | henters
  · cases TunnelState.stillPending_transition hafter with
    | lookup hmem =>
      refine hasked ?_
      rw [AppState.transition_commands]
      exact List.mem_append_right _ (List.mem_append_right _ hmem)
    | @dial c addrs hredials hc hcs =>
      rcases hok with hwoken | hnot
      · exact hkept hwoken
      · refine woken_deliver_of_dial hdials source hc hcs ?_
        rw [← Bool.not_eq_true]
        exact fun hrefuses => hnot (Or.inr ⟨addrs, hredials, hrefuses⟩)
    | ignored hignores =>
      rcases hok with hwoken | hnot
      · exact hkept hwoken
      · exact absurd (Or.inl hignores) hnot
    | untouched hwaiting hsettles => exact hkept (hbefore.resolve_right hsettles hwaiting)
  · obtain ⟨htunnel, hcommands⟩ := henters.transition_eq
    refine hasked ?_
    rw [hcommands]
    have hkey : p ∈ n.app.tunnel.pendingByPeer.keys := by
      rw [FiniteMap.mem_keys, ← htunnel]
      exact hpending
    refine List.mem_append_right _ (List.mem_cons_of_mem _ (List.mem_append_left _ ?_))
    exact List.mem_map_of_mem ((env.peerOrder.mem_iff _ _).mpr hkey)

/-! ## The books -/

/-- The books of peer lookups: only issued ids are remembered, and if `since` holds or the node
is ready, then the pending intents for the peer are attended to. -/
structure PeerBooks (issued : Sw → Set QueryId) (dialing : Sw → PeerId → ℕ) (p : PeerId)
    (since : Prop) (n : NodeState Sw) : Prop where
  /-- Only issued ids are remembered. -/
  numbered : Numbered issued ExecutionContext.kadTunnelQueries (n.swarm, n.ctx)
  /-- The pending intents are attended to. -/
  attended : since ∨ n.app.phase = .ready → n.PeerAttended dialing p

/-- The bookkeeping of a pass remembers only issued ids. -/
theorem lookupsNumbered_carried (hlookups : api.Numbers issued api.getClosestPeers)
    (h : Numbered issued ExecutionContext.kadTunnelQueries (n.swarm, n.ctx))
    (hcarried : Carried api n m) :
    Numbered issued ExecutionContext.kadTunnelQueries (m.swarm, m.ctx) := by
  intro id hid
  refine hlookups.operated hcarried.swarm (h id ?_)
  dsimp only at hid
  rwa [hcarried.lookups] at hid

/-- The events of a pass lead only to issued ids. -/
theorem stable_lookupsNumbered (hlookups : api.Numbers issued api.getClosestPeers) :
    Stable api cfg env
      (fun n => Numbered issued ExecutionContext.kadTunnelQueries (n.swarm, n.ctx))
      fun _ => True where
  own _ _ := trivial
  booked _ _ _ h := h
  observed n e h := lookupsNumbered_carried hlookups h (carried_observeIdentify api cfg n e)
  delivered _ n _ _ h := by
    have hregister : Registers api cfg.exposed issued ExecutionContext.kadTunnelQueries
        Command.lookedUp := hlookups.registers_lookups
    exact (hregister.executeCommands (n.swarm, n.ctx) _ h).1

/-- The books survive the bookkeeping of a pass. -/
theorem PeerBooks.carried (hlookups : api.Numbers issued api.getClosestPeers)
    (hdials : api.CountsDials dialing) (h : PeerBooks issued dialing p since n)
    (hcarried : Carried api n m) : PeerBooks issued dialing p since m := by
  refine ⟨lookupsNumbered_carried hlookups h.numbered hcarried, fun hready hpending => ?_⟩
  rw [hcarried.phase] at hready
  rw [hcarried.tunnel] at hpending
  unfold Woken
  rw [hcarried.lookups]
  have hle := hdials.operated hcarried.swarm p
  exact (h.attended hready hpending).imp_right fun hpos => lt_of_lt_of_le hpos hle

/-- The books survive the delivery of an event that does not strand the intents. -/
theorem PeerBooks.deliver (hlookups : api.Numbers issued api.getClosestPeers)
    (hdials : api.CountsDials dialing) (h : PeerBooks issued dialing p since n)
    (source : DeliverySource) {e : Event}
    (hok : since ∨ n.app.phase = .ready → n.Woken dialing p ∨ ¬n.Strands api cfg env p e) :
    PeerBooks issued dialing p since (deliver api cfg env source n e).1 := by
  have hregister : Registers api cfg.exposed issued ExecutionContext.kadTunnelQueries
      Command.lookedUp := hlookups.registers_lookups
  constructor
  case numbered => exact (hregister.executeCommands (n.swarm, n.ctx) _ h.numbered).1
  case attended =>
    intro hready
    refine peerAttended_deliver hlookups hdials h.numbered source ?_
    by_cases hbefore : since ∨ n.app.phase = .ready
    · exact Or.inl ⟨Or.inl (h.attended hbefore), hok hbefore⟩
    · rw [not_or] at hbefore
      exact Or.inr ⟨hbefore.2, hready.resolve_left hbefore.1⟩

/-- Only an event that is to wake the intents, or the loss of a connection, strands them. -/
theorem not_strands {e : Event} (hsettles : e.settles ≠ some p)
    (hlost : ∀ r, e ≠ .connectionLost p r) : ¬n.Strands api cfg env p e := by
  rintro (hignores | ⟨addrs, hredials, _⟩)
  · cases hignores <;> exact hsettles rfl
  · cases hredials with
    | lookedUp => exact hsettles rfl
    | dialFailed => exact hsettles rfl
    | lost => exact hlost 0 rfl

/-- The books survive all that a pass does, apart from the events that strand intents. -/
theorem stable_peerBooks (hlookups : api.Numbers issued api.getClosestPeers)
    (hdials : api.CountsDials dialing) :
    Stable api cfg env (PeerBooks issued dialing p since)
      fun e => e.settles ≠ some p ∧ ∀ r, e ≠ .connectionLost p r where
  own e he := by
    constructor
    · cases e <;> first | (cases he; done) | simp [Event.settles]
    · intro r heq
      rw [heq] at he
      cases he
  booked _ _ _ h := ⟨h.numbered, h.attended⟩
  observed n e h := h.carried hlookups hdials (carried_observeIdentify api cfg n e)
  delivered source _ _ he h :=
    h.deliver hlookups hdials source fun _ => Or.inr (not_strands he.1 he.2)

/-- Feeding an event that is to wake the intents, or the loss of a connection to their peer,
keeps the books; the former puts them in order. -/
theorem peerBooks_feed (hlookups : api.Numbers issued api.getClosestPeers)
    (hdials : api.CountsDials dialing)
    (hnumbered : Numbered issued ExecutionContext.kadTunnelQueries (n.swarm, n.ctx)) {e : Event}
    (he : e.settles = some p ∨
      (∃ r, e = .connectionLost p r) ∧ PeerBooks issued dialing p since n)
    (hok : since ∨ n.app.phase = .ready → n.Woken dialing p ∨ ¬n.Strands api cfg env p e) :
    PeerBooks issued dialing p since (n.feed api cfg env e).1 := by
  have hregister : Registers api cfg.exposed issued ExecutionContext.kadTunnelQueries
      Command.lookedUp := hlookups.registers_lookups
  have hplain : e.isPlain = true := by
    rcases he with he | ⟨⟨r, rfl⟩, _⟩
    · cases e <;> first | rfl | cases he
    · rfl
  refine (stable_peerBooks hlookups hdials).feed_of_deliver hplain ?_
  rcases he with he | ⟨_, h⟩
  · refine ⟨(hregister.executeCommands (n.swarm, n.ctx) _ hnumbered).1, fun hready => ?_⟩
    refine peerAttended_deliver hlookups hdials hnumbered .eventList ?_
    by_cases hbefore : since ∨ n.app.phase = .ready
    · exact Or.inl ⟨Or.inr he, hok hbefore⟩
    · rw [not_or] at hbefore
      exact Or.inr ⟨hbefore.2, hready.resolve_left hbefore.1⟩
  · exact h.deliver hlookups hdials .eventList hok

/-- Feeding events that have nothing to do with the intents keeps the books. -/
theorem PeerBooks.feedAll (hlookups : api.Numbers issued api.getClosestPeers)
    (hdials : api.CountsDials dialing) (h : PeerBooks issued dialing p since n) {es : List Event}
    (hes : ∀ e ∈ es, e.settles ≠ some p ∧ ∀ r, e ≠ .connectionLost p r) :
    PeerBooks issued dialing p since (n.feedAll api cfg env es).1 := by
  refine (stable_peerBooks hlookups hdials).feedAll (fun e he conn e' he' => ?_) h
  obtain ⟨hsettles, hlost⟩ := hes e he
  cases e with
  | holePunchFailed q reason =>
    obtain ⟨stats, _, rfl⟩ := Option.map_eq_some_iff.mp he'
    exact ⟨by simp [Event.settles], by simp⟩
  | holePunchAttemptFailed q a reason =>
    simp only [attributeFailure] at he'
    split at he'
    · split at he'
      · cases he'
      · cases he'
        exact ⟨hsettles, hlost⟩
    · cases he'
      exact ⟨hsettles, hlost⟩
  | _ =>
    cases he'
    exact ⟨hsettles, hlost⟩

/-- An event of the swarm that ends no dial to the peer leaves the books in order. -/
theorem PeerBooks.next (h : PeerBooks issued dialing p since n) {swarm : Sw}
    (hissued : issued n.swarm ⊆ issued swarm) (hdialing : dialing n.swarm p ≤ dialing swarm p) :
    PeerBooks issued dialing p since { n with swarm := swarm } := by
  refine ⟨fun id hid => hissued (h.numbered id hid), fun hready hpending => ?_⟩
  exact (h.attended hready hpending).imp_right fun hpos => lt_of_lt_of_le hpos hdialing

/-! ## The branch for swarm events -/

/-- The swarm that a command leaves does not depend on what the context remembers. -/
theorem executeCommands_swarm (exposed : List ExposedService) (sw : Sw)
    (ctx ctx' : ExecutionContext) (cs : List Command) :
    (executeCommands api exposed (sw, ctx) cs).1 = (executeCommands api exposed (sw, ctx') cs).1 := by
  induction cs generalizing sw ctx ctx' with
  | nil => rfl
  | cons c cs ih => cases c <;> exact ih _ _ _

/-- Whether an event strands intents depends on the state machine and the swarm. -/
theorem Strands.congr {e : Event} (happ : m.app = n.app) (hswarm : m.swarm = n.swarm)
    (h : m.Strands api cfg env p e) : n.Strands api cfg env p e := by
  unfold Strands dialSwarm at h ⊢
  rw [← happ, ← hswarm, executeCommands_swarm cfg.exposed m.swarm n.ctx m.ctx]
  exact h

/-- The loss of a connection strands intents only if it is the last one. -/
theorem Strands.lost {r : UInt32} (h : n.Strands api cfg env p (.connectionLost p r)) : r = 0 := by
  rcases h with hignores | ⟨_, hredials, _⟩
  · cases hignores
  · cases hredials
    rfl

/-- What the port mapping does to the state machine and the swarm depends on little. -/
theorem pollPortMapping_congr (happ : m.app = n.app) (hswarm : m.swarm = n.swarm)
    (hmapping : m.portMapping = n.portMapping) (probe : Option (Option (Ipv4Addr × UInt16))) :
    (m.pollPortMapping api cfg env probe).1.app = (n.pollPortMapping api cfg env probe).1.app ∧
      (m.pollPortMapping api cfg env probe).1.swarm =
        (n.pollPortMapping api cfg env probe).1.swarm := by
  unfold pollPortMapping
  rw [hmapping]
  split
  · exact ⟨happ, hswarm⟩
  · dsimp only [deliver]
    rw [happ, hswarm, (transition_natStatusChanged_public env n.app).2]
    exact ⟨rfl, rfl⟩
  · exact ⟨happ, hswarm⟩

/-- Up to the event list, the end of a lookup, of a dial or of a connection changes the state
machine and the swarm only through the port mapping. -/
theorem prepare_polled (api : SwarmApi Sw) (cfg : NodeConfig) (env : Env) (n : NodeState Sw)
    {event : SwarmEvent} (hevent : event.isDialOrLookup = true)
    (probe : Option (Option (Ipv4Addr × UInt16))) :
    (n.prepare api cfg env event probe).1.app = (n.pollPortMapping api cfg env probe).1.app ∧
      (n.prepare api cfg env event probe).1.swarm =
        (n.pollPortMapping api cfg env probe).1.swarm := by
  have hbooks (m : NodeState Sw) (happ : m.app = n.app) (hswarm : m.swarm = n.swarm)
      (hmapping : m.portMapping = n.portMapping) (lost : Option PeerId) :
      ((m.trackBootstrap api cfg env event lost).pollPortMapping api cfg env probe).1.app =
          (n.pollPortMapping api cfg env probe).1.app ∧
        ((m.trackBootstrap api cfg env event lost).pollPortMapping api cfg env probe).1.swarm =
          (n.pollPortMapping api cfg env probe).1.swarm := by
    obtain ⟨_, _, heq⟩ := trackBootstrap_same api cfg env m event lost
    rw [heq]
    refine pollPortMapping_congr ?_ ?_ ?_ probe <;> assumption
  cases event with
  | behaviour event => exact ⟨rfl, rfl⟩
  | outgoingConnectionError peer id error =>
    exact hbooks (n.bookkeep api cfg env (.outgoingConnectionError peer id error)).1 rfl rfl rfl
      none
  | connectionClosed peer id num =>
    exact hbooks (n.bookkeep api cfg env (.connectionClosed peer id num)).1 rfl rfl rfl _
  | _ => cases hevent

/-- The end of a lookup keeps the books, unless it strands the intents. -/
theorem PeerBooks.lookedUp (hlookups : api.Numbers issued api.getClosestPeers)
    (hdials : api.CountsDials dialing) (h : PeerBooks issued dialing p since n) {id : QueryId}
    {target : PeerId} (hquery : n.ctx.kadTunnelQueries.get? id = some target) {connected : Bool}
    (hok : target = p → connected = false → since ∨ n.app.phase = .ready →
      (n.ctx.kadTunnelQueries.erase id).HasValue p ∨ 0 < dialing n.swarm p ∨
        ¬n.Strands api cfg env p (.dhtPeerLookupComplete p false)) :
    PeerBooks issued dialing p since (NodeState.feedAll api cfg env { n with
      ctx := { n.ctx with kadTunnelQueries := n.ctx.kadTunnelQueries.erase id } }
        [.dhtPeerLookupComplete target connected]).1 := by
  have hnumbered : Numbered issued ExecutionContext.kadTunnelQueries
      (n.swarm, { n.ctx with kadTunnelQueries := n.ctx.kadTunnelQueries.erase id }) :=
    fun id' hid' => h.numbered id' (FiniteMap.contains_of_contains_erase hid')
  by_cases htarget : target = p
  · subst htarget
    rw [feedAll_singleton]
    refine peerBooks_feed hlookups hdials hnumbered (Or.inl rfl) fun hready => ?_
    cases connected with
    | true =>
      right
      rintro (hignores | ⟨_, hredials, _⟩)
      · cases hignores
      · cases hredials
    | false =>
      rcases hok rfl rfl hready with hlookup | hdialing | hnot
      · exact Or.inl (Or.inl hlookup)
      · exact Or.inl (Or.inr hdialing)
      · exact Or.inr fun hstrands => hnot (hstrands.congr rfl rfl)
  · have hforgot : PeerBooks issued dialing p since { n with
        ctx := { n.ctx with kadTunnelQueries := n.ctx.kadTunnelQueries.erase id } } := by
      refine ⟨hnumbered, fun hready hpending => ?_⟩
      refine (h.attended hready hpending).imp_left fun hlookup => hlookup.erase ?_
      rw [hquery]
      exact fun heq => htarget (Option.some.inj heq)
    refine hforgot.feedAll hlookups hdials fun e he => ?_
    rw [List.mem_singleton.mp he]
    exact ⟨fun heq => htarget (Option.some.inj heq), fun _ heq => by cases heq⟩

/-- A new connection to the peer puts the books in order, one to another peer keeps them. -/
theorem peerBooks_connected (hlookups : api.Numbers issued api.getClosestPeers)
    (hdials : api.CountsDials dialing) (hp : p ∉ cfg.bootstrapPeerIds)
    (hnumbered : Numbered issued ExecutionContext.kadTunnelQueries (n.swarm, n.ctx))
    (hphase : n.app.phase ≠ .shuttingDown) {q : PeerId}
    (h : q ≠ p → PeerBooks issued dialing p since n) {synthetic : List Event}
    (hsynthetic : ∀ e ∈ synthetic, ∃ a, e = .holePunchAttemptStarted q a) (addr : Multiaddr)
    (relayed : Bool) :
    PeerBooks issued dialing p since (n.feedAll api cfg env (synthetic ++
      ((if q ∈ cfg.bootstrapPeerIds then [.bootstrapConnected q addr] else []) ++
        [.tunnelPeerConnected q relayed]))).1 := by
  by_cases hq : q = p
  · subst hq
    have hkept : Numbered issued ExecutionContext.kadTunnelQueries
        ((n.feedAll api cfg env synthetic).1.swarm, (n.feedAll api cfg env synthetic).1.ctx) :=
      (stable_lookupsNumbered hlookups).feedAll (fun _ _ _ _ _ => trivial) hnumbered
    have hno : Event.shutdownRequested ∉ synthetic := fun hmem => by
      obtain ⟨a, heq⟩ := hsynthetic _ hmem
      cases heq
    rw [if_neg hp, List.nil_append, feedAll_concat api cfg env n _ hno hphase]
    refine peerBooks_feed hlookups hdials hkept (Or.inl rfl) fun _ => Or.inr ?_
    rintro (hignores | ⟨_, hredials, _⟩)
    · cases hignores
    · cases hredials
  · refine (h hq).feedAll hlookups hdials fun e he => ?_
    rcases List.mem_append.mp he with he | he
    · obtain ⟨a, rfl⟩ := hsynthetic e he
      exact ⟨by simp [Event.settles], by simp⟩
    · rcases List.mem_append.mp he with he | he
      · split at he
        · rw [List.mem_singleton.mp he]
          exact ⟨by simp [Event.settles], by simp⟩
        · cases he
      · rw [List.mem_singleton.mp he]
        exact ⟨fun heq => hq (Option.some.inj heq), by simp⟩

/-- The failure of a dial keeps the books, unless it strands the intents. -/
theorem peerBooks_dialFailed (hlookups : api.Numbers issued api.getClosestPeers)
    (hdials : api.CountsDials dialing) (hp : p ∉ cfg.bootstrapPeerIds)
    (hnumbered : Numbered issued ExecutionContext.kadTunnelQueries (n.swarm, n.ctx)) {q : PeerId}
    (h : q ≠ p → PeerBooks issued dialing p since n) {error : String}
    (hok : q = p → since ∨ n.app.phase = .ready → ¬n.Woken dialing p →
      ¬(containsText error "local peer id" = true ∧ n.app.tunnel.pendingByPeer.contains p = true ∨
        n.Strands api cfg env p (.tunnelDialFailed p error))) :
    PeerBooks issued dialing p since (n.feedAll api cfg env
      (if q ∉ cfg.bootstrapPeerIds ∧ containsText error "local peer id" = false then
        [.tunnelDialFailed q error] else [])).1 := by
  by_cases hq : q = p
  · subst hq
    cases hself : containsText error "local peer id" with
    | true =>
      rw [if_neg fun hboth => by cases hboth.2]
      refine ⟨hnumbered, fun hready hpending => ?_⟩
      by_contra hnot
      exact hok rfl hready hnot (Or.inl ⟨hself, hpending⟩)
    | false =>
      rw [if_pos ⟨hp, rfl⟩, feedAll_singleton]
      refine peerBooks_feed hlookups hdials hnumbered (Or.inl rfl) fun hready => ?_
      rw [or_iff_not_imp_left]
      exact fun hnot hstrands => hok rfl hready hnot (Or.inr hstrands)
  · refine (h hq).feedAll hlookups hdials fun e he => ?_
    split at he
    · rw [List.mem_singleton.mp he]
      exact ⟨fun heq => hq (Option.some.inj heq), by simp⟩
    · cases he

/-- The loss of a connection keeps the books, unless it strands the intents. -/
theorem PeerBooks.closed (hlookups : api.Numbers issued api.getClosestPeers)
    (hdials : api.CountsDials dialing) (h : PeerBooks issued dialing p since n)
    (hphase : n.app.phase ≠ .shuttingDown) {q : PeerId} {remaining : UInt32} {es : List Event}
    (hes : ∀ e ∈ es, e.settles ≠ some p ∧ ∀ r, e ≠ .connectionLost p r)
    (hok : q = p → remaining = 0 → since ∨ n.app.phase = .ready → ¬n.Woken dialing p →
      ¬n.Strands api cfg env p (.connectionLost p 0)) :
    PeerBooks issued dialing p since
      (n.feedAll api cfg env (.connectionLost q remaining :: es)).1 := by
  by_cases hq : q = p
  · subst hq
    have hfed : PeerBooks issued dialing q since
        (n.feed api cfg env (.connectionLost q remaining)).1 := by
      refine peerBooks_feed hlookups hdials h.numbered (Or.inr ⟨⟨_, rfl⟩, h⟩) fun hready => ?_
      rw [or_iff_not_imp_left]
      intro hnot hstrands
      have hzero := hstrands.lost
      rw [hzero] at hstrands
      exact hok rfl hzero hready hnot hstrands
    rw [feedAll_cons api cfg env _ _ (by simp) hphase]
    exact hfed.feedAll hlookups hdials hes
  · refine h.feedAll hlookups hdials fun e he => ?_
    rcases List.mem_cons.mp he with rfl | he
    · exact ⟨by simp [Event.settles], by simpa using hq⟩
    · exact hes e he

/-- The branch for swarm events keeps the books, unless it strands the intents. -/
theorem PeerBooks.onSwarmEvent (hlookups : api.Numbers issued api.getClosestPeers)
    (hdials : api.CountsDials dialing) (hp : p ∉ cfg.bootstrapPeerIds)
    (h : PeerBooks issued dialing p since n) (hphase : n.app.phase ≠ .shuttingDown)
    (event : SwarmEvent) {swarm : Sw} (probe : Option (Option (Ipv4Addr × UInt16)))
    (hissued : issued n.swarm ⊆ issued swarm)
    (hdialing : dialing n.swarm p ≤ dialing swarm p + if event.endedDial = some p then 1 else 0)
    (hok : since ∨ n.app.phase = .ready →
      ¬n.StrandsPeer api cfg dialing p ⟨env, .swarmEvent event swarm probe⟩) :
    PeerBooks issued dialing p since (n.onSwarmEvent api cfg env event swarm probe).1 := by
  obtain ⟨m, synthetic, hcarried, hbooked, hnode, hlist⟩ :=
    prepare_carried api cfg env { n with swarm := swarm } event probe
  have hpolled (hevent : event.isDialOrLookup = true) :=
    prepare_polled api cfg env { n with swarm := swarm } hevent probe
  have hnumbered : Numbered issued ExecutionContext.kadTunnelQueries (m.swarm, m.ctx) :=
    lookupsNumbered_carried (n := { n with swarm := swarm }) hlookups
      (fun id hid => hissued (h.numbered id hid)) hcarried
  have hm (hended : event.endedDial ≠ some p) : PeerBooks issued dialing p since m :=
    (h.next hissued (by simpa [hended] using hdialing)).carried hlookups hdials hcarried
  have hready : m.app.phase = n.app.phase := hcarried.phase
  have hidle (hnot : ¬m.Woken dialing p) (hevent : event.isDialOrLookup = true) :
      ¬n.ctx.kadTunnelQueries.HasValue p ∧ dialing (NodeState.pollPortMapping api cfg env
        { n with swarm := swarm } probe).1.swarm p = 0 := by
    unfold Woken at hnot
    rw [not_or, hcarried.lookups] at hnot
    rw [← (hpolled hevent).2, hnode]
    exact ⟨hnot.1, Nat.eq_zero_of_not_pos hnot.2⟩
  have htranslated := translateSwarmEvent_translated env cfg.bootstrapPeerIds m.ctx
    (api.isConnected m.swarm) event
  change PeerBooks issued dialing p since (NodeState.feedAll api cfg env
    (prepare api cfg env { n with swarm := swarm } event probe).1
    (prepare api cfg env { n with swarm := swarm } event probe).2.1).1
  rw [hnode] at hpolled ⊢
  rw [hlist]
  clear hnode hlist
  generalize (translateSwarmEvent env cfg.bootstrapPeerIds m.ctx (api.isConnected m.swarm)
    event).1 = events, (translateSwarmEvent env cfg.bootstrapPeerIds m.ctx
      (api.isConnected m.swarm) event).2 = ctx at htranslated ⊢
  unfold StrandsPeer at hok
  cases htranslated with
  | quiet hended hquiet =>
    have hbooks := hm (by simp [hended])
    have hes : ∀ e ∈ events, e.settles ≠ some p ∧ ∀ r, e ≠ .connectionLost p r := by
      intro e he
      refine ⟨?_, (hquiet e he).2 p⟩
      rw [(hquiet e he).1]
      exact fun heq => by cases heq
    cases hbooked with
    | @closed q id num d hlink =>
      refine hbooks.closed hlookups hdials (hready ▸ hphase) hes
        fun hq hzero hsince hnot hstrands => ?_
      subst hq
      have hclose := hlink q
      rw [if_pos rfl] at hclose
      rw [hclose] at hzero
      exact hok (hready ▸ hsince) ⟨hphase, (hidle hnot rfl).2, rfl, (hidle hnot rfl).1, hzero,
        hstrands.congr (hpolled rfl).1 (hpolled rfl).2⟩
    | other => exact hbooks.feedAll hlookups hdials hes
    | _ => cases hended
  | @connected q id endpoint hevents =>
    rw [hevents]
    refine peerBooks_connected hlookups hdials hp hnumbered (hready ▸ hphase)
      (fun hq => hm fun heq => hq (Option.some.inj heq)) (fun e he => ?_) _ _
    cases hbooked with
    | relayedStarted a => exact ⟨a, List.mem_singleton.mp he⟩
    | _ => cases he
  | @dialFailed q id error hevents =>
    rw [hbooked.synthetic_eq_nil rfl, hevents, List.nil_append]
    refine peerBooks_dialFailed hlookups hdials hp hnumbered
      (fun hq => hm fun heq => hq (Option.some.inj heq)) fun hq hsince hnot hstrands => ?_
    subst hq
    refine hok (hready ▸ hsince) ⟨hphase, (hidle hnot rfl).2, rfl, (hidle hnot rfl).1, ?_⟩
    rcases hstrands with hself | hstrands
    · exact Or.inl ⟨hself.1, hcarried.tunnel ▸ hself.2⟩
    · exact Or.inr (hstrands.congr (hpolled rfl).1 (hpolled rfl).2)
  | @lookedUp id target hquery hevents =>
    rw [hbooked.synthetic_eq_nil rfl, hevents, List.nil_append]
    refine (hm fun heq => by cases heq).lookedUp hlookups hdials hquery ?_
    rintro rfl hconnected hsince
    rw [or_iff_not_imp_left]
    intro hlookup
    rw [or_iff_not_imp_left]
    intro hdial hstrands
    rw [hcarried.lookups] at hquery hlookup
    have hswarm := (hpolled rfl).2
    dsimp only at hswarm
    rw [hswarm] at hconnected hdial
    exact hok (hready ▸ hsince) ⟨hphase, Nat.eq_zero_of_not_pos hdial, hquery, hlookup, hconnected,
      hstrands.congr (hpolled rfl).1 hswarm⟩
  | @answered id result name e hquery hone he =>
    have hbooks := hm fun heq => by cases heq
    have hforgot : PeerBooks issued dialing p since { m with
        ctx := { m.ctx with kadServiceQueries := m.ctx.kadServiceQueries.erase id } } :=
      ⟨hbooks.numbered, hbooks.attended⟩
    rw [hbooked.synthetic_eq_nil rfl, hone, List.nil_append]
    refine hforgot.feedAll hlookups hdials fun e' he' => ?_
    rw [List.mem_singleton.mp he']
    cases e <;> first | cases he | exact ⟨by simp [Event.settles], by simp⟩

/-- A pass keeps the books, unless it strands the intents. -/
theorem PeerBooks.step (hlookups : api.Numbers issued api.getClosestPeers)
    (hdials : api.CountsDials dialing) (hp : p ∉ cfg.bootstrapPeerIds)
    (h : PeerBooks issued dialing p since n) (input : LoopInput Sw)
    (hissued : KeepsIssued issued n input) (hends : EndsDials dialing n input)
    (hok : since ∨ n.app.phase = .ready → ¬n.StrandsPeer api cfg dialing p input) :
    PeerBooks issued dialing p since ((nodeLoop api cfg).step n input).1 := by
  by_cases hphase : n.app.phase = .shuttingDown
  · rw [step_of_shuttingDown hphase]
    exact h
  · refine (stable_peerBooks hlookups hdials).pass input.branch
      (fun h => h.carried hlookups hdials (carried_onReconnectTimer api input.env n))
      (fun event swarm probe hbranch h => ?_) h
    obtain ⟨env, branch⟩ := input
    subst hbranch
    exact h.onSwarmEvent hlookups hdials hp hphase event probe hissued (hends p) hok

/-- The loop starts with the books in order. -/
theorem peerBooks_start (hlookups : api.Numbers issued api.getClosestPeers)
    (hdials : api.CountsDials dialing) (natMapping : NatMapping) (swarm : Sw) :
    PeerBooks issued dialing p False (start api cfg env natMapping swarm) := by
  unfold start
  refine PeerBooks.deliver hlookups hdials ⟨fun id hid => ?_, fun hready => ?_⟩ .eventList
    fun hready => ?_
  · cases hid
  · rcases hready with hready | hready <;> cases hready
  · rcases hready with hready | hready <;> cases hready

end NodeState

end Deliver

/-! ## Runs -/

section Runs

variable {Sw : Type} (api : SwarmApi Sw) (cfg : NodeConfig) (env : Env) (natMapping : NatMapping)
  (swarm : Sw) {issued : Sw → Set QueryId} {dialing : Sw → PeerId → ℕ}

/-- **No stranded intents.** From the moment a run of the loop reaches the ready phase, the pending
intents for a peer that is no bootstrap peer are attended to after every pass, as long as no pass
strands them. -/
theorem no_stranded_peer_intent (hlookups : api.Numbers issued api.getClosestPeers)
    (hdials : api.CountsDials dialing) {p : PeerId} (hp : p ∉ cfg.bootstrapPeerIds)
    (before after : List (LoopInput Sw))
    (hguard : (nodeLoop api cfg).Guarded
      (fun n input => KeepsIssued issued n input ∧ EndsDials dialing n input)
      (.start api cfg env natMapping swarm) (before ++ after))
    (hfirst : (nodeLoop api cfg).Guarded (fun n _ => n.app.phase ≠ .ready)
      (.start api cfg env natMapping swarm) before)
    (hready : ((nodeLoop api cfg).after (.start api cfg env natMapping swarm) before).app.phase =
      .ready)
    (hok : (nodeLoop api cfg).Guarded
      (fun n input => ¬n.StrandsPeer api cfg dialing p input)
      ((nodeLoop api cfg).after (.start api cfg env natMapping swarm) before) after) :
    (nodeLoop api cfg).Always (NodeState.PeerAttended dialing p)
      ((nodeLoop api cfg).after (.start api cfg env natMapping swarm) before) after := by
  obtain ⟨hbefore, hafter⟩ := Mealy.Machine.guarded_append.mp hguard
  have hbooks : NodeState.PeerBooks issued dialing p False
      ((nodeLoop api cfg).after (.start api cfg env natMapping swarm) before) :=
    (hbefore.and hfirst).invariant
      (NodeState.peerBooks_start hlookups hdials natMapping swarm)
      fun n input h hinput => h.step hlookups hdials hp input hinput.1.1 hinput.1.2
        fun hsince => absurd (hsince.resolve_left id) hinput.2
  have hsince : NodeState.PeerBooks issued dialing p True
      ((nodeLoop api cfg).after (.start api cfg env natMapping swarm) before) :=
    ⟨hbooks.numbered, fun _ => hbooks.attended (Or.inr hready)⟩
  have halways : (nodeLoop api cfg).Always (NodeState.PeerBooks issued dialing p True)
      ((nodeLoop api cfg).after (.start api cfg env natMapping swarm) before) after :=
    (hafter.and hok).always hsince fun n input h hinput =>
      h.step hlookups hdials hp input hinput.1.1 hinput.1.2 fun _ => hinput.2
  exact halways.mono fun n h => h.attended (Or.inl trivial)

end Runs

/-! ## A swarm that refuses to dial -/

/-- A sample swarm that keeps account of its dials. -/
structure DialSwarm where
  /-- The connected peers. -/
  connected : List PeerId
  /-- The dials in progress. -/
  dials : List PeerId
  /-- The peers with a known address. -/
  known : List PeerId
  /-- The number of queries started so far. -/
  queries : ℕ

namespace DialSwarm

/-- One more dial is in progress. -/
def startDial (sw : DialSwarm) (peer : PeerId) : DialSwarm := { sw with dials := peer :: sw.dials }

/-- One more query has been started. -/
def startQuery (sw : DialSwarm) : DialSwarm := { sw with queries := sw.queries + 1 }

/-- The number of dials to a peer that are in progress. -/
def dialing (sw : DialSwarm) (p : PeerId) : ℕ := sw.dials.count p

/-- The ids that have been issued. -/
def issued (sw : DialSwarm) : Set QueryId := {id | id.id < sw.queries}

end DialSwarm

/-- The sample swarm refuses to dial a peer without an address, or a second time meanwhile. -/
def dialApi : SwarmApi DialSwarm where
  isConnected sw peer := peer ∈ sw.connected
  dial sw
    | .peerNotDialing peer addrs =>
      if peer ∈ sw.dials then (sw, .error .dialPeerConditionFalse)
      else if addrs = [] ∧ peer ∉ sw.known then (sw, .error (.other "no addresses for peer"))
      else (sw.startDial peer, .ok ())
    | .address addr =>
      match extractPeerId addr with
      | some peer => (sw.startDial peer, .ok ())
      | none => (sw, .error (.other "no peer in address"))
  bootstrap sw := (sw.startQuery, some ⟨sw.queries⟩)
  getClosestPeers sw _ := (sw.startQuery, ⟨sw.queries⟩)
  getProviders sw _ := (sw.startQuery, ⟨sw.queries⟩)
  request sw _ := sw

/-- A dial of the sample swarm is refused, or one more dial is in progress. -/
theorem dialApi_dial (sw : DialSwarm) (opts : DialOpts) :
    (dialApi.dial sw opts).1 = sw ∧ (dialApi.dial sw opts).2 ≠ .ok () ∨
      ∃ peer, opts.peer = some peer ∧ (dialApi.dial sw opts).1 = sw.startDial peer := by
  cases opts with
  | peerNotDialing peer addrs =>
    simp only [dialApi]
    split
    · exact Or.inl ⟨rfl, by simp⟩
    · split
      · exact Or.inl ⟨rfl, by simp⟩
      · exact Or.inr ⟨peer, rfl, rfl⟩
  | address addr =>
    simp only [dialApi]
    split
    · rename_i peer hpeer
      exact Or.inr ⟨peer, hpeer, rfl⟩
    · exact Or.inl ⟨rfl, by simp⟩

/-- The sample swarm takes back neither queries nor dials. -/
theorem DialSwarm.operates_le {sw sw' : DialSwarm} (h : dialApi.Operates sw sw') :
    sw.queries ≤ sw'.queries ∧ ∀ p, sw.dialing p ≤ sw'.dialing p := by
  cases h with
  | dial opts =>
    rcases dialApi_dial sw opts with ⟨heq, _⟩ | ⟨peer, _, heq⟩
    · rw [heq]
      exact ⟨le_rfl, fun _ => le_rfl⟩
    · rw [heq]
      exact ⟨le_rfl, fun p => List.count_le_count_cons⟩
  | request => exact ⟨le_rfl, fun _ => le_rfl⟩
  | bootstrap => exact ⟨Nat.le_succ _, fun _ => le_rfl⟩
  | getClosestPeers => exact ⟨Nat.le_succ _, fun _ => le_rfl⟩
  | getProviders => exact ⟨Nat.le_succ _, fun _ => le_rfl⟩

/-- The sample swarm numbers its peer lookups. -/
theorem dialApi_numbers_lookups : dialApi.Numbers DialSwarm.issued dialApi.getClosestPeers where
  fresh sw _ := lt_irrefl sw.queries
  recorded sw _ := Nat.lt_succ_self sw.queries
  kept _ _ h _ hid := lt_of_lt_of_le hid (DialSwarm.operates_le h).1

/-- The sample swarm counts its dials. -/
theorem dialApi_countsDials : dialApi.CountsDials DialSwarm.dialing where
  accepted sw opts p hopts hok := by
    rcases dialApi_dial sw opts with ⟨_, hnot⟩ | ⟨peer, hpeer, heq⟩
    · exact absurd hok hnot
    · rw [heq]
      rw [hopts] at hpeer
      cases hpeer
      simp [DialSwarm.dialing, DialSwarm.startDial]
  busy sw p addrs h := by
    simp only [dialApi] at h
    split at h
    · rename_i hmem
      exact List.count_pos_iff.mpr hmem
    · split at h <;> cases h
  kept _ _ h := (DialSwarm.operates_le h).2

/-- An event of the sample swarm finds as many queries and dials as before, apart from the dial
it ends. -/
def AccountsOn (n : NodeState DialSwarm) (input : LoopInput DialSwarm) : Prop :=
  match input.branch with
  | .swarmEvent event swarm _ => n.swarm.queries ≤ swarm.queries ∧
    ∀ p ∈ n.swarm.dials,
      n.swarm.dialing p ≤ swarm.dialing p + if event.endedDial = some p then 1 else 0
  | _ => True

instance (n : NodeState DialSwarm) (input : LoopInput DialSwarm) :
    Decidable (AccountsOn n input) := by
  unfold AccountsOn
  split <;> infer_instance

theorem AccountsOn.keeps {n : NodeState DialSwarm} {input : LoopInput DialSwarm}
    (h : AccountsOn n input) :
    KeepsIssued DialSwarm.issued n input ∧ EndsDials DialSwarm.dialing n input := by
  unfold AccountsOn at h
  unfold KeepsIssued EndsDials
  split
  · rename_i hbranch
    rw [hbranch] at h
    refine ⟨fun id hid => lt_of_lt_of_le hid h.1, fun p => ?_⟩
    by_cases hp : p ∈ n.swarm.dials
    · exact h.2 p hp
    · have hzero : n.swarm.dialing p = 0 := List.count_eq_zero.mpr hp
      omega
  · exact ⟨trivial, trivial⟩

/-- A lookup finds peer 1, and its dial fails. -/
def dialedRun : List (LoopInput DialSwarm) :=
  [⟨.sorted, .swarmEvent (.behaviour (.kadGetClosestPeers ⟨0⟩ true)) ⟨[], [], [⟨1⟩], 1⟩ none⟩,
    ⟨.sorted, .swarmEvent (.outgoingConnectionError (some ⟨1⟩) ⟨1⟩ "timeout")
      ⟨[], [], [⟨1⟩], 1⟩ none⟩]

/-- Nothing that happens in the run strands the intents. -/
theorem dialedRun_strands_not :
    (nodeLoop dialApi webConfig).Guarded
      (fun n input => ¬n.StrandsPeer dialApi webConfig DialSwarm.dialing ⟨1⟩ input)
      (.start dialApi webConfig .sorted .unknown ⟨[], [], [⟨1⟩], 0⟩) dialedRun := by
  refine ⟨?_, ?_, trivial⟩
  · rintro ⟨_, _, _, _, _, hignores | ⟨addrs, hredials, hrefuses⟩⟩
    · cases hignores
    · cases hredials
      revert hrefuses
      decide
  · rintro ⟨_, _, _, _, ⟨hself, _⟩ | hignores | ⟨addrs, hredials, hrefuses⟩⟩
    · revert hself
      decide
    · cases hignores with
      | aborted _ _ hreason => revert hreason; decide
      | suppressed _ hawaiting => revert hawaiting; decide
    · cases hredials with
      | dialFailed _ hawaiting => revert hawaiting; decide

/-- The intents are attended to after every pass. -/
theorem no_stranded_peer_intent_dialed :
    (nodeLoop dialApi webConfig).Always (NodeState.PeerAttended DialSwarm.dialing ⟨1⟩)
      ((nodeLoop dialApi webConfig).after
        (.start dialApi webConfig .sorted .unknown ⟨[], [], [⟨1⟩], 0⟩) []) dialedRun := by
  have haccounts : (nodeLoop dialApi webConfig).Guarded AccountsOn
      (.start dialApi webConfig .sorted .unknown ⟨[], [], [⟨1⟩], 0⟩) ([] ++ dialedRun) := by
    decide
  exact no_stranded_peer_intent dialApi webConfig .sorted .unknown ⟨[], [], [⟨1⟩], 0⟩
    dialApi_numbers_lookups dialApi_countsDials (by decide) [] dialedRun
    (haccounts.mono fun _ _ => AccountsOn.keeps) trivial (by decide) dialedRun_strands_not

/-- A lookup finds peer 1, but no address of it. -/
def refusedRun : List (LoopInput DialSwarm) :=
  [⟨.sorted, .swarmEvent (.behaviour (.kadGetClosestPeers ⟨0⟩ true)) ⟨[], [], [], 1⟩ none⟩]

/-- The swarm refuses to dial, and nothing is left to wake the intents. -/
theorem refused_dial_strands_intent :
    dialApi.Numbers DialSwarm.issued dialApi.getClosestPeers ∧
      dialApi.CountsDials DialSwarm.dialing ∧ ⟨1⟩ ∉ webConfig.bootstrapPeerIds ∧
      (NodeState.start dialApi webConfig .sorted .unknown ⟨[], [], [], 0⟩).app.phase = .ready ∧
      (nodeLoop dialApi webConfig).Guarded
        (fun n input => KeepsIssued DialSwarm.issued n input ∧
          EndsDials DialSwarm.dialing n input)
        (.start dialApi webConfig .sorted .unknown ⟨[], [], [], 0⟩) refusedRun ∧
      ¬(nodeLoop dialApi webConfig).Always (NodeState.PeerAttended DialSwarm.dialing ⟨1⟩)
        (.start dialApi webConfig .sorted .unknown ⟨[], [], [], 0⟩) refusedRun := by
  have haccounts : (nodeLoop dialApi webConfig).Guarded AccountsOn
      (.start dialApi webConfig .sorted .unknown ⟨[], [], [], 0⟩) refusedRun := by
    decide
  refine ⟨dialApi_numbers_lookups, dialApi_countsDials, by decide, by decide,
    haccounts.mono fun _ _ => AccountsOn.keeps, fun halways => ?_⟩
  have hattended := Mealy.Machine.always_iff_forall_prefixes.mp halways refusedRun
    (List.prefix_refl _)
  revert hattended
  decide

end Punchgate
