import Punchgate.Node.Prepare
import Punchgate.State.Publishing
import Punchgate.State.Wakeups
import Mathlib.Logic.Relation

/-!
# What the node does to its swarm

Between two events of the swarm, the node changes the swarm only through the operations of its
interface. What every operation preserves is therefore preserved by everything a pass does. This
file states what the loop relies on: query ids are fresh, and the queries that are remembered in
the execution context have been issued. A property of the node that survives the bookkeeping of
a pass and the delivery of events survives the pass.
-/

namespace Punchgate

/-- The peer a dial is for. -/
def DialOpts.peer : DialOpts → Option PeerId
  | .peerNotDialing peer _ => some peer
  | .address addr => extractPeerId addr

namespace SwarmApi

variable {Sw : Type} (api : SwarmApi Sw)

/-- One operation of the node on its swarm. -/
inductive Operates (sw : Sw) : Sw → Prop
  | dial (opts : DialOpts) : Operates sw (api.dial sw opts).1
  | bootstrap : Operates sw (api.bootstrap sw).1
  | getClosestPeers (peer : PeerId) : Operates sw (api.getClosestPeers sw peer).1
  | getProviders (key : KademliaKey) : Operates sw (api.getProviders sw key).1
  | request (r : SwarmRequest) : Operates sw (api.request sw r)

/-- Any number of operations, one after the other. -/
def Operated : Sw → Sw → Prop := Relation.ReflTransGen api.Operates

/-- A kind of query gets a fresh id each time; `issued` are the ids it has got so far. -/
structure Numbers {α : Type} (issued : Sw → Set QueryId) (query : Sw → α → Sw × QueryId) :
    Prop where
  /-- The id of a new query has not been issued before. -/
  fresh : ∀ sw x, (query sw x).2 ∉ issued sw
  /-- The id of a new query is issued. -/
  recorded : ∀ sw x, (query sw x).2 ∈ issued (query sw x).1
  /-- An issued id stays issued. -/
  kept : ∀ sw sw', api.Operates sw sw' → issued sw ⊆ issued sw'

/-- `dialing` counts the dials to each peer that are in progress. -/
structure CountsDials (dialing : Sw → PeerId → ℕ) : Prop where
  /-- An accepted dial is in progress. -/
  accepted : ∀ sw opts p, opts.peer = some p → (api.dial sw opts).2 = .ok () →
    dialing sw p < dialing (api.dial sw opts).1 p
  /-- A dial is refused because of another one only while that one is in progress. -/
  busy : ∀ sw p addrs,
    (api.dial sw (.peerNotDialing p addrs)).2 = .error .dialPeerConditionFalse → 0 < dialing sw p
  /-- No operation ends a dial. -/
  kept : ∀ sw sw', api.Operates sw sw' → ∀ p, dialing sw p ≤ dialing sw' p

/-- The swarm refuses to dial a peer, and not because of another dial in progress. -/
def refuses (sw : Sw) (p : PeerId) (addrs : List Multiaddr) : Bool :=
  match (api.dial sw (.peerNotDialing p addrs)).2 with
  | .error (.other _) => true
  | _ => false

variable {api} {sw sw' sw'' : Sw}

@[refl] theorem Operated.refl (sw : Sw) : api.Operated sw sw := Relation.ReflTransGen.refl

theorem Operated.trans (h : api.Operated sw sw') (h' : api.Operated sw' sw'') :
    api.Operated sw sw'' := Relation.ReflTransGen.trans h h'

theorem Operates.operated (h : api.Operates sw sw') : api.Operated sw sw' :=
  Relation.ReflTransGen.single h

/-- What one operation preserves is preserved by any number of them. -/
theorem Operated.invariant {P : Sw → Prop} (hP : ∀ sw sw', api.Operates sw sw' → P sw → P sw')
    (h : api.Operated sw sw') (hsw : P sw) : P sw' := by
  induction h with
  | refl => exact hsw
  | tail _ hstep ih => exact hP _ _ hstep ih

/-- Issued ids stay issued. -/
theorem Numbers.operated {α : Type} {issued : Sw → Set QueryId} {query : Sw → α → Sw × QueryId}
    (hnumbers : api.Numbers issued query) (h : api.Operated sw sw') :
    issued sw ⊆ issued sw' :=
  h.invariant (P := fun sw' => issued sw ⊆ issued sw')
    (fun _ _ hstep hsub => hsub.trans (hnumbers.kept _ _ hstep)) (Set.Subset.refl _)

/-- Dials in progress stay in progress. -/
theorem CountsDials.operated {dialing : Sw → PeerId → ℕ} (hdials : api.CountsDials dialing)
    (h : api.Operated sw sw') (p : PeerId) : dialing sw p ≤ dialing sw' p :=
  h.invariant (P := fun sw' => dialing sw p ≤ dialing sw' p)
    (fun _ _ hstep hle => hle.trans (hdials.kept _ _ hstep p)) le_rfl

end SwarmApi

/-- An event of the swarm finds the ids issued before it still issued. -/
def KeepsIssued {Sw : Type} (issued : Sw → Set QueryId) (n : NodeState Sw) (input : LoopInput Sw) :
    Prop :=
  match input.branch with
  | .swarmEvent _ swarm _ => issued n.swarm ⊆ issued swarm
  | _ => True

/-- An event that is fed as it is, with nothing done before it is delivered. -/
def Event.isPlain : Event → Bool
  | .holePunchFailed _ _ | .holePunchAttemptFailed _ _ _ | .peerIdentified _ _ _ => false
  | _ => true

/-- The peer a dial to which may have ended with an event. -/
def SwarmEvent.endedDial : SwarmEvent → Option PeerId
  | .connectionEstablished peer _ _ => some peer
  | .outgoingConnectionError peer _ _ => peer
  | _ => none

/-- The events that the loop makes up itself. -/
def Event.isOwn : Event → Bool
  | .holePunchAttemptStarted _ _ | .holePunchAttemptTimeout _ _ | .discoveryTimeout
  | .shutdownRequested => true
  | _ => false

/-- A dial in progress ends with a new connection to its peer, or with a failure reported for
it. -/
def EndsDials {Sw : Type} (dialing : Sw → PeerId → ℕ) (n : NodeState Sw) (input : LoopInput Sw) :
    Prop :=
  match input.branch with
  | .swarmEvent event swarm _ =>
    ∀ p, dialing n.swarm p ≤ dialing swarm p + if event.endedDial = some p then 1 else 0
  | _ => True

/-! ## Executing commands -/

section Execute

variable {Sw : Type} (api : SwarmApi Sw) (exposed : List ExposedService)

/-- Publishing the services only makes requests. -/
theorem publishServices_operated (sw : Sw) : api.Operated sw (publishServices api exposed sw) := by
  refine List.foldlRecOn exposed _ (motive := fun sw' => api.Operated sw sw')
    (SwarmApi.Operated.refl sw) fun sw' hsw' svc _ => ?_
  have hrequest (sw : Sw) (r : SwarmRequest) : api.Operated sw (api.request sw r) :=
    (SwarmApi.Operates.request r).operated
  have hprovide := hrequest sw' (.startProviding (.forService svc.name))
  exact hsw'.trans (hprovide.trans (hrequest _ (.putRecord (.forService svc.name) svc.name)))

/-- A command only operates on the swarm. -/
theorem executeCommand_operated (world : Sw × ExecutionContext) (c : Command) :
    api.Operated world.1 (executeCommand api exposed world c).1 := by
  cases c with
  | kademliaBootstrap => exact SwarmApi.Operates.bootstrap.operated
  | kademliaAddAddress peer addr => exact (SwarmApi.Operates.request _).operated
  | requestRelayReservation peer addr => exact (SwarmApi.Operates.request _).operated
  | publishServices => exact publishServices_operated api exposed world.1
  | shutdown => exact .refl _
  | dhtLookupPeer peer => exact (SwarmApi.Operates.getClosestPeers peer).operated
  | dhtGetProviders svc key => exact (SwarmApi.Operates.getProviders key).operated
  | dialPeer peer => exact (SwarmApi.Operates.dial _).operated
  | dialPeerWithAddrs peer addrs attemptId => exact (SwarmApi.Operates.dial _).operated
  | disconnectPeer peer => exact (SwarmApi.Operates.request _).operated
  | spawnTunnel peer svc bind => exact .refl _

/-- Commands only operate on the swarm. -/
theorem executeCommands_operated (world : Sw × ExecutionContext) (cs : List Command) :
    api.Operated world.1 (executeCommands api exposed world cs).1 := by
  refine List.foldlRecOn cs (executeCommand api exposed)
    (motive := fun world' => api.Operated world.1 world'.1) (.refl _) fun world' h c _ => ?_
  exact h.trans (executeCommand_operated api exposed world' c)

theorem executeCommands_append (world : Sw × ExecutionContext) (cs ds : List Command) :
    executeCommands api exposed world (cs ++ ds) =
      executeCommands api exposed (executeCommands api exposed world cs) ds := List.foldl_append

/-- The peer a command looks up. -/
def Command.lookedUp : Command → Option PeerId
  | .dhtLookupPeer peer => some peer
  | _ => none

/-- The service whose providers a command asks for. -/
def Command.queried : Command → Option ServiceName
  | .dhtGetProviders svc _ => some svc
  | _ => none

/-- A part of the execution context remembers what each query of one kind is for: a command that
asks stores its subject under a fresh id, other commands leave the part alone. -/
structure Registers {V : Type} (issued : Sw → Set QueryId)
    (register : ExecutionContext → FiniteMap QueryId V) (asks : Command → Option V) : Prop where
  /-- A command that asks stores its subject under a fresh id. -/
  asked : ∀ (world : Sw × ExecutionContext) c v, asks c = some v → ∃ id ∉ issued world.1,
    id ∈ issued (executeCommand api exposed world c).1 ∧
      register (executeCommand api exposed world c).2 = (register world.2).insert id v
  /-- Other commands leave the register alone. -/
  other : ∀ (world : Sw × ExecutionContext) c, asks c = none →
    register (executeCommand api exposed world c).2 = register world.2
  /-- Issued ids stay issued. -/
  kept : ∀ sw sw', api.Operated sw sw' → issued sw ⊆ issued sw'

/-- Only issued ids are remembered. -/
def Numbered {V : Type} (issued : Sw → Set QueryId)
    (register : ExecutionContext → FiniteMap QueryId V) (world : Sw × ExecutionContext) : Prop :=
  ∀ id, (register world.2).contains id = true → id ∈ issued world.1

variable {api exposed} {V : Type} {issued : Sw → Set QueryId}
  {register : ExecutionContext → FiniteMap QueryId V} {asks : Command → Option V}

/-- The peer lookups are such a register. -/
theorem SwarmApi.Numbers.registers_lookups (h : api.Numbers issued api.getClosestPeers) :
    Registers api exposed issued ExecutionContext.kadTunnelQueries Command.lookedUp where
  asked world c v hc := by
    cases c <;> cases hc
    exact ⟨_, h.fresh world.1 v, h.recorded world.1 v, rfl⟩
  other world c hc := by
    cases c <;> first | rfl | cases hc
  kept _ _ := h.operated

/-- The provider queries are such a register. -/
theorem SwarmApi.Numbers.registers_queries (h : api.Numbers issued api.getProviders) :
    Registers api exposed issued ExecutionContext.kadServiceQueries Command.queried where
  asked world c v hc := by
    cases c <;> cases hc
    exact ⟨_, h.fresh world.1 _, h.recorded world.1 _, rfl⟩
  other world c hc := by
    cases c <;> first | rfl | cases hc
  kept _ _ := h.operated

/-- A command keeps the register to issued ids, keeps what it remembers, and adds what it asks. -/
theorem Registers.executeCommand (h : Registers api exposed issued register asks)
    (world : Sw × ExecutionContext) (c : Command) (hworld : Numbered issued register world) :
    Numbered issued register (executeCommand api exposed world c) ∧
      ∀ v, (register world.2).HasValue v ∨ asks c = some v →
        (register (Punchgate.executeCommand api exposed world c).2).HasValue v := by
  have hkept := h.kept _ _ (executeCommand_operated api exposed world c)
  cases hasks : asks c with
  | none =>
    have hother := h.other world c hasks
    unfold Numbered
    rw [hother]
    refine ⟨fun id hid => hkept (hworld id hid), fun v hv => ?_⟩
    exact hv.resolve_right fun heq => by cases heq
  | some w =>
    obtain ⟨id, hfresh, hissued, hstored⟩ := h.asked world c w hasks
    have hnone : (register world.2).get? id = none :=
      FiniteMap.contains_eq_false.mp (by
        rw [← Bool.not_eq_true]
        exact fun hcontains => hfresh (hworld id hcontains))
    unfold Numbered
    rw [hstored]
    refine ⟨fun id' hid' => ?_, fun v hv => ?_⟩
    · by_cases heq : id' = id
      · rw [heq]
        exact hissued
      · refine hkept (hworld id' ?_)
        rw [FiniteMap.contains, FiniteMap.get?_insert_of_ne _ _ heq] at hid'
        exact hid'
    · rcases hv with hv | hv
      · exact hv.insert hnone
      · rw [Option.some.inj hv]
        exact FiniteMap.hasValue_insert_self

/-- Commands keep the register to issued ids, keep what it remembers, and add all they ask. -/
theorem Registers.executeCommands (h : Registers api exposed issued register asks)
    (world : Sw × ExecutionContext) (cs : List Command) (hworld : Numbered issued register world) :
    Numbered issued register (executeCommands api exposed world cs) ∧
      ∀ v, (register world.2).HasValue v ∨ (∃ c ∈ cs, asks c = some v) →
        (register (Punchgate.executeCommands api exposed world cs).2).HasValue v := by
  induction cs generalizing world with
  | nil =>
    refine ⟨hworld, fun v hv => hv.resolve_right ?_⟩
    rintro ⟨c, hc, _⟩
    cases hc
  | cons c cs ih =>
    obtain ⟨hnumbered, hstored⟩ := h.executeCommand world c hworld
    obtain ⟨hnumbered', hstored'⟩ := ih _ hnumbered
    refine ⟨hnumbered', fun v hv => hstored' v ?_⟩
    rcases hv with hv | ⟨c', hc', hasks⟩
    · exact Or.inl (hstored v (Or.inl hv))
    · rcases List.mem_cons.mp hc' with rfl | hc'
      · exact Or.inl (hstored v (Or.inr hasks))
      · exact Or.inr ⟨c', hc', hasks⟩

end Execute

namespace NodeState

variable {Sw : Type} (api : SwarmApi Sw) (cfg : NodeConfig) (env : Env)

/-! ## Bookkeeping -/

/-- A node goes on as before with its tunnels and open queries; it has operated on its swarm. -/
structure Carried (n m : NodeState Sw) : Prop where
  /-- The swarm was operated on. -/
  swarm : api.Operated n.swarm m.swarm
  /-- The tunnel machine is the same. -/
  tunnel : m.app.tunnel = n.app.tunnel
  /-- The phase is the same. -/
  phase : m.app.phase = n.app.phase
  /-- The peer lookups are the same. -/
  lookups : m.ctx.kadTunnelQueries = n.ctx.kadTunnelQueries
  /-- The provider queries are the same. -/
  queries : m.ctx.kadServiceQueries = n.ctx.kadServiceQueries

variable {api} {n m l : NodeState Sw}

theorem Carried.refl (n : NodeState Sw) : Carried api n n := ⟨.refl _, rfl, rfl, rfl, rfl⟩

theorem Carried.trans (h : Carried api n m) (h' : Carried api m l) : Carried api n l :=
  ⟨h.swarm.trans h'.swarm, h'.tunnel.trans h.tunnel, h'.phase.trans h.phase,
    h'.lookups.trans h.lookups, h'.queries.trans h.queries⟩

variable (api)

theorem carried_spawnPortMapping (n : NodeState Sw) (event : SwarmEvent) :
    Carried api n (n.spawnPortMapping cfg event) := by
  obtain ⟨_, heq⟩ := spawnPortMapping_same cfg n event
  rw [heq]
  exact ⟨.refl _, rfl, rfl, rfl, rfl⟩

/-- Closing connections is a series of requests. -/
theorem closeConnections_operated (ids : List ConnectionId) (sw : Sw) :
    api.Operated sw (ids.foldl (fun sw id => api.request sw (.closeConnection id)) sw) := by
  refine List.foldlRecOn ids _ (motive := fun sw' => api.Operated sw sw') (.refl _)
    fun sw' hsw' id _ => hsw'.trans ?_
  exact (SwarmApi.Operates.request _).operated

theorem carried_bookkeep (n : NodeState Sw) (event : SwarmEvent) :
    Carried api n (n.bookkeep api cfg env event).1 := by
  cases event with
  | connectionEstablished peer id endpoint =>
    constructor
    case swarm => exact closeConnections_operated api _ n.swarm
    case tunnel => rfl
    case phase => rfl
    all_goals
      unfold bookkeep
      dsimp only
      split <;> rfl
  | connectionClosed peer id num =>
    constructor
    case swarm => exact .refl _
    case tunnel => rfl
    case phase => rfl
    all_goals
      unfold bookkeep
      dsimp only
      split <;> rfl
  | dialing peer id => cases peer <;> exact ⟨.refl _, rfl, rfl, rfl, rfl⟩
  | _ => exact ⟨.refl _, rfl, rfl, rfl, rfl⟩

theorem carried_trackBootstrap (n : NodeState Sw) (event : SwarmEvent)
    (fullyDisconnected : Option PeerId) :
    Carried api n (n.trackBootstrap api cfg env event fullyDisconnected) := by
  obtain ⟨backoff, pending, heq⟩ := trackBootstrap_same api cfg env n event fullyDisconnected
  rw [heq]
  exact ⟨.refl _, rfl, rfl, rfl, rfl⟩

theorem carried_trackExternalAddrs (n : NodeState Sw) (event : SwarmEvent) :
    Carried api n (n.trackExternalAddrs api event) := by
  obtain ⟨_, _, hswarm, heq⟩ := trackExternalAddrs_same api n event
  rw [heq]
  rcases hswarm with rfl | ⟨r, rfl⟩
  · exact ⟨.refl _, rfl, rfl, rfl, rfl⟩
  · exact ⟨(SwarmApi.Operates.request r).operated, rfl, rfl, rfl, rfl⟩

/-- A request leaves everything but the swarm alone. -/
theorem carried_request (n : NodeState Sw) (r : SwarmRequest) :
    Carried api n { n with swarm := api.request n.swarm r } :=
  ⟨(SwarmApi.Operates.request r).operated, rfl, rfl, rfl, rfl⟩

/-- Only the observed addresses and the swarm differ, and the swarm was operated on. -/
def SameButObserved (n m : NodeState Sw) : Prop :=
  ∃ swarm observed, api.Operated n.swarm swarm ∧
    m = { n with swarm := swarm, bootstrapObservedExternalByIp := observed }

theorem SameButObserved.adoptObservation {n m : NodeState Sw} (h : SameButObserved api n m)
    (ip : IpAddr) (addr : Multiaddr) : SameButObserved api n (m.adoptObservation api ip addr) := by
  obtain ⟨swarm, observed, hoperated, rfl⟩ := h
  have hremove (previous : Multiaddr) : api.Operated swarm
      (if previous ≠ addr then api.request swarm (.removeExternalAddress previous) else swarm) := by
    split
    · exact (SwarmApi.Operates.request _).operated
    · exact .refl _
  have hadd (sw : Sw) (previous : Option Multiaddr) : api.Operated sw
      (if previous ≠ some addr then
        api.request (api.request sw (.addExternalAddress addr)) (.newExternalAddrCandidate addr)
      else sw) := by
    split
    · exact (SwarmApi.Operates.request _).operated.trans (SwarmApi.Operates.request _).operated
    · exact .refl _
  refine ⟨_, _, hoperated.trans ?_, rfl⟩
  dsimp only
  cases observed.get? ip with
  | none => exact hadd swarm none
  | some previous => exact (hremove previous).trans (hadd _ (some previous))

/-- Observing an identify message changes nothing else. -/
theorem observeIdentify_same (n : NodeState Sw) (e : Event) :
    SameButObserved api n (n.observeIdentify api cfg e) := by
  have hself : SameButObserved api n n := ⟨_, _, .refl _, rfl⟩
  cases e with
  | peerIdentified peer addrs observed =>
    have hfirst : SameButObserved api n (if cfg.bootstrapPeerIds = ∅ then
        { n with swarm := api.request n.swarm (.addExternalAddress observed) } else n) := by
      split
      · exact ⟨_, _, (SwarmApi.Operates.request _).operated, rfl⟩
      · exact hself
    unfold observeIdentify
    dsimp only
    generalize (if cfg.bootstrapPeerIds = ∅ then
      { n with swarm := api.request n.swarm (.addExternalAddress observed) } else n) = m
      at hfirst ⊢
    split
    · split
      · exact hfirst.adoptObservation api _ _
      · exact hfirst
    · exact hfirst
  | _ => exact hself

theorem carried_observeIdentify (n : NodeState Sw) (e : Event) :
    Carried api n (n.observeIdentify api cfg e) := by
  obtain ⟨_, _, hoperated, heq⟩ := observeIdentify_same api cfg n e
  rw [heq]
  exact ⟨hoperated, rfl, rfl, rfl, rfl⟩

/-- A public address changes neither the phase nor the tunnels, and asks for nothing. -/
theorem transition_natStatusChanged_public (a : AppState) :
    (a.transition env (.natStatusChanged .isPublic)).1.phase = a.phase ∧
      (a.transition env (.natStatusChanged .isPublic)).2 = [] := by
  have hpeer : (a.peer.transition env (.natStatusChanged .isPublic)).1.phase = a.phase ∧
      (a.peer.transition env (.natStatusChanged .isPublic)).2 = [] := by
    change (a.peer.onNatStatusChanged env .isPublic).1.phase = _ ∧
      (a.peer.onNatStatusChanged env .isPublic).2 = []
    unfold PeerState.onNatStatusChanged
    dsimp only
    split <;> exact ⟨rfl, rfl⟩
  refine ⟨hpeer.1, ?_⟩
  have hnot : ¬a.EntersReady (env, .natStatusChanged .isPublic) := fun h =>
    h.1 (hpeer.1.symm.trans h.2)
  rw [AppState.transition_commands, hpeer.2, if_neg hnot]
  rfl

theorem carried_pollPortMapping (n : NodeState Sw)
    (probe : Option (Option (Ipv4Addr × UInt16))) :
    Carried api n (n.pollPortMapping api cfg env probe).1 := by
  unfold pollPortMapping
  split
  · exact ⟨.refl _, rfl, rfl, rfl, rfl⟩
  · rename_i ip port _
    obtain ⟨hphase, hcommands⟩ := transition_natStatusChanged_public env n.app
    have hrequest := carried_request api { n with portMapping := .finished }
      (.addExternalAddress ⟨[.ip4 ip, .udp port, .quicV1]⟩)
    dsimp only [deliver]
    rw [hcommands]
    exact ⟨hrequest.swarm, AppState.transition_tunnel env n.app (.natStatusChanged .isPublic),
      hphase, rfl, rfl⟩
  · exact .refl _

/-- Up to the translation of the event, a pass only keeps books. -/
theorem prepare_carried (n : NodeState Sw) (event : SwarmEvent)
    (probe : Option (Option (Ipv4Addr × UInt16))) :
    ∃ m synthetic, Carried api n m ∧ Booked n.conn n.app.tunnel event m.conn synthetic ∧
      (n.prepare api cfg env event probe).1 = { m with
        ctx := (translateSwarmEvent env cfg.bootstrapPeerIds m.ctx (api.isConnected m.swarm)
          event).2 } ∧
      (n.prepare api cfg env event probe).2.1 = synthetic ++
        (translateSwarmEvent env cfg.bootstrapPeerIds m.ctx (api.isConnected m.swarm) event).1 := by
  have hbooked := bookkeep_booked api cfg env (n.spawnPortMapping cfg event) event
  rw [(spawnPortMapping_frame cfg n event).1, (spawnPortMapping_frame cfg n event).2] at hbooked
  have hspawn := carried_spawnPortMapping api cfg n event
  have hbookkeep := carried_bookkeep api cfg env (n.spawnPortMapping cfg event) event
  have hboot := carried_trackBootstrap api cfg env
    ((n.spawnPortMapping cfg event).bookkeep api cfg env event).1 event
    ((n.spawnPortMapping cfg event).bookkeep api cfg env event).2.2
  have haddrs := carried_trackExternalAddrs api
    (((n.spawnPortMapping cfg event).bookkeep api cfg env event).1.trackBootstrap api cfg env event
      ((n.spawnPortMapping cfg event).bookkeep api cfg env event).2.2) event
  have hpoll := carried_pollPortMapping api cfg env
    ((((n.spawnPortMapping cfg event).bookkeep api cfg env event).1.trackBootstrap api cfg env event
      ((n.spawnPortMapping cfg event).bookkeep api cfg env event).2.2).trackExternalAddrs api event)
    probe
  refine ⟨_, _, hspawn.trans (hbookkeep.trans (hboot.trans (haddrs.trans hpoll))), ?_, rfl, rfl⟩
  rw [(pollPortMapping_frame api cfg env _ probe).1, (trackExternalAddrs_frame api _ event).1,
    (trackBootstrap_frame api cfg env _ event _).1]
  exact hbooked

/-! ## A property that survives a pass -/

/-- A property survives changes of the books, and the delivery of some events, among them those
that the loop makes up itself. -/
structure Stable (P : NodeState Sw → Prop) (E : Event → Prop) : Prop where
  /-- The loop makes up such events only. -/
  own : ∀ e : Event, e.isOwn = true → E e
  /-- The books of connections may change, and the discovery timeout may fire. -/
  booked : ∀ n conn fired, P n → P { n with conn := conn, discoveryTimeoutFired := fired }
  /-- An identify message may be observed. -/
  observed : ∀ n e, P n → P (n.observeIdentify api cfg e)
  /-- The events may be delivered. -/
  delivered : ∀ source n e, E e → P n → P (deliver api cfg env source n e).1

variable {api cfg env} {P : NodeState Sw → Prop} {E : Event → Prop}

/-- Arming keeps such a property. -/
theorem Stable.arm (h : Stable api cfg env P E) (hn : P n) :
    P (n.armHolePunchForTunnelTargets api cfg env).1 := by
  unfold armHolePunchForTunnelTargets
  split
  · exact hn
  · refine List.foldlRecOn (n.app.tunnel.holepunchTargetPeers env) (armPeer api cfg env)
      (motive := fun acc => P acc.1) (b := (n, [])) hn fun acc hacc q _ => ?_
    unfold armPeer
    split
    · exact hacc
    · rename_i conn attemptId _
      exact h.delivered .arming _ _ (h.own (.holePunchAttemptStarted q attemptId) rfl)
        (h.booked acc.1 conn acc.1.discoveryTimeoutFired hacc)

/-- Feeding an event keeps a property that survives what the event is taken for. -/
theorem Stable.feed (h : Stable api cfg env P E) {e : Event}
    (he : ∀ e', attributeFailure n.conn e = some e' → E e') (hn : P n) :
    P (n.feed api cfg env e).1 := by
  unfold NodeState.feed
  split
  · exact hn
  · rename_i e' he'
    exact h.arm (h.delivered .eventList _ _ (he e' he') (h.observed _ _ hn))

/-- A property that holds once a plain event is delivered holds once it is fed. -/
theorem Stable.feed_of_deliver (h : Stable api cfg env P E) {e : Event} (he : e.isPlain = true)
    (hn : P (deliver api cfg env .eventList n e).1) : P (n.feed api cfg env e).1 := by
  have hattribute : attributeFailure n.conn e = some e := by
    cases e <;> first | rfl | cases he
  have hobserve : n.observeIdentify api cfg e = n := by
    cases e <;> first | rfl | cases he
  unfold NodeState.feed
  rw [hattribute]
  dsimp only
  rw [hobserve]
  exact h.arm hn

/-- Feeding an event list keeps a property that survives what its events are taken for. -/
theorem Stable.feedAll (h : Stable api cfg env P E) {es : List Event}
    (hes : ∀ e ∈ es, ∀ conn e', attributeFailure conn e = some e' → E e') (hn : P n) :
    P (n.feedAll api cfg env es).1 := by
  induction es generalizing n with
  | nil => exact hn
  | cons e es ih =>
    have hfeed := h.feed (hes e (List.mem_cons_self ..) n.conn) hn
    unfold NodeState.feedAll
    dsimp only
    split
    · exact hfeed
    · exact ih (fun e he => hes e (List.mem_cons_of_mem _ he)) hfeed

/-- The hole-punch timer keeps such a property. -/
theorem Stable.onHolePunchTimer (h : Stable api cfg env P E) (hn : P n) :
    P (n.onHolePunchTimer api cfg env).1 := by
  unfold NodeState.onHolePunchTimer
  have hbooked := h.booked n (n.conn.takeDueHolePunchTimeouts env env.now).1
    n.discoveryTimeoutFired hn
  refine List.foldlRecOn (n.conn.takeDueHolePunchTimeouts env env.now).2 (expireAttempt api cfg env)
    (motive := fun acc => P acc.1) (b := (_, [])) hbooked fun acc hacc due _ => ?_
  unfold expireAttempt
  split
  · exact h.delivered .holePunchTimer _ _
      (h.own (.holePunchAttemptTimeout due.1 due.2) rfl) hacc
  · exact hacc

/-- **Pass rule.** Such a property survives a pass if it survives the reconnect timer and the
branch for swarm events. -/
theorem Stable.pass (h : Stable api cfg env P E) (branch : LoopBranch Sw)
    (hreconnect : P n → P (n.onReconnectTimer api env))
    (hswarm : ∀ event swarm probe, branch = .swarmEvent event swarm probe →
      P n → P (n.onSwarmEvent api cfg env event swarm probe).1)
    (hn : P n) : P (n.pass api cfg env branch).1 := by
  unfold NodeState.pass
  split
  · exact hn
  · cases branch with
    | swarmEvent event swarm probe => exact hswarm event swarm probe rfl hn
    | discoveryDeadline =>
      dsimp only
      split
      · exact hn
      · exact h.delivered .discoveryDeadline _ _ (h.own .discoveryTimeout rfl)
          (h.booked n n.conn true hn)
    | reconnectTimer => exact hreconnect hn
    | holePunchTimer => exact h.onHolePunchTimer hn
    | shutdownSignal =>
      exact h.delivered .shutdownSignal n _ (h.own .shutdownRequested rfl) hn

/-- The loop has ended once the node is shutting down. -/
theorem step_of_shuttingDown (h : n.app.phase = .shuttingDown) (input : LoopInput Sw) :
    ((nodeLoop api cfg).step n input).1 = n :=
  congrArg Prod.fst (if_pos h)

/-! ## The reconnect timer -/

variable (api cfg env)

theorem carried_reconnectPeer (n : NodeState Sw) (peer : PeerId) :
    Carried api n (n.reconnectPeer api env peer) := by
  obtain ⟨swarm, hswarm, _, _, heq⟩ := reconnectPeer_same api env n peer
  rw [heq]
  rcases hswarm with rfl | ⟨addr, rfl⟩
  · exact ⟨.refl _, rfl, rfl, rfl, rfl⟩
  · exact ⟨(SwarmApi.Operates.dial (.address addr)).operated, rfl, rfl, rfl, rfl⟩

theorem carried_onReconnectTimer (n : NodeState Sw) : Carried api n (n.onReconnectTimer api env) := by
  obtain ⟨swarm, hswarm, _, _, heq⟩ := onReconnectTimer_same api env (R := api.Operated)
    .refl .trans (fun sw addr => (SwarmApi.Operates.dial (.address addr)).operated) n
  rw [heq]
  exact ⟨hswarm, rfl, rfl, rfl, rfl⟩

end NodeState

/-! ## Answered queries -/

/-- The translation of an event forgets at most the query the event answers. What it tells the
state machine wakes intents only for an answer, a new connection or the failure of a dial. -/
inductive Translated (bootstrapPeers : Finset PeerId) (ctx : ExecutionContext)
    (isConnected : PeerId → Bool) (events : List Event) : SwarmEvent → ExecutionContext → Prop
  /-- Any other event. -/
  | quiet {event} (hevent : event.endedDial = none)
      (hevents : ∀ e ∈ events, e.settles = none ∧ ∀ q r, e ≠ .connectionLost q r) :
      Translated bootstrapPeers ctx isConnected events event ctx
  /-- A new connection. -/
  | connected {q id endpoint}
      (hevents : events = (if q ∈ bootstrapPeers then
          [.bootstrapConnected q endpoint.remoteAddress] else []) ++
        [.tunnelPeerConnected q endpoint.isRelayed]) :
      Translated bootstrapPeers ctx isConnected events (.connectionEstablished q id endpoint) ctx
  /-- The failure of a dial. -/
  | dialFailed {q id error}
      (hevents : events =
        if q ∉ bootstrapPeers ∧ containsText error "local peer id" = false then
          [.tunnelDialFailed q error] else []) :
      Translated bootstrapPeers ctx isConnected events (.outgoingConnectionError (some q) id error)
        ctx
  /-- A peer lookup is complete. -/
  | lookedUp {id target} (hquery : ctx.kadTunnelQueries.get? id = some target)
      (hevents : events = [.dhtPeerLookupComplete target (isConnected target)]) :
      Translated bootstrapPeers ctx isConnected events (.behaviour (.kadGetClosestPeers id true))
        { ctx with kadTunnelQueries := ctx.kadTunnelQueries.erase id }
  /-- A provider query is answered. -/
  | answered {id result svc e} (hquery : ctx.kadServiceQueries.get? id = some svc)
      (hevents : events = [e]) (he : e.answers svc = true) :
      Translated bootstrapPeers ctx isConnected events (.behaviour (.kadGetProviders id result))
        { ctx with kadServiceQueries := ctx.kadServiceQueries.erase id }

/-- A found or missing provider is an answer. -/
theorem answers_translateGetProviders (env : Env) (svc : ServiceName)
    (isConnected : PeerId → Bool) (result : GetProvidersResult) :
    ∃ e, translateGetProviders env svc isConnected result = [e] ∧ e.answers svc = true := by
  cases result with
  | foundProviders providers =>
    unfold translateGetProviders
    dsimp only
    split <;> exact ⟨_, rfl, by simp [Event.answers]⟩
  | finishedWithNoAdditionalRecord => exact ⟨_, rfl, by simp [Event.answers]⟩
  | error text => exact ⟨_, rfl, by simp [Event.answers]⟩

theorem translateSwarmEvent_translated (env : Env) (bootstrapPeers : Finset PeerId)
    (ctx : ExecutionContext) (isConnected : PeerId → Bool) (event : SwarmEvent) :
    Translated bootstrapPeers ctx isConnected
      (translateSwarmEvent env bootstrapPeers ctx isConnected event).1 event
      (translateSwarmEvent env bootstrapPeers ctx isConnected event).2 := by
  have hquiet (hevent : event.isConnection = false)
      (htells : ∀ e, event.Tells e → e.settles = none ∧ ∀ q r, e ≠ .connectionLost q r) :
      ∀ e ∈ (translateSwarmEvent env bootstrapPeers ctx isConnected event).1,
        e.settles = none ∧ ∀ q r, e ≠ .connectionLost q r :=
    fun e he => htells e (tells_of_mem_translateSwarmEvent hevent he)
  cases event with
  | connectionEstablished q id endpoint => exact .connected rfl
  | connectionClosed => exact .quiet rfl fun e he => by cases he
  | outgoingConnectionError peer id error =>
    cases peer with
    | none => exact .quiet rfl fun e he => by cases he
    | some q => exact .dialFailed rfl
  | behaviour event =>
    cases event with
    | kadGetClosestPeers id last =>
      unfold translateSwarmEvent translateBehaviourEvent
      dsimp only
      split
      · rename_i target hquery
        exact .lookedUp hquery rfl
      · exact .quiet rfl fun e he => by cases he
    | kadGetProviders id result =>
      unfold translateSwarmEvent translateBehaviourEvent
      dsimp only
      split
      · rename_i svc hquery
        obtain ⟨e, hevents, he⟩ := answers_translateGetProviders env svc isConnected result
        exact .answered hquery hevents he
      · exact .quiet rfl fun e he => by cases he
    | dcutr peer result =>
      cases result with
      | ok => exact .quiet rfl fun e he => by cases he
      | error text =>
        refine .quiet rfl (hquiet rfl fun e htells => ?_)
        cases htells
        exact ⟨rfl, fun _ _ heq => by cases heq⟩
    | _ =>
      refine .quiet rfl (hquiet rfl fun e htells => ?_)
      cases htells <;> exact ⟨rfl, fun _ _ heq => by cases heq⟩
  | listenerClosed reason addresses =>
    cases reason with
    | ok => exact .quiet rfl fun e he => by cases he
    | error text =>
      refine .quiet rfl (hquiet rfl fun e htells => ?_)
      cases htells
      exact ⟨rfl, fun _ _ heq => by cases heq⟩
  | _ =>
    refine .quiet rfl (hquiet rfl fun e htells => ?_)
    cases htells <;> exact ⟨rfl, fun _ _ heq => by cases heq⟩

end Punchgate
