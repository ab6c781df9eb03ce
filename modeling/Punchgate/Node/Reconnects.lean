import Punchgate.Node.PeerIntents
import Punchgate.Node.Schedule

/-!
# Reconnects to bootstrap peers

The loop schedules a reconnect when a bootstrap peer is fully disconnected, when a dial to it has
failed, and when the dial of a due reconnect is refused. Each place has its own guard. Together
they leave no gap: a bootstrap peer is connected, or dialed, or has a deadline.
-/

namespace Punchgate

/-- The dials of the bootstrap addresses before the loop; the first refusal ends `run`. -/
def dialBootstrap {Sw : Type} (api : SwarmApi Sw) : List Multiaddr → Sw → Except DialError Sw
  | [], sw => .ok sw
  | addr :: addrs, sw =>
    match api.dial sw (.address addr) with
    | (sw, .ok _) => dialBootstrap api addrs sw
    | (_, .error e) => .error e

/-- What is connected changes only with reported connections. -/
def SwarmApi.KeepsConnected {Sw : Type} (api : SwarmApi Sw) : Prop :=
  ∀ sw sw', api.Operates sw sw' → ∀ p, api.isConnected sw p = true → api.isConnected sw' p = true

/-- The peers that are connected after an event: that of a new connection, and that of a closed
one if it has others. -/
def SwarmEvent.leavesConnected (p : PeerId) (before : Bool) : SwarmEvent → Bool
  | .connectionEstablished peer _ _ => peer = p || before
  | .connectionClosed peer _ num => if peer = p then num ≠ 0 else before
  | _ => before

/-- The swarm takes those peers for connected of which it has reported connections. -/
def ReportsConnections {Sw : Type} (api : SwarmApi Sw) (n : NodeState Sw) (input : LoopInput Sw) :
    Prop :=
  match input.branch with
  | .swarmEvent event swarm _ =>
    ∀ p, api.isConnected swarm p = event.leavesConnected p (api.isConnected n.swarm p)
  | _ => True

namespace NodeState

variable {Sw : Type} (api : SwarmApi Sw) (cfg : NodeConfig) (env : Env)

/-- A peer is connected, or its reconnect is scheduled, or a dial to it is in progress. -/
def Sustained (dialing : Sw → PeerId → ℕ) (p : PeerId) (n : NodeState Sw) : Prop :=
  api.isConnected n.swarm p = true ∨ n.pendingReconnects.contains p = true ∨ 0 < dialing n.swarm p

/-- The schedule of reconnects. -/
def reconnectBook (n : NodeState Sw) : ReconnectBook := ⟨n.backoff, n.pendingReconnects⟩

/-- How an event makes use of the schedule. -/
def eventCalls (n : NodeState Sw) : SwarmEvent → List ReconnectCall
  | .connectionEstablished peer _ _ =>
    if peer ∈ cfg.bootstrapPeerIds then [.connected peer] else []
  | .connectionClosed peer id num =>
    if (n.conn.onConnectionClosed peer id num).2.peerFullyDisconnected = true ∧
        peer ∈ cfg.bootstrapPeerIds then [.schedule peer] else []
  | .outgoingConnectionError (some peer) _ _ =>
    if peer ∈ cfg.bootstrapPeerIds ∧ api.isConnected n.swarm peer = false ∧
        n.pendingReconnects.contains peer = false then [.schedule peer] else []
  | _ => []

/-- How the reconnect timer makes use of the schedule for one due peer. -/
def reconnectPeerCalls (n : NodeState Sw) (peer : PeerId) : List ReconnectCall :=
  .due peer ::
    match n.backoff.addrs.get? peer with
    | none => []
    | some addr =>
      match (api.dial n.swarm (.address addr)).2 with
      | .ok _ => []
      | .error _ => [.schedule peer]

/-- How the reconnect timer makes use of the schedule for peers one after the other. -/
def timerCalls : NodeState Sw → List PeerId → List ReconnectCall
  | _, [] => []
  | n, peer :: peers =>
    n.reconnectPeerCalls api peer ++ timerCalls (n.reconnectPeer api env peer) peers

/-- How a pass makes use of the schedule. -/
def reconnectCalls (n : NodeState Sw) (input : LoopInput Sw) : List ReconnectCall :=
  if n.app.phase = .shuttingDown then []
  else
    match input.branch with
    | .swarmEvent event swarm _ => ({ n with swarm := swarm } : NodeState Sw).eventCalls api cfg event
    | .reconnectTimer =>
      n.timerCalls api input.env
        (((n.pendingReconnects.entries input.env.peerOrder).filter fun e =>
          e.2 ≤ input.env.now).map Prod.fst)
    | _ => []

/-- The uses a run makes of the schedule, each with its time. -/
def reconnectHistory : NodeState Sw → List (LoopInput Sw) → List (Instant × ReconnectCall)
  | _, [] => []
  | n, input :: inputs =>
    (n.reconnectCalls api cfg input).map (input.env.now, ·) ++
      reconnectHistory ((nodeLoop api cfg).step n input).1 inputs

end NodeState

/-! ## The schedule in a pass -/

namespace NodeState

variable {Sw : Type} (api : SwarmApi Sw) (cfg : NodeConfig) (env : Env)

/-- A node goes on with the same schedule; it has operated on its swarm. -/
structure KeepsSchedule (n m : NodeState Sw) : Prop where
  /-- The swarm was operated on. -/
  swarm : api.Operated n.swarm m.swarm
  /-- The schedule is the same. -/
  book : m.reconnectBook = n.reconnectBook

variable {api} {n m l : NodeState Sw}

theorem KeepsSchedule.refl (n : NodeState Sw) : KeepsSchedule api n n := ⟨.refl _, rfl⟩

theorem KeepsSchedule.trans (h : KeepsSchedule api n m) (h' : KeepsSchedule api m l) :
    KeepsSchedule api n l := ⟨h.swarm.trans h'.swarm, h'.book.trans h.book⟩

variable (api)

/-- Delivering an event does not touch the schedule. -/
theorem keepsSchedule_deliver (source : DeliverySource) (n : NodeState Sw) (e : Event) :
    KeepsSchedule api n (deliver api cfg env source n e).1 :=
  ⟨executeCommands_operated api cfg.exposed (n.swarm, n.ctx) (n.app.transition env e).2, rfl⟩

theorem keepsSchedule_observeIdentify (n : NodeState Sw) (e : Event) :
    KeepsSchedule api n (n.observeIdentify api cfg e) := by
  obtain ⟨_, _, hoperated, heq⟩ := observeIdentify_same api cfg n e
  rw [heq]
  exact ⟨hoperated, rfl⟩

/-- After the schedule was used, a pass does not touch it. -/
theorem stable_keepsSchedule (n : NodeState Sw) :
    Stable api cfg env (KeepsSchedule api n) fun _ => True where
  own _ _ := trivial
  booked _ _ _ h := ⟨h.swarm, h.book⟩
  observed m e h := h.trans (keepsSchedule_observeIdentify api cfg m e)
  delivered source m e _ h := h.trans (keepsSchedule_deliver api cfg env source m e)

/-- The use of the schedule by the bookkeeping of an event. -/
def track (n : NodeState Sw) (event : SwarmEvent) : NodeState Sw :=
  let n := n.spawnPortMapping cfg event
  (n.bookkeep api cfg env event).1.trackBootstrap api cfg env event
    (n.bookkeep api cfg env event).2.2

/-- The rest of the branch for swarm events does not touch the schedule. -/
theorem keepsSchedule_onSwarmEvent (n : NodeState Sw) (event : SwarmEvent) (swarm : Sw)
    (probe : Option (Option (Ipv4Addr × UInt16))) :
    KeepsSchedule api (({ n with swarm := swarm } : NodeState Sw).track api cfg env event)
      (n.onSwarmEvent api cfg env event swarm probe).1 := by
  have haddrs (m : NodeState Sw) : KeepsSchedule api m (m.trackExternalAddrs api event) := by
    refine ⟨(carried_trackExternalAddrs api m event).swarm, ?_⟩
    obtain ⟨_, _, -, heq⟩ := trackExternalAddrs_same api m event
    rw [heq]
    rfl
  have hpoll (m : NodeState Sw) : KeepsSchedule api m (m.pollPortMapping api cfg env probe).1 := by
    refine ⟨(carried_pollPortMapping api cfg env m probe).swarm, ?_⟩
    unfold pollPortMapping
    split <;> rfl
  have hprepare : KeepsSchedule api
      (({ n with swarm := swarm } : NodeState Sw).track api cfg env event)
      (prepare api cfg env { n with swarm := swarm } event probe).1 := by
    have h := (haddrs (({ n with swarm := swarm } : NodeState Sw).track api cfg env event)).trans
      (hpoll _)
    exact ⟨h.swarm, h.book⟩
  exact (stable_keepsSchedule api cfg env _).feedAll (fun _ _ _ _ _ => trivial) hprepare

/-- Scheduling a reconnect is a call of the schedule. -/
theorem scheduleReconnect_book (n : NodeState Sw) (peer : PeerId) :
    (n.scheduleReconnect env peer).reconnectBook =
      n.reconnectBook.call env.now (.schedule peer) := by
  unfold scheduleReconnect ReconnectBook.call reconnectBook
  dsimp only
  generalize n.backoff.scheduleReconnect peer = scheduled
  obtain ⟨backoff, _ | ⟨addr, delay⟩⟩ := scheduled
  · rfl
  · rfl

/-- The bookkeeping of an event uses the schedule by those calls. -/
theorem track_book (n : NodeState Sw) (event : SwarmEvent) :
    (n.track api cfg env event).reconnectBook =
      n.reconnectBook.calls ((n.eventCalls api cfg event).map (env.now, ·)) := by
  cases event with
  | newListenAddr address =>
    unfold track spawnPortMapping
    dsimp only
    split <;> rfl
  | connectionEstablished peer id endpoint =>
    have hconnected (m : NodeState Sw) : (m.trackBootstrap api cfg env
        (.connectionEstablished peer id endpoint) none).reconnectBook = m.reconnectBook.calls
          ((if peer ∈ cfg.bootstrapPeerIds then [.connected peer] else []).map (env.now, ·)) := by
      unfold trackBootstrap
      dsimp only
      split <;> rfl
    exact hconnected (n.bookkeep api cfg env (.connectionEstablished peer id endpoint)).1
  | connectionClosed peer id num =>
    have hlost (m : NodeState Sw) (c : Prop) [Decidable c] : (m.trackBootstrap api cfg env
        (.connectionClosed peer id num) (if c then some peer else none)).reconnectBook =
          m.reconnectBook.calls ((if c then [.schedule peer] else []).map (env.now, ·)) := by
      split
      · exact scheduleReconnect_book env m peer
      · rfl
    exact hlost (n.bookkeep api cfg env (.connectionClosed peer id num)).1 _
  | dialing peer id => cases peer <;> rfl
  | outgoingConnectionError peer id error =>
    cases peer with
    | none => rfl
    | some peer =>
      have hfailed (m : NodeState Sw) : (m.trackBootstrap api cfg env
          (.outgoingConnectionError (some peer) id error) none).reconnectBook =
            m.reconnectBook.calls ((if peer ∈ cfg.bootstrapPeerIds ∧
              api.isConnected m.swarm peer = false ∧
                m.pendingReconnects.contains peer = false then [.schedule peer]
              else []).map (env.now, ·)) := by
        unfold trackBootstrap
        dsimp only
        split
        · exact scheduleReconnect_book env m peer
        · rfl
      exact hfailed (n.bookkeep api cfg env
        (.outgoingConnectionError (some peer) id error)).1
  | _ => rfl

/-- The timer uses the schedule for a due peer by those calls. -/
theorem reconnectPeer_book (n : NodeState Sw) (peer : PeerId) :
    (n.reconnectPeer api env peer).reconnectBook =
      n.reconnectBook.calls ((n.reconnectPeerCalls api peer).map (env.now, ·)) := by
  unfold reconnectPeer reconnectPeerCalls
  dsimp only
  cases haddr : n.backoff.addrs.get? peer with
  | none => rfl
  | some addr =>
    dsimp only
    split
    · rename_i hdial
      rw [hdial]
      rfl
    · rename_i hdial
      rw [hdial]
      exact scheduleReconnect_book env _ peer

/-- Those calls are for the due peer. -/
theorem reconnectPeerCalls_peer (n : NodeState Sw) (peer : PeerId) :
    ∀ c ∈ n.reconnectPeerCalls api peer, c.peer = peer := by
  intro c hc
  unfold reconnectPeerCalls at hc
  rcases List.mem_cons.mp hc with rfl | hc
  · rfl
  · split at hc
    · cases hc
    · split at hc
      · cases hc
      · rw [List.mem_singleton.mp hc]
        rfl

/-- The timer uses the schedule by those calls. -/
theorem timer_book (peers : List PeerId) (n : NodeState Sw) :
    (peers.foldl (fun n peer => n.reconnectPeer api env peer) n).reconnectBook =
      n.reconnectBook.calls ((n.timerCalls api env peers).map (env.now, ·)) := by
  induction peers generalizing n with
  | nil => rfl
  | cons peer peers ih =>
    rw [timerCalls, List.map_append, ReconnectBook.calls_append, ← reconnectPeer_book]
    exact ih _

/-- A pass uses the schedule by those calls. -/
theorem pass_book (n : NodeState Sw) (input : LoopInput Sw) :
    ((nodeLoop api cfg).step n input).1.reconnectBook =
      n.reconnectBook.calls ((n.reconnectCalls api cfg input).map (input.env.now, ·)) := by
  have hstable := stable_keepsSchedule api cfg input.env n
  change (n.pass api cfg input.env input.branch).1.reconnectBook = _
  unfold pass reconnectCalls
  by_cases hphase : n.app.phase = .shuttingDown
  · rw [if_pos hphase, if_pos hphase]
    rfl
  · rw [if_neg hphase, if_neg hphase]
    cases hbranch : input.branch with
    | swarmEvent event swarm probe =>
      exact (keepsSchedule_onSwarmEvent api cfg input.env n event swarm probe).book.trans
        (track_book api cfg input.env { n with swarm := swarm } event)
    | discoveryDeadline =>
      dsimp only
      split <;> rfl
    | reconnectTimer =>
      dsimp only
      rw [← timer_book]
      unfold onReconnectTimer
      rw [List.foldl_map]
    | holePunchTimer => exact (hstable.onHolePunchTimer (.refl n)).book
    | shutdownSignal => rfl

/-- A run uses the schedule by its history. -/
theorem run_book (n : NodeState Sw) (inputs : List (LoopInput Sw)) :
    ((nodeLoop api cfg).after n inputs).reconnectBook =
      n.reconnectBook.calls (n.reconnectHistory api cfg inputs) := by
  induction inputs generalizing n with
  | nil => rfl
  | cons input inputs ih =>
    rw [reconnectHistory, ReconnectBook.calls_append, ← pass_book]
    exact ih _

end NodeState

/-! ## No gap -/

/-- The peer a connection to which is opened, closed, or fails to open with an event. -/
def SwarmEvent.about : SwarmEvent → Option PeerId
  | .connectionEstablished peer _ _ => some peer
  | .connectionClosed peer _ _ => some peer
  | .outgoingConnectionError peer _ _ => peer
  | _ => none

section Sustained

variable {Sw : Type} {api : SwarmApi Sw} {cfg : NodeConfig} {env : Env} {n m : NodeState Sw}
  {dialing : Sw → PeerId → ℕ} {p : PeerId} {addr : Multiaddr}

theorem SwarmApi.KeepsConnected.operated (h : api.KeepsConnected) {sw sw' : Sw}
    (hoperated : api.Operated sw sw') (hsw : api.isConnected sw p = true) :
    api.isConnected sw' p = true :=
  hoperated.invariant (P := fun sw => api.isConnected sw p = true) (fun _ _ hstep => h _ _ hstep p)
    hsw

/-- The dials before the loop are in progress when it starts. -/
theorem dialBootstrap_dialing (hdials : api.CountsDials dialing) {addrs : List Multiaddr}
    {sw sw' : Sw} (h : dialBootstrap api addrs sw = .ok sw') :
    dialing sw p ≤ dialing sw' p ∧
      ((∃ addr ∈ addrs, extractPeerId addr = some p) → 0 < dialing sw' p) := by
  induction addrs generalizing sw with
  | nil =>
    cases h
    refine ⟨le_rfl, ?_⟩
    rintro ⟨addr, haddr, _⟩
    cases haddr
  | cons addr addrs ih =>
    unfold dialBootstrap at h
    split at h
    · rename_i sw₁ _ hdial
      obtain ⟨hle, hrest⟩ := ih h
      have hkept := hdials.kept sw _ (.dial (.address addr)) p
      rw [hdial] at hkept
      refine ⟨hkept.trans hle, ?_⟩
      rintro ⟨addr', haddr', hpeer⟩
      rcases List.mem_cons.mp haddr' with rfl | haddr'
      · have haccepted := hdials.accepted sw (.address addr') p hpeer (by rw [hdial])
        rw [hdial] at haccepted
        dsimp only at haccepted
        omega
      · exact hrest ⟨addr', haddr', hpeer⟩
    · cases h

namespace NodeState

/-- What keeps the peer connected, its deadline and its dials, sustains it. -/
theorem Sustained.mono (h : n.Sustained api dialing p)
    (hconnected : api.isConnected n.swarm p = true → api.isConnected m.swarm p = true)
    (hpending : m.pendingReconnects.get? p = n.pendingReconnects.get? p)
    (hdialing : dialing n.swarm p ≤ dialing m.swarm p) : m.Sustained api dialing p := by
  rcases h with h | h | h
  · exact Or.inl (hconnected h)
  · right
    left
    rw [FiniteMap.contains, hpending]
    exact h
  · exact Or.inr (Or.inr (lt_of_lt_of_le h hdialing))

/-- A node that operates on its swarm sustains the peer, as long as its deadline stays. -/
theorem Sustained.operated (hdials : api.CountsDials dialing) (hkeeps : api.KeepsConnected)
    (h : n.Sustained api dialing p) (hoperated : api.Operated n.swarm m.swarm)
    (hpending : m.pendingReconnects.get? p = n.pendingReconnects.get? p) :
    m.Sustained api dialing p :=
  h.mono (hkeeps.operated hoperated) hpending (hdials.operated hoperated p)

theorem Sustained.keeps (hdials : api.CountsDials dialing) (hkeeps : api.KeepsConnected)
    (h : n.Sustained api dialing p) (hschedule : KeepsSchedule api n m) :
    m.Sustained api dialing p :=
  h.operated hdials hkeeps hschedule.swarm
    (congrArg (fun r : ReconnectBook => r.pending.get? p) hschedule.book)

/-- A peer whose last use of the schedule sets its deadline is sustained. -/
theorem sustained_of_schedule {r : ReconnectBook} {now : Instant}
    (haddr : r.backoff.addrs.get? p = some addr)
    (hbook : n.reconnectBook = r.call now (.schedule p)) : n.Sustained api dialing p := by
  right
  left
  have hpending : n.pendingReconnects = (r.call now (.schedule p)).pending :=
    congrArg ReconnectBook.pending hbook
  rw [hpending, ReconnectBook.call_schedule haddr, FiniteMap.contains, FiniteMap.get?_insert_self]
  rfl

/-- The timer sustains a peer: it dials or schedules it once its deadline is due. -/
theorem Sustained.reconnectPeer (hdials : api.CountsDials dialing) (hkeeps : api.KeepsConnected)
    (haddr : n.backoff.addrs.get? p = some addr) (hpeer : extractPeerId addr = some p)
    (h : n.Sustained api dialing p) (q : PeerId) :
    (n.reconnectPeer api env q).Sustained api dialing p := by
  have hbook := reconnectPeer_book api env n q
  by_cases hq : q = p
  · subst hq
    unfold reconnectPeerCalls at hbook
    rw [haddr] at hbook
    dsimp only at hbook
    cases hdial : (api.dial n.swarm (.address addr)).2 with
    | ok _ =>
      have haccepted := hdials.accepted n.swarm (.address addr) q hpeer hdial
      have hswarm : (n.reconnectPeer api env q).swarm = (api.dial n.swarm (.address addr)).1 := by
        unfold NodeState.reconnectPeer
        dsimp only
        rw [haddr]
        dsimp only
        split
        · rename_i hok
          rw [hok]
        · rename_i herror
          rw [herror] at hdial
          cases hdial
      right
      right
      rw [hswarm]
      omega
    | error reason =>
      rw [hdial] at hbook
      exact sustained_of_schedule (r := n.reconnectBook.call env.now (.due q)) haddr hbook
  · refine h.operated hdials hkeeps (carried_reconnectPeer api env n q).swarm ?_
    have hcalls : ∀ c ∈ (n.reconnectPeerCalls api q).map (env.now, ·), c.2.peer ≠ p := by
      intro c hc
      obtain ⟨c', hc', rfl⟩ := List.mem_map.mp hc
      dsimp only
      rw [reconnectPeerCalls_peer api n q c' hc']
      exact hq
    have hpending := ReconnectBook.calls_pending_of_ne (r := n.reconnectBook) hcalls
    rw [← hbook] at hpending
    exact hpending

/-- The reconnect timer sustains a peer. -/
theorem Sustained.onReconnectTimer (hdials : api.CountsDials dialing)
    (hkeeps : api.KeepsConnected) (haddr : n.backoff.addrs.get? p = some addr)
    (hpeer : extractPeerId addr = some p) (h : n.Sustained api dialing p) :
    (n.onReconnectTimer api env).Sustained api dialing p := by
  have haddrs (m : NodeState Sw) (q : PeerId) :
      (m.reconnectPeer api env q).backoff.addrs = m.backoff.addrs := by
    have hbook := congrArg (fun r : ReconnectBook => r.backoff.addrs) (reconnectPeer_book api env m q)
    exact hbook.trans (ReconnectBook.calls_addrs _ _)
  unfold NodeState.onReconnectTimer
  refine (List.foldlRecOn _ _ (motive := fun (m : NodeState Sw) =>
    m.backoff.addrs.get? p = some addr ∧ m.Sustained api dialing p) ⟨haddr, h⟩
    fun m hm e _ => ⟨?_, hm.2.reconnectPeer hdials hkeeps hm.1 hpeer e.1⟩).2
  rw [haddrs]
  exact hm.1

/-- An event uses the schedule for its peer. -/
theorem eventCalls_about (n : NodeState Sw) (event : SwarmEvent) :
    ∀ c ∈ n.eventCalls api cfg event, event.about = some c.peer := by
  intro c hc
  unfold eventCalls at hc
  split at hc
  · split at hc
    · rw [List.mem_singleton.mp hc]
      rfl
    · cases hc
  · split at hc
    · rw [List.mem_singleton.mp hc]
      rfl
    · cases hc
  · split at hc
    · rw [List.mem_singleton.mp hc]
      rfl
    · cases hc
  · cases hc

/-- The bookkeeping of an event operates on the swarm. -/
theorem track_operated (n : NodeState Sw) (event : SwarmEvent) :
    api.Operated n.swarm (n.track api cfg env event).swarm :=
  ((carried_spawnPortMapping api cfg n event).trans
    ((carried_bookkeep api cfg env _ event).trans
      (carried_trackBootstrap api cfg env _ event _))).swarm

/-- The bookkeeping of an event sustains a bootstrap peer that was sustained, or whose dial has
ended, or whose last connection is closed. -/
theorem sustained_track (hdials : api.CountsDials dialing) (hkeeps : api.KeepsConnected)
    (hp : p ∈ cfg.bootstrapPeerIds) (haddr : n.backoff.addrs.get? p = some addr)
    (event : SwarmEvent)
    (h : n.Sustained api dialing p ∨ event.endedDial = some p ∨
      ∃ id, event = .connectionClosed p id 0)
    (hopened : ∀ id endpoint, event = .connectionEstablished p id endpoint →
      api.isConnected n.swarm p = true)
    (hclosed : ∀ id, event = .connectionClosed p id 0 →
      (n.conn.onConnectionClosed p id 0).2.peerFullyDisconnected = true) :
    (n.track api cfg env event).Sustained api dialing p := by
  have hoperated : api.Operated n.swarm (n.track api cfg env event).swarm :=
    track_operated n event
  have hbook := track_book api cfg env n event
  by_cases habout : event.about = some p
  · cases event with
    | connectionEstablished q id endpoint =>
      cases habout
      exact Or.inl (hkeeps.operated hoperated (hopened id endpoint rfl))
    | connectionClosed q id num =>
      cases habout
      unfold eventCalls at hbook
      dsimp only at hbook
      by_cases hlost : (n.conn.onConnectionClosed p id num).2.peerFullyDisconnected = true
      · rw [if_pos ⟨hlost, hp⟩] at hbook
        exact sustained_of_schedule (r := n.reconnectBook) haddr hbook
      · rw [if_neg fun hboth => hlost hboth.1] at hbook
        have hnum : num ≠ 0 := fun hzero => hlost (hzero ▸ hclosed id (by rw [hzero]))
        rcases h with h | hended | ⟨id', heq⟩
        · exact h.operated hdials hkeeps hoperated
            (congrArg (fun r : ReconnectBook => r.pending.get? p) hbook)
        · cases hended
        · cases heq
          exact absurd rfl hnum
    | outgoingConnectionError peer id error =>
      cases habout
      unfold eventCalls at hbook
      dsimp only at hbook
      split at hbook
      · exact sustained_of_schedule (r := n.reconnectBook) haddr hbook
      · rename_i hguard
        have hkept : (n.track api cfg env
            (.outgoingConnectionError (some p) id error)).pendingReconnects.contains p =
              n.pendingReconnects.contains p :=
          congrArg (fun r : ReconnectBook => r.pending.contains p) hbook
        cases hconnected : api.isConnected n.swarm p with
        | true => exact Or.inl (hkeeps.operated hoperated hconnected)
        | false =>
          right
          left
          rw [hkept]
          by_contra hpending
          exact hguard ⟨hp, hconnected, Bool.eq_false_iff.mpr hpending⟩
    | _ => cases habout
  · have hcalls : ∀ c ∈ (n.eventCalls api cfg event).map (env.now, ·), c.2.peer ≠ p := by
      intro c hc heq
      obtain ⟨c', hc', rfl⟩ := List.mem_map.mp hc
      have hevent := eventCalls_about n event c' hc'
      dsimp only at heq
      rw [heq] at hevent
      exact habout hevent
    have hpending := ReconnectBook.calls_pending_of_ne (r := n.reconnectBook) hcalls
    rw [← hbook] at hpending
    rcases h with h | hended | ⟨id, rfl⟩
    · exact h.operated hdials hkeeps hoperated hpending
    · cases event <;> first | exact absurd hended habout | cases hended
    · exact absurd rfl habout

end NodeState

end Sustained

/-! ## Runs -/

section Runs

variable {Sw : Type} {api : SwarmApi Sw} {cfg : NodeConfig} {dialing : Sw → PeerId → ℕ}
  {p : PeerId} {addr : Multiaddr}

/-- After an event, a peer is sustained as before, or a dial to it has ended, or its last
connection is closed. -/
theorem sustained_event {n : NodeState Sw} {env : Env} {event : SwarmEvent} {swarm : Sw}
    {probe : Option (Option (Ipv4Addr × UInt16))} (h : n.Sustained api dialing p)
    (hreports : ReportsConnections api n ⟨env, .swarmEvent event swarm probe⟩)
    (hends : EndsDials dialing n ⟨env, .swarmEvent event swarm probe⟩) :
    NodeState.Sustained api dialing p { n with swarm := swarm } ∨ event.endedDial = some p ∨
      ∃ id, event = .connectionClosed p id 0 := by
  have hconnected : api.isConnected swarm p =
      event.leavesConnected p (api.isConnected n.swarm p) := hreports p
  have hdialing := hends p
  by_cases hended : event.endedDial = some p
  · exact Or.inr (Or.inl hended)
  · rw [if_neg hended, Nat.add_zero] at hdialing
    by_cases hlast : ∃ id, event = .connectionClosed p id 0
    · exact Or.inr (Or.inr hlast)
    · left
      refine h.mono (fun hbefore => ?_) rfl hdialing
      change api.isConnected swarm p = true
      rw [hconnected, hbefore]
      cases event with
      | connectionEstablished q id endpoint => exact Bool.or_true _
      | connectionClosed q id num =>
        unfold SwarmEvent.leavesConnected
        dsimp only
        split
        · rename_i hq
          rw [decide_eq_true_eq]
          rintro rfl
          exact hlast ⟨id, by rw [hq]⟩
        · rfl
      | _ => rfl

/-- A peer stays sustained by all that a pass does after its schedule was used. -/
theorem stable_sustained (hdials : api.CountsDials dialing) (hkeeps : api.KeepsConnected)
    (env : Env) :
    NodeState.Stable api cfg env (NodeState.Sustained api dialing p) fun _ => True where
  own _ _ := trivial
  booked _ _ _ h := h
  observed n e h := h.keeps hdials hkeeps (NodeState.keepsSchedule_observeIdentify api cfg n e)
  delivered source n e _ h :=
    h.keeps hdials hkeeps (NodeState.keepsSchedule_deliver api cfg env source n e)

/-- A pass sustains a bootstrap peer. -/
theorem sustained_step (hdials : api.CountsDials dialing) (hkeeps : api.KeepsConnected)
    (hp : p ∈ cfg.bootstrapPeerIds) (hpeer : extractPeerId addr = some p)
    (x : NodeState Sw × ConnectionLedger) (input : LoopInput Sw) (hbooks : Books x.1.conn x.2)
    (haddr : x.1.backoff.addrs.get? p = some addr) (h : x.1.Sustained api dialing p)
    (hserves : ServesConsistently x input) (hreports : ReportsConnections api x.1 input)
    (hends : EndsDials dialing x.1 input) :
    ((nodeLoop api cfg).step x.1 input).1.Sustained api dialing p := by
  by_cases hphase : x.1.app.phase = .shuttingDown
  · rw [NodeState.step_of_shuttingDown hphase]
    exact h
  · refine (stable_sustained hdials hkeeps input.env).pass input.branch
      (fun h => h.onReconnectTimer hdials hkeeps haddr hpeer)
      (fun event swarm probe hbranch h => ?_) h
    obtain ⟨env, branch⟩ := input
    subst hbranch
    have hconsistent : x.2.Consistent event := by
      unfold ServesConsistently NodeState.served at hserves
      rwa [if_neg hphase] at hserves
    have htracked : (NodeState.track api cfg env { x.1 with swarm := swarm } event).Sustained api
        dialing p := by
      refine NodeState.sustained_track (n := { x.1 with swarm := swarm }) hdials hkeeps hp haddr
        event ?_ ?_ ?_
      · exact sustained_event h hreports hends
      · rintro id endpoint rfl
        have hconnected := hreports p
        rw [hconnected]
        simp [SwarmEvent.leavesConnected]
      · rintro id rfl
        exact (peerFullyDisconnected_iff x.1.conn p id 0).mpr
          ⟨rfl, (hbooks.close hconsistent).2.1 rfl⟩
    exact htracked.keeps hdials hkeeps
      (NodeState.keepsSchedule_onSwarmEvent api cfg env x.1 event swarm probe)

/-- A bootstrap peer has an address by which it is dialed. -/
theorem exists_bootstrapAddr (hp : p ∈ cfg.bootstrapPeerIds) :
    (∃ addr ∈ cfg.bootstrapAddrs, extractPeerId addr = some p) ∧
      ∃ addr, (ReconnectBackoff.new cfg.bootstrapPeersWithAddrs).addrs.get? p = some addr ∧
        extractPeerId addr = some p := by
  have hnamed {e : PeerId × Multiaddr} (he : e ∈ cfg.bootstrapPeersWithAddrs) :
      e.2 ∈ cfg.bootstrapAddrs ∧ extractPeerId e.2 = some e.1 := by
    obtain ⟨addr, haddr, hmap⟩ := List.mem_filterMap.mp he
    obtain ⟨q, hq, rfl⟩ := Option.map_eq_some_iff.mp hmap
    exact ⟨haddr, hq⟩
  obtain ⟨e, he, rfl⟩ := List.mem_map.mp (List.mem_toFinset.mp hp)
  obtain ⟨addr, haddr⟩ := Option.isSome_iff_exists.mp (FiniteMap.contains_ofList he)
  exact ⟨⟨e.2, hnamed he⟩, addr, haddr, (hnamed (FiniteMap.mem_of_get?_ofList haddr)).2⟩

/-- **Reconnects are never dropped.** If the bootstrap addresses were dialed before a run of the
loop, then after every pass a bootstrap peer is connected, or has a deadline, or is dialed. The
schedule goes through the uses the run makes of it, and each deadline it sets for the peer comes
after the delay that belongs to the number of its schedules since it was last connected. -/
theorem bootstrap_reconnects_never_dropped (env : Env) (natMapping : NatMapping)
    (hdials : api.CountsDials dialing) (hkeeps : api.KeepsConnected)
    (hp : p ∈ cfg.bootstrapPeerIds) {before swarm : Sw}
    (hdialed : dialBootstrap api cfg.bootstrapAddrs before = .ok swarm)
    {inputs : List (LoopInput Sw)}
    (hguard : (nodeLedger api cfg).Guarded
      (fun x input => ServesConsistently x input ∧ ReportsConnections api x.1 input ∧
        EndsDials dialing x.1 input)
      (.start api cfg env natMapping swarm, .new) inputs) :
    (nodeLoop api cfg).Always (NodeState.Sustained api dialing p)
        (.start api cfg env natMapping swarm) inputs ∧
      ((nodeLoop api cfg).after (.start api cfg env natMapping swarm) inputs).reconnectBook =
        (NodeState.start api cfg env natMapping swarm).reconnectBook.calls
          ((NodeState.start api cfg env natMapping swarm).reconnectHistory api cfg inputs) ∧
      ∀ cs now ds,
        (NodeState.start api cfg env natMapping swarm).reconnectHistory api cfg inputs =
          cs ++ (now, .schedule p) :: ds →
        (((NodeState.start api cfg env natMapping swarm).reconnectBook.calls cs).call now
            (.schedule p)).pending.get? p =
          some (now + Duration.fromSecs (min (2 ^ schedulesSince p cs) 60)) := by
  obtain ⟨hlisted, addr, haddr, hpeer⟩ := exists_bootstrapAddr hp
  have hbook : (NodeState.start api cfg env natMapping swarm).reconnectBook =
      ⟨.new cfg.bootstrapPeersWithAddrs, ∅⟩ := rfl
  have hstart : (NodeState.start api cfg env natMapping swarm).Sustained api dialing p := by
    have hdialing : 0 < dialing swarm p := (dialBootstrap_dialing hdials hdialed).2 hlisted
    unfold NodeState.start
    refine NodeState.Sustained.keeps hdials hkeeps ?_
      (NodeState.keepsSchedule_deliver api cfg env .eventList _ _)
    exact Or.inr (Or.inr hdialing)
  refine ⟨?_, NodeState.run_book api cfg _ inputs, fun cs now ds _ => ?_⟩
  · have halways : (nodeLedger api cfg).Always
        (fun x => Books x.1.conn x.2 ∧ x.1.backoff.addrs.get? p = some addr ∧
          x.1.Sustained api dialing p) (.start api cfg env natMapping swarm, .new) inputs := by
      refine hguard.always ⟨books_start api cfg env natMapping swarm, haddr, hstart⟩ ?_
      rintro x input ⟨hbooks, haddr, hsustained⟩ ⟨hserves, hreports, hends⟩
      refine ⟨books_step api cfg x input hbooks hserves.orderly, ?_,
        sustained_step hdials hkeeps hp hpeer x input hbooks haddr hsustained hserves hreports hends⟩
      have hpass := congrArg (fun r : ReconnectBook => r.backoff.addrs)
        (NodeState.pass_book api cfg x.1 input)
      rw [ReconnectBook.calls_addrs] at hpass
      exact (congrArg (FiniteMap.get? · p) hpass).trans haddr
    exact (halways.mono fun x h => h.2.2).of_withGhost
  · rw [hbook]
    exact ReconnectBook.pending_schedule (r := ⟨.new cfg.bootstrapPeersWithAddrs, ∅⟩) haddr rfl cs
      now

end Runs

/-- The sample swarm stays connected. -/
theorem dialApi_keepsConnected : dialApi.KeepsConnected := by
  rintro sw sw' h p hp
  cases h with
  | dial opts =>
    rcases dialApi_dial sw opts with ⟨heq, _⟩ | ⟨peer, _, heq⟩
    · rw [heq]
      exact hp
    · rw [heq]
      exact hp
  | _ => exact hp

/-- The peers the sample swarm lists as connected after an event. -/
def SwarmEvent.connectedAfter (connected : List PeerId) : SwarmEvent → List PeerId
  | .connectionEstablished peer _ _ => peer :: connected
  | .connectionClosed peer _ num =>
    if num = 0 then connected.filter (· ≠ peer) else peer :: connected
  | _ => connected

/-- The sample swarm lists the peers of reported connections. -/
def ReportsOn (n : NodeState DialSwarm) (input : LoopInput DialSwarm) : Prop :=
  match input.branch with
  | .swarmEvent event swarm _ => swarm.connected = event.connectedAfter n.swarm.connected
  | _ => True

instance (n : NodeState DialSwarm) : (input : LoopInput DialSwarm) → Decidable (ReportsOn n input)
  | ⟨_, .swarmEvent event swarm _⟩ =>
    inferInstanceAs (Decidable (swarm.connected = event.connectedAfter n.swarm.connected))
  | ⟨_, .discoveryDeadline⟩ | ⟨_, .reconnectTimer⟩ | ⟨_, .holePunchTimer⟩ | ⟨_, .shutdownSignal⟩ =>
    inferInstanceAs (Decidable True)

theorem ReportsOn.reports {n : NodeState DialSwarm} {input : LoopInput DialSwarm}
    (h : ReportsOn n input) : ReportsConnections dialApi n input := by
  unfold ReportsOn at h
  unfold ReportsConnections
  split
  · rename_i event swarm probe hbranch
    rw [hbranch] at h
    dsimp only at h
    intro p
    change decide (p ∈ swarm.connected) =
      event.leavesConnected p (decide (p ∈ n.swarm.connected))
    rw [h]
    cases event with
    | connectionEstablished peer id endpoint =>
      simp [SwarmEvent.leavesConnected, SwarmEvent.connectedAfter, eq_comm]
    | connectionClosed peer id num =>
      by_cases hpeer : peer = p
      · by_cases hnum : num = 0
        · simp [SwarmEvent.leavesConnected, SwarmEvent.connectedAfter, hpeer, hnum]
        · simp [SwarmEvent.leavesConnected, SwarmEvent.connectedAfter, hpeer, hnum]
      · by_cases hnum : num = 0
        · simp [SwarmEvent.leavesConnected, SwarmEvent.connectedAfter, hpeer, hnum, Ne.symm hpeer]
        · simp [SwarmEvent.leavesConnected, SwarmEvent.connectedAfter, hpeer, hnum, Ne.symm hpeer]
    | _ => rfl
  · trivial

/-- The environment one second after the start. -/
def Env.soon : Env := { Env.sorted with now := Duration.fromSecs 1 }

/-- The dial of bootstrap peer 9 fails, its reconnect succeeds, and its connection is closed. -/
def reconnectRun : List (LoopInput DialSwarm) :=
  [⟨.sorted, .swarmEvent (.outgoingConnectionError (some ⟨9⟩) ⟨1⟩ "timeout") ⟨[], [], [], 0⟩ none⟩,
    ⟨.soon, .reconnectTimer⟩,
    ⟨.soon, .swarmEvent (.connectionEstablished ⟨9⟩ ⟨2⟩ (directEndpoint ⟨9⟩)) ⟨[⟨9⟩], [], [], 0⟩
      none⟩,
    ⟨.soon, .swarmEvent (.connectionClosed ⟨9⟩ ⟨2⟩ 0) ⟨[], [], [], 1⟩ none⟩]

/-- The bootstrap peer is sustained after every pass. -/
theorem bootstrap_reconnects_never_dropped_again :
    (nodeLoop dialApi mappedConfig).Always (NodeState.Sustained dialApi DialSwarm.dialing ⟨9⟩)
      (.start dialApi mappedConfig .sorted .unknown ⟨[], [⟨9⟩], [], 0⟩) reconnectRun := by
  have hserves : (nodeLedger dialApi mappedConfig).Guarded
      (fun x input => ServesConsistently x input ∧ ReportsOn x.1 input ∧ AccountsOn x.1 input)
      (.start dialApi mappedConfig .sorted .unknown ⟨[], [⟨9⟩], [], 0⟩, .new) reconnectRun := by
    decide
  have hdialed : dialBootstrap dialApi mappedConfig.bootstrapAddrs ⟨[], [], [], 0⟩ =
      .ok ⟨[], [⟨9⟩], [], 0⟩ := rfl
  exact (bootstrap_reconnects_never_dropped .sorted .unknown dialApi_countsDials
    dialApi_keepsConnected (by decide) hdialed
    (hserves.mono fun x input h => ⟨h.1, h.2.1.reports, h.2.2.keeps.2⟩)).1

end Punchgate
