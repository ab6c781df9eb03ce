import Punchgate.Node.Ledger

/-!
# Two notions of being fully disconnected

The loop reports `ConnectionLost` with no remaining connection when none is tracked any
more; the bookkeeping finds a peer fully disconnected when the swarm counts none either.
A relayed connection is dropped from the books as soon as a direct one opens, while it is
still closing. The two notions agree exactly as long as no connection outlives the tracked
ones in this way.
-/

namespace Punchgate

namespace ConnectionLedger

/-- The number of open connections of a peer. -/
def openCount (l : ConnectionLedger) (p : PeerId) : ℕ :=
  (l.live.keys.filter fun id => (l.live.get? id).map Prod.fst = some p).card

/-- An event is one the swarm can report: ids are unique, only open connections are closed,
and a closed connection comes with the number of those the peer has left. -/
def Consistent (l : ConnectionLedger) : SwarmEvent → Prop
  | .connectionEstablished _ id _ => id ∉ l.known
  | .connectionClosed peer id num =>
    (l.live.get? id).map Prod.fst = some peer ∧
      num.toNat = (l.record (.connectionClosed peer id num)).openCount peer
  | _ => True

instance (l : ConnectionLedger) (event : SwarmEvent) : Decidable (l.Consistent event) := by
  unfold Consistent
  split <;> infer_instance

/-- Ids are unique, and only open connections are closed. -/
def Orderly (l : ConnectionLedger) : SwarmEvent → Prop
  | .connectionEstablished _ id _ => id ∉ l.known
  | .connectionClosed peer id _ => (l.live.get? id).map Prod.fst = some peer
  | _ => True

instance (l : ConnectionLedger) (event : SwarmEvent) : Decidable (l.Orderly event) := by
  unfold Orderly
  split <;> infer_instance

/-- What the swarm can report is in order. -/
theorem Consistent.orderly {l : ConnectionLedger} {event : SwarmEvent} (h : l.Consistent event) :
    l.Orderly event := by
  cases event with
  | connectionEstablished => exact h
  | connectionClosed => exact h.1
  | _ => trivial

end ConnectionLedger

/-- The number of deliveries that report the loss of the last connection of a peer. -/
def zeroLosts (p : PeerId) (ds : List Delivery) : ℕ :=
  ds.countP fun d => d.event = .connectionLost p 0

section Steps

variable {Sw : Type} (api : SwarmApi Sw) (cfg : NodeConfig)

/-- What a pass serves is one the swarm can report. -/
def ServesConsistently (x : NodeState Sw × ConnectionLedger) (input : LoopInput Sw) : Prop :=
  match x.1.served input with
  | some event => x.2.Consistent event
  | none => True

instance (x : NodeState Sw × ConnectionLedger) (input : LoopInput Sw) :
    Decidable (ServesConsistently x input) := by
  unfold ServesConsistently
  split <;> infer_instance

/-- What a pass serves has unique ids, and closes open connections only. -/
def ServesOrderly (x : NodeState Sw × ConnectionLedger) (input : LoopInput Sw) : Prop :=
  match x.1.served input with
  | some event => x.2.Orderly event
  | none => True

instance (x : NodeState Sw × ConnectionLedger) (input : LoopInput Sw) :
    Decidable (ServesOrderly x input) := by
  unfold ServesOrderly
  split <;> infer_instance

/-- What the swarm can report is in order. -/
theorem ServesConsistently.orderly {x : NodeState Sw × ConnectionLedger} {input : LoopInput Sw}
    (h : ServesConsistently x input) : ServesOrderly x input := by
  unfold ServesConsistently at h
  unfold ServesOrderly
  cases hserved : x.1.served input with
  | none => trivial
  | some event =>
    rw [hserved] at h
    exact ConnectionLedger.Consistent.orderly h

/-- At a closed connection, the loop reports that none remains exactly if the bookkeeping
finds the peer fully disconnected. -/
def AgreesOnDisconnect (x : NodeState Sw × ConnectionLedger) (input : LoopInput Sw) : Prop :=
  ∀ p id num, x.1.served input = some (.connectionClosed p id num) →
    (0 < zeroLosts p ((nodeLedger api cfg).step x input).2 ↔
      (x.1.conn.onConnectionClosed p id num).2.peerFullyDisconnected = true)

/-- A pass reports once that no connection of a peer remains if it ends a connected period of
the peer, and not at all otherwise. -/
def EndsPeriodsOnce (x : NodeState Sw × ConnectionLedger) (input : LoopInput Sw) : Prop :=
  ∀ p, zeroLosts p ((nodeLedger api cfg).step x input).2 =
    if x.2.openCount p ≠ 0 ∧ ((nodeLedger api cfg).step x input).1.2.openCount p = 0 then 1 else 0

/-- If a pass closes the last tracked connection of a peer, then no other one is open. -/
def ClosesLastConnection (x : NodeState Sw × ConnectionLedger) (input : LoopInput Sw) : Prop :=
  match x.1.served input with
  | some (.connectionClosed p id num) =>
    (∀ id' ∈ x.1.conn.relayedConnections.getD p ∅ ∪ x.1.conn.directConnections.getD p ∅,
      id' = id) → num = 0
  | _ => True

instance (x : NodeState Sw × ConnectionLedger) (input : LoopInput Sw) :
    Decidable (ClosesLastConnection x input) := by
  unfold ClosesLastConnection
  split <;> infer_instance

end Steps

/-! ## Lost connections among the deliveries -/

/-- Deliveries of other events report no loss. -/
theorem zeroLosts_eq_zero {p : PeerId} {ds : List Delivery}
    (h : ∀ d ∈ ds, d.event ≠ .connectionLost p 0) : zeroLosts p ds = 0 := by
  unfold zeroLosts
  rw [List.countP_eq_zero]
  intro d hd
  simpa using h d hd

/-- Losses are counted in both parts. -/
theorem zeroLosts_append (p : PeerId) (ds es : List Delivery) :
    zeroLosts p (ds ++ es) = zeroLosts p ds + zeroLosts p es := List.countP_append

namespace NodeState

variable {Sw : Type} (api : SwarmApi Sw) (cfg : NodeConfig) (env : Env) {p : PeerId}

/-- Arming delivers new attempts only. -/
theorem event_of_mem_arm (n : NodeState Sw) :
    ∀ d ∈ (n.armHolePunchForTunnelTargets api cfg env).2,
      ∃ q a, d.event = .holePunchAttemptStarted q a := by
  unfold armHolePunchForTunnelTargets
  split
  · exact fun d hd => by cases hd
  · refine List.foldlRecOn (n.app.tunnel.holepunchTargetPeers env) (armPeer api cfg env)
      (motive := fun acc => ∀ d ∈ acc.2, ∃ q a, d.event = .holePunchAttemptStarted q a)
      (b := (n, [])) (fun d hd => by cases hd) fun acc hacc q _ d hd => ?_
    rcases armPeer_cases api cfg env acc q with ⟨_, heq⟩ | ⟨_, conn, a, _, heq⟩
    · rw [heq] at hd
      exact hacc d hd
    · rw [heq] at hd
      rcases List.mem_append.mp hd with hd | hd
      · exact hacc d hd
      · rw [List.mem_singleton.mp hd]
        exact ⟨q, a, rfl⟩

/-- Feeding an event reports a loss if it is one. -/
theorem zeroLosts_feed (n : NodeState Sw) (e : Event) :
    zeroLosts p (n.feed api cfg env e).2 = if e = .connectionLost p 0 then 1 else 0 := by
  have hattribute {c : ConnectionStateMachine} {e' : Event} (h : attributeFailure c e = some e') :
      e' = .connectionLost p 0 ↔ e = .connectionLost p 0 := by
    cases e with
    | holePunchFailed =>
      obtain ⟨_, _, rfl⟩ := Option.map_eq_some_iff.mp h
      exact iff_of_false (fun h => by cases h) fun h => by cases h
    | holePunchAttemptFailed =>
      refine iff_of_false (fun heq => ?_) fun h => by cases h
      subst heq
      simp only [attributeFailure] at h
      split at h
      · split at h <;> cases h
      · cases h
    | _ =>
      cases h
      exact Iff.rfl
  unfold feed
  split
  · rename_i hnone
    rw [if_neg]
    · rfl
    · rintro rfl
      cases hnone
  · rename_i e' he'
    have harm : zeroLosts p ((deliver api cfg env .eventList (n.observeIdentify api cfg e') e').1
        |>.armHolePunchForTunnelTargets api cfg env).2 = 0 :=
      zeroLosts_eq_zero fun d hd heq => by
        obtain ⟨q, a, hevent⟩ := event_of_mem_arm api cfg env _ d hd
        rw [hevent] at heq
        cases heq
    have hcons : zeroLosts p ((deliver api cfg env .eventList (n.observeIdentify api cfg e') e').2 ::
        ((deliver api cfg env .eventList (n.observeIdentify api cfg e') e').1
          |>.armHolePunchForTunnelTargets api cfg env).2) =
        if e' = .connectionLost p 0 then 1 else 0 := by
      unfold zeroLosts at harm ⊢
      rw [List.countP_cons, harm, zero_add]
      by_cases h : e' = .connectionLost p 0
      · have hevent : (deliver api cfg env .eventList (n.observeIdentify api cfg e') e').2.event =
            .connectionLost p 0 := h
        rw [if_pos h, if_pos (decide_eq_true hevent)]
      · have hevent : ¬(deliver api cfg env .eventList (n.observeIdentify api cfg e') e').2.event =
            .connectionLost p 0 := h
        rw [if_neg h, if_neg (by simpa using hevent)]
    simp only [hattribute he'] at hcons
    exact hcons

/-- Feeding an event list without a lost connection reports none. -/
theorem zeroLosts_feedAll {es : List Event} (h : .connectionLost p 0 ∉ es) (n : NodeState Sw) :
    zeroLosts p (n.feedAll api cfg env es).2 = 0 := by
  induction es generalizing n with
  | nil => rfl
  | cons e es ih =>
    rw [List.mem_cons, not_or] at h
    have hfeed := zeroLosts_feed api cfg env n e (p := p)
    rw [if_neg fun heq => h.1 heq.symm] at hfeed
    unfold feedAll
    dsimp only
    split
    · exact hfeed
    · rw [zeroLosts_append, hfeed, ih h.2]

/-- A new connection comes with no lost one. -/
theorem not_mem_established {bootstrapPeers : Finset PeerId} (ctx : ExecutionContext)
    (isConnected : PeerId → Bool) (q : PeerId) (id : ConnectionId) (endpoint : ConnectedPoint) :
    .connectionLost p 0 ∉ (translateSwarmEvent env bootstrapPeers ctx isConnected
      (.connectionEstablished q id endpoint)).1 := by
  obtain ⟨es, htranslate, hes⟩ := translate_established env bootstrapPeers ctx isConnected q id
    endpoint
  rw [htranslate]
  intro hmem
  rcases List.mem_append.mp hmem with hmem | hmem
  · simpa [Event.elsewhere] using hes p _ hmem
  · cases List.mem_singleton.mp hmem

/-- A prepared event list reports a loss exactly if it stems from a closed connection after
which none is tracked. -/
theorem Prepared.zeroLosts {n : NodeState Sw} {event : SwarmEvent}
    {r : NodeState Sw × List Event × List Delivery} (h : Prepared cfg env n event r) (p : PeerId) :
    zeroLosts p (r.2.2 ++ (r.1.feedAll api cfg env r.2.1).2) =
      match event with
      | .connectionClosed q id num =>
        if q = p ∧ ((n.conn.link q).close id num).remaining = 0 then 1 else 0
      | _ => 0 := by
  have hprobed : Punchgate.zeroLosts p r.2.2 = 0 :=
    zeroLosts_eq_zero fun d hd heq => by
      rw [(h.probed d hd).event] at heq
      cases heq
  obtain ⟨synthetic, ctx, isConnected, hbooked, hevents⟩ := h.booked
  rw [zeroLosts_append, hprobed, zero_add, hevents]
  cases hbooked with
  | @relayedStarted q id endpoint =>
    refine zeroLosts_feedAll api cfg env (fun hmem => ?_) _
    rcases List.mem_append.mp hmem with hmem | hmem
    · cases List.mem_singleton.mp hmem
    · exact not_mem_established env ctx isConnected q id endpoint hmem
  | @relayed q id endpoint =>
    exact zeroLosts_feedAll api cfg env (not_mem_established env ctx isConnected q id endpoint) _
  | @direct q id endpoint =>
    exact zeroLosts_feedAll api cfg env (not_mem_established env ctx isConnected q id endpoint) _
  | @closed q id num _ hlink =>
    have hlinkq := (hlink q).trans (if_pos rfl)
    change Punchgate.zeroLosts p (r.1.feedAll api cfg env
      [.connectionLost q (r.1.conn.link q).remaining]).2 = _
    have hfeed := zeroLosts_feed api cfg env r.1
      (.connectionLost q (r.1.conn.link q).remaining) (p := p)
    have hall : (r.1.feedAll api cfg env [.connectionLost q (r.1.conn.link q).remaining]).2 =
        (r.1.feed api cfg env (.connectionLost q (r.1.conn.link q).remaining)).2 := by
      unfold feedAll
      dsimp only
      split
      · rfl
      · exact List.append_nil _
    rw [hall, hfeed, hlinkq]
    simp only [Event.connectionLost.injEq]
  | other hevent hlink =>
    have hnone : .connectionLost p 0 ∉ [] ++
        (translateSwarmEvent env cfg.bootstrapPeerIds ctx isConnected event).1 := by
      intro hmem
      rw [List.nil_append] at hmem
      rcases translateSwarmEvent_ordinary env cfg.bootstrapPeerIds ctx isConnected event hevent with
        hnil | ⟨e, hone, hordinary⟩
      · rw [hnil] at hmem
        cases hmem
      · rw [hone] at hmem
        rw [← List.mem_singleton.mp hmem] at hordinary
        cases hordinary
    rw [zeroLosts_feedAll api cfg env hnone]
    cases event with
    | connectionClosed => cases hevent
    | _ => rfl

/-- The timer reports no loss. -/
theorem zeroLosts_foldl_expireAttempt (due : List (PeerId × ℕ))
    (acc : NodeState Sw × List Delivery) (h : zeroLosts p acc.2 = 0) :
    zeroLosts p (due.foldl (expireAttempt api cfg env) acc).2 = 0 := by
  induction due generalizing acc with
  | nil => exact h
  | cons e due ih =>
    refine ih _ ?_
    unfold expireAttempt
    split
    · have hone : zeroLosts p [(deliver api cfg env .holePunchTimer acc.1
          (.holePunchAttemptTimeout e.1 e.2)).2] = 0 :=
        zeroLosts_eq_zero fun d hd heq => by
          rw [List.mem_singleton.mp hd] at heq
          cases heq
      have happend := zeroLosts_append p acc.2 [(deliver api cfg env .holePunchTimer acc.1
        (.holePunchAttemptTimeout e.1 e.2)).2]
      rw [h, hone] at happend
      exact happend
    · exact h

/-- A pass reports a loss exactly if it serves a closed connection after which none is
tracked. -/
theorem zeroLosts_pass (n : NodeState Sw) (input : LoopInput Sw) (p : PeerId) :
    zeroLosts p ((nodeLoop api cfg).step n input).2 =
      match n.served input with
      | some (.connectionClosed q id num) =>
        if q = p ∧ ((n.conn.link q).close id num).remaining = 0 then 1 else 0
      | _ => 0 := by
  change zeroLosts p (n.pass api cfg input.env input.branch).2 = _
  unfold served pass
  by_cases hphase : n.app.phase = .shuttingDown
  · rw [if_pos hphase, if_pos hphase]
    rfl
  · rw [if_neg hphase, if_neg hphase]
    cases hbranch : input.branch with
    | swarmEvent event swarm probe =>
      have hprepared := prepare_prepared api cfg input.env { n with swarm := swarm } event probe
      have hdeliveries : (n.onSwarmEvent api cfg input.env event swarm probe).2 =
          (prepare api cfg input.env { n with swarm := swarm } event probe).2.2 ++
            (NodeState.feedAll api cfg input.env
              (prepare api cfg input.env { n with swarm := swarm } event probe).1
              (prepare api cfg input.env { n with swarm := swarm } event probe).2.1).2 := rfl
      dsimp only
      rw [hdeliveries, hprepared.zeroLosts api cfg input.env p]
      cases event <;> rfl
    | discoveryDeadline =>
      dsimp only
      split
      · rfl
      · exact zeroLosts_eq_zero fun d hd heq => by
          rw [List.mem_singleton.mp hd] at heq
          cases heq
    | reconnectTimer => rfl
    | holePunchTimer => exact zeroLosts_foldl_expireAttempt api cfg input.env _ _ rfl
    | shutdownSignal =>
      exact zeroLosts_eq_zero fun d hd heq => by
        rw [List.mem_singleton.mp hd] at heq
        cases heq

end NodeState

/-! ## The books against the ledger -/

/-- Every tracked connection is open, and no empty set of connections is kept. -/
structure Books (c : ConnectionStateMachine) (l : ConnectionLedger) : Prop where
  /-- A tracked relayed connection is open. -/
  relayed : ∀ p, ∀ id ∈ (c.link p).relayed.getD ∅, l.live.get? id = some (p, true)
  /-- A tracked direct connection is open. -/
  direct : ∀ p, ∀ id ∈ (c.link p).direct.getD ∅, l.live.get? id = some (p, false)
  /-- No empty set of relayed connections is kept. -/
  relayed_ne : ∀ p, (c.link p).relayed ≠ some ∅
  /-- No empty set of direct connections is kept. -/
  direct_ne : ∀ p, (c.link p).direct ≠ some ∅
  /-- Every open connection was reported. -/
  known : ∀ id, l.live.contains id = true → id ∈ l.known

/-- A removal leaves nothing exactly if nothing else was there. -/
theorem removeFrom_eq_none_iff {ids : Option (Finset ConnectionId)} {id : ConnectionId} :
    removeFrom ids id = none ↔ ∀ id' ∈ ids.getD ∅, id' = id := by
  cases ids with
  | none => simp [removeFrom]
  | some ids =>
    unfold removeFrom
    by_cases hempty : ids.erase id = ∅
    · refine iff_of_true (by simp [Option.filter, hempty]) fun id' hmem => ?_
      by_contra hne
      exact Finset.ne_empty_of_mem (Finset.mem_erase.mpr ⟨hne, hmem⟩) hempty
    · refine iff_of_false (by simp [Option.filter, hempty]) fun hall => hempty ?_
      rw [Finset.eq_empty_iff_forall_notMem]
      intro id' hmem
      exact (Finset.mem_erase.mp hmem).1 (hall id' (Finset.mem_erase.mp hmem).2)

/-- No connection of a peer is open if none is counted. -/
theorem ConnectionLedger.openCount_eq_zero {l : ConnectionLedger} {p : PeerId} :
    l.openCount p = 0 ↔ ∀ id relayed, l.live.get? id ≠ some (p, relayed) := by
  unfold openCount
  rw [Finset.card_eq_zero, Finset.filter_eq_empty_iff]
  constructor
  · intro h id relayed hget
    refine h (FiniteMap.mem_keys.mpr (FiniteMap.contains_of_get? hget)) ?_
    rw [hget]
    rfl
  · intro h id _ hmap
    obtain ⟨⟨q, relayed⟩, hget, hq⟩ := Option.map_eq_some_iff.mp hmap
    cases hq
    exact h id relayed hget

/-- Books are kept by whatever tracks the same connections. -/
theorem Books.congr {c d : ConnectionStateMachine} {l : ConnectionLedger} (h : Books c l)
    (hsame : ∀ p, (d.link p).SameTracked (c.link p)) : Books d l := by
  refine ⟨fun p => ?_, fun p => ?_, fun p => ?_, fun p => ?_, h.known⟩
  · rw [(hsame p).1]
    exact h.relayed p
  · rw [(hsame p).2]
    exact h.direct p
  · rw [(hsame p).1]
    exact h.relayed_ne p
  · rw [(hsame p).2]
    exact h.direct_ne p

section Booking

variable {c d : ConnectionStateMachine} {l : ConnectionLedger} {q : PeerId} {id id' : ConnectionId}
  {endpoint : ConnectedPoint}

/-- An open connection stays open when one with a new id is established. -/
theorem Books.live_established (h : Books c l) (hid : id ∉ l.known) {v : PeerId × Bool}
    (hlive : l.live.get? id' = some v) :
    (l.record (.connectionEstablished q id endpoint)).live.get? id' = some v := by
  have hne : id' ≠ id := by
    rintro rfl
    exact hid (h.known id' (FiniteMap.contains_of_get? hlive))
  rw [ConnectionLedger.record, FiniteMap.get?_insert_of_ne _ _ hne]
  exact hlive

/-- The id of an established connection is known from then on. -/
theorem Books.known_established (h : Books c l)
    (hlive : (l.record (.connectionEstablished q id endpoint)).live.contains id' = true) :
    id' ∈ (l.record (.connectionEstablished q id endpoint)).known := by
  by_cases hid : id' = id
  · rw [hid]
    exact Finset.mem_insert_self _ _
  · obtain ⟨v, hv⟩ := FiniteMap.contains_iff.mp hlive
    rw [ConnectionLedger.record, FiniteMap.get?_insert_of_ne _ _ hid] at hv
    exact Finset.mem_insert_of_mem (h.known id' (FiniteMap.contains_of_get? hv))

/-- The books of a new relayed connection. -/
theorem Books.openRelayed (h : Books c l) (hr : endpoint.isRelayed = true) (hid : id ∉ l.known)
    (hlink : ∀ p, (d.link p).SameTracked
      (if p = q then (c.link p).openRelayed id else c.link p)) :
    Books d (l.record (.connectionEstablished q id endpoint)) := by
  refine ⟨fun p id' hmem => ?_, fun p id' hmem => ?_, fun p => ?_, fun p => ?_,
    fun _ => h.known_established⟩
  · rw [(hlink p).1] at hmem
    by_cases hpq : p = q
    · rw [if_pos hpq] at hmem
      rcases Finset.mem_insert.mp hmem with rfl | hmem
      · rw [ConnectionLedger.record, FiniteMap.get?_insert_self, hr, hpq]
      · exact h.live_established hid (h.relayed p id' hmem)
    · rw [if_neg hpq] at hmem
      exact h.live_established hid (h.relayed p id' hmem)
  · rw [(hlink p).2] at hmem
    refine h.live_established hid (h.direct p id' ?_)
    split at hmem <;> exact hmem
  · rw [(hlink p).1]
    split
    · intro heq
      exact Finset.insert_ne_empty _ _ (Option.some.inj heq)
    · exact h.relayed_ne p
  · rw [(hlink p).2]
    split <;> exact h.direct_ne p

/-- The books of a new direct connection. -/
theorem Books.openDirect (h : Books c l) (hr : endpoint.isRelayed = false) (hid : id ∉ l.known)
    (hlink : ∀ p, d.link p = if p = q then (c.link p).openDirect id else c.link p) :
    Books d (l.record (.connectionEstablished q id endpoint)) := by
  refine ⟨fun p id' hmem => ?_, fun p id' hmem => ?_, fun p => ?_, fun p => ?_,
    fun _ => h.known_established⟩
  · rw [hlink p] at hmem
    split at hmem
    · cases hmem
    · exact h.live_established hid (h.relayed p id' hmem)
  · rw [hlink p] at hmem
    by_cases hpq : p = q
    · rw [if_pos hpq] at hmem
      rcases Finset.mem_insert.mp hmem with rfl | hmem
      · rw [ConnectionLedger.record, FiniteMap.get?_insert_self, hr, hpq]
      · exact h.live_established hid (h.direct p id' hmem)
    · rw [if_neg hpq] at hmem
      exact h.live_established hid (h.direct p id' hmem)
  · rw [hlink p]
    split
    · exact fun heq => by cases heq
    · exact h.relayed_ne p
  · rw [hlink p]
    split
    · intro heq
      exact Finset.insert_ne_empty _ _ (Option.some.inj heq)
    · exact h.direct_ne p

/-- The books after a connection was closed. -/
theorem Books.closed {num : UInt32} (h : Books c l)
    (horderly : l.Orderly (.connectionClosed q id num))
    (hlink : ∀ p, d.link p = if p = q then (c.link p).close id num else c.link p) :
    Books d (l.record (.connectionClosed q id num)) := by
  have hclosed {p : PeerId} {id' : ConnectionId} {relayed : Bool} (hne : p = q → id' ≠ id)
      (hlive : l.live.get? id' = some (p, relayed)) :
      (l.record (.connectionClosed q id num)).live.get? id' = some (p, relayed) := by
    have hid : id' ≠ id := by
      rintro rfl
      have hpeer : (l.live.get? id').map Prod.fst = some q := horderly
      rw [hlive] at hpeer
      exact hne (Option.some.inj hpeer) rfl
    rw [ConnectionLedger.record, FiniteMap.get?_erase_of_ne _ hid]
    exact hlive
  refine ⟨fun p id' hmem => ?_, fun p id' hmem => ?_, fun p => ?_, fun p => ?_, fun id' hlive => ?_⟩
  · rw [hlink p] at hmem
    by_cases hpq : p = q
    · rw [if_pos hpq, ((c.link p).close_tracked id num).1] at hmem
      obtain ⟨hmem, hne⟩ := mem_getD_removeFrom.mp hmem
      exact hclosed (fun _ => hne) (h.relayed p id' hmem)
    · rw [if_neg hpq] at hmem
      exact hclosed (fun heq => absurd heq hpq) (h.relayed p id' hmem)
  · rw [hlink p] at hmem
    by_cases hpq : p = q
    · rw [if_pos hpq, ((c.link p).close_tracked id num).2] at hmem
      obtain ⟨hmem, hne⟩ := mem_getD_removeFrom.mp hmem
      exact hclosed (fun _ => hne) (h.direct p id' hmem)
    · rw [if_neg hpq] at hmem
      exact hclosed (fun heq => absurd heq hpq) (h.direct p id' hmem)
  · rw [hlink p]
    split
    · rw [((c.link p).close_tracked id num).1]
      exact removeFrom_ne_empty _ _
    · exact h.relayed_ne p
  · rw [hlink p]
    split
    · rw [((c.link p).close_tracked id num).2]
      exact removeFrom_ne_empty _ _
    · exact h.direct_ne p
  · obtain ⟨v, hv⟩ := FiniteMap.contains_iff.mp hlive
    have hid : id' ≠ id := by
      rintro rfl
      rw [ConnectionLedger.record, FiniteMap.get?_erase_self] at hv
      cases hv
    rw [ConnectionLedger.record, FiniteMap.get?_erase_of_ne _ hid] at hv
    exact h.known id' (FiniteMap.contains_of_get? hv)

/-- Booking an event in order keeps the books. -/
theorem Books.booked {t : TunnelState} {event : SwarmEvent} {synthetic : List Event}
    (h : Books c l) (horderly : l.Orderly event) (hbooked : Booked c t event d synthetic) :
    Books d (l.record event) := by
  cases hbooked with
  | @relayedStarted q id endpoint _ a hr _ _ hlink =>
    refine h.openRelayed hr horderly fun p => ?_
    rw [hlink p]
    split <;> exact ⟨rfl, rfl⟩
  | @relayed q id endpoint _ hr _ hlink =>
    refine h.openRelayed hr horderly fun p => ?_
    rw [hlink p]
    exact ⟨rfl, rfl⟩
  | @direct q id endpoint _ hr hlink => exact h.openDirect hr horderly hlink
  | @closed q id num _ hlink => exact h.closed horderly hlink
  | other hevent hlink =>
    have hrecord : l.record event = l := by
      cases event <;> first | rfl | cases hevent
    rw [hrecord]
    refine h.congr fun p => ?_
    rw [hlink p]
    exact ⟨rfl, rfl⟩

end Booking

/-- A peer has at least as many open connections as tracked ones. -/
theorem Books.count_le {c : ConnectionStateMachine} {l : ConnectionLedger} (h : Books c l)
    (p : PeerId) : (c.link p).count ≤ l.openCount p := by
  have hdisjoint : Disjoint ((c.link p).relayed.getD ∅) ((c.link p).direct.getD ∅) := by
    refine Finset.disjoint_left.mpr fun id hrelayed hdirect => ?_
    have hget := h.relayed p id hrelayed
    rw [h.direct p id hdirect] at hget
    cases hget
  unfold PeerLink.count ConnectionLedger.openCount
  rw [← Finset.card_union_of_disjoint hdisjoint]
  refine Finset.card_le_card fun id hmem => ?_
  have hget : ∃ relayed, l.live.get? id = some (p, relayed) := by
    rcases Finset.mem_union.mp hmem with hmem | hmem
    · exact ⟨true, h.relayed p id hmem⟩
    · exact ⟨false, h.direct p id hmem⟩
  obtain ⟨relayed, hget⟩ := hget
  refine Finset.mem_filter.mpr ⟨FiniteMap.mem_keys.mpr (FiniteMap.contains_of_get? hget), ?_⟩
  rw [hget]
  rfl

/-- With fewer than `2 ^ 32` tracked connections, none remains exactly if none is tracked. -/
theorem PeerLink.remaining_eq_zero {l : PeerLink} (hrelayed : l.relayed ≠ some ∅)
    (hdirect : l.direct ≠ some ∅) (hcount : l.count < 2 ^ 32) :
    l.remaining = 0 ↔ l.untracked = true := by
  refine ⟨fun h => ?_, fun h => (PeerLink.of_untracked h).2.2.2⟩
  have hmin : saturatingAdd u64Max (l.relayed.getD ∅).card (l.direct.getD ∅).card = l.count := by
    unfold saturatingAdd u64Max
    unfold count at hcount ⊢
    exact min_eq_left (by omega)
  have hzero : l.count = 0 := by
    rw [remaining, hmin] at h
    have htoNat := congrArg UInt32.toNat h
    rw [UInt32.toNat_ofNat', Nat.mod_eq_of_lt hcount] at htoNat
    exact htoNat
  unfold count at hzero
  have hnone {ids : Option (Finset ConnectionId)} (hne : ids ≠ some ∅)
      (hcard : (ids.getD ∅).card = 0) : ids.isSome = false := by
    cases ids with
    | none => rfl
    | some ids => exact absurd (congrArg some (Finset.card_eq_zero.mp hcard)) hne
  rw [untracked, hnone hrelayed (by omega), hnone hdirect (by omega)]
  rfl

/-- Closing a connection leaves no tracked one exactly if no other one was tracked. -/
theorem close_untracked_iff (c : ConnectionStateMachine) (p : PeerId) (id : ConnectionId)
    (num : UInt32) : ((c.link p).close id num).untracked = true ↔
      ∀ id' ∈ c.relayedConnections.getD p ∅ ∪ c.directConnections.getD p ∅, id' = id := by
  obtain ⟨hrelayed, hdirect⟩ := (c.link p).close_tracked id num
  rw [PeerLink.untracked, hrelayed, hdirect, Bool.not_eq_true', Bool.or_eq_false_iff,
    Option.isSome_eq_false_iff, Option.isSome_eq_false_iff, Option.isNone_iff_eq_none,
    Option.isNone_iff_eq_none, removeFrom_eq_none_iff, removeFrom_eq_none_iff]
  constructor
  · rintro ⟨hr, hd⟩ id' hmem
    rcases Finset.mem_union.mp hmem with hmem | hmem
    · exact hr id' hmem
    · exact hd id' hmem
  · intro h
    exact ⟨fun id' hmem => h id' (Finset.mem_union_left _ hmem),
      fun id' hmem => h id' (Finset.mem_union_right _ hmem)⟩

/-- The bookkeeping finds a peer fully disconnected if the swarm counts none of its connections
and none is tracked. -/
theorem peerFullyDisconnected_iff (c : ConnectionStateMachine) (p : PeerId) (id : ConnectionId)
    (num : UInt32) : (c.onConnectionClosed p id num).2.peerFullyDisconnected = true ↔
      num = 0 ∧ ((c.link p).close id num).untracked = true := by
  rw [ConnectionStateMachine.peerFullyDisconnected_eq, Bool.and_eq_true, decide_eq_true_eq,
    PeerLink.untracked, PeerLink.untracked, ((c.link p).close_tracked id num).1,
    ((c.link p).close_tracked id num).2]
  rfl

section Runs

variable {Sw : Type} (api : SwarmApi Sw) (cfg : NodeConfig)

/-- A pass that serves events in order keeps the books. -/
theorem books_step (x : NodeState Sw × ConnectionLedger) (input : LoopInput Sw)
    (h : Books x.1.conn x.2) (horderly : ServesOrderly x input) :
    Books ((nodeLedger api cfg).step x input).1.1.conn
      ((nodeLedger api cfg).step x input).1.2 := by
  obtain ⟨c, hserved, htracked⟩ := x.1.pass_tracked api cfg input
  have hc : Books c (x.2.update x.1 input ((nodeLoop api cfg).step x.1 input).2) := by
    unfold ServesOrderly at horderly
    unfold ConnectionLedger.update
    cases hevent : x.1.served input with
    | none =>
      rw [hevent] at hserved
      exact h.congr hserved
    | some event =>
      rw [hevent] at hserved horderly
      obtain ⟨synthetic, hbooked⟩ := hserved
      exact h.booked horderly hbooked
  exact hc.congr fun p => (htracked p).1

/-- The loop starts with no connection in the books. -/
theorem books_start (env : Env) (natMapping : NatMapping) (swarm : Sw) :
    Books (NodeState.start api cfg env natMapping swarm).conn .new := by
  have hlink (p : PeerId) : (NodeState.start api cfg env natMapping swarm).conn.link p =
      ⟨none, none, none, none⟩ := by
    obtain ⟨pending, hslice⟩ := NodeState.start_slice (p := p) api cfg env natMapping swarm
    exact congrArg PeerSlice.link hslice
  refine ⟨fun p => ?_, fun p => ?_, fun p => ?_, fun p => ?_, fun id h => by cases h⟩
  all_goals rw [hlink p]
  · exact fun id h => by cases h
  · exact fun id h => by cases h
  · exact fun h => by cases h
  · exact fun h => by cases h

/-- Only the close of one of its connections ends a connected period of a peer. -/
theorem openCount_record {l : ConnectionLedger} {event : SwarmEvent} {p : PeerId}
    (hknown : ∀ id, l.live.contains id = true → id ∈ l.known) (hcons : l.Consistent event)
    (hbefore : l.openCount p ≠ 0) (hafter : (l.record event).openCount p = 0) :
    ∃ id num, event = .connectionClosed p id num := by
  have hopen : ∃ id relayed, l.live.get? id = some (p, relayed) := by
    by_contra hnone
    refine hbefore (ConnectionLedger.openCount_eq_zero.mpr fun id relayed hget => ?_)
    exact hnone ⟨id, relayed, hget⟩
  obtain ⟨id', relayed, hget⟩ := hopen
  have hgone := ConnectionLedger.openCount_eq_zero.mp hafter id' relayed
  cases event with
  | connectionEstablished q id endpoint =>
    have hid : id' ≠ id := by
      rintro rfl
      exact hcons (hknown id' (FiniteMap.contains_of_get? hget))
    rw [ConnectionLedger.record, FiniteMap.get?_insert_of_ne _ _ hid] at hgone
    exact absurd hget hgone
  | connectionClosed q id num =>
    by_cases hpq : p = q
    · subst hpq
      exact ⟨id, num, rfl⟩
    · have hid : id' ≠ id := by
        rintro rfl
        have hpeer := hcons.1
        rw [hget] at hpeer
        exact hpq (Option.some.inj hpeer)
      rw [ConnectionLedger.record, FiniteMap.get?_erase_of_ne _ hid] at hgone
      exact absurd hget hgone
  | _ => exact absurd hget hgone

/-- At a consistent close, the loop reports that none remains exactly if none is tracked, which
is so when none is open, and none is open exactly if the swarm says so. -/
theorem Books.close {c : ConnectionStateMachine} {l : ConnectionLedger} {p : PeerId}
    {id : ConnectionId} {num : UInt32} (h : Books c l)
    (hcons : l.Consistent (.connectionClosed p id num)) :
    (((c.link p).close id num).remaining = 0 ↔ ((c.link p).close id num).untracked = true) ∧
    (num = 0 → ((c.link p).close id num).untracked = true) ∧
    ((l.record (.connectionClosed p id num)).openCount p = 0 ↔ num = 0) ∧
    l.openCount p ≠ 0 := by
  have hlink := c.onConnectionClosed_link p p id num
  rw [if_pos rfl] at hlink
  have hbooks : Books (c.onConnectionClosed p id num).1 (l.record (.connectionClosed p id num)) :=
    h.booked (t := .new) hcons.orderly (.closed fun q => c.onConnectionClosed_link q p id num)
  have hcount := hbooks.count_le p
  have hopen := hcons.2
  rw [hlink] at hcount
  have hlt : num.toNat < 2 ^ 32 := num.toNat_lt
  have hremaining := PeerLink.remaining_eq_zero (l := (c.link p).close id num)
    (hlink ▸ hbooks.relayed_ne p) (hlink ▸ hbooks.direct_ne p) (by omega)
  have hnum : (l.record (.connectionClosed p id num)).openCount p = 0 ↔ num = 0 := by
    rw [← hopen]
    exact ⟨fun h => UInt32.toNat_inj.mp h, fun h => congrArg UInt32.toNat h⟩
  refine ⟨hremaining, fun hzero => ?_, hnum, fun hnone => ?_⟩
  · refine hremaining.mp ?_
    have hnone : ((c.link p).close id num).count = 0 := by
      have := hnum.mpr hzero
      omega
    unfold PeerLink.count at hnone
    unfold PeerLink.remaining
    rw [show ((c.link p).close id num).relayed.getD ∅ = ∅ from Finset.card_eq_zero.mp (by omega),
      show ((c.link p).close id num).direct.getD ∅ = ∅ from Finset.card_eq_zero.mp (by omega)]
    rfl
  · obtain ⟨⟨q, relayed⟩, hget, hq⟩ := Option.map_eq_some_iff.mp hcons.1
    cases hq
    exact ConnectionLedger.openCount_eq_zero.mp hnone id relayed hget

/-- **Step.** A consistent pass agrees on disconnects, and ends connected periods once, exactly
if it closes no last tracked connection before the last open one. -/
theorem agrees_iff_closesLast (x : NodeState Sw × ConnectionLedger) (input : LoopInput Sw)
    (h : Books x.1.conn x.2) (hcons : ServesConsistently x input) :
    (AgreesOnDisconnect api cfg x input ∧ EndsPeriodsOnce api cfg x input) ↔
      ClosesLastConnection x input := by
  have hlosts (p : PeerId) : zeroLosts p ((nodeLedger api cfg).step x input).2 = _ :=
    NodeState.zeroLosts_pass api cfg x.1 input p
  have hledger : ((nodeLedger api cfg).step x input).1.2 =
      x.2.update x.1 input ((nodeLoop api cfg).step x.1 input).2 := rfl
  unfold ServesConsistently at hcons
  unfold ClosesLastConnection AgreesOnDisconnect EndsPeriodsOnce
  unfold ConnectionLedger.update at hledger
  cases hserved : x.1.served input with
  | none =>
    rw [hserved] at hledger
    refine iff_of_true ⟨fun p id num heq => (by cases heq), fun p => ?_⟩ trivial
    rw [hlosts p, hserved, hledger, if_neg fun hends => hends.1 hends.2]
  | some event =>
    rw [hserved] at hcons hledger
    by_cases hclosed : ∃ p id num, event = .connectionClosed p id num
    · obtain ⟨p, id, num, rfl⟩ := hclosed
      obtain ⟨hremaining, hzero, hopen, hbefore⟩ := h.close hcons
      have huntracked := close_untracked_iff x.1.conn p id num
      have hfully := peerFullyDisconnected_iff x.1.conn p id num
      have hlost : zeroLosts p ((nodeLedger api cfg).step x input).2 =
          if ((x.1.conn.link p).close id num).untracked = true then 1 else 0 := by
        rw [hlosts p, hserved]
        simp only [true_and, hremaining]
      constructor
      · rintro ⟨hagrees, _⟩ hall
        have hpos : 0 < zeroLosts p ((nodeLedger api cfg).step x input).2 := by
          rw [hlost, if_pos (huntracked.mpr hall)]
          exact Nat.one_pos
        exact (hfully.mp ((hagrees p id num rfl).mp hpos)).1
      · intro hlast
        refine ⟨fun q id' num' heq => ?_, fun q => ?_⟩
        · cases heq
          rw [hlost, hfully]
          split
          · rename_i hu
            exact iff_of_true Nat.one_pos ⟨hlast (huntracked.mp hu), hu⟩
          · rename_i hu
            exact iff_of_false (Nat.lt_irrefl 0) fun h => hu h.2
        · by_cases hpq : q = p
          · subst hpq
            rw [hlost, hledger]
            refine if_congr ⟨fun hu => ⟨hbefore, hopen.mpr (hlast (huntracked.mp hu))⟩, fun hends =>
              hzero (hopen.mp hends.2)⟩ rfl rfl
          · have hother : zeroLosts q ((nodeLedger api cfg).step x input).2 = 0 := by
              rw [hlosts q, hserved]
              exact if_neg fun heq => hpq heq.1.symm
            rw [hother, hledger, if_neg]
            rintro ⟨hone, hnone⟩
            obtain ⟨id', num', heq⟩ := openCount_record h.known hcons hone hnone
            cases heq
            exact hpq rfl
    · have hlost (p : PeerId) : zeroLosts p ((nodeLedger api cfg).step x input).2 = 0 := by
        rw [hlosts p, hserved]
        cases event with
        | connectionClosed p id num => exact absurd ⟨p, id, num, rfl⟩ hclosed
        | _ => rfl
      refine iff_of_true ⟨fun p id num heq => ?_, fun p => ?_⟩ ?_
      · cases heq
        exact absurd ⟨p, id, num, rfl⟩ hclosed
      · rw [hlost p, hledger, if_neg]
        rintro ⟨hone, hnone⟩
        obtain ⟨id, num, heq⟩ := openCount_record h.known hcons hone hnone
        exact hclosed ⟨p, id, num, heq⟩
      · cases event with
        | connectionClosed p id num => exact absurd ⟨p, id, num, rfl⟩ hclosed
        | _ => trivial

end Runs

/-- **The two notions of being fully disconnected, exactly.** In a run whose connections the
swarm can report, the loop reports that no connection remains just when the bookkeeping finds
the peer fully disconnected, and once for each connected period, if and only if no close of the
last tracked connection of a peer leaves another one open. -/
theorem disconnects_agree_iff {Sw : Type} (api : SwarmApi Sw) (cfg : NodeConfig) (env : Env)
    (natMapping : NatMapping) (swarm : Sw) {inputs : List (LoopInput Sw)}
    (hcons : (nodeLedger api cfg).Guarded ServesConsistently
      (.start api cfg env natMapping swarm, .new) inputs) :
    (nodeLedger api cfg).Guarded
        (fun x input => AgreesOnDisconnect api cfg x input ∧ EndsPeriodsOnce api cfg x input)
        (.start api cfg env natMapping swarm, .new) inputs ↔
      (nodeLedger api cfg).Guarded ClosesLastConnection
        (.start api cfg env natMapping swarm, .new) inputs := by
  exact hcons.congr (J := fun x => Books x.1.conn x.2) (books_start api cfg env natMapping swarm)
    (fun x input h hcons => books_step api cfg x input h hcons.orderly)
    (agrees_iff_closesLast api cfg)

/-- A tunnel to peer 1 and nothing else. -/
def webConfig : NodeConfig where
  bootstrapAddrs := []
  exposed := []
  tunnelSpecs := [⟨⟨1⟩, webIntent.1, webIntent.2⟩]
  tunnelByNameSpecs := []

/-- A direct connection to peer 1 is opened and closed. -/
def directRun : List (LoopInput SampleSwarm) :=
  [⟨.sorted, .swarmEvent (.connectionEstablished ⟨1⟩ ⟨1⟩ (directEndpoint ⟨1⟩)) ⟨[⟨1⟩], 0⟩ none⟩,
    ⟨.sorted, .swarmEvent (.connectionClosed ⟨1⟩ ⟨1⟩ 0) ⟨[], 0⟩ none⟩]

/-- The close of a single connection ends the connected period in both senses. -/
theorem disconnects_agree_iff_direct :
    (nodeLedger sampleApi webConfig).Guarded
      (fun x input => AgreesOnDisconnect sampleApi webConfig x input ∧
        EndsPeriodsOnce sampleApi webConfig x input)
      (.start sampleApi webConfig .sorted .unknown ⟨[], 0⟩, .new) directRun :=
  (disconnects_agree_iff sampleApi webConfig .sorted .unknown ⟨[], 0⟩ (by decide)).mpr (by decide)

/-- A relayed connection to peer 1 is upgraded to a direct one, which is lost before the relayed
one has closed. -/
def upgradeRun : List (LoopInput SampleSwarm) :=
  [⟨.sorted, .swarmEvent (.connectionEstablished ⟨1⟩ ⟨1⟩ (relayedEndpoint ⟨1⟩)) ⟨[⟨1⟩], 0⟩ none⟩,
    ⟨.sorted, .swarmEvent (.connectionEstablished ⟨1⟩ ⟨2⟩ (directEndpoint ⟨1⟩)) ⟨[⟨1⟩], 0⟩ none⟩,
    ⟨.sorted, .swarmEvent (.connectionClosed ⟨1⟩ ⟨2⟩ 1) ⟨[⟨1⟩], 0⟩ none⟩,
    ⟨.sorted, .swarmEvent (.connectionClosed ⟨1⟩ ⟨1⟩ 0) ⟨[], 0⟩ none⟩]

/-- The loss of the direct connection is reported as that of the last one, though the relayed one
is open, and the end of the period is reported a second time. -/
theorem disconnects_disagree_after_upgrade :
    (nodeLedger sampleApi webConfig).Guarded ServesConsistently
        (.start sampleApi webConfig .sorted .unknown ⟨[], 0⟩, .new) upgradeRun ∧
      ¬(nodeLedger sampleApi webConfig).Guarded (AgreesOnDisconnect sampleApi webConfig)
        (.start sampleApi webConfig .sorted .unknown ⟨[], 0⟩, .new) upgradeRun ∧
      zeroLosts ⟨1⟩ ((nodeLedger sampleApi webConfig).outputs
        (.start sampleApi webConfig .sorted .unknown ⟨[], 0⟩, .new) upgradeRun) = 2 := by
  refine ⟨by decide, ?_, by decide⟩
  rintro ⟨_, _, hagrees, _⟩
  have hfully := (hagrees ⟨1⟩ ⟨2⟩ 1 rfl).mp (by decide)
  revert hfully
  decide

end Punchgate
