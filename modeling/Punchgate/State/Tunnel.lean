import Punchgate.State.Event

/-!
# The tunnel machine

`TunnelState` turns requested tunnels into lookups, dials and finally spawned
tunnels. An intent waits under its peer, under its service name, or, once the peer
is reached over a relay only, for a hole punch to give a direct path.
-/

namespace Punchgate

/-- `HolePunchPhase`. -/
inductive HolePunchPhase
  | punching
  | waitingDisconnect
  | waitingRedial
  deriving DecidableEq

/-- `HolePunchSession`. -/
structure HolePunchSession where
  /-- The attempt the session belongs to. -/
  attemptId : ℕ
  /-- How far the attempt has come. -/
  phase : HolePunchPhase
  /-- The relay addresses kept for a redial. -/
  relayRedialAddrs : List Multiaddr
  /-- The direct addresses kept for a redial. -/
  directSnapshot : List Multiaddr
  /-- A retry dial was already dispatched for this attempt. -/
  dialRetryDispatched : Bool
  deriving DecidableEq

/-- `PeerAddressOracle`: the latest candidate addresses of a peer. -/
structure PeerAddressOracle where
  /-- Relay candidates. -/
  relayAddrs : List Multiaddr
  /-- Direct candidates. -/
  directAddrs : List Multiaddr
  deriving DecidableEq, Inhabited

/-- `ADDRESS_CANDIDATE_TTL`. -/
def addressCandidateTtl : Duration := Duration.fromSecs 45

/-- `MAX_DIRECT_CANDIDATES`. -/
def maxDirectCandidates : ℕ := 8

/-- `MAX_RELAY_CANDIDATES`. -/
def maxRelayCandidates : ℕ := 4

/-- `MAX_REDIAL_ADDRESSES`. -/
def maxRedialAddresses : ℕ := 12

/-- `MAX_RELAY_RECONNECT_RETRIES`. -/
def maxRelayReconnectRetries : ℕ := 3

/-- `TunnelState`. -/
structure TunnelState where
  /-- Intents whose peer is known but not yet connected. -/
  pendingByPeer : FiniteMap PeerId (List Intent)
  /-- Intents whose provider is not known yet, by service. -/
  pendingByService : FiniteMap ServiceName (List ServiceAddr)
  /-- Providers of a service to fall back to. -/
  serviceProviderCandidates : FiniteMap ServiceName (List PeerId)
  /-- Intents that wait for a direct connection to a relayed peer. -/
  awaitingHolepunch : FiniteMap PeerId (List Intent)
  /-- Peers whose last reported connection was relayed. -/
  relayedPeers : Finset PeerId
  /-- Reconnects already used, by peer. -/
  holepunchRetryAttempts : FiniteMap PeerId ℕ
  /-- Peers whose requested disconnect has not been seen yet. -/
  pendingRetryRedial : Finset PeerId
  /-- The hole-punch session of each peer. -/
  holepunchSessions : FiniteMap PeerId HolePunchSession
  /-- The latest candidate addresses of each peer. -/
  addressOracle : FiniteMap PeerId PeerAddressOracle
  /-- When each candidate address of a peer was last seen. -/
  addressLastSeen : FiniteMap PeerId (FiniteMap Multiaddr Instant)
  /-- The probed NAT behaviour. -/
  natMapping : NatMapping
  deriving DecidableEq

/-! ## Address lists -/

/-- Keep the first occurrence of every element, as `dedup_addrs`, `dedup_peers` and
`dedup_provider_candidates` do with their set of seen keys. -/
def dedupBy {α β : Type} [DecidableEq β] (key : α → β) : List β → List α → List α
  | _, [] => []
  | seen, x :: xs =>
    if key x ∈ seen then dedupBy key seen xs else x :: dedupBy key (key x :: seen) xs

/-- `dedup_addrs`. -/
def dedupAddrs (addrs : List Multiaddr) : List Multiaddr := dedupBy id [] addrs

/-- `dedup_peers`. -/
def dedupPeers (peers : List PeerId) : List PeerId := dedupBy id [] peers

/-- `dedup_provider_candidates`. -/
def dedupProviderCandidates (providers : List (PeerId × Bool)) : List (PeerId × Bool) :=
  dedupBy Prod.fst [] providers

section Dedup

variable {α β : Type} [DecidableEq β] {key : α → β}

/-- Only the members of the list of seen keys matter. -/
theorem dedupBy_congr {seen seen' : List β} (h : ∀ k, k ∈ seen ↔ k ∈ seen') (xs : List α) :
    dedupBy key seen xs = dedupBy key seen' xs := by
  induction xs generalizing seen seen' with
  | nil => rfl
  | cons x xs ih =>
    simp only [dedupBy, h (key x)]
    split
    · exact ih h
    · exact congrArg _ (ih fun k => by simp only [List.mem_cons, h k])

/-- The second part of a list is deduplicated after the first one was seen. -/
theorem dedupBy_append (seen : List β) (xs ys : List α) :
    dedupBy key seen (xs ++ ys) =
      dedupBy key seen xs ++ dedupBy key (seen ++ xs.map key) ys := by
  induction xs generalizing seen with
  | nil => simp [dedupBy]
  | cons x xs ih =>
    simp only [List.cons_append, dedupBy]
    split
    · rename_i hx
      rw [ih]
      refine congrArg _ (dedupBy_congr (fun k => ?_) ys)
      simp only [List.mem_append, List.map_cons, List.mem_cons]
      exact ⟨fun h => h.imp_right Or.inr, fun h => h.elim Or.inl fun h =>
        h.elim (fun h => Or.inl (h ▸ hx)) Or.inr⟩
    · rw [ih, List.cons_append]
      refine congrArg _ (congrArg _ (dedupBy_congr (fun k => ?_) ys))
      simp only [List.mem_append, List.map_cons, List.mem_cons]
      exact ⟨fun h => by tauto, fun h => by tauto⟩

/-- Nothing is left of a list whose keys were all seen. -/
theorem dedupBy_eq_nil {seen : List β} {xs : List α} (h : ∀ x ∈ xs, key x ∈ seen) :
    dedupBy key seen xs = [] := by
  induction xs with
  | nil => rfl
  | cons x xs ih =>
    rw [dedupBy, if_pos (h x (List.mem_cons_self ..))]
    exact ih fun y hy => h y (List.mem_cons_of_mem _ hy)

/-- A list of new and different keys is kept. -/
theorem dedupBy_eq_self {seen : List β} {xs : List α} (hnodup : (xs.map key).Nodup)
    (hnew : ∀ x ∈ xs, key x ∉ seen) : dedupBy key seen xs = xs := by
  induction xs generalizing seen with
  | nil => rfl
  | cons x xs ih =>
    obtain ⟨hx, hxs⟩ := List.nodup_cons.mp hnodup
    rw [dedupBy, if_neg (hnew x (List.mem_cons_self ..)), ih hxs fun y hy => ?_]
    rw [List.mem_cons, not_or]
    refine ⟨fun heq => hx ?_, hnew y (List.mem_cons_of_mem _ hy)⟩
    exact heq ▸ List.mem_map_of_mem hy

/-- Deduplication keeps no key that was seen before, and none twice. -/
theorem nodup_dedupBy (seen : List β) (xs : List α) :
    ((dedupBy key seen xs).map key).Nodup ∧ ∀ x ∈ dedupBy key seen xs, key x ∉ seen := by
  induction xs generalizing seen with
  | nil => exact ⟨List.nodup_nil, by simp [dedupBy]⟩
  | cons x xs ih =>
    unfold dedupBy
    split
    · exact ih seen
    · rename_i hx
      obtain ⟨hnodup, hseen⟩ := ih (key x :: seen)
      refine ⟨List.nodup_cons.mpr ⟨fun hmem => ?_, hnodup⟩, fun y hy => ?_⟩
      · obtain ⟨y, hy, heq⟩ := List.mem_map.mp hmem
        exact hseen y hy (heq ▸ List.mem_cons_self ..)
      · rcases List.mem_cons.mp hy with rfl | hy
        · exact hx
        · exact fun hmem => hseen y hy (List.mem_cons_of_mem _ hmem)

/-- Deduplication keeps no element twice. -/
theorem nodup_dedupBy_id (seen xs : List β) : (dedupBy id seen xs).Nodup := by
  have hkeys : ((dedupBy id seen xs).map id).Nodup := (nodup_dedupBy seen xs).1
  rwa [List.map_id] at hkeys

/-- Deduplicating the images of a list. -/
theorem dedupBy_map {γ : Type} (f : γ → α) (seen : List β) (xs : List γ) :
    dedupBy key seen (xs.map f) = (dedupBy (key ∘ f) seen xs).map f := by
  induction xs generalizing seen with
  | nil => rfl
  | cons x xs ih =>
    simp only [List.map_cons, dedupBy, Function.comp_apply]
    split
    · exact ih seen
    · rw [List.map_cons, ih]

/-- Nothing is left of a list of seen elements. -/
theorem dedupBy_id_eq_nil {seen xs : List β} (h : ∀ x ∈ xs, x ∈ seen) : dedupBy id seen xs = [] :=
  dedupBy_eq_nil h

/-- A list of new and different elements is kept. -/
theorem dedupBy_id_eq_self {seen xs : List β} (hnodup : xs.Nodup) (hnew : ∀ x ∈ xs, x ∉ seen) :
    dedupBy id seen xs = xs := by
  refine dedupBy_eq_self ?_ hnew
  rwa [List.map_id]

end Dedup

/-- `is_pending_abort_dial_error`. -/
def isPendingAbortDialError (reason : String) : Bool :=
  containsText reason "Pending connection attempt has been aborted"

/-- An address seen at some time is not older than the candidate lifetime. -/
def isFresh (now seenAt : Instant) : Bool := now - seenAt ≤ addressCandidateTtl

/-- The order of candidates: newest first, ties by text. -/
def candidateBefore (env : Env) (a b : Multiaddr × Instant) : Prop :=
  b.2 < a.2 ∨ a.2 = b.2 ∧ env.addrText a.1 ≤ env.addrText b.1

instance (env : Env) : DecidableRel (candidateBefore env) := fun a b =>
  inferInstanceAs (Decidable (b.2 < a.2 ∨ a.2 = b.2 ∧ env.addrText a.1 ≤ env.addrText b.1))

/-- The newest fresh addresses of one last-seen map that satisfy a predicate. -/
def rankCandidates (env : Env) (lastSeen : FiniteMap Multiaddr Instant)
    (predicate : Multiaddr → Bool) (limit : ℕ) : List Multiaddr :=
  ((((lastSeen.entries env.addrOrder).filter fun e => isFresh env.now e.2 && predicate e.1)
    |>.insertionSort (candidateBefore env)).take limit).map Prod.fst

/-- The last-seen map of a peer after an identify message. -/
def recordCandidates (env : Env) (lastSeen : FiniteMap Multiaddr Instant)
    (listenAddrs : List Multiaddr) : FiniteMap Multiaddr Instant :=
  (listenAddrs.foldl (fun seen addr =>
      if hasP2pCircuit addr || isSupportedDirectCandidate addr then seen.insert addr env.now
      else seen) lastSeen).filter fun _ seenAt => isFresh env.now seenAt

/-- The session of a peer after its address candidates were refreshed. -/
def HolePunchSession.refresh (session : HolePunchSession) (oracle : PeerAddressOracle) :
    HolePunchSession :=
  let backfilledRelay := session.relayRedialAddrs.isEmpty && !oracle.relayAddrs.isEmpty
  let backfilledDirect := session.directSnapshot.isEmpty && !oracle.directAddrs.isEmpty
  let refreshedRelay := !session.relayRedialAddrs.isEmpty && !oracle.relayAddrs.isEmpty &&
    session.relayRedialAddrs != oracle.relayAddrs
  let refreshedDirect := !session.directSnapshot.isEmpty && !oracle.directAddrs.isEmpty &&
    session.directSnapshot != oracle.directAddrs
  let snapshotsChanged :=
    backfilledRelay || backfilledDirect || refreshedRelay || refreshedDirect
  { session with
    relayRedialAddrs :=
      if backfilledRelay || refreshedRelay then oracle.relayAddrs else session.relayRedialAddrs
    directSnapshot :=
      if backfilledDirect || refreshedDirect then oracle.directAddrs else session.directSnapshot
    dialRetryDispatched := if snapshotsChanged then false else session.dialRetryDispatched }

namespace TunnelState

/-- `TunnelState::new`. -/
def new : TunnelState where
  pendingByPeer := ∅
  pendingByService := ∅
  serviceProviderCandidates := ∅
  awaitingHolepunch := ∅
  relayedPeers := ∅
  holepunchRetryAttempts := ∅
  pendingRetryRedial := ∅
  holepunchSessions := ∅
  addressOracle := ∅
  addressLastSeen := ∅
  natMapping := .unknown

/-- `TunnelState::set_nat_mapping`. -/
def setNatMapping (s : TunnelState) (mapping : NatMapping) : TunnelState :=
  { s with natMapping := mapping }

/-- `TunnelState::add_peer_tunnel`. -/
def addPeerTunnel (s : TunnelState) (peer : PeerId) (service : ServiceName)
    (bind : ServiceAddr) : TunnelState :=
  { s with pendingByPeer := s.pendingByPeer.extend peer [(service, bind)] }

/-- `TunnelState::add_service_tunnel`. -/
def addServiceTunnel (s : TunnelState) (service : ServiceName) (bind : ServiceAddr) :
    TunnelState :=
  { s with pendingByService := s.pendingByService.extend service [bind] }

/-- `TunnelState::has_pending_for`. -/
def hasPendingFor (s : TunnelState) (peer : PeerId) : Bool := s.pendingByPeer.contains peer

/-- `TunnelState::has_holepunch_intent`. -/
def hasHolepunchIntent (s : TunnelState) (peer : PeerId) : Bool :=
  s.pendingByPeer.contains peer || s.awaitingHolepunch.contains peer

/-- `TunnelState::holepunch_target_peers`: sorted by text, adjacent repetitions removed. -/
def holepunchTargetPeers (env : Env) (s : TunnelState) : List PeerId :=
  ((env.peerOrder.toList s.pendingByPeer.keys ++ env.peerOrder.toList s.awaitingHolepunch.keys)
    |>.insertionSort fun a b => env.peerText a ≤ env.peerText b).destutter (· ≠ ·)

/-- `TunnelState::store_provider_candidates`. -/
def storeProviderCandidates (s : TunnelState) (serviceName : ServiceName)
    (providers : List PeerId) : TunnelState :=
  match dedupPeers providers with
  | [] => { s with serviceProviderCandidates := s.serviceProviderCandidates.erase serviceName }
  | p :: ps =>
    { s with
      serviceProviderCandidates := s.serviceProviderCandidates.insert serviceName (p :: ps) }

/-- The loop of `next_fallback_provider` over the stored candidates: the first one
other than the excluded peer, and what is left behind it. -/
def popCandidate (excludePeer : PeerId) : List PeerId → Option (PeerId × List PeerId)
  | [] => none
  | next :: rest => if next = excludePeer then popCandidate excludePeer rest else some (next, rest)

/-- `TunnelState::next_fallback_provider`. -/
def nextFallbackProvider (s : TunnelState) (serviceName : ServiceName) (excludePeer : PeerId) :
    TunnelState × Option PeerId :=
  match s.serviceProviderCandidates.get? serviceName with
  | none => (s, none)
  | some providers =>
    match popCandidate excludePeer providers with
    | none =>
      ({ s with serviceProviderCandidates := s.serviceProviderCandidates.erase serviceName }, none)
    | some (next, []) =>
      ({ s with serviceProviderCandidates := s.serviceProviderCandidates.erase serviceName },
        some next)
    | some (next, p :: ps) =>
      ({ s with
        serviceProviderCandidates := s.serviceProviderCandidates.insert serviceName (p :: ps) },
        some next)

/-- What the loop of `reroute_specs_after_dial_failure` carries along. -/
structure Reroute where
  /-- The machine so far. -/
  state : TunnelState
  /-- Intents handed to the next provider of their service. -/
  reassignToPeer : FiniteMap PeerId (List Intent)
  /-- Services without a provider left. -/
  refreshServices : Finset ServiceName

/-- One intent of the loop of `reroute_specs_after_dial_failure`. -/
def rerouteSpec (peer : PeerId) (acc : Reroute) (spec : Intent) : Reroute :=
  match acc.state.nextFallbackProvider spec.1 peer with
  | (s, some next) =>
    { acc with state := s, reassignToPeer := acc.reassignToPeer.extend next [spec] }
  | (s, none) =>
    { acc with
      state := { s with pendingByService := s.pendingByService.extend spec.1 [spec.2] }
      refreshServices := insert spec.1 acc.refreshServices }

/-- Hand reassigned intents to their new peers. -/
def assignToPeers (s : TunnelState) (reassigned : List (PeerId × List Intent)) : TunnelState :=
  reassigned.foldl (fun s e => { s with pendingByPeer := s.pendingByPeer.extend e.1 e.2 }) s

/-- `TunnelState::reroute_specs_after_dial_failure`. -/
def rerouteSpecsAfterDialFailure (env : Env) (s : TunnelState) (peer : PeerId) :
    TunnelState × List Command :=
  match s.pendingByPeer.get? peer with
  | none => (s, [])
  | some specs =>
    let acc := specs.foldl (rerouteSpec peer)
      ⟨{ s with pendingByPeer := s.pendingByPeer.erase peer }, ∅, ∅⟩
    let reassigned := acc.reassignToPeer.entries env.peerOrder
    (acc.state.assignToPeers reassigned,
      (reassigned.map fun e => .dhtLookupPeer e.1) ++
        (env.serviceOrder.toList acc.refreshServices).map .getProviders)

/-- `TunnelState::initiate_lookups`. -/
def initiateLookups (env : Env) (s : TunnelState) : List Command :=
  (env.peerOrder.toList s.pendingByPeer.keys).map .dhtLookupPeer ++
    (env.serviceOrder.toList s.pendingByService.keys).map .getProviders

/-- `TunnelState::queue_for_direct`. -/
def queueForDirect (s : TunnelState) (peer : PeerId) (specs : List Intent) : TunnelState :=
  { s with awaitingHolepunch := s.awaitingHolepunch.extend peer specs }

/-- `TunnelState::route_connected_peer`. -/
def routeConnectedPeer (s : TunnelState) (peer : PeerId) (specs : List Intent) :
    TunnelState × List Command :=
  if peer ∈ s.relayedPeers then (s.queueForDirect peer specs, []) else (s, spawnTunnels peer specs)

/-- `TunnelState::clear_retry_state`. -/
def clearRetryState (s : TunnelState) (peer : PeerId) : TunnelState :=
  { s with
    holepunchRetryAttempts := s.holepunchRetryAttempts.erase peer
    pendingRetryRedial := s.pendingRetryRedial.erase peer
    holepunchSessions := s.holepunchSessions.erase peer }

/-- `TunnelState::schedule_holepunch_retry`. -/
def scheduleHolepunchRetry (s : TunnelState) (peer : PeerId) : TunnelState :=
  { s with
    holepunchRetryAttempts := s.holepunchRetryAttempts.insert peer
      (saturatingAdd u32Max (s.holepunchRetryAttempts.getD peer 0) 1)
    pendingRetryRedial := insert peer s.pendingRetryRedial }

/-- `TunnelState::record_address_candidates`. -/
def recordAddressCandidates (env : Env) (s : TunnelState) (peer : PeerId)
    (listenAddrs : List Multiaddr) : TunnelState :=
  let lastSeen := recordCandidates env (s.addressLastSeen.getD peer ∅) listenAddrs
  { s with
    addressLastSeen :=
      if lastSeen.isEmpty then s.addressLastSeen.erase peer
      else s.addressLastSeen.insert peer lastSeen }

/-- `TunnelState::fresh_candidates`. -/
def freshCandidates (env : Env) (s : TunnelState) (peer : PeerId) (predicate : Multiaddr → Bool)
    (limit : ℕ) : List Multiaddr :=
  match s.addressLastSeen.get? peer with
  | none => []
  | some lastSeen => rankCandidates env lastSeen predicate limit

/-- `TunnelState::prioritized_redial_addrs`. -/
def prioritizedRedialAddrs (env : Env) (s : TunnelState) (peer : PeerId)
    (session : HolePunchSession) : List Multiaddr :=
  let oracle := s.addressOracle.getD peer default
  let freshDirect := s.freshCandidates env peer isSupportedDirectCandidate maxDirectCandidates
  let freshRelay := s.freshCandidates env peer hasP2pCircuit maxRelayCandidates
  (dedupAddrs (session.directSnapshot ++ oracle.directAddrs ++ freshDirect ++
    session.relayRedialAddrs ++ oracle.relayAddrs ++ freshRelay)).take maxRedialAddresses

/-- The dial with the prioritized addresses of a session, or without addresses when
there are none. -/
def redialCommand (env : Env) (s : TunnelState) (peer : PeerId) (session : HolePunchSession) :
    Command :=
  match s.prioritizedRedialAddrs env peer session with
  | [] => .dialPeer peer
  | a :: as => .dialPeerWithAddrs peer (a :: as) session.attemptId

/-- `TunnelState::update_address_oracle`. -/
def updateAddressOracle (env : Env) (s : TunnelState) (peer : PeerId)
    (listenAddrs : List Multiaddr) : TunnelState :=
  let s := s.recordAddressCandidates env peer listenAddrs
  let oracle : PeerAddressOracle :=
    { relayAddrs := s.freshCandidates env peer hasP2pCircuit maxRelayCandidates
      directAddrs := s.freshCandidates env peer isSupportedDirectCandidate maxDirectCandidates }
  { s with
    holepunchSessions := s.holepunchSessions.modify peer fun session => session.refresh oracle
    addressOracle := s.addressOracle.insert peer oracle }

/-- `TunnelState::begin_holepunch_attempt`. -/
def beginHolepunchAttempt (s : TunnelState) (peer : PeerId) (attemptId : ℕ) : TunnelState :=
  let oracle := s.addressOracle.getD peer default
  { s with
    holepunchSessions := s.holepunchSessions.insert peer
      { attemptId := attemptId
        phase := .punching
        relayRedialAddrs := oracle.relayAddrs
        directSnapshot := oracle.directAddrs
        dialRetryDispatched := false } }

/-- `TunnelState::retry_holepunch_attempt`. -/
def retryHolepunchAttempt (s : TunnelState) (peer : PeerId) (attemptId : ℕ) :
    TunnelState × List Command :=
  match s.holepunchSessions.get? peer with
  | none => (s, [])
  | some session =>
    if session.attemptId ≠ attemptId then (s, [])
    else if session.phase ≠ .punching then (s, [])
    else
      match s.awaitingHolepunch.get? peer with
      | none => (s, [])
      | some fallbackSpecs =>
        if maxRelayReconnectRetries ≤ s.holepunchRetryAttempts.getD peer 0 then
          (clearRetryState
              { s with awaitingHolepunch := s.awaitingHolepunch.erase peer } peer,
            spawnTunnels peer fallbackSpecs)
        else
          let s := s.scheduleHolepunchRetry peer
          ({ s with
            holepunchSessions := s.holepunchSessions.modify peer fun session =>
              { session with phase := .waitingDisconnect } },
            [.disconnectPeer peer])

/-- The branch of `TunnelState::transition` for `DhtServiceResolved`. -/
def onDhtServiceResolved (s : TunnelState) (serviceName : ServiceName)
    (providers : List (PeerId × Bool)) : TunnelState × List Command :=
  match s.pendingByService.get? serviceName with
  | none => (s, [])
  | some bindAddrs =>
    match dedupProviderCandidates providers with
    | [] => (s, [.getProviders serviceName])
    | (provider, connected) :: fallback =>
      let s := { s with pendingByService := s.pendingByService.erase serviceName }
      let s := s.storeProviderCandidates serviceName (fallback.map Prod.fst)
      let specs := bindAddrs.map fun addr => (serviceName, addr)
      if connected then s.routeConnectedPeer provider specs
      else
        ({ s with pendingByPeer := s.pendingByPeer.extend provider specs },
          [.dhtLookupPeer provider])

/-- The branch of `TunnelState::transition` for `TunnelDialFailed`. -/
def onTunnelDialFailed (env : Env) (s : TunnelState) (peer : PeerId) (reason : String) :
    TunnelState × List Command :=
  let awaitingDirect := s.awaitingHolepunch.contains peer
  if !awaitingDirect && !s.pendingByPeer.contains peer then (s, [])
  else if awaitingDirect && isPendingAbortDialError reason then (s, [])
  else
    match awaitingDirect, s.holepunchSessions.get? peer with
    | true, some session =>
      if session.phase = .waitingDisconnect then (s, [])
      else if session.dialRetryDispatched then (s, [])
      else
        let s := { s with
          holepunchSessions := s.holepunchSessions.insert peer
            { session with dialRetryDispatched := true } }
        (s, [s.redialCommand env peer session])
    | _, _ => s.rerouteSpecsAfterDialFailure env peer

/-- The branch of `TunnelState::transition` for `TunnelPeerConnected` over a relay. -/
def onRelayedConnection (s : TunnelState) (peer : PeerId) : TunnelState × List Command :=
  let s := { s with relayedPeers := insert peer s.relayedPeers }
  match s.pendingByPeer.get? peer with
  | none => (s, [])
  | some specs =>
    ({ s with pendingByPeer := s.pendingByPeer.erase peer }.queueForDirect peer specs, [])

/-- The branch of `TunnelState::transition` for a direct `TunnelPeerConnected`. -/
def onDirectConnection (s : TunnelState) (peer : PeerId) : TunnelState × List Command :=
  (clearRetryState
      { s with
        relayedPeers := s.relayedPeers.erase peer
        pendingByPeer := s.pendingByPeer.erase peer
        awaitingHolepunch := s.awaitingHolepunch.erase peer } peer,
    spawnTunnels peer (s.pendingByPeer.getD peer [] ++ s.awaitingHolepunch.getD peer []))

/-- The branch of `TunnelState::transition` for `ConnectionLost` with no connection left. -/
def onFullyDisconnected (env : Env) (s : TunnelState) (peer : PeerId) :
    TunnelState × List Command :=
  let s := { s with relayedPeers := s.relayedPeers.erase peer }
  if peer ∈ s.pendingRetryRedial then
    let s := { s with
      pendingRetryRedial := s.pendingRetryRedial.erase peer
      holepunchSessions := s.holepunchSessions.modify peer fun session =>
        { session with phase := .waitingRedial } }
    (s, [match s.holepunchSessions.get? peer with
      | some session => s.redialCommand env peer session
      | none => .dialPeer peer])
  else
    match s.awaitingHolepunch.get? peer with
    | some waitingSpecs =>
      let s := clearRetryState
        { s with awaitingHolepunch := s.awaitingHolepunch.erase peer } peer
      ({ s with pendingByPeer := s.pendingByPeer.extend peer waitingSpecs }, [.dialPeer peer])
    | none => (s.clearRetryState peer, [])

/-- `TunnelState::transition`. -/
def transition (env : Env) (s : TunnelState) : Event → TunnelState × List Command
  | .phaseChanged _ .ready => (s, .publishServices :: s.initiateLookups env)
  | .relayReservationAccepted _ => (s, [.publishServices])
  | .dhtPeerLookupComplete peer true =>
    match s.pendingByPeer.get? peer with
    | some specs =>
      { s with pendingByPeer := s.pendingByPeer.erase peer }.routeConnectedPeer peer specs
    | none => (s, [])
  | .dhtPeerLookupComplete peer false =>
    (s, if s.pendingByPeer.contains peer then [.dialPeer peer] else [])
  | .dhtServiceResolved serviceName providers => s.onDhtServiceResolved serviceName providers
  | .dhtServiceFailed serviceName _ =>
    (s, if s.pendingByService.contains serviceName then [.getProviders serviceName] else [])
  | .tunnelDialFailed peer reason => s.onTunnelDialFailed env peer reason
  | .peerIdentified peer listenAddrs _ => (s.updateAddressOracle env peer listenAddrs, [])
  | .tunnelPeerConnected peer true => s.onRelayedConnection peer
  | .tunnelPeerConnected peer false => s.onDirectConnection peer
  | .holePunchAttemptStarted peer attemptId => (s.beginHolepunchAttempt peer attemptId, [])
  | .holePunchFailed _ _ => (s, [])
  | .holePunchAttemptFailed remotePeer attemptId _ =>
    s.retryHolepunchAttempt remotePeer attemptId
  | .holePunchAttemptTimeout peer attemptId => s.retryHolepunchAttempt peer attemptId
  | .connectionLost peer remaining =>
    if remaining = 0 then s.onFullyDisconnected env peer else (s, [])
  | .phaseChanged _ .joining | .phaseChanged _ .shuttingDown | .listeningOn _
  | .bootstrapConnected _ _ | .shutdownRequested | .kademliaBootstrapOk
  | .kademliaBootstrapFailed _ | .mdnsDiscovered _ | .mdnsExpired _ | .natStatusChanged _
  | .discoveryTimeout | .relayReservationFailed _ _ | .noBootstrapPeers
  | .externalAddrConfirmed _ | .externalAddrExpired _ => (s, [])

end TunnelState

/-- One call that configures a fresh `TunnelState`. -/
inductive ConfigCall
  | addPeerTunnel (peer : PeerId) (service : ServiceName) (bind : ServiceAddr)
  | addServiceTunnel (service : ServiceName) (bind : ServiceAddr)
  | setNatMapping (mapping : NatMapping)
  deriving DecidableEq

/-- The effect of a configuration call. -/
def ConfigCall.apply (s : TunnelState) : ConfigCall → TunnelState
  | .addPeerTunnel peer service bind => s.addPeerTunnel peer service bind
  | .addServiceTunnel service bind => s.addServiceTunnel service bind
  | .setNatMapping mapping => s.setNatMapping mapping

/-- A fresh `TunnelState` after a list of configuration calls. -/
def TunnelState.configured (calls : List ConfigCall) : TunnelState :=
  calls.foldl ConfigCall.apply .new

/-- A sample intent. -/
def webIntent : Intent := (⟨"web"⟩, ⟨.domain "localhost", 80⟩)

/-- A sample tunnel, to a given peer. -/
def webTunnel : ConfigCall := .addPeerTunnel ⟨1⟩ webIntent.1 webIntent.2

end Punchgate
