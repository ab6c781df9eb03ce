import Punchgate.Library.Locality
import Punchgate.State.RedialAddrs

/-!
# Events of different peers

What the network reports about one peer concerns what the tunnel machine holds for that peer alone,
its address candidates included. So reports about different peers can come in either order. A failed
dial is an exception, since it may hand intents over to other peers.
-/

namespace Punchgate

/-- Everything that the tunnel machine holds for one peer. -/
@[ext] structure TunnelSlice where
  /-- Intents that wait for a connection. -/
  pending : Option (List Intent)
  /-- Intents that wait for a direct connection. -/
  awaiting : Option (List Intent)
  /-- The last reported connection was relayed. -/
  relayed : Prop
  /-- Reconnects already used. -/
  retries : Option ℕ
  /-- A requested disconnect has not been seen yet. -/
  redial : Prop
  /-- The hole-punch session. -/
  session : Option HolePunchSession
  /-- The latest candidate addresses. -/
  oracle : Option PeerAddressOracle
  /-- When each candidate address was last seen. -/
  lastSeen : Option (FiniteMap Multiaddr Instant)

/-- The peer of an event that the network reports about a peer, failed dials apart. -/
def Event.reportedPeer : Event → Option PeerId
  | .tunnelPeerConnected peer _ | .connectionLost peer _ | .holePunchAttemptStarted peer _
  | .holePunchAttemptFailed peer _ _ | .holePunchAttemptTimeout peer _
  | .dhtPeerLookupComplete peer _ | .peerIdentified peer _ _ => some peer
  | _ => none

namespace TunnelState

/-- The slice of the state that belongs to a peer. -/
def slice (s : TunnelState) (p : PeerId) : TunnelSlice where
  pending := s.pendingByPeer.get? p
  awaiting := s.awaitingHolepunch.get? p
  relayed := p ∈ s.relayedPeers
  retries := s.holepunchRetryAttempts.get? p
  redial := p ∈ s.pendingRetryRedial
  session := s.holepunchSessions.get? p
  oracle := s.addressOracle.get? p
  lastSeen := s.addressLastSeen.get? p

/-- States have the same slice of a peer if they hold the same for it, field by field. -/
theorem slice_eq_iff {s t : TunnelState} {p : PeerId} : s.slice p = t.slice p ↔
    s.pendingByPeer.get? p = t.pendingByPeer.get? p ∧
    s.awaitingHolepunch.get? p = t.awaitingHolepunch.get? p ∧
    (p ∈ s.relayedPeers ↔ p ∈ t.relayedPeers) ∧
    s.holepunchRetryAttempts.get? p = t.holepunchRetryAttempts.get? p ∧
    (p ∈ s.pendingRetryRedial ↔ p ∈ t.pendingRetryRedial) ∧
    s.holepunchSessions.get? p = t.holepunchSessions.get? p ∧
    s.addressOracle.get? p = t.addressOracle.get? p ∧
    s.addressLastSeen.get? p = t.addressLastSeen.get? p := by
  simp [slice]

/-- The state consists of the slices of all peers and of what it holds for services. -/
def slicing : Slicing TunnelState PeerId TunnelSlice
    (FiniteMap ServiceName (List ServiceAddr) × FiniteMap ServiceName (List PeerId) ×
      NatMapping) where
  slice := slice
  common s := (s.pendingByService, s.serviceProviderCandidates, s.natMapping)
  ext s t hslices hcommon := by
    obtain ⟨hservice, hcandidates, hnat⟩ : s.pendingByService = t.pendingByService ∧
        s.serviceProviderCandidates = t.serviceProviderCandidates ∧ s.natMapping = t.natMapping := by
      simpa using hcommon
    have hfields (p : PeerId) := slice_eq_iff.mp (hslices p)
    have hpending := FiniteMap.ext fun p => (hfields p).1
    have hawaiting := FiniteMap.ext fun p => (hfields p).2.1
    have hrelayed := Finset.ext fun p => (hfields p).2.2.1
    have hretries := FiniteMap.ext fun p => (hfields p).2.2.2.1
    have hredial := Finset.ext fun p => (hfields p).2.2.2.2.1
    have hsessions := FiniteMap.ext fun p => (hfields p).2.2.2.2.2.1
    have horacle := FiniteMap.ext fun p => (hfields p).2.2.2.2.2.2.1
    have hlast := FiniteMap.ext fun p => (hfields p).2.2.2.2.2.2.2
    cases s
    cases t
    simp_all

variable {env : Env} {s t : TunnelState} {p q : PeerId}

/-- What leaves the services alone leaves the common part alone. -/
theorem SameServices.common (h : SameServices s t) : slicing.common t = slicing.common s :=
  Prod.ext h.service (Prod.ext h.candidates h.nat)

/-! ## Operations on one slice -/

/-- A relayed connection is local to its peer. -/
theorem local_onRelayedConnection (p : PeerId) :
    slicing.Local p fun s => s.onRelayedConnection p := by
  constructor
  case common =>
    intro s
    dsimp only [onRelayedConnection]
    split <;> rfl
  case other =>
    intro s q hq
    dsimp only [onRelayedConnection]
    split <;> simp [slicing, slice, queueForDirect, hq]
  case own =>
    intro s t hslice _
    have hfields := slice_eq_iff.mp hslice
    dsimp only [onRelayedConnection]
    rw [hfields.1]
    split <;> simp_all [slicing, slice, queueForDirect, FiniteMap.getD]

/-- A direct connection is local to its peer. -/
theorem local_onDirectConnection (p : PeerId) :
    slicing.Local p fun s => s.onDirectConnection p := by
  constructor
  case common => exact fun s => rfl
  case other =>
    intro s q hq
    simp [slicing, slice, onDirectConnection, clearRetryState, hq]
  case own =>
    intro s t hslice _
    have hfields := slice_eq_iff.mp hslice
    simp [slicing, slice, onDirectConnection, clearRetryState, FiniteMap.getD, hfields]

/-- Routing intents is local to the connected peer. -/
theorem local_routeConnectedPeer (p : PeerId) (specs : List Intent) :
    slicing.Local p fun s => s.routeConnectedPeer p specs := by
  constructor
  case common =>
    intro s
    exact (SameServices.routeConnectedPeer ⟨rfl, rfl, rfl⟩ p specs).common
  case other =>
    intro s q hq
    dsimp only [routeConnectedPeer]
    split <;> simp [slicing, slice, queueForDirect, hq]
  case own =>
    intro s t hslice _
    have hfields := slice_eq_iff.mp hslice
    dsimp only [routeConnectedPeer]
    simp only [hfields.2.2.1]
    split <;> simp_all [slicing, slice, queueForDirect, FiniteMap.getD]

/-- The result of a lookup is local to its peer. -/
theorem local_dhtPeerLookupComplete (env : Env) (p : PeerId) (connected : Bool) :
    slicing.Local p fun s => s.transition env (.dhtPeerLookupComplete p connected) := by
  cases connected with
  | false =>
    constructor
    case common => exact fun s => rfl
    case other => exact fun s q _ => rfl
    case own =>
      intro s t hslice _
      simp only [transition, FiniteMap.contains, (slice_eq_iff.mp hslice).1]
      exact ⟨hslice, rfl⟩
  | true =>
    constructor
    case common =>
      intro s
      simp only [transition]
      split
      · exact (local_routeConnectedPeer p _).common _
      · rfl
    case other =>
      intro s q hq
      simp only [transition]
      split
      · rw [(local_routeConnectedPeer p _).other _ q hq]
        simp [slicing, slice, hq]
      · rfl
    case own =>
      intro s t hslice hcommon
      have hfields := slice_eq_iff.mp hslice
      simp only [transition, hfields.1]
      split
      · refine (local_routeConnectedPeer p _).own _ _ ?_ hcommon
        simp [slicing, slice, hfields]
      · exact ⟨hslice, rfl⟩

/-- A new attempt is local to its peer. -/
theorem local_beginHolepunchAttempt (p : PeerId) (attemptId : ℕ) :
    slicing.Local p fun s => (s.beginHolepunchAttempt p attemptId, ([] : List Command)) := by
  constructor
  case common => exact fun s => rfl
  case other =>
    intro s q hq
    simp [slicing, slice, beginHolepunchAttempt, hq]
  case own =>
    intro s t hslice _
    have hfields := slice_eq_iff.mp hslice
    simp [slicing, slice, beginHolepunchAttempt, FiniteMap.getD, hfields]

/-- A failed attempt is local to its peer. -/
theorem local_retryHolepunchAttempt (p : PeerId) (attemptId : ℕ) :
    slicing.Local p fun s => s.retryHolepunchAttempt p attemptId := by
  constructor
  case common => exact fun s => (s.sameServices_retryHolepunchAttempt p attemptId).common
  case other =>
    intro s q hq
    rcases s.retryHolepunchAttempt_cases p attemptId with ⟨_, heq⟩ | ⟨_, _, _, _, heq⟩ |
      ⟨_, _, _, _, _, heq⟩
    · rw [heq]
    · rw [heq]
      simp [slicing, slice, clearRetryState, hq]
    · rw [heq]
      simp [slicing, slice, scheduleHolepunchRetry, FiniteMap.get?_modify, hq]
  case own =>
    intro s t hslice _
    have hfields := slice_eq_iff.mp hslice
    obtain ⟨-, hawaiting, -, -, -, hsession, -⟩ := slice_eq_iff.mp hslice
    have hretries : s.holepunchRetryAttempts.getD p 0 = t.holepunchRetryAttempts.getD p 0 := by
      rw [FiniteMap.getD, hfields.2.2.2.1, FiniteMap.getD]
    dsimp only [retryHolepunchAttempt]
    rw [hsession, hawaiting, hretries]
    cases t.holepunchSessions.get? p with
    | none => exact ⟨hslice, rfl⟩
    | some session =>
      by_cases hid : session.attemptId = attemptId
      · by_cases hphase : session.phase = .punching
        · cases t.awaitingHolepunch.get? p with
          | none => simp [hid, hphase, hslice]
          | some specs =>
            by_cases hmax : maxRelayReconnectRetries ≤ t.holepunchRetryAttempts.getD p 0
            · simp only [hid, hphase, hmax, ne_eq, not_true_eq_false, if_false, if_true, and_true]
              simp [slicing, slice, clearRetryState, hfields]
            · simp only [hid, hphase, hmax, ne_eq, not_true_eq_false, if_false, and_true]
              simp [slicing, slice, scheduleHolepunchRetry, FiniteMap.get?_modify, hretries,
                hfields]
        · simp [hid, hphase, hslice]
      · simp [hid, hslice]

/-- A redial depends on the slice of its peer only. -/
theorem redialCommand_congr (hslice : s.slice p = t.slice p) (session : HolePunchSession) :
    s.redialCommand env p session = t.redialCommand env p session := by
  obtain ⟨-, -, -, -, -, -, horacle, hlast⟩ := slice_eq_iff.mp hslice
  unfold redialCommand prioritizedRedialAddrs FiniteMap.getD
  simp only [horacle, freshCandidates_congr hlast]

/-- The last disconnect is local to its peer. -/
theorem local_onFullyDisconnected (env : Env) (p : PeerId) :
    slicing.Local p fun s => s.onFullyDisconnected env p := by
  constructor
  case common => exact fun s => (s.sameServices_onFullyDisconnected env p).common
  case other =>
    intro s q hq
    rcases s.onFullyDisconnected_cases env p with ⟨_, _, _, heq⟩ | ⟨_, _, _, heq⟩ | ⟨_, _, heq⟩
    · rw [heq]
      simp [slicing, slice, FiniteMap.get?_modify, hq]
    · rw [heq]
      simp [slicing, slice, clearRetryState, hq]
    · rw [heq]
      simp [slicing, slice, clearRetryState, hq]
  case own =>
    intro s t hslice _
    have hfields := slice_eq_iff.mp hslice
    obtain ⟨-, hawaiting, -, -, hredial, -⟩ := slice_eq_iff.mp hslice
    by_cases hp : p ∈ t.pendingRetryRedial
    · have hnew : ({ s with
            relayedPeers := s.relayedPeers.erase p
            pendingRetryRedial := s.pendingRetryRedial.erase p
            holepunchSessions := s.holepunchSessions.modify p fun session =>
              { session with phase := .waitingRedial } } : TunnelState).slice p =
          ({ t with
            relayedPeers := t.relayedPeers.erase p
            pendingRetryRedial := t.pendingRetryRedial.erase p
            holepunchSessions := t.holepunchSessions.modify p fun session =>
              { session with phase := .waitingRedial } } : TunnelState).slice p := by
        simp [slice, FiniteMap.get?_modify, hfields]
      have hsession := congrArg TunnelSlice.session hnew
      dsimp only [slice] at hsession
      simp only [onFullyDisconnected, hredial, hp, if_true, hsession]
      refine ⟨hnew, ?_⟩
      split
      · rw [redialCommand_congr hnew]
      · rfl
    · simp only [onFullyDisconnected, hredial, hp, if_false, hawaiting]
      split
      · simp [slicing, slice, clearRetryState, FiniteMap.getD, hfields]
      · simp [slicing, slice, clearRetryState, hfields]

/-- New addresses are local to their peer. -/
theorem local_updateAddressOracle (env : Env) (p : PeerId) (addrs : List Multiaddr) :
    slicing.Local p fun s => (s.updateAddressOracle env p addrs, ([] : List Command)) := by
  constructor
  case common => exact fun s => rfl
  case other =>
    intro s q hq
    simp only [slicing, slice, updateAddressOracle, recordAddressCandidates, FiniteMap.get?_modify,
      if_neg hq, FiniteMap.get?_insert_of_ne _ _ hq]
    split <;> simp [hq]
  case own =>
    intro s t hslice _
    have hfields := slice_eq_iff.mp hslice
    obtain ⟨-, -, -, -, -, -, -, hold⟩ := slice_eq_iff.mp hslice
    have hlast : (s.recordAddressCandidates env p addrs).addressLastSeen.get? p =
        (t.recordAddressCandidates env p addrs).addressLastSeen.get? p := by
      rw [get?_recordAddressCandidates, get?_recordAddressCandidates, FiniteMap.getD, hold,
        FiniteMap.getD]
    refine ⟨slice_eq_iff.mpr ?_, rfl⟩
    simp only [updateAddressOracle, freshCandidates_congr hlast, FiniteMap.get?_modify,
      FiniteMap.get?_insert_self, hlast]
    simp [recordAddressCandidates, hfields]

/-- Whatever the network reports about a peer is local to it. -/
theorem local_transition (env : Env) {e : Event} (he : e.reportedPeer = some p) :
    slicing.Local p fun s => s.transition env e := by
  cases e with
  | tunnelPeerConnected peer relayed =>
    obtain rfl := Option.some.inj he
    cases relayed with
    | true => exact local_onRelayedConnection peer
    | false => exact local_onDirectConnection peer
  | connectionLost peer remaining =>
    obtain rfl := Option.some.inj he
    by_cases hremaining : remaining = 0
    · simp only [transition, if_pos hremaining]
      exact local_onFullyDisconnected env peer
    · simp only [transition, if_neg hremaining]
      exact .skip []
  | holePunchAttemptStarted peer attemptId =>
    obtain rfl := Option.some.inj he
    exact local_beginHolepunchAttempt peer attemptId
  | holePunchAttemptFailed peer attemptId reason =>
    obtain rfl := Option.some.inj he
    exact local_retryHolepunchAttempt peer attemptId
  | holePunchAttemptTimeout peer attemptId =>
    obtain rfl := Option.some.inj he
    exact local_retryHolepunchAttempt peer attemptId
  | dhtPeerLookupComplete peer connected =>
    obtain rfl := Option.some.inj he
    exact local_dhtPeerLookupComplete env peer connected
  | peerIdentified peer addrs observed =>
    obtain rfl := Option.some.inj he
    exact local_updateAddressOracle env peer addrs
  | _ => cases he

/-- **Independence of peers.** Two reports about different peers can be processed in either order:
the state is the same afterwards, and each of them is answered with the same commands. -/
theorem peer_events_commute (env env' : Env) (s : TunnelState) {p q : PeerId} {e e' : Event}
    (he : e.reportedPeer = some p) (he' : e'.reportedPeer = some q) (hne : p ≠ q) :
    let first := s.transition env e
    let first' := s.transition env' e'
    (first.1.transition env' e').1 = (first'.1.transition env e).1 ∧
      (first.1.transition env' e').2 = first'.2 ∧ (first'.1.transition env e).2 = first.2 :=
  (local_transition env he).commute (local_transition env' he') hne s

/-- The relayed connection of a peer and the disconnect of another one. -/
theorem peer_events_commute_sample :
    let s := configured [webTunnel, .addPeerTunnel ⟨2⟩ webIntent.1 webIntent.2]
    ((s.transition .sorted (.tunnelPeerConnected ⟨1⟩ true)).1.transition .sorted
        (.connectionLost ⟨2⟩ 0)).1 =
      ((s.transition .sorted (.connectionLost ⟨2⟩ 0)).1.transition .sorted
        (.tunnelPeerConnected ⟨1⟩ true)).1 := by
  intro s
  have hne : (⟨1⟩ : PeerId) ≠ ⟨2⟩ := by decide
  have he : (Event.tunnelPeerConnected ⟨1⟩ true).reportedPeer = some ⟨1⟩ := rfl
  have he' : (Event.connectionLost ⟨2⟩ 0).reportedPeer = some ⟨2⟩ := rfl
  exact (peer_events_commute .sorted .sorted s he he' hne).1

end TunnelState

end Punchgate
