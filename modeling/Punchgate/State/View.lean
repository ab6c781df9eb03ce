import Punchgate.State.Reroute

/-!
# One peer at a time

Almost everything the tunnel machine does with a peer depends on what its maps hold
for that peer alone. `PeerView` is this slice of the state and `PeerStep` the
behaviour of the slice: an abstract machine with one rule per way in which an event
can affect a peer. The transition function refines it at every peer.
-/

namespace Punchgate

/-- What matters of a hole-punch session. -/
structure SessionView where
  /-- The attempt the session belongs to. -/
  attemptId : ℕ
  /-- How far the attempt has come. -/
  phase : HolePunchPhase
  /-- A retry dial was already dispatched for this attempt. -/
  dispatched : Bool
  deriving DecidableEq

/-- Forget the addresses kept in a session. -/
def HolePunchSession.view (session : HolePunchSession) : SessionView :=
  ⟨session.attemptId, session.phase, session.dialRetryDispatched⟩

/-- What the tunnel machine holds for one peer. -/
@[ext] structure PeerView where
  /-- Intents that wait for a connection. -/
  pending : Option (List Intent)
  /-- Intents that wait for a direct connection. -/
  awaiting : Option (List Intent)
  /-- The last reported connection was relayed. -/
  relayed : Bool
  /-- Reconnects already used. -/
  retries : Option ℕ
  /-- A requested disconnect has not been seen yet. -/
  redial : Bool
  /-- The hole-punch session. -/
  session : Option SessionView
  deriving DecidableEq

namespace PeerView

/-- Some tunnel of the peer asks for a connection. -/
def intent (v : PeerView) : Bool := v.pending.isSome || v.awaiting.isSome

/-- Put intents under the peer until it is connected. -/
def assign (v : PeerView) (specs : List Intent) : PeerView :=
  { v with pending := some (v.pending.getD [] ++ specs) }

/-- Put intents under the peer until it is connected directly. -/
def queue (v : PeerView) (specs : List Intent) : PeerView :=
  { v with awaiting := some (v.awaiting.getD [] ++ specs) }

/-- Forget reconnects and the session. -/
def clear (v : PeerView) : PeerView := { v with retries := none, redial := false, session := none }

/-- Intents for a connected peer: queued behind a relay, spawned otherwise. -/
def route (peer : PeerId) (v : PeerView) (specs : List Intent) : PeerView × List Command :=
  if v.relayed then (v.queue specs, []) else (v, spawnTunnels peer specs)

/-- The view after the peer was connected directly. -/
def connectDirect (v : PeerView) : PeerView :=
  { v with relayed := false, pending := none, awaiting := none }.clear

end PeerView

/-- The slice of the state that belongs to a peer. -/
def TunnelState.view (s : TunnelState) (peer : PeerId) : PeerView where
  pending := s.pendingByPeer.get? peer
  awaiting := s.awaitingHolepunch.get? peer
  relayed := decide (peer ∈ s.relayedPeers)
  retries := s.holepunchRetryAttempts.get? peer
  redial := decide (peer ∈ s.pendingRetryRedial)
  session := (s.holepunchSessions.get? peer).map HolePunchSession.view

/-- The peer whose slice alone an event is about. -/
def Event.subject : Event → Option PeerId
  | .dhtPeerLookupComplete peer _ | .tunnelDialFailed peer _ | .peerIdentified peer _ _
  | .tunnelPeerConnected peer _ | .holePunchAttemptStarted peer _
  | .holePunchAttemptFailed peer _ _ | .holePunchAttemptTimeout peer _
  | .connectionLost peer _ => some peer
  | _ => none

/-- The attempt an event reports as failed. -/
def Event.failedAttempt : Event → Option (PeerId × ℕ)
  | .holePunchAttemptFailed peer attemptId _ | .holePunchAttemptTimeout peer attemptId =>
    some (peer, attemptId)
  | _ => none

/-- A failed attempt is about its peer. -/
theorem Event.subject_of_failedAttempt {e : Event} {p : PeerId} {attemptId : ℕ}
    (h : e.failedAttempt = some (p, attemptId)) : e.subject = some p := by
  cases e <;> simp_all [failedAttempt, subject]

/-- The peer a command acts on: dials, disconnects and opened tunnels. -/
def Command.target : Command → Option PeerId
  | .dialPeer peer | .dialPeerWithAddrs peer _ _ | .disconnectPeer peer
  | .spawnTunnel peer _ _ => some peer
  | _ => none

/-- A command dials a peer, with or without addresses. -/
def Command.dials (peer : PeerId) : Command → Bool
  | .dialPeer target | .dialPeerWithAddrs target _ _ => target = peer
  | _ => false

/-- The commands that act on a peer. -/
def commandsFor (peer : PeerId) (commands : List Command) : List Command :=
  commands.filter fun c => c.target = some peer

/-- A reported failure concerns the session of a view while it is punching. -/
def PeerView.Current (v : PeerView) (attemptId : ℕ) : Prop :=
  ∃ dispatched, v.session = some ⟨attemptId, .punching, dispatched⟩

/-- A failed dial is not retried for this session. -/
def SessionView.Suppressed (session : SessionView) : Prop :=
  session.phase = .waitingDisconnect ∨ session.dispatched = true

instance : DecidablePred SessionView.Suppressed := fun session =>
  inferInstanceAs (Decidable (session.phase = .waitingDisconnect ∨ session.dispatched = true))

/-- A failed dial of a peer neither meets a running hole punch nor stems from an
aborted dial during one, so that its pending intents are rerouted. -/
def TunnelState.ReroutesAfter (s : TunnelState) (q : PeerId) (reason : String) : Prop :=
  ¬(s.awaitingHolepunch.contains q = true ∧
    (isPendingAbortDialError reason = true ∨ s.holepunchSessions.contains q = true))

instance (s : TunnelState) (q : PeerId) (reason : String) : Decidable (s.ReroutesAfter q reason) :=
  inferInstanceAs (Decidable (¬_))

/-- The ways in which an event can change the slice of a peer, with the commands that
act on the peer. -/
inductive PeerStep (s : TunnelState) (p : PeerId) : Event → PeerView → List Command → Prop
  /-- An event about something else. -/
  | idle {e} (h : e.subject ≠ some p) : PeerStep s p e (s.view p) []
  /-- Intents of another peer, handed over after a failed dial to that one. -/
  | handedOver {q reason specs} (hq : q ≠ p)
      (hspecs : ∀ spec ∈ specs, spec ∈ s.pendingByPeer.getD q [])
      (hreroute : s.ReroutesAfter q reason) :
      PeerStep s p (.tunnelDialFailed q reason) ((s.view p).assign specs) []
  /-- Intents of a service whose first provider is the unconnected peer. -/
  | resolved {svc rest binds} (hsvc : s.pendingByService.get? svc = some binds) :
      PeerStep s p (.dhtServiceResolved svc ((p, false) :: rest))
        ((s.view p).assign (binds.map (svc, ·))) []
  /-- Intents of a service whose first provider is the connected peer. -/
  | resolvedConnected {svc rest binds} (hsvc : s.pendingByService.get? svc = some binds) :
      PeerStep s p (.dhtServiceResolved svc ((p, true) :: rest))
        ((s.view p).route p (binds.map (svc, ·))).1 ((s.view p).route p (binds.map (svc, ·))).2
  /-- A lookup finds the peer connected. -/
  | lookedUpConnected {specs} (hpending : (s.view p).pending = some specs) :
      PeerStep s p (.dhtPeerLookupComplete p true)
        ({ s.view p with pending := none }.route p specs).1
        ({ s.view p with pending := none }.route p specs).2
  /-- A lookup finds the peer connected, but nothing waits for it. -/
  | lookedUpUnneeded (hpending : (s.view p).pending = none) :
      PeerStep s p (.dhtPeerLookupComplete p true) (s.view p) []
  /-- A lookup finds the peer unconnected. -/
  | lookedUp :
      PeerStep s p (.dhtPeerLookupComplete p false) (s.view p)
        (if (s.view p).pending.isSome then [.dialPeer p] else [])
  /-- A failed dial that nothing depends on, or that a newer dial has replaced. -/
  | dialFailedIgnored {reason}
      (h : (s.view p).intent = false ∨
        ((s.view p).awaiting.isSome = true ∧ isPendingAbortDialError reason = true)) :
      PeerStep s p (.tunnelDialFailed p reason) (s.view p) []
  /-- A failed dial during a hole punch, left without an answer. -/
  | dialFailedSuppressed {reason session} (hawaiting : (s.view p).awaiting.isSome = true)
      (hreason : isPendingAbortDialError reason = false)
      (hsession : (s.view p).session = some session) (h : session.Suppressed) :
      PeerStep s p (.tunnelDialFailed p reason) (s.view p) []
  /-- A failed dial during a hole punch, answered with another dial. -/
  | dialFailedRetried {reason session c} (hawaiting : (s.view p).awaiting.isSome = true)
      (hreason : isPendingAbortDialError reason = false)
      (hsession : (s.view p).session = some session) (h : ¬session.Suppressed)
      (hc : c.dials p = true) :
      PeerStep s p (.tunnelDialFailed p reason)
        { s.view p with session := some { session with dispatched := true } } [c]
  /-- A failed dial after which the pending intents leave the peer. -/
  | dialFailedRerouted {reason} (hintent : (s.view p).intent = true)
      (h : (s.view p).awaiting = none ∨
        ((s.view p).session = none ∧ isPendingAbortDialError reason = false)) :
      PeerStep s p (.tunnelDialFailed p reason) { s.view p with pending := none } []
  /-- New addresses of the peer; they may allow another dial. -/
  | identified {addrs observed} (dispatched : SessionView → Bool) :
      PeerStep s p (.peerIdentified p addrs observed)
        { s.view p with
          session := (s.view p).session.map fun session =>
            { session with dispatched := dispatched session } } []
  /-- A relayed connection while nothing is pending. -/
  | relayed (hpending : (s.view p).pending = none) :
      PeerStep s p (.tunnelPeerConnected p true) { s.view p with relayed := true } []
  /-- A relayed connection: the pending intents now wait for a direct one. -/
  | relayedQueued {specs} (hpending : (s.view p).pending = some specs) :
      PeerStep s p (.tunnelPeerConnected p true)
        ({ s.view p with relayed := true, pending := none }.queue specs) []
  /-- A direct connection. -/
  | direct :
      PeerStep s p (.tunnelPeerConnected p false) (s.view p).connectDirect
        (spawnTunnels p ((s.view p).pending.getD [] ++ (s.view p).awaiting.getD []))
  /-- A new hole-punch attempt. -/
  | started {attemptId} :
      PeerStep s p (.holePunchAttemptStarted p attemptId)
        { s.view p with session := some ⟨attemptId, .punching, false⟩ } []
  /-- A failure of another attempt, or one that nothing waits for. -/
  | failureIgnored {e attemptId} (he : e.failedAttempt = some (p, attemptId))
      (h : ¬(s.view p).Current attemptId ∨ (s.view p).awaiting = none) :
      PeerStep s p e (s.view p) []
  /-- A failure after the last retry: the tunnels fall back to the relay. -/
  | retriesExhausted {e attemptId specs} (he : e.failedAttempt = some (p, attemptId))
      (hcurrent : (s.view p).Current attemptId) (hawaiting : (s.view p).awaiting = some specs)
      (hretries : maxRelayReconnectRetries ≤ (s.view p).retries.getD 0) :
      PeerStep s p e { s.view p with awaiting := none }.clear (spawnTunnels p specs)
  /-- A failure with retries left: the peer is disconnected to be dialed again. -/
  | retryScheduled {e attemptId specs dispatched} (he : e.failedAttempt = some (p, attemptId))
      (hsession : (s.view p).session = some ⟨attemptId, .punching, dispatched⟩)
      (hawaiting : (s.view p).awaiting = some specs)
      (hretries : (s.view p).retries.getD 0 < maxRelayReconnectRetries) :
      PeerStep s p e
        { s.view p with
          retries := some ((s.view p).retries.getD 0 + 1)
          redial := true
          session := some ⟨attemptId, .waitingDisconnect, dispatched⟩ } [.disconnectPeer p]
  /-- A connection was lost while others remain. -/
  | lostOne {remaining} (h : remaining ≠ 0) :
      PeerStep s p (.connectionLost p remaining) (s.view p) []
  /-- The requested disconnect has come: the peer is dialed again. -/
  | lostRedial {c} (hredial : (s.view p).redial = true) (hc : c.dials p = true) :
      PeerStep s p (.connectionLost p 0)
        { s.view p with
          relayed := false
          redial := false
          session := (s.view p).session.map fun session =>
            { session with phase := .waitingRedial } } [c]
  /-- All connections lost while intents wait for a direct one. -/
  | lostAwaiting {specs} (hredial : (s.view p).redial = false)
      (hawaiting : (s.view p).awaiting = some specs) :
      PeerStep s p (.connectionLost p 0)
        ({ s.view p with relayed := false, awaiting := none }.clear.assign specs) [.dialPeer p]
  /-- All connections lost. -/
  | lost (hredial : (s.view p).redial = false) (hawaiting : (s.view p).awaiting = none) :
      PeerStep s p (.connectionLost p 0) { s.view p with relayed := false }.clear []

/-! ## Commands that act on a peer -/

/-- Commands none of which acts on the peer. -/
theorem commandsFor_eq_nil {p : PeerId} {cs : List Command}
    (h : ∀ c ∈ cs, c.target ≠ some p) : commandsFor p cs = [] := by
  unfold commandsFor
  rw [List.filter_eq_nil_iff]
  intro c hc
  simpa using h c hc

/-- Commands all of which act on the peer. -/
theorem commandsFor_eq_self {p : PeerId} {cs : List Command}
    (h : ∀ c ∈ cs, c.target = some p) : commandsFor p cs = cs := by
  unfold commandsFor
  rw [List.filter_eq_self]
  intro c hc
  simpa using h c hc

/-- A command that acts on the peer is among the commands exactly if it is kept. -/
theorem mem_commandsFor {p : PeerId} {cs : List Command} {c : Command}
    (h : c.target = some p) : c ∈ commandsFor p cs ↔ c ∈ cs := by
  simp [commandsFor, h]

/-- The opened tunnels are those of the intents, all over the same peer. -/
theorem mem_spawnTunnels {p q : PeerId} {specs : List Intent} {svc : ServiceName}
    {bind : ServiceAddr} :
    .spawnTunnel q svc bind ∈ spawnTunnels p specs ↔ q = p ∧ (svc, bind) ∈ specs := by
  simp only [spawnTunnels, List.mem_map, Command.spawnTunnel.injEq, Prod.exists]
  constructor
  · rintro ⟨svc', bind', hmem, rfl, rfl, rfl⟩
    exact ⟨rfl, hmem⟩
  · rintro ⟨rfl, hmem⟩
    exact ⟨svc, bind, hmem, rfl, rfl, rfl⟩

/-- Opening tunnels acts on the peer they lead to. -/
theorem target_of_mem_spawnTunnels {p : PeerId} {specs : List Intent} {c : Command}
    (h : c ∈ spawnTunnels p specs) : c.target = some p := by
  obtain ⟨spec, _, rfl⟩ := List.mem_map.mp h
  rfl

@[simp] theorem commandsFor_spawnTunnels_self (p : PeerId) (specs : List Intent) :
    commandsFor p (spawnTunnels p specs) = spawnTunnels p specs :=
  commandsFor_eq_self fun _ => target_of_mem_spawnTunnels

theorem commandsFor_spawnTunnels_of_ne {p q : PeerId} (specs : List Intent) (h : q ≠ p) :
    commandsFor p (spawnTunnels q specs) = [] := by
  refine commandsFor_eq_nil fun c hc heq => h ?_
  rw [target_of_mem_spawnTunnels hc] at heq
  exact Option.some.inj heq

end Punchgate
