import Punchgate.Node.DirectPath
import Punchgate.Node.Disconnect

/-!
# Intents that nothing drives any more

Intents behind a relay are driven by the deadline of a hole-punch attempt whose session is
punching, or by a disconnect that was requested. An attempt outlives its deadline: a timeout
that nothing waited for leaves it active, and so does a session that was given up. Intents
that begin to wait while such an attempt is active start no new one and are stranded.
-/

namespace Punchgate

/-- The waiting intents of a slice are driven: the deadline of the punching session is pending,
or a disconnect was requested. -/
def PeerSlice.Driven (x : PeerSlice) : Prop :=
  (∃ a, x.link.deadline = some a ∧ x.view.Current a) ∨ x.view.redial = true

/-- Intents wait behind a relay, and nothing drives them. -/
structure PeerSlice.Stranded (x : PeerSlice) : Prop where
  /-- The peer is reachable over a relay only. -/
  relayOnly : x.link.relayOnly = true
  /-- Intents wait for a direct connection. -/
  awaiting : x.view.awaiting.isSome = true
  /-- Nothing drives them. -/
  undriven : ¬x.Driven

namespace NodeState

variable {Sw : Type}

/-- A hole-punch deadline is pending for the peer whose attempt is that of its punching session,
or the peer waits for a requested disconnect. -/
def Driven (n : NodeState Sw) (p : PeerId) : Prop :=
  (∃ deadline ∈ n.conn.holePunchDeadlines.get? p,
    ∃ session ∈ n.app.tunnel.holepunchSessions.get? p,
      deadline.attemptId = session.attemptId ∧ session.phase = .punching) ∨
    p ∈ n.app.tunnel.pendingRetryRedial

instance (n : NodeState Sw) (p : PeerId) : Decidable (n.Driven p) :=
  inferInstanceAs (Decidable ((∃ deadline ∈ n.conn.holePunchDeadlines.get? p,
    ∃ session ∈ n.app.tunnel.holepunchSessions.get? p,
      deadline.attemptId = session.attemptId ∧ session.phase = .punching) ∨
    p ∈ n.app.tunnel.pendingRetryRedial))

/-- While the node runs, the waiting intents of every relayed-only peer are driven. -/
def NoneStranded (n : NodeState Sw) : Prop :=
  n.app.phase ≠ .shuttingDown → ∀ p, n.conn.peerIsRelayOnly p = true →
    n.app.tunnel.awaitingHolepunch.contains p = true → n.Driven p

/-- An attempt for the peer is active, but nothing would drive its intents. -/
def AttemptIdle (n : NodeState Sw) (p : PeerId) : Prop :=
  (n.conn.activeAttemptStats p).isSome = true ∧ ¬n.Driven p

instance (n : NodeState Sw) (p : PeerId) : Decidable (n.AttemptIdle p) :=
  inferInstanceAs (Decidable (_ ∧ _))

/-- An event makes intents wait for a peer whose active attempt is idle, or it reports the loss
of all connections of a peer to be redialed while some are still tracked. -/
def Parks (n : NodeState Sw) : Event → Prop
  | .tunnelPeerConnected p true =>
    n.app.tunnel.hasHolepunchIntent p = true ∧ n.conn.hasDirectConnection p = false ∧
      n.AttemptIdle p
  | .dhtPeerLookupComplete p true =>
    n.app.tunnel.pendingByPeer.contains p = true ∧ p ∈ n.app.tunnel.relayedPeers ∧
      n.conn.peerIsRelayOnly p = true ∧ n.AttemptIdle p
  | .dhtServiceResolved svc ((p, true) :: _) =>
    n.app.tunnel.pendingByService.contains svc = true ∧ p ∈ n.app.tunnel.relayedPeers ∧
      n.conn.peerIsRelayOnly p = true ∧ n.AttemptIdle p
  | .connectionLost p remaining =>
    remaining = 0 ∧ p ∈ n.app.tunnel.pendingRetryRedial ∧
      n.app.tunnel.awaitingHolepunch.contains p = true ∧ 2 ≤ n.conn.relayedConnectionCount p
  | _ => False

instance (n : NodeState Sw) : DecidablePred n.Parks
  | .tunnelPeerConnected _ true => inferInstanceAs (Decidable (_ ∧ _ ∧ _))
  | .dhtPeerLookupComplete _ true => inferInstanceAs (Decidable (_ ∧ _ ∧ _ ∧ _))
  | .dhtServiceResolved _ ((_, true) :: _) => inferInstanceAs (Decidable (_ ∧ _ ∧ _ ∧ _))
  | .connectionLost _ _ => inferInstanceAs (Decidable (_ ∧ _ ∧ _ ∧ _))
  | .tunnelPeerConnected _ false | .dhtPeerLookupComplete _ false | .dhtServiceResolved _ []
  | .dhtServiceResolved _ ((_, false) :: _) | .dhtServiceFailed _ _ | .tunnelDialFailed _ _
  | .peerIdentified _ _ _ | .holePunchAttemptStarted _ _ | .holePunchFailed _ _
  | .holePunchAttemptFailed _ _ _ | .holePunchAttemptTimeout _ _ | .phaseChanged _ _
  | .listeningOn _ | .bootstrapConnected _ _ | .shutdownRequested | .kademliaBootstrapOk
  | .kademliaBootstrapFailed _ | .mdnsDiscovered _ | .mdnsExpired _ | .natStatusChanged _
  | .discoveryTimeout | .relayReservationAccepted _ | .relayReservationFailed _ _
  | .noBootstrapPeers | .externalAddrConfirmed _ | .externalAddrExpired _ => instDecidableFalse

end NodeState

/-- A pass delivers no event that parks intents. -/
def ParksNothing {Sw : Type} (api : SwarmApi Sw) (cfg : NodeConfig) (n : NodeState Sw)
    (input : LoopInput Sw) : Prop :=
  ∀ e ∈ n.events api cfg input, ¬n.Parks e

instance {Sw : Type} (api : SwarmApi Sw) (cfg : NodeConfig) (n : NodeState Sw)
    (input : LoopInput Sw) : Decidable (ParksNothing api cfg n input) :=
  inferInstanceAs (Decidable (∀ e ∈ _, _))

/-! ## One event -/

section Step

variable {s : TunnelState} {p : PeerId} {e : Event} {v : PeerView} {cs : List Command}

/-- The dispatch flag of a session has no part in its attempt and phase. -/
theorem SessionView.current_of_eq {session : SessionView} {a : ℕ} {d d' : Bool}
    (h : { session with dispatched := d' } = (⟨a, .punching, d⟩ : SessionView)) :
    some session = some ⟨a, .punching, session.dispatched⟩ := by
  cases session
  cases h
  rfl

/-- A session that is punching keeps doing so, and a pending redial stays pending, until an
attempt starts or fails or a connection is made directly or lost. -/
theorem PeerStep.driven_frame (h : PeerStep s p e v cs)
    (hstart : ∀ a, e ≠ .holePunchAttemptStarted p a) (hdirect : e ≠ .tunnelPeerConnected p false)
    (hlost : ∀ r, e ≠ .connectionLost p r) (hfailed : ∀ a, e.failedAttempt ≠ some (p, a)) :
    (∀ a, v.Current a ↔ (s.view p).Current a) ∧ v.redial = (s.view p).redial := by
  have hsame {v : PeerView} (hsession : v.session = (s.view p).session) (a : ℕ) :
      v.Current a ↔ (s.view p).Current a := by
    unfold PeerView.Current
    rw [hsession]
  cases h with
  | resolvedConnected =>
    exact ⟨hsame (PeerView.route_frame _ _ _).1, (PeerView.route_frame _ _ _).2⟩
  | lookedUpConnected =>
    exact ⟨hsame (PeerView.route_frame _ _ _).1, (PeerView.route_frame _ _ _).2⟩
  | @dialFailedRetried _ session _ _ _ hsession =>
    refine ⟨fun a => ⟨?_, ?_⟩, rfl⟩
    · rintro ⟨dispatched, heq⟩
      exact ⟨session.dispatched, hsession.trans (SessionView.current_of_eq (Option.some.inj heq))⟩
    · rintro ⟨dispatched, heq⟩
      rw [hsession] at heq
      cases heq
      exact ⟨true, rfl⟩
  | identified dispatched =>
    refine ⟨fun a => ⟨?_, ?_⟩, rfl⟩
    · rintro ⟨_, heq⟩
      obtain ⟨session, hsession, hview⟩ := Option.map_eq_some_iff.mp heq
      exact ⟨session.dispatched, hsession.trans (SessionView.current_of_eq hview)⟩
    · rintro ⟨_, heq⟩
      exact ⟨_, congrArg (Option.map _) heq⟩
  | direct => exact absurd rfl hdirect
  | started => exact absurd rfl (hstart _)
  | failureIgnored he => exact absurd he (hfailed _)
  | retriesExhausted he => exact absurd he (hfailed _)
  | retryScheduled he => exact absurd he (hfailed _)
  | lostOne => exact absurd rfl (hlost _)
  | lostRedial => exact absurd rfl (hlost _)
  | lostAwaiting => exact absurd rfl (hlost _)
  | lost => exact absurd rfl (hlost _)
  | _ => exact ⟨fun _ => Iff.rfl, rfl⟩

/-- The failure of an attempt is ignored, gives the waiting intents up, or requests a
disconnect. -/
theorem PeerStep.failed_cases {a : ℕ} (h : PeerStep s p e v cs)
    (he : e.failedAttempt = some (p, a)) :
    (v = s.view p ∧ (¬(s.view p).Current a ∨ (s.view p).awaiting = none)) ∨ v.awaiting = none ∨
      v.redial = true := by
  have hsubject := Event.subject_of_failedAttempt he
  cases h with
  | idle hne => exact absurd hsubject hne
  | failureIgnored he' hignored =>
    rw [he] at he'
    cases he'
    exact Or.inl ⟨rfl, hignored⟩
  | retriesExhausted => exact Or.inr (Or.inl rfl)
  | retryScheduled => exact Or.inr (Or.inr rfl)
  | _ => cases he

end Step

/-! ## One pass at one peer -/

section Pass

variable {Sw : Type} {env : Env} {n : NodeState Sw} {p : PeerId} {x y z : PeerSlice}
  {events : List Event}

/-- Being driven shows in the slice of the peer. -/
theorem NodeState.driven_iff : n.Driven p ↔ (n.slice p).Driven := by
  refine or_congr ⟨?_, ?_⟩ (by simp [slice, TunnelState.view])
  · rintro ⟨deadline, hdeadline, session, hsession, hid, hphase⟩
    refine ⟨deadline.attemptId, ?_, session.dialRetryDispatched, ?_⟩
    · exact congrArg (Option.map HolePunchDeadline.attemptId) hdeadline
    · rw [hid, ← hphase]
      exact TunnelState.view_session hsession
  · rintro ⟨a, hdeadline, dispatched, hsession⟩
    obtain ⟨deadline, hget, rfl⟩ := Option.map_eq_some_iff.mp hdeadline
    obtain ⟨session, hget', hview⟩ := Option.map_eq_some_iff.mp hsession
    have hid : session.attemptId = deadline.attemptId := congrArg SessionView.attemptId hview
    exact ⟨deadline, hget, session, hget', hid.symm, congrArg SessionView.phase hview⟩

/-- An idle attempt shows in the slice of the peer. -/
theorem NodeState.attemptIdle_iff :
    n.AttemptIdle p ↔ (n.slice p).link.attempt.isSome = true ∧ ¬(n.slice p).Driven := by
  unfold AttemptIdle
  rw [driven_iff, ← Option.isSome_map, ConnectionStateMachine.activeAttemptStats_map]
  rfl

/-- Intents that are stranded after arming were so before, beside an active attempt. -/
theorem PeerSlice.Armed.of_stranded (harmed : y.Armed z) (hz : z.Stranded) :
    y.Stranded ∧ y.link.attempt.isSome = true := by
  cases harmed with
  | unchanged hnot =>
    refine ⟨hz, ?_⟩
    rw [Option.isSome_iff_ne_none]
    intro hnone
    refine hnot ⟨⟨hz.relayOnly, hnone⟩, ?_⟩
    unfold PeerView.intent
    rw [hz.awaiting, Bool.or_true]
  | begun a harm => exact absurd (Or.inl ⟨a, rfl, false, rfl⟩) hz.undriven

/-- What drives a slice still drives it after an event that is neither about an attempt nor
about a direct or a lost connection. -/
theorem PeerSlice.driven_congr {v : PeerView} {s : TunnelState} {e : Event} {cs : List Command}
    (h : PeerStep s p e v cs) (hview : s.view p = x.view)
    (hstart : ∀ a, e ≠ .holePunchAttemptStarted p a) (hdirect : e ≠ .tunnelPeerConnected p false)
    (hlost : ∀ r, e ≠ .connectionLost p r) (hfailed : ∀ a, e.failedAttempt ≠ some (p, a))
    {l : PeerLink} (hdeadline : l.deadline = x.link.deadline) :
    PeerSlice.Driven ⟨l, v⟩ ↔ x.Driven := by
  obtain ⟨hcurrent, hredial⟩ := h.driven_frame hstart hdirect hlost hfailed
  unfold Driven
  rw [hdeadline, hredial, hview]
  simp only [hcurrent, hview]

/-- Queueing for a relayed-only peer with an idle attempt parks the intents. -/
theorem NodeState.parks_of_queues {e : Event} (hqueue : n.app.tunnel.QueuesForDirect p e)
    (hrelay : n.conn.peerIsRelayOnly p = true) (hidle : n.AttemptIdle p) : n.Parks e := by
  unfold TunnelState.QueuesForDirect at hqueue
  split at hqueue
  · obtain ⟨rfl, hpending⟩ := hqueue
    refine ⟨?_, ?_, hidle⟩
    · rw [TunnelState.hasHolepunchIntent, hpending, Bool.true_or]
    · simpa using (Bool.and_eq_true_iff.mp hrelay).2
  · obtain ⟨rfl, hpending, hrelayed⟩ := hqueue
    exact ⟨hpending, hrelayed, hrelay, hidle⟩
  · obtain ⟨rfl, hsvc, hrelayed⟩ := hqueue
    exact ⟨hsvc, hrelayed, hrelay, hidle⟩
  · exact hqueue.elim

/-- An event other than those about connections strands intents only by parking them. -/
theorem NodeState.not_stranded_of_told {e : Event} (h : ¬(n.slice p).Stranded)
    (hparks : ¬n.Parks e) (hstart : ∀ a, e ≠ .holePunchAttemptStarted p a)
    (hconnected : ∀ relayed, e ≠ .tunnelPeerConnected p relayed)
    (hlost : ∀ r, e ≠ .connectionLost p r)
    (harmed : PeerSlice.Armed ⟨(n.slice p).link, (n.app.tunnel.transition env e).1.view p⟩ z) :
    ¬z.Stranded := by
  intro hz
  obtain ⟨hy, hattempt⟩ := harmed.of_stranded hz
  have hstep := n.app.tunnel.transition_refines env p e
  by_cases hfailed : ∃ a, e.failedAttempt = some (p, a)
  · obtain ⟨a, he⟩ := hfailed
    rcases hstep.failed_cases he with ⟨hview, _⟩ | hnone | hredial
    · rw [hview] at hy
      exact h hy
    · have hawaiting := hy.awaiting
      rw [hnone] at hawaiting
      cases hawaiting
    · exact hy.undriven (Or.inr hredial)
  · have hdriven : ¬(n.slice p).Driven := by
      rw [← PeerSlice.driven_congr (x := n.slice p) (l := (n.slice p).link) hstep rfl hstart
        (hconnected false) hlost (not_exists.mp hfailed) rfl]
      exact hy.undriven
    cases hawaiting : (n.slice p).view.awaiting with
    | some specs =>
      exact h ⟨hy.relayOnly, by rw [hawaiting, Option.isSome_some], hdriven⟩
    | none =>
      have hqueue : n.app.tunnel.QueuesForDirect p e := by
        by_contra hnot
        have hsome := hy.awaiting
        rw [hstep.awaiting_eq_none hnot hawaiting] at hsome
        cases hsome
      exact hparks (n.parks_of_queues hqueue hy.relayOnly (n.attemptIdle_iff.mpr ⟨hattempt, hdriven⟩))

/-- A relayed connection strands intents only by parking them. -/
theorem NodeState.not_stranded_of_relayed {id : ConnectionId}
    (hparks : ¬n.Parks (.tunnelPeerConnected p true))
    (htold : PeerSlice.Told p (.tunnelPeerConnected p true)
      ⟨(n.slice p).link.openRelayed id, (n.slice p).view⟩ y)
    (harmed : y.Armed z) : ¬z.Stranded := by
  intro hz
  obtain ⟨hy, hattempt⟩ := harmed.of_stranded hz
  cases htold with
  | @intro s v cs hview _ hstep =>
    have hdriven : ¬(n.slice p).Driven := by
      rw [← PeerSlice.driven_congr (x := n.slice p) (l := (n.slice p).link.openRelayed id) hstep hview
        (fun a h => by cases h) (fun h => by cases h) (fun r h => by cases h)
        (fun a h => by cases h) rfl]
      exact hy.undriven
    have hintent : (n.slice p).view.intent = true := by
      by_contra hnot
      obtain ⟨hpending, hawaiting⟩ := Bool.or_eq_false_iff.mp (Bool.not_eq_true _ ▸ hnot)
      have hqueue : ¬s.QueuesForDirect p (.tunnelPeerConnected p true) := by
        rw [TunnelState.queuesForDirect_connected, hview, hpending]
        exact Bool.false_ne_true
      have hnone := hstep.awaiting_eq_none hqueue (by
        rw [hview, ← Option.isNone_iff_eq_none, ← Option.isSome_eq_false_iff]
        exact hawaiting)
      have hsome := hy.awaiting
      rw [hnone] at hsome
      cases hsome
    refine hparks ⟨hintent, ?_, n.attemptIdle_iff.mpr ⟨hattempt, hdriven⟩⟩
    have hdirect : (n.slice p).link.direct = none := by
      simpa [PeerLink.relayOnly, PeerLink.openRelayed] using hy.relayOnly
    rw [ConnectionStateMachine.hasDirectConnection_eq, Option.isSome_eq_false_iff,
      Option.isNone_iff_eq_none]
    exact hdirect

/-- A peer with a relayed connection left is only reported as fully disconnected when it had
more than one. -/
theorem PeerLink.two_le_card_of_remaining {l : PeerLink} {id : ConnectionId} {num : UInt32}
    (hrelay : (l.close id num).relayOnly = true) (hremaining : (l.close id num).remaining = 0) :
    2 ≤ (l.relayed.getD ∅).card := by
  obtain ⟨hrelayed, _⟩ := l.close_tracked id num
  simp only [relayOnly, Bool.and_eq_true, Bool.not_eq_true', Option.isSome_eq_false_iff,
    Option.isNone_iff_eq_none] at hrelay
  unfold remaining at hremaining
  rw [hrelay.2, hrelayed] at hremaining
  have hsome := hrelay.1
  rw [hrelayed] at hsome
  cases hids : l.relayed with
  | none =>
    rw [hids] at hsome
    cases hsome
  | some ids =>
    rw [hids] at hsome hremaining
    have hleft : ids.erase id ≠ ∅ := by
      intro hempty
      simp [removeFrom, hempty] at hsome
    have hremove : removeFrom (some ids) id = some (ids.erase id) := by
      simp [removeFrom, hleft]
    rw [hremove] at hremaining
    have hone : (ids.erase id).card ≠ 1 := by
      intro hone
      simp only [Option.getD_some, Option.getD_none, hone, Finset.card_empty] at hremaining
      revert hremaining
      decide
    have hpos : 0 < (ids.erase id).card :=
      Finset.card_pos.mpr (Finset.nonempty_iff_ne_empty.mpr hleft)
    have hle : (ids.erase id).card ≤ ids.card := Finset.card_erase_le
    change 2 ≤ ids.card
    omega

/-- A lost connection strands intents only by parking them. -/
theorem NodeState.not_stranded_of_closed {id : ConnectionId} {num : UInt32}
    (hsettled : Settled (n.slice p)) (h : ¬(n.slice p).Stranded)
    (hparks : ¬n.Parks (.connectionLost p ((n.slice p).link.close id num).remaining))
    (htold : PeerSlice.Told p (.connectionLost p ((n.slice p).link.close id num).remaining)
      ⟨(n.slice p).link.close id num, (n.slice p).view⟩ y)
    (harmed : y.Armed z) : ¬z.Stranded := by
  intro hz
  obtain ⟨hy, hattempt⟩ := harmed.of_stranded hz
  have hlink : y.link = (n.slice p).link.close id num := htold.link_eq
  have hrelay : ((n.slice p).link.close id num).relayOnly = true := hlink ▸ hy.relayOnly
  rw [hlink] at hattempt
  rcases (n.slice p).link.close_cases id num with ⟨huntracked, _⟩ | ⟨hsame, hdeadline⟩
  · rw [(PeerLink.of_untracked huntracked).2.2.1] at hrelay
    cases hrelay
  · have hdirect : (n.slice p).link.direct = none := by
      by_contra hsome
      have hnone := hsettled.direct (Option.isSome_iff_ne_none.mpr hsome)
      change ((n.slice p).link.close id num).attempt.isSome = true at hattempt
      rw [hsame, hnone] at hattempt
      cases hattempt
    have hrelayed : (n.slice p).link.relayed.isSome = true := by
      have hleft := (Bool.and_eq_true_iff.mp hrelay).1
      rw [((n.slice p).link.close_tracked id num).1] at hleft
      exact isSome_of_removeFrom hleft
    have hbefore : (n.slice p).link.relayOnly = true := by
      rw [PeerLink.relayOnly, hrelayed, hdirect]
      rfl
    have hcard (hzero : ((n.slice p).link.close id num).remaining = 0) :=
      PeerLink.two_le_card_of_remaining hrelay hzero
    cases htold with
    | @intro s v cs hview _ hstep =>
      dsimp only at hview
      generalize ((n.slice p).link.close id num).remaining = remaining at hstep hparks hcard
      cases hstep with
      | idle hsubject => exact absurd rfl hsubject
      | failureIgnored he => cases he
      | retriesExhausted he => cases he
      | retryScheduled he => cases he
      | lostOne =>
        refine h ⟨hbefore, hview ▸ hy.awaiting, fun hdriven => hy.undriven ?_⟩
        unfold PeerSlice.Driven at hdriven ⊢
        rw [← hview] at hdriven
        rw [hdeadline]
        exact hdriven
      | lostRedial hredial =>
        rw [hview] at hredial
        refine hparks ⟨rfl, of_decide_eq_true hredial, ?_, hcard rfl⟩
        have hawaiting : (s.view p).awaiting.isSome = true := hy.awaiting
        rw [hview] at hawaiting
        exact hawaiting
      | lostAwaiting => exact Bool.false_ne_true hy.awaiting
      | lost _ hawaiting =>
        have hsome : (s.view p).awaiting.isSome = true := hy.awaiting
        rw [hawaiting] at hsome
        cases hsome

/-- **Step.** A pass strands intents only by parking them. -/
theorem PeerPass.not_stranded (hpass : PeerPass env n.app.tunnel p (n.slice p) events z)
    (hsettled : Settled (n.slice p)) (h : ¬(n.slice p).Stranded)
    (hparks : ∀ e ∈ events, ¬n.Parks e) : ¬z.Stranded := by
  cases hpass with
  | idle => exact h
  | begun a => exact fun hz => hz.undriven (Or.inl ⟨a, rfl, false, rfl⟩)
  | @told e e' _ he he' _ harmed =>
    rcases he' with rfl | ⟨q, a, reason, rfl, rfl⟩
    · refine n.not_stranded_of_told h (hparks e' (List.mem_singleton_self e')) ?_ ?_ ?_ harmed
      all_goals
        rintro _ rfl
        cases he
    · refine n.not_stranded_of_told h id ?_ ?_ ?_ harmed
      all_goals
        rintro _ heq
        cases heq
  | @relayedStarted _ id y _ a _ _ _ htold harmed =>
    intro hz
    obtain ⟨hy, _⟩ := harmed.of_stranded hz
    cases htold with
    | intro hview _ hstep =>
      refine hy.undriven ((PeerSlice.driven_congr hstep hview (fun b h => ?_) (fun h => ?_)
        (fun r h => ?_) (fun b h => ?_) rfl).mpr (Or.inl ⟨a, rfl, false, rfl⟩))
      all_goals cases h
  | relayed _ hevents htold harmed =>
    exact n.not_stranded_of_relayed (hparks _ ((hevents _).mpr rfl).1) htold harmed
  | direct _ htold harmed =>
    intro hz
    have hsome := hz.awaiting
    rw [harmed.frame.2.2, awaiting_of_direct htold] at hsome
    cases hsome
  | closed htold harmed =>
    exact n.not_stranded_of_closed hsettled h (hparks _ (List.mem_singleton_self _)) htold harmed
  | @timedOut a s' v cs hdeadline hrelay hview hstep =>
    intro hz
    rcases hstep.failed_cases rfl with ⟨hsame, hignored⟩ | hnone | hredial
    · have hawaiting : (n.slice p).view.awaiting.isSome = true := by
        rw [← hview, ← hsame]
        exact hz.awaiting
      refine h ⟨hrelay, hawaiting, ?_⟩
      rintro (⟨b, hb, hcurrent⟩ | hredial)
      · rw [hdeadline] at hb
        cases hb
        rcases hignored with hstale | hnone
        · rw [hview] at hstale
          exact hstale hcurrent
        · rw [hview] at hnone
          rw [hnone] at hawaiting
          cases hawaiting
      · refine hz.undriven (Or.inr ?_)
        rw [hsame, hview]
        exact hredial
    · have hsome := hz.awaiting
      rw [hnone] at hsome
      cases hsome
    · exact hz.undriven (Or.inr hredial)
  | expired _ hrelay =>
    intro hz
    have hrelay' : (n.slice p).link.relayOnly = true := hz.relayOnly
    rw [hrelay] at hrelay'
    cases hrelay'

end Pass

/-! ## Runs -/

/-- **No stranded tunnel.** In every run whose passes park no intents, the waiting intents of
every relayed-only peer are driven after every pass. -/
theorem none_stranded {Sw : Type} (api : SwarmApi Sw) (cfg : NodeConfig) (env : Env)
    (natMapping : NatMapping) (swarm : Sw) {inputs : List (LoopInput Sw)}
    (h : (nodeLoop api cfg).Guarded (ParksNothing api cfg)
      (.start api cfg env natMapping swarm) inputs) :
    (nodeLoop api cfg).Always NodeState.NoneStranded
      (.start api cfg env natMapping swarm) inputs := by
  have hinvariant := h.always (P := fun n => ∀ p, Settled (n.slice p) ∧ ¬(n.slice p).Stranded)
    (fun p => ⟨?_, ?_⟩) fun n input hn hparks p => ?_
  · refine hinvariant.mono fun n hn _ p hrelay hawaiting => ?_
    by_contra hidle
    rw [n.driven_iff] at hidle
    exact (hn p).2 ⟨hrelay, hawaiting, hidle⟩
  · exact NodeState.settled_after api cfg env natMapping swarm [] p
  · intro hstranded
    obtain ⟨pending, hslice⟩ := NodeState.start_slice (p := p) api cfg env natMapping swarm
    rw [hslice] at hstranded
    cases hstranded.relayOnly
  · have hpass := n.pass_refines api cfg p input
    exact ⟨(hn p).1.pass rfl hpass, hpass.not_stranded (hn p).1 (hn p).2 hparks⟩

/-- Peer 1 is reached over a relay twice; in between a hole punch times out and the peer is
disconnected. -/
def redialedRun : List (LoopInput SampleSwarm) :=
  [⟨.sorted, .swarmEvent (.connectionEstablished ⟨1⟩ ⟨1⟩ (relayedEndpoint ⟨1⟩)) ⟨[⟨1⟩], 1⟩ none⟩,
    ⟨.late, .holePunchTimer⟩,
    ⟨.late, .swarmEvent (.connectionClosed ⟨1⟩ ⟨1⟩ 0) ⟨[], 1⟩ none⟩,
    ⟨.late, .swarmEvent (.connectionEstablished ⟨1⟩ ⟨2⟩ (relayedEndpoint ⟨1⟩)) ⟨[⟨1⟩], 1⟩ none⟩]

/-- The waiting tunnel is driven all the way through a retried hole punch. -/
theorem none_stranded_redialed :
    (nodeLoop sampleApi webConfig).Always NodeState.NoneStranded
      (.start sampleApi webConfig .sorted .unknown ⟨[], 0⟩) redialedRun :=
  none_stranded sampleApi webConfig .sorted .unknown ⟨[], 0⟩ (by decide)

/-- Two peers provide the service. The tunnel is handed over from the first to the second one,
which is reachable over a relay, after a failed dial; the hole punch that this starts times out
while the peer is still being looked up, and then the lookup finds it connected. -/
def strandingRun : List (LoopInput SampleSwarm) :=
  [⟨.sorted, .swarmEvent (.behaviour (.kadGetProviders ⟨0⟩ (.foundProviders {⟨1⟩, ⟨2⟩})))
      ⟨[], 1⟩ none⟩,
    ⟨.sorted, .swarmEvent (.connectionEstablished ⟨2⟩ ⟨1⟩ (relayedEndpoint ⟨2⟩)) ⟨[⟨2⟩], 2⟩ none⟩,
    ⟨.sorted, .swarmEvent (.outgoingConnectionError (some ⟨1⟩) ⟨2⟩ "timeout") ⟨[⟨2⟩], 2⟩ none⟩,
    ⟨.late, .holePunchTimer⟩,
    ⟨.late, .swarmEvent (.behaviour (.kadGetClosestPeers ⟨2⟩ true)) ⟨[⟨2⟩], 3⟩ none⟩]

/-- The tunnel waits for a hole punch, but its attempt has lost its deadline. -/
theorem stranded_behind_spent_attempt :
    ¬(nodeLoop sampleApi serviceConfig).Always NodeState.NoneStranded
      (.start sampleApi serviceConfig .sorted .unknown ⟨[], 0⟩) strandingRun := by
  intro h
  have hdriven := Mealy.Machine.always_iff_forall_prefixes.mp h strandingRun
    (List.prefix_refl _) (by decide) ⟨2⟩ (by decide) (by decide)
  revert hdriven
  decide

end Punchgate
