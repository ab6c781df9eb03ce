import Punchgate.State.View

/-!
# The tunnel machine refines the abstract machine of each peer

Every branch of the transition function is first described as a whole, then shown to
follow a rule of `PeerStep` at the peer it is about and to leave every other peer
alone. Rerouted and resolved intents are the only ones to reach another peer.
-/

namespace Punchgate

/-- A result that is equal to the one of a rule. -/
theorem PeerStep.of_eq {s : TunnelState} {p : PeerId} {e : Event} {v v' : PeerView}
    {cs cs' : List Command} (h : PeerStep s p e v cs) (hv : v' = v) (hcs : cs' = cs) :
    PeerStep s p e v' cs' := by
  subst hv hcs
  exact h

namespace TunnelState

/-- A result behaves at a peer as the abstract machine allows. -/
def RefinesAt (s : TunnelState) (p : PeerId) (e : Event) (r : TunnelState × List Command) : Prop :=
  PeerStep s p e (r.1.view p) (commandsFor p r.2)

variable {env : Env} {s : TunnelState} {p q : PeerId} {e : Event}

/-- An event about something else that leaves the slice of the peer alone. -/
theorem refinesAt_of_frame {r : TunnelState × List Command} (he : e.subject ≠ some p)
    (hview : r.1.view p = s.view p) (hcs : commandsFor p r.2 = []) : s.RefinesAt p e r :=
  (PeerStep.idle he).of_eq hview hcs

/-- A view only depends on what the maps hold for its peer. -/
theorem view_congr {s t : TunnelState}
    (hpending : t.pendingByPeer.get? p = s.pendingByPeer.get? p)
    (hawaiting : t.awaitingHolepunch.get? p = s.awaitingHolepunch.get? p)
    (hrelayed : p ∈ t.relayedPeers ↔ p ∈ s.relayedPeers)
    (hretries : t.holepunchRetryAttempts.get? p = s.holepunchRetryAttempts.get? p)
    (hredial : p ∈ t.pendingRetryRedial ↔ p ∈ s.pendingRetryRedial)
    (hsession : t.holepunchSessions.get? p = s.holepunchSessions.get? p) :
    t.view p = s.view p := by
  simp only [view, hpending, hawaiting, hrelayed, hretries, hredial, hsession]

/-- The awaiting intents of a view are those of the map. -/
theorem contains_awaiting : s.awaitingHolepunch.contains p = (s.view p).awaiting.isSome := rfl

/-- The pending intents of a view are those of the map. -/
theorem contains_pending : s.pendingByPeer.contains p = (s.view p).pending.isSome := rfl

/-- A session of the map appears in the view without its addresses. -/
theorem view_session {session : HolePunchSession}
    (h : s.holepunchSessions.get? p = some session) : (s.view p).session = some session.view := by
  simp [view, h]

/-- Queueing intents of one peer leaves the other peers alone. -/
theorem queueForDirect_view_of_ne (specs : List Intent) (h : p ≠ q) :
    (s.queueForDirect q specs).view p = s.view p :=
  view_congr rfl (FiniteMap.get?_extend_of_ne _ _ h) Iff.rfl rfl Iff.rfl rfl

/-- Queueing intents under their own peer. -/
theorem queueForDirect_view_self (specs : List Intent) :
    (s.queueForDirect p specs).view p = (s.view p).queue specs := by
  refine PeerView.ext rfl ?_ rfl rfl rfl rfl
  simp [view, queueForDirect, PeerView.queue, FiniteMap.getD]

/-- Routing intents of one peer leaves the other peers alone. -/
theorem routeConnectedPeer_frame (specs : List Intent) (h : p ≠ q) :
    (s.routeConnectedPeer q specs).1.view p = s.view p ∧
      commandsFor p (s.routeConnectedPeer q specs).2 = [] := by
  unfold routeConnectedPeer
  split
  · exact ⟨queueForDirect_view_of_ne specs h, rfl⟩
  · exact ⟨rfl, commandsFor_spawnTunnels_of_ne specs h.symm⟩

/-- Routing intents to their own peer. -/
theorem routeConnectedPeer_self (specs : List Intent) :
    (s.routeConnectedPeer p specs).1.view p = ((s.view p).route p specs).1 ∧
      commandsFor p (s.routeConnectedPeer p specs).2 = ((s.view p).route p specs).2 := by
  unfold routeConnectedPeer PeerView.route
  by_cases h : p ∈ s.relayedPeers
  · have hview : (s.view p).relayed = true := by simp [view, h]
    simp only [h, hview, if_true]
    exact ⟨queueForDirect_view_self specs, rfl⟩
  · have hview : (s.view p).relayed = false := by simp [view, h]
    simp [h, hview]

/-- Taking out the pending intents of a peer. -/
theorem erase_pending_view (p q : PeerId) :
    ({ s with pendingByPeer := s.pendingByPeer.erase q } : TunnelState).view p =
      if p = q then { s.view p with pending := none } else s.view p := by
  by_cases h : p = q
  · subst h
    rw [if_pos rfl]
    exact PeerView.ext (FiniteMap.get?_erase_self _ _) rfl rfl rfl rfl rfl
  · rw [if_neg h]
    exact view_congr (FiniteMap.get?_erase_of_ne _ h) rfl Iff.rfl rfl Iff.rfl rfl

/-- Appending to the pending intents of a peer. -/
theorem extend_pending_view (specs : List Intent) (p q : PeerId) :
    ({ s with pendingByPeer := s.pendingByPeer.extend q specs } : TunnelState).view p =
      if p = q then (s.view p).assign specs else s.view p := by
  by_cases h : p = q
  · subst h
    rw [if_pos rfl]
    exact PeerView.ext (FiniteMap.get?_extend_self _ _ _) rfl rfl rfl rfl rfl
  · rw [if_neg h]
    exact view_congr (FiniteMap.get?_extend_of_ne _ _ h) rfl Iff.rfl rfl Iff.rfl rfl

/-- The first of the deduplicated candidates is the first of the candidates. -/
theorem dedupProviderCandidates_eq_cons {providers fallback : List (PeerId × Bool)}
    {c : PeerId × Bool} (h : dedupProviderCandidates providers = c :: fallback) :
    ∃ rest, providers = c :: rest := by
  cases providers with
  | nil => cases h
  | cons c' rest =>
    have hc : c' = c := by
      simp only [dedupProviderCandidates, dedupBy, List.not_mem_nil, if_false] at h
      exact (List.cons.inj h).1
    exact ⟨rest, by rw [hc]⟩

/-- Storing provider candidates changes no slice. -/
theorem storeProviderCandidates_eq (s : TunnelState) (svc : ServiceName) (ps : List PeerId) :
    ∃ candidates, s.storeProviderCandidates svc ps =
      { s with serviceProviderCandidates := candidates } := by
  unfold storeProviderCandidates
  split
  · exact ⟨_, rfl⟩
  · exact ⟨_, rfl⟩

/-- The branch for resolved services. -/
theorem onDhtServiceResolved_refines (svc : ServiceName) (providers : List (PeerId × Bool)) :
    s.RefinesAt p (.dhtServiceResolved svc providers) (s.onDhtServiceResolved svc providers) := by
  have hidle : (Event.dhtServiceResolved svc providers).subject ≠ some p := by simp [Event.subject]
  unfold onDhtServiceResolved
  split
  · exact refinesAt_of_frame hidle rfl rfl
  · rename_i binds hsvc
    split
    · exact refinesAt_of_frame hidle rfl rfl
    · rename_i provider connected fallback hdedup
      obtain ⟨rest, rfl⟩ := dedupProviderCandidates_eq_cons hdedup
      obtain ⟨candidates, hstore⟩ := storeProviderCandidates_eq
        { s with pendingByService := s.pendingByService.erase svc } svc (fallback.map Prod.fst)
      simp only [hstore]
      cases connected with
      | true =>
        simp only [if_true]
        by_cases hp : p = provider
        · subst hp
          obtain ⟨hview, hcs⟩ := routeConnectedPeer_self (p := p) (binds.map (svc, ·)) (s :=
            { s with
              pendingByService := s.pendingByService.erase svc
              serviceProviderCandidates := candidates })
          exact (PeerStep.resolvedConnected hsvc).of_eq hview hcs
        · obtain ⟨hview, hcs⟩ := routeConnectedPeer_frame (binds.map (svc, ·)) hp (s :=
            { s with
              pendingByService := s.pendingByService.erase svc
              serviceProviderCandidates := candidates })
          exact refinesAt_of_frame hidle hview hcs
      | false =>
        have hview := extend_pending_view (binds.map (svc, ·)) p provider (s :=
            { s with
              pendingByService := s.pendingByService.erase svc
              serviceProviderCandidates := candidates })
        by_cases hp : p = provider
        · subst hp
          rw [if_pos rfl] at hview
          exact (PeerStep.resolved hsvc).of_eq hview rfl
        · rw [if_neg hp] at hview
          exact refinesAt_of_frame hidle hview rfl

/-- Clearing the retry state of a peer clears its own slice only. -/
theorem clearRetryState_view (s : TunnelState) (p q : PeerId) :
    (s.clearRetryState q).view p = if p = q then (s.view p).clear else s.view p := by
  by_cases h : p = q
  · subst h
    rw [if_pos rfl]
    refine PeerView.ext rfl rfl rfl (FiniteMap.get?_erase_self _ _) ?_ ?_
    · simp [view, clearRetryState, PeerView.clear]
    · simp [view, clearRetryState, PeerView.clear]
  · rw [if_neg h]
    refine view_congr rfl rfl Iff.rfl (FiniteMap.get?_erase_of_ne _ h) ?_
      (FiniteMap.get?_erase_of_ne _ h)
    simp [clearRetryState, h]

/-- Taking out the awaiting intents of a peer. -/
theorem erase_awaiting_view (s : TunnelState) (p q : PeerId) :
    ({ s with awaitingHolepunch := s.awaitingHolepunch.erase q } : TunnelState).view p =
      if p = q then { s.view p with awaiting := none } else s.view p := by
  by_cases h : p = q
  · subst h
    rw [if_pos rfl]
    exact PeerView.ext rfl (FiniteMap.get?_erase_self _ _) rfl rfl rfl rfl
  · rw [if_neg h]
    exact view_congr rfl (FiniteMap.get?_erase_of_ne _ h) Iff.rfl rfl Iff.rfl rfl

/-- Noting that a peer is relayed. -/
theorem insert_relayed_view (s : TunnelState) (p q : PeerId) :
    ({ s with relayedPeers := insert q s.relayedPeers } : TunnelState).view p =
      if p = q then { s.view p with relayed := true } else s.view p := by
  by_cases h : p = q
  · subst h
    rw [if_pos rfl]
    refine PeerView.ext rfl rfl ?_ rfl rfl rfl
    simp [view]
  · rw [if_neg h]
    refine view_congr rfl rfl ?_ rfl Iff.rfl rfl
    simp [h]

/-- Forgetting that a peer is relayed. -/
theorem erase_relayed_view (s : TunnelState) (p q : PeerId) :
    ({ s with relayedPeers := s.relayedPeers.erase q } : TunnelState).view p =
      if p = q then { s.view p with relayed := false } else s.view p := by
  by_cases h : p = q
  · subst h
    rw [if_pos rfl]
    refine PeerView.ext rfl rfl ?_ rfl rfl rfl
    simp [view]
  · rw [if_neg h]
    refine view_congr rfl rfl ?_ rfl Iff.rfl rfl
    simp [h]

/-- Storing a session of a peer. -/
theorem insert_session_view (s : TunnelState) (p q : PeerId) (session : HolePunchSession) :
    ({ s with holepunchSessions := s.holepunchSessions.insert q session } : TunnelState).view p =
      if p = q then { s.view p with session := some session.view } else s.view p := by
  by_cases h : p = q
  · subst h
    rw [if_pos rfl]
    refine PeerView.ext rfl rfl rfl rfl rfl ?_
    simp [view]
  · rw [if_neg h]
    exact view_congr rfl rfl Iff.rfl rfl Iff.rfl (FiniteMap.get?_insert_of_ne _ _ h)

/-- Changing the session of a peer, as far as the view shows the change. -/
theorem modify_session_view (s : TunnelState) (p q : PeerId)
    {f : HolePunchSession → HolePunchSession} {g : SessionView → SessionView}
    (hfg : ∀ session, (f session).view = g session.view) :
    ({ s with holepunchSessions := s.holepunchSessions.modify q f } : TunnelState).view p =
      if p = q then { s.view p with session := (s.view p).session.map g } else s.view p := by
  by_cases h : p = q
  · subst h
    rw [if_pos rfl]
    refine PeerView.ext rfl rfl rfl rfl rfl ?_
    cases hsession : s.holepunchSessions.get? p <;>
      simp [view, FiniteMap.get?_modify, hsession, hfg]
  · rw [if_neg h]
    refine view_congr rfl rfl Iff.rfl rfl Iff.rfl ?_
    simp [FiniteMap.get?_modify, h]

/-- Recording addresses changes no slice but for a redial that may be allowed again. -/
theorem updateAddressOracle_view (env : Env) (s : TunnelState) (q : PeerId)
    (addrs : List Multiaddr) :
    ∃ oracle : PeerAddressOracle, ∀ p, (s.updateAddressOracle env q addrs).view p =
      ({ s with holepunchSessions := s.holepunchSessions.modify q fun session =>
          session.refresh oracle } : TunnelState).view p := ⟨_, fun _ => rfl⟩

/-- The dial of a session reaches its peer. -/
theorem redialCommand_dials (env : Env) (s : TunnelState) (p : PeerId)
    (session : HolePunchSession) : (s.redialCommand env p session).dials p = true := by
  unfold redialCommand
  split <;> simp [Command.dials]

/-- A dial acts on the dialed peer. -/
theorem target_of_dials {c : Command} (h : c.dials p = true) : c.target = some p := by
  cases c <;> simp_all [Command.dials, Command.target]

/-- The only command of a step is a dial of the peer. -/
theorem commandsFor_dial {c : Command} (h : c.dials p = true) : commandsFor p [c] = [c] :=
  commandsFor_eq_self fun c' hc' => by
    rw [List.mem_singleton.mp hc']
    exact target_of_dials h

/-- The only command of a step is a dial of another peer. -/
theorem commandsFor_dial_of_ne {c : Command} (h : c.dials q = true) (hq : q ≠ p) :
    commandsFor p [c] = [] :=
  commandsFor_eq_nil fun c' hc' heq => by
    rw [List.mem_singleton.mp hc', target_of_dials h] at heq
    exact hq (Option.some.inj heq)

/-- The branch for a relayed connection. -/
theorem onRelayedConnection_refines :
    s.RefinesAt p (.tunnelPeerConnected q true) (s.onRelayedConnection q) := by
  have hflag := insert_relayed_view s p q
  by_cases hp : p = q
  · subst hp
    rw [if_pos rfl] at hflag
    unfold onRelayedConnection
    dsimp only
    cases hpending : s.pendingByPeer.get? p with
    | none => exact (PeerStep.relayed hpending).of_eq hflag rfl
    | some specs =>
      refine (PeerStep.relayedQueued hpending).of_eq ?_ rfl
      refine (queueForDirect_view_self specs).trans ?_
      rw [erase_pending_view (s := { s with relayedPeers := insert p s.relayedPeers }) p p,
        if_pos rfl, hflag]
  · rw [if_neg hp] at hflag
    have hidle : (Event.tunnelPeerConnected q true).subject ≠ some p := fun h =>
      hp (Option.some.inj h).symm
    unfold onRelayedConnection
    dsimp only
    cases hpending : s.pendingByPeer.get? q with
    | none => exact refinesAt_of_frame hidle hflag rfl
    | some specs =>
      refine refinesAt_of_frame hidle ?_ rfl
      refine (queueForDirect_view_of_ne specs hp).trans ?_
      rw [erase_pending_view (s := { s with relayedPeers := insert q s.relayedPeers }) p q,
        if_neg hp, hflag]

/-- The branch for a direct connection. -/
theorem onDirectConnection_refines :
    s.RefinesAt p (.tunnelPeerConnected q false) (s.onDirectConnection q) := by
  have hview : (s.onDirectConnection q).1.view p =
      if p = q then (s.view p).connectDirect else s.view p := by
    unfold onDirectConnection
    rw [clearRetryState_view]
    by_cases hp : p = q
    · subst hp
      simp only [if_true]
      refine PeerView.ext ?_ ?_ ?_ rfl rfl rfl
      · simp [view, PeerView.clear, PeerView.connectDirect]
      · simp [view, PeerView.clear, PeerView.connectDirect]
      · simp [view, PeerView.clear, PeerView.connectDirect]
    · rw [if_neg hp, if_neg hp]
      refine view_congr ?_ ?_ ?_ rfl Iff.rfl rfl
      · exact FiniteMap.get?_erase_of_ne _ hp
      · exact FiniteMap.get?_erase_of_ne _ hp
      · simp [hp]
  by_cases hp : p = q
  · subst hp
    rw [if_pos rfl] at hview
    exact PeerStep.direct.of_eq hview (commandsFor_spawnTunnels_self _ _)
  · rw [if_neg hp] at hview
    have hidle : (Event.tunnelPeerConnected q false).subject ≠ some p := fun h =>
      hp (Option.some.inj h).symm
    exact refinesAt_of_frame hidle hview (commandsFor_spawnTunnels_of_ne _ (Ne.symm hp))

/-- What a failed attempt can do: nothing, fall back to the relay, or disconnect the peer. -/
theorem retryHolepunchAttempt_cases (s : TunnelState) (q : PeerId) (attemptId : ℕ) :
    ((¬(s.view q).Current attemptId ∨ (s.view q).awaiting = none) ∧
      s.retryHolepunchAttempt q attemptId = (s, [])) ∨
    (∃ specs, (s.view q).Current attemptId ∧ (s.view q).awaiting = some specs ∧
      maxRelayReconnectRetries ≤ (s.view q).retries.getD 0 ∧
      s.retryHolepunchAttempt q attemptId =
        (clearRetryState { s with awaitingHolepunch := s.awaitingHolepunch.erase q } q,
          spawnTunnels q specs)) ∨
    ∃ specs dispatched, (s.view q).session = some ⟨attemptId, .punching, dispatched⟩ ∧
      (s.view q).awaiting = some specs ∧
      (s.view q).retries.getD 0 < maxRelayReconnectRetries ∧
      s.retryHolepunchAttempt q attemptId =
        ({ s.scheduleHolepunchRetry q with
            holepunchSessions := s.holepunchSessions.modify q fun session =>
              { session with phase := .waitingDisconnect } }, [.disconnectPeer q]) := by
  unfold retryHolepunchAttempt
  cases hsession : s.holepunchSessions.get? q with
  | none =>
    refine Or.inl ⟨Or.inl ?_, rfl⟩
    rintro ⟨dispatched, h⟩
    simp [view, hsession] at h
  | some session =>
    have hview := view_session hsession
    by_cases hid : session.attemptId ≠ attemptId
    · refine Or.inl ⟨Or.inl ?_, by simp only [hid, ne_eq, not_false_eq_true, if_true]⟩
      rintro ⟨dispatched, h⟩
      rw [hview] at h
      exact hid (congrArg SessionView.attemptId (Option.some.inj h))
    by_cases hphase : session.phase ≠ .punching
    · refine Or.inl ⟨Or.inl ?_,
        by simp only [hid, hphase, ne_eq, not_false_eq_true, if_true, if_false]⟩
      rintro ⟨dispatched, h⟩
      rw [hview] at h
      exact hphase (congrArg SessionView.phase (Option.some.inj h))
    simp only [hid, hphase, if_false]
    rw [not_not] at hid hphase
    have hcurrent : (s.view q).session =
        some ⟨attemptId, .punching, session.dialRetryDispatched⟩ := by
      rw [hview, HolePunchSession.view, hid, hphase]
    cases hawaiting : s.awaitingHolepunch.get? q with
    | none => exact Or.inl ⟨Or.inr hawaiting, rfl⟩
    | some specs =>
      by_cases hretries : maxRelayReconnectRetries ≤ s.holepunchRetryAttempts.getD q 0
      · exact Or.inr (Or.inl ⟨specs, ⟨_, hcurrent⟩, hawaiting, hretries,
          by simp only [hretries, if_true]⟩)
      · refine Or.inr (Or.inr ⟨specs, _, hcurrent, hawaiting, not_le.mp hretries, ?_⟩)
        simp only [hretries, if_false]
        rfl

/-- Scheduling a retry marks the peer for a redial and counts the retry. -/
theorem scheduleHolepunchRetry_view (s : TunnelState) (p q : PeerId)
    (hretries : p = q → (s.view p).retries.getD 0 < maxRelayReconnectRetries) :
    (s.scheduleHolepunchRetry q).view p =
      if p = q then { s.view p with
        retries := some ((s.view p).retries.getD 0 + 1), redial := true } else s.view p := by
  by_cases h : p = q
  · subst h
    rw [if_pos rfl]
    have hsat : saturatingAdd u32Max (s.holepunchRetryAttempts.getD p 0) 1 =
        (s.view p).retries.getD 0 + 1 := by
      have hlt := hretries rfl
      simp only [view, maxRelayReconnectRetries] at hlt
      simp only [saturatingAdd, u32Max, FiniteMap.getD, view]
      omega
    refine PeerView.ext rfl rfl rfl ?_ ?_ rfl
    · exact (FiniteMap.get?_insert_self _ _ _).trans (congrArg some hsat)
    · simp [view, scheduleHolepunchRetry]
  · rw [if_neg h]
    refine view_congr rfl rfl Iff.rfl (FiniteMap.get?_insert_of_ne _ _ h) ?_ rfl
    simp [scheduleHolepunchRetry, h]

/-- The branch for a failed attempt. -/
theorem retryHolepunchAttempt_refines {attemptId : ℕ}
    (he : e.failedAttempt = some (q, attemptId)) :
    s.RefinesAt p e (s.retryHolepunchAttempt q attemptId) := by
  have hsubject : e.subject = some q := Event.subject_of_failedAttempt he
  have hidle : p ≠ q → e.subject ≠ some p := by
    intro hp heq
    rw [hsubject] at heq
    exact hp (Option.some.inj heq).symm
  rcases s.retryHolepunchAttempt_cases q attemptId with ⟨hignored, heq⟩ |
    ⟨specs, hcurrent, hawaiting, hretries, heq⟩ |
    ⟨specs, dispatched, hsession, hawaiting, hretries, heq⟩
  · rw [heq]
    by_cases hp : p = q
    · subst hp
      exact PeerStep.failureIgnored he hignored
    · exact refinesAt_of_frame (hidle hp) rfl rfl
  · rw [heq]
    have hclear := clearRetryState_view
      { s with awaitingHolepunch := s.awaitingHolepunch.erase q } p q
    rw [erase_awaiting_view] at hclear
    by_cases hp : p = q
    · subst hp
      rw [if_pos rfl, if_pos rfl] at hclear
      exact (PeerStep.retriesExhausted he hcurrent hawaiting hretries).of_eq hclear
        (commandsFor_spawnTunnels_self _ _)
    · rw [if_neg hp, if_neg hp] at hclear
      exact refinesAt_of_frame (hidle hp) hclear (commandsFor_spawnTunnels_of_ne _ (Ne.symm hp))
  · rw [heq]
    have hschedule := s.scheduleHolepunchRetry_view p q fun hp => by rwa [hp]
    have hmodify := modify_session_view (s.scheduleHolepunchRetry q) p q
      (f := fun session => { session with phase := .waitingDisconnect })
      (g := fun session => { session with phase := .waitingDisconnect }) fun _ => rfl
    rw [hschedule] at hmodify
    by_cases hp : p = q
    · subst hp
      rw [if_pos rfl, if_pos rfl] at hmodify
      refine (PeerStep.retryScheduled he hsession hawaiting hretries).of_eq (hmodify.trans ?_) ?_
      · rw [hsession]
        rfl
      · simp [commandsFor, Command.target]
    · rw [if_neg hp, if_neg hp] at hmodify
      refine refinesAt_of_frame (hidle hp) hmodify ?_
      simp [commandsFor, Command.target, Ne.symm hp]

/-- What a failed dial can do: nothing, another dial, or a reroute. -/
theorem onTunnelDialFailed_cases (env : Env) (s : TunnelState) (q : PeerId) (reason : String) :
    (((s.view q).intent = false ∨
        ((s.view q).awaiting.isSome = true ∧ isPendingAbortDialError reason = true)) ∧
      s.onTunnelDialFailed env q reason = (s, [])) ∨
    (∃ session : SessionView,
      (s.view q).awaiting.isSome = true ∧ isPendingAbortDialError reason = false ∧
      (s.view q).session = some session ∧ session.Suppressed ∧
      s.onTunnelDialFailed env q reason = (s, [])) ∨
    (∃ (session : HolePunchSession) (c : Command),
      (s.view q).awaiting.isSome = true ∧ isPendingAbortDialError reason = false ∧
      (s.view q).session = some session.view ∧ ¬session.view.Suppressed ∧ c.dials q = true ∧
      s.onTunnelDialFailed env q reason =
        ({ s with
            holepunchSessions := s.holepunchSessions.insert q
              { session with dialRetryDispatched := true } }, [c])) ∨
    ((s.view q).intent = true ∧
      ((s.view q).awaiting = none ∨
        ((s.view q).session = none ∧ isPendingAbortDialError reason = false)) ∧
      s.onTunnelDialFailed env q reason = s.rerouteSpecsAfterDialFailure env q) := by
  have hintent : (s.view q).intent =
      (s.pendingByPeer.contains q || s.awaitingHolepunch.contains q) := rfl
  have hawait : (s.view q).awaiting.isSome = s.awaitingHolepunch.contains q := rfl
  unfold onTunnelDialFailed
  rw [hintent, hawait]
  dsimp only
  cases hawaiting : s.awaitingHolepunch.contains q with
  | false =>
    have hnone : (s.view q).awaiting = none := FiniteMap.contains_eq_false.mp hawaiting
    cases hpending : s.pendingByPeer.contains q with
    | false => exact Or.inl ⟨Or.inl rfl, rfl⟩
    | true => exact Or.inr (Or.inr (Or.inr ⟨rfl, Or.inl hnone, rfl⟩))
  | true =>
    cases habort : isPendingAbortDialError reason with
    | true => exact Or.inl ⟨Or.inr ⟨rfl, rfl⟩, rfl⟩
    | false =>
      cases hsession : s.holepunchSessions.get? q with
      | none =>
        have hview : (s.view q).session = none := by simp [view, hsession]
        exact Or.inr (Or.inr (Or.inr ⟨by simp, Or.inr ⟨hview, rfl⟩, rfl⟩))
      | some session =>
        have hview := view_session hsession
        by_cases hphase : session.phase = .waitingDisconnect
        · refine Or.inr (Or.inl ⟨_, rfl, rfl, hview, Or.inl hphase, ?_⟩)
          simp [hphase]
        by_cases hdispatched : session.dialRetryDispatched = true
        · refine Or.inr (Or.inl ⟨_, rfl, rfl, hview, Or.inr hdispatched, ?_⟩)
          simp [hdispatched]
        · have hsuppressed : ¬session.view.Suppressed := by
            rintro (h | h)
            · exact hphase h
            · exact hdispatched h
          refine Or.inr (Or.inr (Or.inl ⟨session, redialCommand env
            { s with
              holepunchSessions := s.holepunchSessions.insert q
                { session with dialRetryDispatched := true } } q session,
            rfl, rfl, hview, hsuppressed, redialCommand_dials _ _ _ _, ?_⟩))
          simp [hphase, hdispatched]

/-- Rerouting takes the pending intents away from the failed peer and appends some of
them to those of other peers. -/
theorem rerouteSpecsAfterDialFailure_view (env : Env) (s : TunnelState) (p q : PeerId) :
    (p = q → (s.rerouteSpecsAfterDialFailure env q).1.view p = { s.view p with pending := none }) ∧
    (p ≠ q → (s.rerouteSpecsAfterDialFailure env q).1.view p = s.view p ∨
      ∃ specs, (∀ spec ∈ specs, spec ∈ s.pendingByPeer.getD q []) ∧
        (s.rerouteSpecsAfterDialFailure env q).1.view p = (s.view p).assign specs) := by
  cases hpending : s.pendingByPeer.get? q with
  | none =>
    rw [rerouteSpecsAfterDialFailure_none hpending]
    refine ⟨fun hp => ?_, fun _ => Or.inl rfl⟩
    subst hp
    exact PeerView.ext hpending rfl rfl rfl rfl rfl
  | some specs =>
    rw [rerouteSpecsAfterDialFailure_state hpending]
    have hget (p : PeerId) := (s.pendingByPeer.erase q).get?_extendAll
      (s.rerouteLoop q specs).reassignToPeer env.peerOrder p
    refine ⟨fun hp => ?_, fun hp => ?_⟩
    · subst hp
      have hexcluded : (s.rerouteLoop p specs).reassignToPeer.get? p = none :=
        foldl_rerouteSpec_excludes rfl
      refine PeerView.ext ?_ rfl rfl rfl rfl rfl
      refine (hget p).trans ?_
      rw [hexcluded]
      exact FiniteMap.get?_erase_self _ _
    · cases hreassign : (s.rerouteLoop q specs).reassignToPeer.get? p with
      | none =>
        refine Or.inl (view_congr ?_ rfl Iff.rfl rfl Iff.rfl rfl)
        refine (hget p).trans ?_
        rw [hreassign]
        exact FiniteMap.get?_erase_of_ne _ hp
      | some moved =>
        refine Or.inr ⟨moved, fun spec hspec => ?_, PeerView.ext ?_ rfl rfl rfl rfl rfl⟩
        · have hmem : spec ∈ (s.rerouteLoop q specs).reassignToPeer.getD p [] := by
            simpa [FiniteMap.getD, hreassign] using hspec
          have hspecs : s.pendingByPeer.getD q [] = specs := by simp [FiniteMap.getD, hpending]
          rw [hspecs]
          exact mem_foldl_rerouteSpec_reassign rfl hmem
        · refine (hget p).trans ?_
          rw [hreassign]
          simp [view, PeerView.assign, FiniteMap.getD, hp]

/-- Rerouting asks for nothing that acts on a peer. -/
theorem commandsFor_rerouteSpecsAfterDialFailure (env : Env) (s : TunnelState) (p q : PeerId) :
    commandsFor p (s.rerouteSpecsAfterDialFailure env q).2 = [] := by
  refine commandsFor_eq_nil fun c hc => ?_
  rcases mem_rerouteSpecsAfterDialFailure_commands hc with ⟨q, rfl⟩ | ⟨svc, rfl⟩
  · simp [Command.target]
  · simp [Command.getProviders, Command.target]

/-- The rerouting branch is only reached when nothing holds the intents back. -/
theorem reroutesAfter_of_branch {reason : String}
    (h : (s.view q).awaiting = none ∨
      ((s.view q).session = none ∧ isPendingAbortDialError reason = false)) :
    s.ReroutesAfter q reason := by
  rintro ⟨hawaiting, habort | hsession⟩
  · rcases h with hnone | ⟨_, hreason⟩
    · rw [contains_awaiting, hnone] at hawaiting
      cases hawaiting
    · rw [hreason] at habort
      cases habort
  · rcases h with hnone | ⟨hnone, _⟩
    · rw [contains_awaiting, hnone] at hawaiting
      cases hawaiting
    · obtain ⟨session, hget⟩ := FiniteMap.contains_iff.mp hsession
      rw [view_session hget] at hnone
      cases hnone

/-- The branch for a failed dial. -/
theorem onTunnelDialFailed_refines (env : Env) (reason : String) :
    s.RefinesAt p (.tunnelDialFailed q reason) (s.onTunnelDialFailed env q reason) := by
  have hidle : p ≠ q → (Event.tunnelDialFailed q reason).subject ≠ some p := fun hp h =>
    hp (Option.some.inj h).symm
  rcases s.onTunnelDialFailed_cases env q reason with ⟨hignored, heq⟩ |
    ⟨session, hawaiting, hreason, hsession, hsuppressed, heq⟩ |
    ⟨session, c, hawaiting, hreason, hsession, hsuppressed, hc, heq⟩ | ⟨hintent, hbranch, heq⟩
  · rw [heq]
    by_cases hp : p = q
    · subst hp
      exact PeerStep.dialFailedIgnored hignored
    · exact refinesAt_of_frame (hidle hp) rfl rfl
  · rw [heq]
    by_cases hp : p = q
    · subst hp
      exact PeerStep.dialFailedSuppressed hawaiting hreason hsession hsuppressed
    · exact refinesAt_of_frame (hidle hp) rfl rfl
  · rw [heq]
    have hview := s.insert_session_view p q { session with dialRetryDispatched := true }
    by_cases hp : p = q
    · subst hp
      rw [if_pos rfl] at hview
      exact (PeerStep.dialFailedRetried hawaiting hreason hsession hsuppressed hc).of_eq hview
        (commandsFor_dial hc)
    · rw [if_neg hp] at hview
      exact refinesAt_of_frame (hidle hp) hview (commandsFor_dial_of_ne hc (Ne.symm hp))
  · rw [heq]
    obtain ⟨hself, hother⟩ := s.rerouteSpecsAfterDialFailure_view env p q
    have hcs := s.commandsFor_rerouteSpecsAfterDialFailure env p q
    by_cases hp : p = q
    · subst hp
      exact (PeerStep.dialFailedRerouted hintent hbranch).of_eq (hself rfl) hcs
    · rcases hother hp with hsame | ⟨specs, hspecs, hassign⟩
      · exact refinesAt_of_frame (hidle hp) hsame hcs
      · exact (PeerStep.handedOver (Ne.symm hp) hspecs (reroutesAfter_of_branch hbranch)).of_eq
          hassign hcs

/-- What the loss of the last connection can do: a redial, a dial for the intents that
waited for a direct path, or nothing but a clean-up. -/
theorem onFullyDisconnected_cases (env : Env) (s : TunnelState) (q : PeerId) :
    (∃ c, (s.view q).redial = true ∧ c.dials q = true ∧
      s.onFullyDisconnected env q =
        ({ s with
            relayedPeers := s.relayedPeers.erase q
            pendingRetryRedial := s.pendingRetryRedial.erase q
            holepunchSessions := s.holepunchSessions.modify q fun session =>
              { session with phase := .waitingRedial } }, [c])) ∨
    (∃ specs, (s.view q).redial = false ∧ (s.view q).awaiting = some specs ∧
      s.onFullyDisconnected env q =
        ({ clearRetryState
            { s with
              relayedPeers := s.relayedPeers.erase q
              awaitingHolepunch := s.awaitingHolepunch.erase q } q with
            pendingByPeer := s.pendingByPeer.extend q specs }, [.dialPeer q])) ∨
    ((s.view q).redial = false ∧ (s.view q).awaiting = none ∧
      s.onFullyDisconnected env q =
        (clearRetryState { s with relayedPeers := s.relayedPeers.erase q } q, [])) := by
  unfold onFullyDisconnected
  dsimp only
  by_cases hredial : q ∈ s.pendingRetryRedial
  · simp only [hredial, if_true]
    refine Or.inl ⟨_, by simp [view, hredial], ?_, rfl⟩
    split
    · exact redialCommand_dials env _ q _
    · simp [Command.dials]
  · have hview : (s.view q).redial = false := by simp [view, hredial]
    simp only [hredial, if_false]
    cases hawaiting : s.awaitingHolepunch.get? q with
    | some specs => exact Or.inr (Or.inl ⟨specs, hview, hawaiting, rfl⟩)
    | none => exact Or.inr (Or.inr ⟨hview, hawaiting, rfl⟩)

/-- The intents by service, the provider candidates and the mapping are the same. -/
structure SameServices (s t : TunnelState) : Prop where
  /-- The intents by service. -/
  service : t.pendingByService = s.pendingByService
  /-- The provider candidates. -/
  candidates : t.serviceProviderCandidates = s.serviceProviderCandidates
  /-- The mapping. -/
  nat : t.natMapping = s.natMapping

/-- Routing intents leaves the services alone. -/
theorem SameServices.routeConnectedPeer {t : TunnelState} (h : SameServices s t) (q : PeerId)
    (specs : List Intent) : SameServices s (t.routeConnectedPeer q specs).1 := by
  unfold TunnelState.routeConnectedPeer
  split
  · exact ⟨h.service, h.candidates, h.nat⟩
  · exact h

/-- A failed attempt leaves the services alone. -/
theorem sameServices_retryHolepunchAttempt (s : TunnelState) (q : PeerId) (attemptId : ℕ) :
    SameServices s (s.retryHolepunchAttempt q attemptId).1 := by
  rcases s.retryHolepunchAttempt_cases q attemptId with ⟨_, heq⟩ | ⟨_, _, _, _, heq⟩ |
    ⟨_, _, _, _, _, heq⟩
  all_goals
    rw [heq]
    exact ⟨rfl, rfl, rfl⟩

/-- The loss of the last connection leaves the services alone. -/
theorem sameServices_onFullyDisconnected (env : Env) (s : TunnelState) (q : PeerId) :
    SameServices s (s.onFullyDisconnected env q).1 := by
  rcases s.onFullyDisconnected_cases env q with ⟨_, _, _, heq⟩ | ⟨_, _, _, heq⟩ | ⟨_, _, heq⟩
  all_goals
    rw [heq]
    exact ⟨rfl, rfl, rfl⟩

/-- Only an answered provider query and a failed dial touch the services. -/
theorem sameServices_transition (env : Env) (s : TunnelState) {e : Event}
    (hresolved : ∀ svc providers, e ≠ .dhtServiceResolved svc providers)
    (hfailed : ∀ q reason, e ≠ .tunnelDialFailed q reason) :
    SameServices s (s.transition env e).1 := by
  cases e with
  | dhtServiceResolved svc providers => exact absurd rfl (hresolved svc providers)
  | tunnelDialFailed q reason => exact absurd rfl (hfailed q reason)
  | dhtPeerLookupComplete q connected =>
    cases connected with
    | true =>
      simp only [transition]
      split
      · refine SameServices.routeConnectedPeer ?_ q _
        exact ⟨rfl, rfl, rfl⟩
      · exact ⟨rfl, rfl, rfl⟩
    | false => exact ⟨rfl, rfl, rfl⟩
  | tunnelPeerConnected q relayed =>
    cases relayed with
    | true =>
      simp only [transition, onRelayedConnection]
      split
      · exact ⟨rfl, rfl, rfl⟩
      · exact ⟨rfl, rfl, rfl⟩
    | false => exact ⟨rfl, rfl, rfl⟩
  | holePunchAttemptFailed q attemptId reason =>
    exact s.sameServices_retryHolepunchAttempt q attemptId
  | holePunchAttemptTimeout q attemptId => exact s.sameServices_retryHolepunchAttempt q attemptId
  | connectionLost q remaining =>
    simp only [transition]
    split
    · exact s.sameServices_onFullyDisconnected env q
    · exact ⟨rfl, rfl, rfl⟩
  | phaseChanged old new => cases new <;> exact ⟨rfl, rfl, rfl⟩
  | _ => exact ⟨rfl, rfl, rfl⟩

/-- The branch for the loss of the last connection. -/
theorem onFullyDisconnected_refines (env : Env) :
    s.RefinesAt p (.connectionLost q 0) (s.onFullyDisconnected env q) := by
  have hidle : p ≠ q → (Event.connectionLost q 0).subject ≠ some p := fun hp h =>
    hp (Option.some.inj h).symm
  have hrelayed := s.erase_relayed_view p q
  rcases s.onFullyDisconnected_cases env q with ⟨c, hredial, hc, heq⟩ |
    ⟨specs, hredial, hawaiting, heq⟩ | ⟨hredial, hawaiting, heq⟩
  · rw [heq]
    have hmodify := modify_session_view
      { s with
        relayedPeers := s.relayedPeers.erase q
        pendingRetryRedial := s.pendingRetryRedial.erase q } p q
      (f := fun session => { session with phase := .waitingRedial })
      (g := fun session => { session with phase := .waitingRedial }) fun _ => rfl
    by_cases hp : p = q
    · subst hp
      rw [if_pos rfl] at hmodify
      refine (PeerStep.lostRedial hredial hc).of_eq (hmodify.trans ?_) (commandsFor_dial hc)
      refine PeerView.ext rfl rfl ?_ rfl ?_ rfl
      · simp [view]
      · simp [view]
    · rw [if_neg hp] at hmodify
      refine refinesAt_of_frame (hidle hp) (hmodify.trans ?_)
        (commandsFor_dial_of_ne hc (Ne.symm hp))
      refine view_congr rfl rfl ?_ rfl ?_ rfl
      · simp [hp]
      · simp [hp]
  · rw [heq]
    have hassign := extend_pending_view specs p q (s := clearRetryState
      { s with
        relayedPeers := s.relayedPeers.erase q
        awaitingHolepunch := s.awaitingHolepunch.erase q } q)
    rw [clearRetryState_view, erase_awaiting_view { s with
      relayedPeers := s.relayedPeers.erase q }, hrelayed] at hassign
    by_cases hp : p = q
    · subst hp
      simp only [if_true] at hassign
      refine (PeerStep.lostAwaiting hredial hawaiting).of_eq hassign ?_
      simp [commandsFor, Command.target]
    · simp only [hp, if_false] at hassign
      refine refinesAt_of_frame (hidle hp) hassign ?_
      simp [commandsFor, Command.target, Ne.symm hp]
  · rw [heq]
    have hclear := clearRetryState_view { s with relayedPeers := s.relayedPeers.erase q } p q
    rw [hrelayed] at hclear
    by_cases hp : p = q
    · subst hp
      rw [if_pos rfl, if_pos rfl] at hclear
      exact (PeerStep.lost hredial hawaiting).of_eq hclear rfl
    · rw [if_neg hp, if_neg hp] at hclear
      exact refinesAt_of_frame (hidle hp) hclear rfl

/-- The branch for a finished peer lookup. -/
theorem dhtPeerLookupComplete_refines (env : Env) (connected : Bool) :
    s.RefinesAt p (.dhtPeerLookupComplete q connected)
      (s.transition env (.dhtPeerLookupComplete q connected)) := by
  have hidle : p ≠ q → (Event.dhtPeerLookupComplete q connected).subject ≠ some p := fun hp h =>
    hp (Option.some.inj h).symm
  cases connected with
  | false =>
    simp only [transition]
    by_cases hp : p = q
    · subst hp
      refine PeerStep.lookedUp.of_eq rfl ?_
      rw [contains_pending]
      split <;> simp [commandsFor, Command.target]
    · refine refinesAt_of_frame (hidle hp) rfl ?_
      split <;> simp [commandsFor, Command.target, Ne.symm hp]
  | true =>
    simp only [transition]
    cases hpending : s.pendingByPeer.get? q with
    | none =>
      by_cases hp : p = q
      · subst hp
        exact PeerStep.lookedUpUnneeded hpending
      · exact refinesAt_of_frame (hidle hp) rfl rfl
    | some specs =>
      have herase := s.erase_pending_view p q
      by_cases hp : p = q
      · subst hp
        rw [if_pos rfl] at herase
        obtain ⟨hview, hcs⟩ := routeConnectedPeer_self (p := p) specs
          (s := { s with pendingByPeer := s.pendingByPeer.erase p })
        rw [herase] at hview hcs
        exact (PeerStep.lookedUpConnected hpending).of_eq hview hcs
      · rw [if_neg hp] at herase
        obtain ⟨hview, hcs⟩ := routeConnectedPeer_frame specs hp
          (s := { s with pendingByPeer := s.pendingByPeer.erase q })
        exact refinesAt_of_frame (hidle hp) (hview.trans herase) hcs

/-- **Refinement.** At every peer, the transition function behaves as the abstract
machine of that peer allows. -/
theorem transition_refines (env : Env) (s : TunnelState) (p : PeerId) (e : Event) :
    s.RefinesAt p e (s.transition env e) := by
  cases e with
  | dhtPeerLookupComplete q connected => exact dhtPeerLookupComplete_refines env connected
  | dhtServiceResolved svc providers => exact onDhtServiceResolved_refines svc providers
  | tunnelDialFailed q reason => exact onTunnelDialFailed_refines env reason
  | tunnelPeerConnected q relayed =>
    cases relayed with
    | true => exact onRelayedConnection_refines
    | false => exact onDirectConnection_refines
  | holePunchAttemptFailed q attemptId reason => exact retryHolepunchAttempt_refines rfl
  | holePunchAttemptTimeout q attemptId => exact retryHolepunchAttempt_refines rfl
  | peerIdentified q addrs observed =>
    obtain ⟨oracle, horacle⟩ := s.updateAddressOracle_view env q addrs
    have hrefresh (session : HolePunchSession) : (session.refresh oracle).view =
        { session.view with dispatched := (session.refresh oracle).dialRetryDispatched } := rfl
    by_cases hp : p = q
    · subst hp
      refine (PeerStep.identified fun _ => ((s.holepunchSessions.get? p).map fun session =>
        (session.refresh oracle).dialRetryDispatched).getD false).of_eq ?_ rfl
      refine (horacle p).trans (PeerView.ext rfl rfl rfl rfl rfl ?_)
      cases hsession : s.holepunchSessions.get? p with
      | none => simp [view, FiniteMap.get?_modify, hsession]
      | some session => simp [view, FiniteMap.get?_modify, hsession, hrefresh]
    · refine refinesAt_of_frame (fun h => hp (Option.some.inj h).symm) ?_ rfl
      refine (horacle p).trans (view_congr rfl rfl Iff.rfl rfl Iff.rfl ?_)
      simp [FiniteMap.get?_modify, hp]
  | holePunchAttemptStarted q attemptId =>
    have hview := s.insert_session_view p q
      { attemptId := attemptId
        phase := .punching
        relayRedialAddrs := (s.addressOracle.getD q default).relayAddrs
        directSnapshot := (s.addressOracle.getD q default).directAddrs
        dialRetryDispatched := false }
    by_cases hp : p = q
    · subst hp
      rw [if_pos rfl] at hview
      exact PeerStep.started.of_eq hview rfl
    · rw [if_neg hp] at hview
      exact refinesAt_of_frame (fun h => hp (Option.some.inj h).symm) hview rfl
  | connectionLost q remaining =>
    simp only [transition]
    by_cases hremaining : remaining = 0
    · subst hremaining
      exact onFullyDisconnected_refines env
    · rw [if_neg hremaining]
      by_cases hp : p = q
      · subst hp
        exact PeerStep.lostOne hremaining
      · exact refinesAt_of_frame (fun h => hp (Option.some.inj h).symm) rfl rfl
  | phaseChanged old new =>
    cases new with
    | ready =>
      refine refinesAt_of_frame (by simp [Event.subject]) rfl (commandsFor_eq_nil fun c hc => ?_)
      simp only [transition, initiateLookups, List.mem_cons, List.mem_append, List.mem_map] at hc
      rcases hc with rfl | ⟨q, _, rfl⟩ | ⟨svc, _, rfl⟩ <;>
        simp [Command.target, Command.getProviders]
    | joining => exact refinesAt_of_frame (by simp [Event.subject]) rfl rfl
    | shuttingDown => exact refinesAt_of_frame (by simp [Event.subject]) rfl rfl
  | relayReservationAccepted relay =>
    refine refinesAt_of_frame (by simp [Event.subject]) rfl ?_
    simp [transition, commandsFor, Command.target]
  | dhtServiceFailed svc reason =>
    refine refinesAt_of_frame (by simp [Event.subject]) rfl ?_
    simp only [transition]
    split <;> simp [commandsFor, Command.target, Command.getProviders]
  | listeningOn addr => exact refinesAt_of_frame (by simp [Event.subject]) rfl rfl
  | bootstrapConnected q addr => exact refinesAt_of_frame (by simp [Event.subject]) rfl rfl
  | shutdownRequested => exact refinesAt_of_frame (by simp [Event.subject]) rfl rfl
  | kademliaBootstrapOk => exact refinesAt_of_frame (by simp [Event.subject]) rfl rfl
  | kademliaBootstrapFailed reason => exact refinesAt_of_frame (by simp [Event.subject]) rfl rfl
  | mdnsDiscovered peers => exact refinesAt_of_frame (by simp [Event.subject]) rfl rfl
  | mdnsExpired peers => exact refinesAt_of_frame (by simp [Event.subject]) rfl rfl
  | natStatusChanged status => exact refinesAt_of_frame (by simp [Event.subject]) rfl rfl
  | discoveryTimeout => exact refinesAt_of_frame (by simp [Event.subject]) rfl rfl
  | relayReservationFailed relay reason =>
    exact refinesAt_of_frame (by simp [Event.subject]) rfl rfl
  | noBootstrapPeers => exact refinesAt_of_frame (by simp [Event.subject]) rfl rfl
  | externalAddrConfirmed addr => exact refinesAt_of_frame (by simp [Event.subject]) rfl rfl
  | externalAddrExpired addr => exact refinesAt_of_frame (by simp [Event.subject]) rfl rfl
  | holePunchFailed q reason => exact refinesAt_of_frame (by simp [Event.subject]) rfl rfl

end TunnelState

end Punchgate
