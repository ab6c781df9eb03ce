import Punchgate.State.Refinement

/-!
# Waking the intents for a peer

Intents that are pending for a peer go on when a lookup of the peer completes, when a dial fails,
or when the peer connects. The tunnel machine itself sets up the next such event: whenever it
leaves intents pending after one of these, it has asked for a lookup or for a dial, or it has
left the failure of a dial to a hole punch that runs at the same time.
-/

namespace Punchgate

/-- The peer whose pending intents an event is to wake. -/
def Event.settles : Event → Option PeerId
  | .dhtPeerLookupComplete peer _ | .tunnelDialFailed peer _ | .tunnelPeerConnected peer _ =>
    some peer
  | _ => none

/-- The peer a command dials, and the addresses it names. -/
def Command.dialed : Command → Option (PeerId × List Multiaddr)
  | .dialPeer peer => some (peer, [])
  | .dialPeerWithAddrs peer addrs _ => some (peer, addrs)
  | _ => none

namespace TunnelState

/-- An event is answered with a dial for intents that are pending then. -/
inductive Redials (env : Env) (s : TunnelState) (p : PeerId) : Event → List Multiaddr → Prop
  /-- A lookup has found the peer unconnected. -/
  | lookedUp (hpending : s.pendingByPeer.contains p = true) :
      Redials env s p (.dhtPeerLookupComplete p false) []
  /-- A dial has failed during a hole punch and is retried. -/
  | dialFailed {reason session} (hpending : s.pendingByPeer.contains p = true)
      (hawaiting : s.awaitingHolepunch.contains p = true)
      (hreason : isPendingAbortDialError reason = false)
      (hsession : s.holepunchSessions.get? p = some session) (h : ¬session.view.Suppressed) :
      Redials env s p (.tunnelDialFailed p reason) (s.prioritizedRedialAddrs env p session)
  /-- The last connection is lost while intents wait for a direct one. -/
  | lost (hredial : p ∉ s.pendingRetryRedial)
      (hawaiting : s.awaitingHolepunch.contains p = true) :
      Redials env s p (.connectionLost p 0) []

/-- The failure of a dial is left to a hole punch although intents are pending. -/
inductive Ignores (s : TunnelState) (p : PeerId) : Event → Prop
  /-- The dial was aborted. -/
  | aborted {reason} (hpending : s.pendingByPeer.contains p = true)
      (hawaiting : s.awaitingHolepunch.contains p = true)
      (hreason : isPendingAbortDialError reason = true) : Ignores s p (.tunnelDialFailed p reason)
  /-- The hole punch has been given its retry, or waits for a disconnect. -/
  | suppressed {reason session} (hpending : s.pendingByPeer.contains p = true)
      (hawaiting : s.awaitingHolepunch.contains p = true)
      (hsession : s.holepunchSessions.get? p = some session) (h : session.view.Suppressed) :
      Ignores s p (.tunnelDialFailed p reason)

/-- Why intents are pending for a peer after an event: the peer is looked up, or dialed, or a
failure was left to a hole punch, or they were pending before an event that is not to wake
them. -/
inductive StillPending (env : Env) (s : TunnelState) (p : PeerId) (e : Event) (cs : List Command) :
    Prop
  /-- A lookup is asked for. -/
  | lookup (h : .dhtLookupPeer p ∈ cs)
  /-- A dial is asked for. -/
  | dial {c addrs} (h : s.Redials env p e addrs) (hc : c.dialed = some (p, addrs)) (hcs : cs = [c])
  /-- The failure of a dial is ignored. -/
  | ignored (h : s.Ignores p e)
  /-- The event is about something else. -/
  | untouched (hpending : s.pendingByPeer.contains p = true) (he : e.settles ≠ some p)

variable {env : Env} {s : TunnelState} {p : PeerId}

theorem dialed_redialCommand (env : Env) (s : TunnelState) (p : PeerId)
    (session : HolePunchSession) :
    (s.redialCommand env p session).dialed =
      some (p, s.prioritizedRedialAddrs env p session) := by
  unfold redialCommand
  split
  · rename_i hnil
    rw [hnil]
    rfl
  · rename_i hcons
    rw [hcons]
    rfl

/-- Intents of a resolved service wait for a provider that is looked up. -/
theorem stillPending_onDhtServiceResolved {svc : ServiceName}
    {providers : List (PeerId × Bool)}
    (h : (s.onDhtServiceResolved svc providers).1.pendingByPeer.contains p = true) :
    s.StillPending env p (.dhtServiceResolved svc providers)
      (s.onDhtServiceResolved svc providers).2 := by
  have hsettles : (Event.dhtServiceResolved svc providers).settles ≠ some p := by
    simp [Event.settles]
  have hstore (t : TunnelState) (ps : List PeerId) :
      (t.storeProviderCandidates svc ps).pendingByPeer = t.pendingByPeer := by
    unfold storeProviderCandidates
    split <;> rfl
  unfold onDhtServiceResolved at h ⊢
  split
  · rename_i hnone
    rw [hnone] at h
    exact .untouched h hsettles
  · rename_i binds hbinds
    rw [hbinds] at h
    split
    · rename_i hnil
      simp only [hnil] at h
      exact .untouched h hsettles
    · rename_i provider connected fallback hcons
      simp only [hcons] at h
      split
      · rename_i hconnected
        simp only [hconnected, if_true] at h
        refine .untouched ?_ hsettles
        unfold routeConnectedPeer queueForDirect at h
        split at h <;> simpa only [hstore] using h
      · rename_i hconnected
        simp only [hconnected] at h
        by_cases hp : p = provider
        · rw [hp]
          exact .lookup (List.mem_singleton_self _)
        · refine .untouched ?_ hsettles
          simpa [FiniteMap.contains, FiniteMap.get?_extend_of_ne _ _ hp, hstore] using h

/-- Rerouted intents wait for a provider that is looked up. -/
theorem pending_rerouteSpecsAfterDialFailure {q : PeerId}
    (h : (s.rerouteSpecsAfterDialFailure env q).1.pendingByPeer.contains p = true) :
    .dhtLookupPeer p ∈ (s.rerouteSpecsAfterDialFailure env q).2 ∨
      s.pendingByPeer.contains p = true ∧ p ≠ q := by
  cases hspecs : s.pendingByPeer.get? q with
  | none =>
    rw [rerouteSpecsAfterDialFailure_none hspecs] at h
    refine Or.inr ⟨h, ?_⟩
    rintro rfl
    rw [FiniteMap.contains, hspecs] at h
    cases h
  | some specs =>
    rw [rerouteSpecsAfterDialFailure_state hspecs] at h
    rw [rerouteSpecsAfterDialFailure_commands hspecs]
    cases hreassigned : (s.rerouteLoop q specs).reassignToPeer.get? p with
    | some reassigned =>
      left
      exact List.mem_append_left _
        (List.mem_map_of_mem (f := fun e => Command.dhtLookupPeer e.1)
          (FiniteMap.mem_entries.mpr hreassigned))
    | none =>
      right
      dsimp only at h
      rw [FiniteMap.contains, FiniteMap.get?_extendAll, hreassigned] at h
      dsimp only at h
      refine ⟨FiniteMap.contains_of_contains_erase h, ?_⟩
      rintro rfl
      rw [FiniteMap.get?_erase_self] at h
      cases h

/-- A failed dial that meets a running hole punch is answered with a dial. -/
theorem onTunnelDialFailed_retried {reason : String} {session : HolePunchSession}
    (hawaiting : s.awaitingHolepunch.contains p = true)
    (hreason : isPendingAbortDialError reason = false)
    (hsession : s.holepunchSessions.get? p = some session) (h : ¬session.view.Suppressed) :
    (s.onTunnelDialFailed env p reason).2 = [s.redialCommand env p session] := by
  have hphase : session.phase ≠ .waitingDisconnect := fun heq => h (Or.inl heq)
  have hdispatched : ¬session.dialRetryDispatched = true := fun heq => h (Or.inr heq)
  unfold onTunnelDialFailed
  simp only [hawaiting, hreason, hsession, Bool.not_true, Bool.false_and, Bool.and_false,
    Bool.false_eq_true, if_false, if_neg hphase, if_neg hdispatched]
  rfl

/-- After a failed dial, intents of the dialed peer are left to a hole punch or its retry. -/
theorem stillPending_onTunnelDialFailed {q : PeerId} {reason : String}
    (h : (s.onTunnelDialFailed env q reason).1.pendingByPeer.contains p = true) :
    s.StillPending env p (.tunnelDialFailed q reason) (s.onTunnelDialFailed env q reason).2 := by
  have hother (hpending : s.pendingByPeer.contains p = true) (hne : p ≠ q) :
      s.StillPending env p (.tunnelDialFailed q reason) (s.onTunnelDialFailed env q reason).2 :=
    .untouched hpending fun heq => hne (Option.some.inj heq).symm
  rcases s.onTunnelDialFailed_cases env q reason with ⟨hquiet, heq⟩ |
    ⟨session, hawaiting, hreason, hsession, hsuppressed, heq⟩ |
    ⟨session, c, hawaiting, hreason, hsession, hsuppressed, hc, heq⟩ | ⟨hintent, hbranch, heq⟩
  · rw [heq] at h
    by_cases hne : p = q
    · subst hne
      rcases hquiet with hnone | ⟨hawaiting, hreason⟩
      · have hpending : (s.view p).intent = true := by
          rw [PeerView.intent, Bool.or_eq_true]
          exact Or.inl h
        rw [hnone] at hpending
        cases hpending
      · exact .ignored (.aborted h hawaiting hreason)
    · exact hother h hne
  · rw [heq] at h
    by_cases hne : p = q
    · subst hne
      obtain ⟨session, hget, rfl⟩ := Option.map_eq_some_iff.mp hsession
      exact .ignored (.suppressed h hawaiting hget hsuppressed)
    · exact hother h hne
  · rw [heq] at h
    by_cases hne : p = q
    · subst hne
      obtain ⟨session', hget, hview⟩ := Option.map_eq_some_iff.mp hsession
      rw [← hview] at hsuppressed
      exact .dial (.dialFailed h hawaiting hreason hget hsuppressed)
        (dialed_redialCommand env s p session')
        (onTunnelDialFailed_retried hawaiting hreason hget hsuppressed)
    · exact hother h hne
  · have hcommands : (s.onTunnelDialFailed env q reason).2 =
        (s.rerouteSpecsAfterDialFailure env q).2 := congrArg Prod.snd heq
    rw [heq] at h
    rcases pending_rerouteSpecsAfterDialFailure h with hlookup | ⟨hpending, hne⟩
    · exact .lookup (hcommands ▸ hlookup)
    · exact hother hpending hne

/-- After the loss of a connection, intents go back to a peer that is dialed. -/
theorem stillPending_onFullyDisconnected {q : PeerId}
    (h : (s.onFullyDisconnected env q).1.pendingByPeer.contains p = true) :
    s.StillPending env p (.connectionLost q 0) (s.onFullyDisconnected env q).2 := by
  have hsettles : (Event.connectionLost q 0).settles ≠ some p := by simp [Event.settles]
  rcases s.onFullyDisconnected_cases env q with ⟨c, _, _, heq⟩ | ⟨specs, hredial, hawaiting, heq⟩ |
    ⟨_, _, heq⟩
  · rw [heq] at h
    exact .untouched h hsettles
  · by_cases hne : p = q
    · subst hne
      have hnot : p ∉ s.pendingRetryRedial := by simpa [view] using hredial
      exact .dial (.lost hnot (FiniteMap.contains_of_get? hawaiting)) rfl (congrArg Prod.snd heq)
    · rw [heq] at h
      refine .untouched ?_ hsettles
      simpa [FiniteMap.contains, FiniteMap.get?_extend_of_ne _ _ hne] using h
  · rw [heq] at h
    exact .untouched h hsettles

/-- Routing a connected peer leaves all pending intents alone. -/
theorem pendingByPeer_routeConnectedPeer (q : PeerId) (specs : List Intent) :
    (s.routeConnectedPeer q specs).1.pendingByPeer = s.pendingByPeer := by
  unfold routeConnectedPeer
  split <;> rfl

/-- **Pending intents are attended to.** Whenever intents are pending for a peer after an event,
the tunnel machine has asked for what is to wake them, or has left it to a hole punch. -/
theorem stillPending_transition {e : Event}
    (h : (s.transition env e).1.pendingByPeer.contains p = true) :
    s.StillPending env p e (s.transition env e).2 := by
  have herase {q : PeerId} (h : (s.pendingByPeer.erase q).contains p = true) :
      s.pendingByPeer.contains p = true ∧ some q ≠ some p := by
    refine ⟨FiniteMap.contains_of_contains_erase h, fun heq => ?_⟩
    rw [Option.some.inj heq, FiniteMap.contains, FiniteMap.get?_erase_self] at h
    cases h
  have hretry {q : PeerId} {attemptId : ℕ}
      (h : (s.retryHolepunchAttempt q attemptId).1.pendingByPeer.contains p = true) :
      s.pendingByPeer.contains p = true := by
    rcases s.retryHolepunchAttempt_cases q attemptId with ⟨_, heq⟩ | ⟨_, _, _, _, heq⟩ |
      ⟨_, _, _, _, _, heq⟩
    all_goals
      rw [heq] at h
      exact h
  cases e with
  | dhtServiceResolved svc providers => exact stillPending_onDhtServiceResolved h
  | tunnelDialFailed q reason => exact stillPending_onTunnelDialFailed h
  | connectionLost q remaining =>
    simp only [transition] at h ⊢
    split
    · rename_i hzero
      rw [if_pos hzero] at h
      rw [hzero]
      exact stillPending_onFullyDisconnected h
    · rename_i hzero
      rw [if_neg hzero] at h
      exact .untouched h (by simp [Event.settles])
  | dhtPeerLookupComplete q connected =>
    cases connected with
    | true =>
      simp only [transition] at h ⊢
      split
      · rename_i specs hspecs
        simp only [hspecs, pendingByPeer_routeConnectedPeer] at h
        exact .untouched (herase h).1 (herase h).2
      · rename_i hnone
        simp only [hnone] at h
        refine .untouched h fun heq => ?_
        rw [← Option.some.inj heq, FiniteMap.contains, hnone] at h
        cases h
    | false =>
      by_cases hne : p = q
      · subst hne
        exact .dial (.lookedUp h) rfl (if_pos h)
      · exact .untouched h fun heq => hne (Option.some.inj heq).symm
  | tunnelPeerConnected q relayed =>
    cases relayed with
    | true =>
      simp only [transition, onRelayedConnection] at h ⊢
      split
      · rename_i hnone
        simp only [hnone] at h
        refine .untouched h fun heq => ?_
        rw [← Option.some.inj heq, FiniteMap.contains, hnone] at h
        cases h
      · rename_i specs hspecs
        simp only [hspecs] at h
        exact .untouched (herase h).1 (herase h).2
    | false => exact .untouched (herase h).1 (herase h).2
  | holePunchAttemptFailed q attemptId reason =>
    exact .untouched (hretry h) (by simp [Event.settles])
  | holePunchAttemptTimeout q attemptId => exact .untouched (hretry h) (by simp [Event.settles])
  | phaseChanged old new => cases new <;> exact .untouched h (by simp [Event.settles])
  | _ => exact .untouched h (by simp [Event.settles])

end TunnelState

end Punchgate
