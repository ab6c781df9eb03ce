import Punchgate.State.Redial

/-!
# How often failed dials are retried

A session allows one dial in answer to failed dials of its peer, and one more whenever newer
addresses replace what it keeps for a redial. Whether a dial is allowed is a credit of at
most one: an attempt and a change of snapshots grant it, the answer to a failed dial uses it.
-/

namespace Punchgate

/-- A command dials some peer, with or without addresses. -/
def Command.isDial : Command → Bool
  | .dialPeer _ | .dialPeerWithAddrs _ _ _ => true
  | _ => false

/-- The peer an event reports a new hole-punch attempt for. -/
def Event.startedAttempt : Event → Option PeerId
  | .holePunchAttemptStarted peer _ => some peer
  | _ => none

/-- The peer an event reports the addresses of. -/
def Event.identifiedPeer : Event → Option PeerId
  | .peerIdentified peer _ _ => some peer
  | _ => none

namespace TunnelState

/-- The dials that a step emits in response to a failed dial of a peer. -/
def retryDials (p : PeerId) (s : TunnelState) (i : Env × Event) : ℕ :=
  if i.2.failedDial = some p then (s.transition i.1 i.2).2.countP Command.isDial else 0

/-- New addresses of a peer change what its session keeps for a redial. -/
def ChangesSnapshots (p : PeerId) (s : TunnelState) (i : Env × Event) : Prop :=
  i.2.identifiedPeer = some p ∧ ∃ before ∈ s.holepunchSessions.get? p,
    ∃ after ∈ (s.transition i.1 i.2).1.holepunchSessions.get? p,
      after.relayRedialAddrs ≠ before.relayRedialAddrs ∨
        after.directSnapshot ≠ before.directSnapshot

instance (p : PeerId) (s : TunnelState) (i : Env × Event) : Decidable (s.ChangesSnapshots p i) :=
  inferInstanceAs (Decidable (_ ∧ _))

/-- The number of changes of snapshots in a step: none or one. -/
def snapshotChanges (p : PeerId) (s : TunnelState) (i : Env × Event) : ℕ :=
  if s.ChangesSnapshots p i then 1 else 0

end TunnelState

/-- The number of failed dials a session still allows an answer to. -/
def retryCredit : Option SessionView → ℕ
  | some session => if session.dispatched then 0 else 1
  | none => 0

theorem retryCredit_le_one (session : Option SessionView) : retryCredit session ≤ 1 := by
  cases session with
  | none => exact Nat.zero_le 1
  | some session =>
    simp only [retryCredit]
    split
    · exact Nat.zero_le 1
    · exact le_refl 1

/-! ## One step -/

section Step

variable {s : TunnelState} {p : PeerId} {e : Event} {v : PeerView} {cs : List Command}

/-- A session that keeps its addresses at an identify message keeps its flag as well. -/
theorem HolePunchSession.refresh_eq_self {session : HolePunchSession} {oracle : PeerAddressOracle}
    (hrelay : (session.refresh oracle).relayRedialAddrs = session.relayRedialAddrs)
    (hdirect : (session.refresh oracle).directSnapshot = session.directSnapshot) :
    session.refresh oracle = session := by
  obtain ⟨attemptId, phase, relay, direct, dispatched⟩ := session
  obtain ⟨oracleRelay, oracleDirect⟩ := oracle
  simp only [refresh] at hrelay hdirect ⊢
  -- each snapshot that is replaced differs from what replaces it
  have hkept (old new : List Multiaddr)
      (h : (if old.isEmpty && !new.isEmpty || !old.isEmpty && !new.isEmpty && old != new then new
        else old) = old) :
      (old.isEmpty && !new.isEmpty) = false ∧
        (!old.isEmpty && !new.isEmpty && old != new) = false := by
    by_cases hsame : old = new
    · subst hsame
      cases old <;> simp
    · cases old <;> cases new <;> simp_all
  obtain ⟨hbackRelay, hfreshRelay⟩ := hkept relay oracleRelay hrelay
  obtain ⟨hbackDirect, hfreshDirect⟩ := hkept direct oracleDirect hdirect
  simp [hbackRelay, hfreshRelay, hbackDirect, hfreshDirect]

/-- Only a new attempt and new addresses allow another answer. -/
theorem PeerStep.retryCredit_le (h : PeerStep s p e v cs) (hstart : e.startedAttempt ≠ some p)
    (hidentified : e.identifiedPeer ≠ some p) :
    retryCredit v.session ≤ retryCredit (s.view p).session := by
  have hroute (v : PeerView) (specs : List Intent) : (v.route p specs).1.session = v.session := by
    unfold PeerView.route
    split <;> rfl
  cases h with
  | resolvedConnected | lookedUpConnected => rw [hroute]
  | dialFailedRetried => exact Nat.zero_le _
  | identified => exact absurd rfl hidentified
  | started => exact absurd rfl hstart
  | direct | retriesExhausted | lostAwaiting | lost => exact Nat.zero_le _
  | retryScheduled _ hsession =>
    rw [hsession]
    exact le_refl _
  | lostRedial =>
    cases (s.view p).session with
    | none => exact le_refl _
    | some session => exact le_refl _
  | _ => exact le_refl _

end Step

namespace TunnelState

variable {s : TunnelState} {p : PeerId} {i : Env × Event}

/-- A failed dial is answered with at most one dial, which uses up what the session allows. -/
theorem retryDials_le (s : TunnelState) (env : Env) (p : PeerId) (reason : String) :
    (s.onTunnelDialFailed env p reason).2.countP Command.isDial +
        retryCredit ((s.onTunnelDialFailed env p reason).1.view p).session ≤
      retryCredit (s.view p).session := by
  rcases s.onTunnelDialFailed_cases env p reason with ⟨_, heq⟩ | ⟨_, _, _, _, _, heq⟩ |
    ⟨session, c, _, _, hsession, hsuppressed, _, heq⟩ | ⟨_, _, heq⟩
  · rw [heq]
    simp
  · rw [heq]
    simp
  · have hunused : session.dialRetryDispatched = false := by
      rw [← Bool.not_eq_true]
      exact fun hdispatched => hsuppressed (Or.inr hdispatched)
    rw [heq, insert_session_view, if_pos rfl, hsession]
    have hcount : [c].countP Command.isDial ≤ 1 := List.countP_le_length
    simpa [retryCredit, HolePunchSession.view, hunused] using hcount
  · have hnone : (s.rerouteSpecsAfterDialFailure env p).2.countP Command.isDial = 0 := by
      refine List.countP_eq_zero.mpr fun c hc => ?_
      rcases mem_rerouteSpecsAfterDialFailure_commands hc with ⟨_, rfl⟩ | ⟨_, rfl⟩
      · exact Bool.false_ne_true
      · exact Bool.false_ne_true
    have hview := (s.rerouteSpecsAfterDialFailure_view env p p).1 rfl
    rw [heq, hnone, hview, Nat.zero_add]

/-- Recording addresses refreshes the session of the peer. -/
theorem holepunchSessions_updateAddressOracle (env : Env) (s : TunnelState) (p : PeerId)
    (addrs : List Multiaddr) :
    ∃ oracle, (s.updateAddressOracle env p addrs).holepunchSessions =
      s.holepunchSessions.modify p fun session => session.refresh oracle := ⟨_, rfl⟩

/-- New addresses allow another answer only if they change what the session keeps. -/
theorem retryCredit_identified_le (env : Env) (s : TunnelState) (p : PeerId)
    (addrs : List Multiaddr) (observed : Multiaddr) :
    retryCredit ((s.updateAddressOracle env p addrs).view p).session ≤
      retryCredit (s.view p).session +
        s.snapshotChanges p (env, .peerIdentified p addrs observed) := by
  by_cases hchanges : s.ChangesSnapshots p (env, .peerIdentified p addrs observed)
  · rw [snapshotChanges, if_pos hchanges]
    exact (retryCredit_le_one _).trans (Nat.le_add_left 1 _)
  · have hview : ((s.updateAddressOracle env p addrs).view p).session = (s.view p).session := by
      obtain ⟨oracle, hsessions⟩ := s.holepunchSessions_updateAddressOracle env p addrs
      cases hget : s.holepunchSessions.get? p with
      | none => simp [view, hsessions, FiniteMap.get?_modify, hget]
      | some session =>
        have hafter : (s.updateAddressOracle env p addrs).holepunchSessions.get? p =
            some (session.refresh oracle) := by
          simp [hsessions, FiniteMap.get?_modify, hget]
        have hkept : session.refresh oracle = session := by
          refine HolePunchSession.refresh_eq_self ?_ ?_
          · by_contra hne
            exact hchanges ⟨rfl, session, hget, _, hafter, Or.inl hne⟩
          · by_contra hne
            exact hchanges ⟨rfl, session, hget, _, hafter, Or.inr hne⟩
        rw [view_session hget, view_session hafter, hkept]
    rw [hview]
    exact Nat.le_add_right _ _

/-- **Step.** A step that starts no attempt pays for its answers with what the session allowed
before it and with a change of its snapshots. -/
theorem retryDials_step (hstart : i.2.startedAttempt ≠ some p) :
    s.retryDials p i + retryCredit ((machine.step s i).1.view p).session ≤
      retryCredit (s.view p).session + s.snapshotChanges p i := by
  obtain ⟨env, e⟩ := i
  by_cases hfailed : e.failedDial = some p
  · cases e with
    | tunnelDialFailed q reason =>
      obtain rfl := Option.some.inj hfailed
      rw [retryDials, if_pos hfailed]
      exact (s.retryDials_le env q reason).trans (Nat.le_add_right _ _)
    | _ => cases hfailed
  · rw [retryDials, if_neg hfailed, Nat.zero_add]
    by_cases hidentified : e.identifiedPeer = some p
    · cases e with
      | peerIdentified q addrs observed =>
        obtain rfl := Option.some.inj hidentified
        exact s.retryCredit_identified_le env q addrs observed
      | _ => cases hidentified
    · exact ((s.transition_refines env p e).retryCredit_le hstart hidentified).trans
        (Nat.le_add_right _ _)

/-! ## Runs -/

/-- A run without a new attempt pays for its answers with one dial and the changes of its
snapshots. -/
theorem total_retryDials_le {inputs : List (Env × Event)}
    (hstart : machine.Guarded (fun _ i => i.2.startedAttempt ≠ some p) s inputs) :
    machine.total (retryDials p) s inputs ≤ 1 + machine.total (snapshotChanges p) s inputs := by
  have hpaid : machine.total (retryDials p) s inputs +
      retryCredit ((machine.after s inputs).view p).session ≤
      retryCredit (s.view p).session + machine.total (snapshotChanges p) s inputs :=
    hstart.total_le (fun s => retryCredit (s.view p).session) fun s i hi => retryDials_step hi
  have hone := retryCredit_le_one (s.view p).session
  omega

/-- Only failed dials of a peer are answered as such. -/
theorem failedDial_of_retryDials_pos (h : 0 < s.retryDials p i) : i.2.failedDial = some p := by
  by_contra hne
  rw [retryDials, if_neg hne] at h
  exact lt_irrefl 0 h

/-- A failed dial starts no attempt and changes no snapshots. -/
theorem quiet_of_failedDial (h : i.2.failedDial = some p) :
    ¬(i.2.startedAttempt = some p ∨ s.ChangesSnapshots p i) := by
  obtain ⟨env, e⟩ := i
  rintro (hstart | ⟨hidentified, _⟩)
  · cases e <;> simp_all [Event.failedDial, Event.startedAttempt]
  · cases e <;> simp_all [Event.failedDial, Event.identifiedPeer]

/-- **Retry dials are suppressed.** Between two dials in response to failed dials of a peer there is
a new attempt for the peer, or an identify message that changed the snapshots of its session. So a
part of a run without a new attempt, such as the life of one session, has at most one such dial, and
one more for every change. -/
theorem retry_dials_suppressed (p : PeerId) (s : TunnelState) (before : List (Env × Event)) :
    (∀ i between j, 0 < (machine.after s before).retryDials p i →
        0 < (machine.after s (before ++ i :: between)).retryDials p j →
        ∃ js k ks, between = js ++ k :: ks ∧
          (k.2.startedAttempt = some p ∨
            (machine.after s (before ++ i :: js)).ChangesSnapshots p k)) ∧
      ∀ part : List (Env × Event), (∀ i ∈ part, i.2.startedAttempt ≠ some p) →
        machine.total (retryDials p) (machine.after s before) part ≤
          1 + machine.total (snapshotChanges p) (machine.after s before) part := by
  constructor
  · intro i between j hi hj
    by_contra hnone
    have hrest : machine.Guarded
        (fun s k => ¬(k.2.startedAttempt = some p ∨ s.ChangesSnapshots p k))
        (machine.step (machine.after s before) i).1 between := by
      by_contra hnot
      obtain ⟨js, k, ks, rfl, hk⟩ := Mealy.Machine.exists_of_not_guarded hnot
      rw [← Mealy.Machine.after_cons, ← Mealy.Machine.after_append] at hk
      exact hnone ⟨js, k, ks, rfl, hk⟩
    have hquiet : machine.Guarded
        (fun s k => ¬(k.2.startedAttempt = some p ∨ s.ChangesSnapshots p k))
        (machine.after s before) (i :: between ++ [j]) := by
      refine Mealy.Machine.guarded_append.mpr ⟨⟨?_, hrest⟩, ?_, trivial⟩
      · exact quiet_of_failedDial (failedDial_of_retryDials_pos hi)
      · exact quiet_of_failedDial (failedDial_of_retryDials_pos hj)
    -- without either, the credit of one dial would pay for both answers
    have hpaid := total_retryDials_le (hquiet.mono fun _ _ hk hstart => hk (Or.inl hstart))
    have hnochange : machine.total (snapshotChanges p) (machine.after s before)
        (i :: between ++ [j]) = 0 :=
      (hquiet.mono fun _ _ hk => if_neg fun hchange => hk (Or.inr hchange)).total_eq_zero
    rw [hnochange, Mealy.Machine.total_append] at hpaid
    rw [Mealy.Machine.after_append] at hj
    simp only [Mealy.Machine.total] at hpaid
    omega
  · intro part hstart
    exact total_retryDials_le (.of_forall_mem fun i hi _ => hstart i hi)

/-- An attempt over a relayed connection. -/
def relayedAttempt : List (Env × Event) :=
  [(.sorted, .tunnelPeerConnected ⟨1⟩ true), (.sorted, .holePunchAttemptStarted ⟨1⟩ 1)]

/-- Two failed dials, a new address, and another failed dial. -/
def failuresAroundIdentify : List (Env × Event) :=
  let failure := (Env.sorted, Event.tunnelDialFailed ⟨1⟩ "timeout")
  let direct : Multiaddr := ⟨[.ip4 ⟨203, 0, 113, 2⟩, .udp 4001, .quicV1]⟩
  [failure, failure, (.sorted, .peerIdentified ⟨1⟩ [direct] direct), failure]

/-- The new address allows a second dial, and no more than that. -/
theorem retry_dials_suppressed_identify :
    let s := machine.after (configured [webTunnel]) relayedAttempt
    machine.total (retryDials ⟨1⟩) s failuresAroundIdentify = 2 ∧
      machine.total (retryDials ⟨1⟩) s failuresAroundIdentify ≤
        1 + machine.total (snapshotChanges ⟨1⟩) s failuresAroundIdentify :=
  ⟨by decide, (retry_dials_suppressed ⟨1⟩ (configured [webTunnel]) relayedAttempt).2
    failuresAroundIdentify (by decide)⟩

end TunnelState

end Punchgate
